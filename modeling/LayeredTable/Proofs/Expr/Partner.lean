import LayeredTable.Proofs.Expr.Guard
import LayeredTable.Proofs.Ingest.Keyed

/-! What a scan reads of its right side: the values beside the rows of its left column, and nothing
else. So a column that shows one value beside all of them can be exchanged for that value. -/
namespace LayeredTable

theorem Operand.isNull_literal (v : Value) (type : FieldType) :
    (literal v type).isNull = v.isNull := by
  cases v <;> rfl

def Tree.ShowsValueAt (t : Tree) (c : Nat) (row : UInt32) (v : Value) : Prop :=
  ∃ id cell, (t.children c).get? id = some cell ∧ id.row = row ∧
    t.isHidden? c id = some false ∧ (t.nodes[cell]?).map (·.value) = some v

section Partners

variable {t : Tree} {a b : Nat} {op : BinaryOp} {row : UInt32} {v : Value} {type : FieldType}
  {p q : Partner} {s : Scan}

/-- A cell is found by the column's number and the row wherever it is known by them. -/
theorem Tree.ShowsValueAt.valueAt? (shows : t.ShowsValueAt b row v) (shape : t.Shape)
    (keyed : t.Keyed) (column : (Operand.column b).Rooted t) :
    (Partner.column b).valueAt? t row = some v := by
  obtain ⟨id, cell, entry, rfl, visible, value⟩ := shows
  obtain ⟨key, column⟩ := column
  obtain ⟨n, here, named, -⟩ := shape.child column
  obtain ⟨row, -, rfl⟩ := keyed key b column id (OrderedMap.mem_keys_of_get? entry)
  rw [CellId.row_of, Partner.valueAt?_column_iff]
  rw [← named] at entry visible
  exact ⟨n, here, visible, cell, entry, value⟩

/-- Whether two right sides have the same value beside each row of a column. -/
def Partner.Matches (t : Tree) (column : Nat) (p q : Partner) : Prop :=
  ∀ id ∈ (t.children column).keys, p.valueAt? t id.row = q.valueAt? t id.row

namespace Scan

/-- A scan goes through the same rows, with the same values and defects, beside a matching side. -/
theorem rows_congr (same : p.Matches t s.column s.partner) :
    rows { s with partner := p } t = rows s t := by
  refine List.map_congr_left fun entry member => ?_
  have beside := same entry.1 (List.mem_map.mpr ⟨entry, member, rfl⟩)
  have operands : operands? { s with partner := p } t (t.exclusions s.column) entry.1 entry.2 =
      s.operands? t (t.exclusions s.column) entry.1 entry.2 := by
    simp only [operands?, beside]
  simp only [row, operands]
  rfl

/-- A literal of a column's type stands on the right wherever the column can. -/
theorem resolve_literal (declared : (Operand.column b).type t = .ok type)
    (conforms : v.conformsTo type = true) (op : BinaryOp) (a : Nat) :
    resolve t op (.column a) (.literal v type) =
      (resolve t op (.column a) (.column b)).map fun s => { s with partner := .fixed v } := by
  have other : (Operand.literal v type).type t = .ok type := rfl
  rw [resolve_column, resolve_column, declared, other]
  cases (Operand.column a).type t with
  | error e => rfl
  | ok own =>
    simp only [mapError_of_ok, Except.bind]
    cases common : commonType op.allowed own type with
    | error e => rfl
    | ok shared =>
      obtain ⟨-, rfl, -⟩ := commonType_eq_ok_iff.mp common
      have fixed : Partner.ofOperand t type (.literal v type) = .ok (.fixed v) := by
        rw [Partner.ofOperand, Value.cast_of_conformsTo conforms]
        rfl
      simp only [mapError_of_ok, fixed, Partner.ofOperand_of_type declared]
      rfl

end Scan

/-- A column and a literal of its type evaluate alike on the right if the literal's value is the one
that the column has beside each row of the left column. -/
theorem Expr.evalBinary_literal (declared : (Operand.column b).type t = .ok type)
    (some : v.isNull = false) (conforms : v.conformsTo type = true)
    (same : (Partner.fixed v).Matches t a (.column b)) (policy : Policy) (op : BinaryOp) :
    evalBinary t policy op (.column a) (.literal v type) =
      evalBinary t policy op (.column a) (.column b) := by
  have plain : (Operand.literal v type).isNull = false := (Operand.isNull_literal v type).trans some
  have column : (Operand.column b).isNull = false := rfl
  rw [evalBinary_of_scan (BinaryOp.not_asksHidden plain),
    evalBinary_of_scan (BinaryOp.not_asksHidden column), Scan.resolve_literal declared conforms]
  cases resolved : Scan.resolve t op (.column a) (.column b) with
  | error e => rfl
  | ok s =>
    obtain ⟨-, -, -, -, partner, -, rfl⟩ := Scan.resolve_column_eq_ok_iff.mp resolved
    rw [← Partner.ofOperand_column partner] at same
    have rows := Scan.rows_congr same
    funext m
    simp only [Except.map, Scan.outcome, Scan.defects, Eval.ofExcept, pure_bind, rows]

end Partners

/-- A column that shows one value in every row of another column compares with it, is added to it
and is subtracted from it as the literal of that value does: with the same error, or with the same
rows, type and defects. -/
theorem Expr.eval_literal_eq_column {t : Tree} (ingested : t.Ingested) {a b : Nat}
    {type : FieldType} {v : Value} (column : (Operand.column b).Rooted t)
    (declared : (Operand.column b).type t = .ok type) (some : v.isNull = false)
    (conforms : v.conformsTo type = true)
    (shown : ∀ id ∈ (t.children a).keys, t.ShowsValueAt b id.row v) (op : BinaryOp)
    (c : EvalContext) :
    c.eval t (.binary op (.column a) (.column b)) =
      c.eval t (.binary op (.column a) (.literal v type)) := by
  have shape := ingested.reachable.sound.shape
  have same : (Partner.fixed v).Matches t a (.column b) := fun id child =>
    ((shown id child).valueAt? shape ingested.keyed column).symm
  rw [EvalContext.eval, EvalContext.eval, eval, eval,
    evalBinary_literal declared some conforms same]

def evenPartner : Tree :=
  let number : FieldType := .integer .int64
  (Ingest.fill {} [{ name := "A", type := number, nullable := { allowed := true } },
      { name := "B", type := number }]
    [[.int64 3, .int64 2], [.int64 1, .int64 2], [.null, .int64 2]]).tree

theorem Expr.eval_literal_eq_column_even :
    let two : Operand := .literal (.int64 2) (.integer .int64)
    (∀ (op : BinaryOp) (c : EvalContext), c.eval evenPartner (.binary op (.column 1) (.column 2)) =
      c.eval evenPartner (.binary op (.column 1) two)) ∧
    (EvalContext.eval {} evenPartner (.binary .gt (.column 1) two)).1.toOption.map
      (fun o => [1, 2, 3].map o.values.get?) =
        some [some (.bool true), some (.bool false), some (.bool false)] := by
  intro two
  have ingested : evenPartner.Ingested := Tree.ingested_fill _ _ _
  have column : (Operand.column 2).Rooted evenPartner := ⟨.header 2, by decide +kernel⟩
  have declared : (Operand.column 2).type evenPartner = .ok (.integer .int64) :=
    ok_of_toOption (by decide +kernel)
  have keys : (evenPartner.children 1).keys = [.of 1 1, .of 1 2, .of 1 3] := by decide +kernel
  have shown : ∀ id ∈ (evenPartner.children 1).keys,
      evenPartner.ShowsValueAt 2 id.row (.int64 2) := by
    rw [keys]
    intro id child
    simp only [List.mem_cons, List.not_mem_nil, or_false] at child
    rcases child with rfl | rfl | rfl
    · exact ⟨.of 2 1, 4, by decide +kernel⟩
    · exact ⟨.of 2 2, 6, by decide +kernel⟩
    · exact ⟨.of 2 3, 8, by decide +kernel⟩
  exact ⟨Expr.eval_literal_eq_column ingested column declared (by decide) (by decide) shown,
    by decide +kernel⟩

end LayeredTable
