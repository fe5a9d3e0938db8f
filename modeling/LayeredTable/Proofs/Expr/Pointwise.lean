import LayeredTable.Proofs.Expr.Steps
import LayeredTable.Proofs.Session.Table
import LayeredTable.Proofs.Tree.Exclusion

/-! Evaluation goes through maps of rows, and yet its result at a row is what the expression means
there. No row is lost on the way, and what stands for rows without an entry is always a boolean. -/
namespace LayeredTable

def Operand.Rooted (t : Tree) : Operand → Prop
  | column i => ∃ id, (t.children 0).get? id = some i
  | literal _ _ => True

/-- Expressions without choice over columns of the root and literals. -/
def Expr.Plain (t : Tree) : Expr → Prop
  | constant _ => True
  | binary _ left right => left.Rooted t ∧ right.Rooted t
  | not inner => inner.Plain t
  | logic _ left right => left.Plain t ∧ right.Plain t
  | choice _ _ _ => False

/-- A result that has the given value at every row from 1 to `last`, and no constant but a
boolean. -/
structure Outcome.Reads (o : Outcome) (last : UInt32) (meaning : UInt32 → Value) : Prop where
  value : ∀ row, 1 ≤ row → row ≤ last → o.values.get? row = some (meaning row)
  constant : ∀ v, o.values.constant = some v → ∃ b, v = .bool b

section Leaves

variable {t : Tree} {last : UInt32} {op : BinaryOp} {left right : Operand} {o : Outcome}
  {scan : Scan}

theorem hiddenCheck_reads (tabular : t.Tabular last) (rooted : left.Rooted t) {want : Bool}
    (done : hiddenCheck t op want left = .ok o) :
    o.Reads last fun row => .bool (left.hiddenAt t row == want) := by
  cases left with
  | literal v type => cases done
  | column i =>
    obtain ⟨id, column⟩ := rooted
    obtain ⟨n, here, named, -⟩ := tabular.sound.shape.child column
    simp only [hiddenCheck, Tree.node, here] at done
    cases done
    refine ⟨fun row atLeast atMost => ?_, fun v same => by simp [RowValues.ofList] at same⟩
    obtain ⟨cell, hidden, -, known⟩ := tabular.cell column atLeast atMost
    have shown : (Operand.column i).hiddenAt t row = hidden := by
      simp [Operand.hiddenAt, here, named, known]
    rw [shown]
    apply RowValues.get?_ofList
    · refine List.mem_map.mpr ⟨(.of id.column row, hidden), ?_, by rw [CellId.row_of]⟩
      exact OrderedMap.mem_entries_iff.mpr known
    · intro w member
      obtain ⟨⟨other, also⟩, entry, same⟩ := List.mem_map.mp member
      have there := OrderedMap.mem_entries_iff.mp entry
      have child := tabular.confined.mem_of_hiddenMap (OrderedMap.mem_keys_of_get? there)
      have key := tabular.eq_of_row column child
      simp only [Prod.mk.injEq] at same
      rw [same.1] at key
      rw [key] at there
      rw [Tree.isHidden?, there] at known
      cases known
      exact same.2.symm

/-- What a scan makes of a cell is what its operator means at the cell's row. -/
theorem Scan.row_meaning (tabular : t.Tabular last)
    (done : Scan.resolve t op left right = .ok scan) {id : CellId}
    (column : (t.children 0).get? id = some scan.column) {row : UInt32} {cell : Nat}
    (entry : (t.children scan.column).get? (.of id.column row) = some cell) :
    (scan.row t (t.exclusions scan.column) (.of id.column row, cell)).1 =
      (row, op.meaning t left right row) := by
  obtain ⟨i, n, rfl, here, rfl, rfl, type, -, partner⟩ := resolve_ok done
  obtain ⟨m, there, named, -⟩ := tabular.sound.shape.child column
  rw [here] at there
  cases there
  obtain ⟨value, content, -⟩ := tabular.sound.shape.child entry
  have inside := (tabular.sound.shape.lt_child column).2
  have beside := Partner.valueAt?_ofOperand partner row
  have declared : ((Operand.column scan.column).type t).toOption.getD .unknown = scan.type := by
    simp [Operand.type, Tree.node, here, Except.map, Except.toOption, type]
  have own : (Operand.column scan.column).shown? t scan.type row =
      if (t.isHidden? scan.column (.of id.column row)).getD true then none
      else some value.value := by
    simp [Operand.shown?, Partner.valueAt?, here, named, Tree.findById, entry, content]
  rw [← type] at beside
  rw [BinaryOp.meaning, declared, own, ← beside, Tree.exclusions_eq tabular.sound.shape inside]
  simp only [Scan.row, Scan.operands?, CellId.row_of, content]
  by_cases excluded : (t.exclusions 0).contains row = true
  · simp [excluded]
  · by_cases hidden : (t.isHidden? scan.column (.of id.column row)).getD true = true
    · simp [excluded, hidden]
    · cases scan.partner.valueAt? t row with
      | none => simp [excluded, hidden]
      | some other =>
        have combined := Scan.combine_fst scan value.value other
        simp [excluded, hidden, combined]

theorem Scan.outcome_reads (tabular : t.Tabular last) (rooted : left.Rooted t)
    (done : Scan.resolve t op left right = .ok scan) :
    (scan.outcome t).Reads last (op.meaning t left right) := by
  obtain ⟨i, n, rfl, -, -, rfl, -⟩ := resolve_ok done
  obtain ⟨id, column⟩ := rooted
  refine ⟨fun row atLeast atMost => ?_, fun v same => by
    simp [Scan.outcome, RowValues.ofList] at same⟩
  obtain ⟨cell, hidden, entry, -⟩ := tabular.cell column atLeast atMost
  have rows : (scan.rows t).map (·.1) = (t.children scan.column).entries.map fun entry =>
      (scan.row t (t.exclusions scan.column) entry).1 := by
    rw [Scan.rows, List.map_map, Function.comp_def]
  rw [Scan.outcome, rows]
  apply RowValues.get?_ofList
  · refine List.mem_map.mpr ⟨(.of id.column row, cell), OrderedMap.mem_entries_iff.mpr entry, ?_⟩
    exact row_meaning tabular done column entry
  · intro w member
    obtain ⟨⟨key, c⟩, listed, same⟩ := List.mem_map.mp member
    have there := OrderedMap.mem_entries_iff.mp listed
    have child := OrderedMap.mem_keys_of_get? there
    have shape := tabular.eq_of_row column child
    rw [shape] at there
    rw [shape, row_meaning tabular done column there, Prod.mk.injEq] at same
    rw [← same.1, same.2]

def BinaryOp.AsksHidden (op : BinaryOp) (right : Operand) : Prop :=
  (op = .eq ∨ op = .ne) ∧ right.isNull = true

theorem evalBinary_of_scan {policy : Policy} (scans : ¬ op.AsksHidden right) :
    Expr.evalBinary t policy op left right =
      Eval.ofExcept id (Scan.resolve t op left right) >>= fun scan => do
        Eval.recordRows policy (scan.defects t)
        return scan.outcome t := by
  rw [Expr.evalBinary]
  · rintro rfl null
    exact scans ⟨.inl rfl, null⟩
  · rintro rfl null
    exact scans ⟨.inr rfl, null⟩

theorem meaning_of_scan (scans : ¬ op.AsksHidden right) (row : UInt32) :
    (Expr.binary op left right).meaning t row = op.meaning t left right row := by
  rw [Expr.meaning]
  · rintro rfl null
    exact scans ⟨.inl rfl, null⟩
  · rintro rfl null
    exact scans ⟨.inr rfl, null⟩

theorem evalBinary_reads (tabular : t.Tabular last) (rooted : left.Rooted t) {policy : Policy}
    {s m : EvalState} (done : Expr.evalBinary t policy op left right s = .ok o m) :
    o.Reads last fun row => (Expr.binary op left right).meaning t row := by
  by_cases asks : op.AsksHidden right
  · rcases asks with ⟨rfl | rfl, null⟩
    · simp only [Expr.evalBinary, null] at done
      have reads := hiddenCheck_reads tabular rooted (Eval.ofExcept_ok done)
      simpa [Expr.meaning, null] using reads
    · simp only [Expr.evalBinary, null] at done
      have reads := hiddenCheck_reads tabular rooted (Eval.ofExcept_ok done)
      simpa [Expr.meaning, null] using reads
  · rw [evalBinary_of_scan asks] at done
    obtain ⟨scan, k, resolved, done⟩ := bind_ok done
    obtain ⟨-, k, -, done⟩ := bind_ok done
    cases done
    simp only [meaning_of_scan asks]
    exact Scan.outcome_reads tabular rooted (Eval.ofExcept_ok resolved)

end Leaves

namespace Outcome

variable {o l r : Outcome} {last : UInt32} {before meaning other : UInt32 → Value}

theorem ofBool_reads (b : Bool) (last : UInt32) : (ofBool b).Reads last fun _ => .bool b :=
  ⟨fun _ _ _ => rfl, fun v same => ⟨b, by simpa [ofBool, RowValues.ofConstant, eq_comm] using same⟩⟩

theorem Reads.negate (reads : o.Reads last before)
    (flipped : ∀ row, meaning row =
      match before row with
      | .bool b => .bool (!b)
      | v => v) : o.negate.Reads last meaning := by
  constructor
  · intro row atLeast atMost
    rw [Outcome.negate, RowValues.get?_map, reads.value row atLeast atMost, flipped]
    rfl
  · intro v same
    obtain ⟨w, constant, rfl⟩ := Option.map_eq_some_iff.mp same
    obtain ⟨b, rfl⟩ := reads.constant w constant
    exact ⟨!b, rfl⟩

/-- At rows that neither side has an entry for, both have a boolean constant. -/
theorem Reads.constant_of_absent (reads : o.Reads last meaning) {row : UInt32}
    (atLeast : 1 ≤ row) (atMost : row ≤ last) (absent : row ∉ o.values.rows.keys) :
    ∃ b, meaning row = .bool b ∧ o.values.constant = some (.bool b) := by
  have value := reads.value row atLeast atMost
  rw [RowValues.get?_of_absent absent] at value
  obtain ⟨b, same⟩ := reads.constant _ value
  exact ⟨b, same, by rw [value, same]⟩

theorem Reads.boolAt (reads : o.Reads last meaning) {row : UInt32} (atLeast : 1 ≤ row)
    (atMost : row ≤ last) : (o.values.boolAt? row).getD false = (meaning row == .bool true) := by
  rw [RowValues.boolAt?, reads.value row atLeast atMost, Option.bind_some, Value.asBool?_getD]

/-- No row is lost in a join: those without an entry are covered by the joined constant. -/
theorem Reads.join (left : l.Reads last meaning) (right : r.Reads last other) (op : Logic)
    (excluded : Exclusions) : (join op excluded l r).Reads last fun row =>
      .bool (!excluded.contains row &&
        op.combine (meaning row == .bool true) (other row == .bool true)) := by
  constructor
  · intro row atLeast atMost
    rw [Outcome.join, RowValues.get?_tabulate]
    simp only [left.boolAt atLeast atMost, right.boolAt atLeast atMost]
    split
    · rfl
    · rename_i absent
      simp only [List.mem_append, List.mem_filter, not_or, decide_eq_true_eq] at absent
      obtain ⟨⟨absentLeft, absentRight⟩, kept⟩ := absent
      obtain ⟨a, ma, ca⟩ := left.constant_of_absent atLeast atMost absentLeft
      obtain ⟨b, mb, cb⟩ := right.constant_of_absent atLeast atMost absentRight
      have counts : excluded.contains row = false := by
        rw [← Bool.not_eq_true, Exclusions.contains, OrderedMap.contains_iff_mem_keys]
        exact fun listed => kept ⟨listed, atLeast⟩
      rw [ca, cb, ma, mb, counts]
      cases a <;> cases b <;> rfl
  · intro v same
    simp only [Outcome.join] at same
    obtain ⟨a, -, same⟩ := Option.bind_eq_some_iff.mp same
    obtain ⟨b, -, same⟩ := Option.bind_eq_some_iff.mp same
    exact ⟨_, (Option.some.inj same).symm⟩

end Outcome

/-- The result of an expression without choice, whenever there is one, has the expression's
meaning at every row. -/
theorem Expr.eval_reads {t : Tree} {last : UInt32} (tabular : t.Tabular last) {e : Expr}
    (plain : e.Plain t) {policy : Policy} {s m : EvalState} {o : Outcome}
    (done : e.eval t policy s = .ok o m) : o.Reads last fun row => e.meaning t row := by
  induction e generalizing s m o with
  | constant b =>
    obtain ⟨-, k, -, done⟩ := bind_ok done
    cases done
    exact Outcome.ofBool_reads b last
  | binary op left right =>
    obtain ⟨-, k, -, done⟩ := bind_ok done
    exact evalBinary_reads tabular plain.1 done
  | not inner ih =>
    obtain ⟨-, k, -, done⟩ := bind_ok done
    obtain ⟨a, k, first, done⟩ := bind_ok done
    obtain ⟨-, k, -, done⟩ := bind_ok done
    cases done
    exact (ih plain first).negate fun _ => rfl
  | logic op left right ihLeft ihRight =>
    obtain ⟨-, k, -, done⟩ := bind_ok done
    obtain ⟨⟨l, r⟩, k, both, done⟩ := bind_ok done
    obtain ⟨k', first, second⟩ := Eval.both_ok both
    obtain ⟨-, k, -, done⟩ := bind_ok done
    obtain ⟨-, k, -, done⟩ := bind_ok done
    cases done
    exact (ihLeft plain.1 first).join (ihRight plain.2 second) op (t.exclusions 0)
  | choice cond whenTrue otherwise => exact plain.elim

/-- In a table, whatever is shown or hidden of it, evaluation is row by row. -/
theorem Expr.eval_eq_meaning {t : Tree} {last : UInt32} (table : t.Table last) {e : Expr}
    (plain : e.Plain t) {policy : Policy} {s m : EvalState} {o : Outcome}
    (done : e.eval t policy s = .ok o m) {row : UInt32} (atLeast : 1 ≤ row) (atMost : row ≤ last) :
    o.values.get? row = some (e.meaning t row) :=
  (eval_reads table.tabular plain done).value row atLeast atMost

theorem Expr.eval_eq_meaning_not_or :
    let t := (Ingest.fill {} [{ name := "a", type := .bool, nullable := { allowed := true } }]
      [[.bool true], [.null], [.bool false]]).tree
    let e : Expr := .logic .or (.constant false)
      (.not (.binary .eq (.column 1) (.ofValue (.bool true))))
    ∃ o m, e.eval t {} {} = .ok o m ∧ o.values.get? 1 = some (.bool false) ∧
      o.values.get? 2 = some (.bool true) ∧ o.values.get? 3 = some (.bool true) := by
  intro t e
  have table : t.Table 3 := ⟨{}, [{ name := "a", type := .bool, nullable := { allowed := true } }],
    [[.bool true], [.null], [.bool false]], .start t, by decide +kernel, .refl, rfl⟩
  have plain : e.Plain t := ⟨trivial, ⟨.header 1, by decide +kernel⟩, trivial⟩
  have ends : ((e.eval t {}).run' {}).isSome = true := by decide +kernel
  obtain ⟨o, ends⟩ := Option.isSome_iff_exists.mp ends
  obtain ⟨m, result⟩ := exists_ok ends
  have first : o.values.get? 1 = some (e.meaning t 1) :=
    Expr.eval_eq_meaning table plain result (by decide) (by decide)
  have second : o.values.get? 2 = some (e.meaning t 2) :=
    Expr.eval_eq_meaning table plain result (by decide) (by decide)
  have third : o.values.get? 3 = some (e.meaning t 3) :=
    Expr.eval_eq_meaning table plain result (by decide) (by decide)
  refine ⟨o, m, result, first.trans ?_, second.trans ?_, third.trans ?_⟩ <;> decide +kernel

end LayeredTable
