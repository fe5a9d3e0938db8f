import LayeredTable.Proofs.Expr.Degraded
import LayeredTable.Proofs.Value.Order

/-! The six comparisons among each other. How the two values of a row stand to each other is one map
over the rows, which does not depend on the operator; each comparison reads it in its own way.
Exchanging the sides turns the order of the values around and changes nothing else. -/
namespace LayeredTable

namespace Value

/-- How two values stand to each other under a declared type: not at all unless both conform to it,
and in no order if one of them is not a number. -/
def standing (type : FieldType) (a b : Value) : Option (Option Ordering) :=
  if a.conformsTo type && b.conformsTo type then (a.order b).toOption else none

theorem standing_swap (type : FieldType) (a b : Value) :
    b.standing type a = (a.standing type b).map (Option.map Ordering.swap) := by
  rw [standing, standing, Bool.and_comm, order_swap]
  split <;> rfl

end Value

namespace BinaryOp

variable {op : BinaryOp}

/-- What a comparison says of two values: null if they do not stand to each other, and otherwise
whether it holds of their order. -/
def reads (op : BinaryOp) : Option (Option Ordering) → Value
  | none => .null
  | some order => .bool (op.holds order)

def swap : BinaryOp → BinaryOp
  | lt => gt
  | gt => lt
  | ge => le
  | le => ge
  | op => op

@[simp] theorem isComparison_swap (op : BinaryOp) : op.swap.isComparison = op.isComparison := by
  cases op <;> rfl

@[simp] theorem allowed_swap (op : BinaryOp) : op.swap.allowed = op.allowed := by
  cases op <;> rfl

theorem holds_swap (op : BinaryOp) (order : Option Ordering) :
    op.swap.holds (order.map Ordering.swap) = op.holds order := by
  cases order with
  | none => cases op <;> rfl
  | some o => cases op <;> cases o <;> rfl

theorem reads_swap (op : BinaryOp) (stand : Option (Option Ordering)) :
    op.swap.reads (stand.map (Option.map Ordering.swap)) = op.reads stand := by
  cases stand with
  | none => rfl
  | some order => exact congrArg Value.bool (op.holds_swap order)

/-- What can be ordered can be compared in every way. -/
theorem allowed_of_ordered (comparison : op.isComparison = true) {type : FieldType}
    (ordered : type ∈ lt.allowed) : type ∈ op.allowed := by
  cases op with
  | eq | ne => exact List.mem_append_left _ ordered
  | add | subtract => cases comparison
  | _ => exact ordered

end BinaryOp

/-- Whether the six comparisons agree at a row: all are null, all are false, or exactly one of less,
equal and greater is true and the other three follow from these. -/
def Agree (value : BinaryOp → Option Value) : Prop :=
  (∀ op : BinaryOp, op.isComparison = true → value op = some .null) ∨
  (∀ op : BinaryOp, op.isComparison = true → value op = some (.bool false)) ∨
  ∃ less equal greater : Bool, [less, equal, greater].count true = 1 ∧
    value .lt = some (.bool less) ∧ value .eq = some (.bool equal) ∧
    value .gt = some (.bool greater) ∧ value .le = some (.bool (less || equal)) ∧
    value .ge = some (.bool (greater || equal)) ∧ value .ne = some (.bool (less || greater))

/-- Comparisons that read one standing agree. -/
theorem agree_of_reads {value : BinaryOp → Option Value} (stand : Option (Option Ordering))
    (read : ∀ op : BinaryOp, op.isComparison = true → value op = some (op.reads stand)) :
    Agree value := by
  rcases stand with - | - | order
  · exact .inl read
  · refine .inr (.inl fun op comparison => ?_)
    rw [read op comparison]
    cases op <;> rfl
  · refine .inr (.inr ⟨order == .lt, order == .eq, order == .gt, ?_, ?_⟩)
    · cases order <;> rfl
    · refine ⟨?_, ?_, ?_, ?_, ?_, ?_⟩ <;> rw [read _ rfl] <;> cases order <;> rfl

namespace Scan

variable {t : Tree} {s : Scan} {op : BinaryOp} {left right : Operand}

def standing (s : Scan) (t : Tree) (excluded : Exclusions) (entry : CellId × Nat) :
    Option (Option Ordering) :=
  match s.operands? t excluded entry.1 entry.2 with
  | none => some none
  | some (a, b) => a.standing s.type b

def standings (s : Scan) (t : Tree) : OrderedMap UInt32 (Option (Option Ordering)) :=
  .ofList ((t.children s.column).entries.map fun entry =>
    (entry.1.row, s.standing t (t.exclusions s.column) entry))

theorem combine_eq_reads (comparison : s.op.isComparison = true) (a b : Value) :
    (s.combine a b).1 = s.op.reads (a.standing s.type b) := by
  rw [combine_fst, BinaryOp.apply_comparison comparison, Value.standing]
  split
  · cases a.order b <;> rfl
  · rfl

theorem row_eq_reads (comparison : s.op.isComparison = true) (excluded : Exclusions)
    (entry : CellId × Nat) : (s.row t excluded entry).1 =
      (entry.1.row, s.op.reads (s.standing t excluded entry)) := by
  rw [row, standing]
  cases s.operands? t excluded entry.1 entry.2 with
  | none =>
    have skipped : s.op.skipped = s.op.reads (some none) := by
      rw [BinaryOp.skipped, if_pos comparison]
      cases s.op <;> rfl
    rw [skipped]
  | some operands => exact congrArg (Prod.mk entry.1.row) (combine_eq_reads comparison _ _)

/-- A comparison is a reading of the standings, which are the same for all of them. -/
theorem outcome_eq_reads (comparison : s.op.isComparison = true) :
    s.outcome t = ⟨{ rows := (s.standings t).map s.op.reads }, .bool⟩ := by
  have rows : (s.rows t).map (·.1) = (t.children s.column).entries.map fun entry =>
      (entry.1.row, s.op.reads (s.standing t (t.exclusions s.column) entry)) := by
    rw [Scan.rows, List.map_map]
    exact List.map_congr_left fun entry _ => row_eq_reads comparison _ entry
  have type : s.op.resultType s.type = .bool := by rw [BinaryOp.resultType, if_pos comparison]
  rw [outcome, rows, type, standings, OrderedMap.map_ofList, List.map_map]
  rfl

/-- Where one side is less than the other can be asked, so can all else. -/
theorem resolve_of_ordered (resolved : resolve t .lt left right = .ok s)
    (comparison : op.isComparison = true) :
    resolve t op left right = .ok { s with op } := by
  cases left with
  | literal v type => cases resolved
  | column i =>
    obtain ⟨own, other, known, ordered, partner, -, column⟩ :=
      resolve_column_eq_ok_iff.mp resolved
    exact resolve_column_eq_ok_iff.mpr ⟨own, other, known,
      BinaryOp.allowed_of_ordered comparison ordered, partner, rfl, column⟩

end Scan

/-! Two columns, taken in either order. -/

section Exchange

variable {t : Tree} {i j c d : Nat} {op : BinaryOp} {id id' key : CellId} {row : UInt32}
  {a b : Value} {type : FieldType} {s s' : Scan}

/-- Columns meet at a row whichever of them is on the left. -/
theorem Operand.Meets.exchange (declared : (column j).type t = .ok type)
    (meets : (column i).Meets t (column j) row a b) :
    (column j).Meets t (column i) row b a := by
  obtain ⟨kept, _, _, own, other⟩ := meets
  exact ⟨kept, type, declared, other, own⟩

namespace Scan

theorem resolve_swap (resolved : resolve t op (.column i) (.column j) = .ok s) :
    resolve t op.swap (.column j) (.column i) = .ok ⟨op.swap, j, .column i, s.type⟩ := by
  obtain ⟨own, other, known, allowed, -, -, -⟩ := resolve_column_eq_ok_iff.mp resolved
  rw [← BinaryOp.allowed_swap] at allowed
  exact resolve_column_eq_ok_iff.mpr
    ⟨other, own, known, allowed, Partner.ofOperand_of_type own, rfl, rfl⟩

/-- The operands of a column's only cell in a row are the values that meet there. -/
theorem operands?_eq_some_iff_meets {left right : Operand} (shape : t.Shape) (keyed : t.Keyed)
    (resolved : resolve t op left right = .ok s)
    (column : (t.children 0).get? key = some s.column)
    (entry : (t.children s.column).get? id = some c) :
    s.operands? t (t.exclusions s.column) id c = some (a, b) ↔ left.Meets t right id.row a b := by
  rw [meets_iff shape keyed resolved column]
  constructor
  · exact fun found => ⟨id, c, entry, rfl, found⟩
  · rintro ⟨other, d, there, same, found⟩
    obtain rfl := keyed.eq_of_row column (OrderedMap.mem_keys_of_get? entry)
      (OrderedMap.mem_keys_of_get? there) same
    rw [entry] at there
    cases there
    exact found

theorem get?_standings (keyed : t.Keyed) (column : (t.children 0).get? key = some s.column)
    (entry : (t.children s.column).get? id = some c) :
    (s.standings t).get? id.row = some (s.standing t (t.exclusions s.column) (id, c)) := by
  rw [standings, OrderedMap.get?_ofList_eq_some_iff]
  · exact List.mem_map.mpr ⟨(id, c), OrderedMap.mem_entries_iff.mpr entry, rfl⟩
  · intro row stand stand' listed listed'
    obtain ⟨⟨k, d⟩, member, same⟩ := List.mem_map.mp listed
    obtain ⟨⟨k', d'⟩, member', same'⟩ := List.mem_map.mp listed'
    cases same
    obtain ⟨rows, rfl⟩ := Prod.mk.inj same'
    have here := OrderedMap.mem_entries_iff.mp member
    have there := OrderedMap.mem_entries_iff.mp member'
    obtain rfl := keyed.eq_of_row column (OrderedMap.mem_keys_of_get? here)
      (OrderedMap.mem_keys_of_get? there) rows
    rw [here] at there
    cases there
    rfl

theorem get?_outcome (keyed : t.Keyed) (comparison : s.op.isComparison = true)
    (column : (t.children 0).get? key = some s.column)
    (entry : (t.children s.column).get? id = some c) :
    (s.outcome t).values.get? id.row =
      some (s.op.reads (s.standing t (t.exclusions s.column) (id, c))) := by
  rw [outcome_eq_reads comparison, RowValues.get?, OrderedMap.get?_map,
    get?_standings keyed column entry]
  rfl

/-- In a row of both columns the values stand to each other the other way round. -/
theorem standing_exchange (shape : t.Shape) (keyed : t.Keyed)
    (resolved : resolve t op (.column i) (.column j) = .ok s)
    (resolved' : resolve t op.swap (.column j) (.column i) = .ok s')
    (column : (Operand.column i).Rooted t) (column' : (Operand.column j).Rooted t)
    (entry : (t.children i).get? id = some c) (entry' : (t.children j).get? id' = some d)
    (same : id'.row = id.row) :
    s'.standing t (t.exclusions s'.column) (id', d) =
      (s.standing t (t.exclusions s.column) (id, c)).map (Option.map Ordering.swap) := by
  obtain ⟨own, other, -, -, -, -, rfl⟩ := resolve_column_eq_ok_iff.mp resolved
  obtain ⟨other', own', -, -, -, -, rfl⟩ := resolve_column_eq_ok_iff.mp resolved'
  obtain ⟨key, column⟩ := column
  obtain ⟨key', column'⟩ := column'
  have turned : s'.operands? t (t.exclusions s'.column) id' d =
      (s.operands? t (t.exclusions s.column) id c).map Prod.swap := by
    refine Option.ext fun (y, x) => ?_
    rw [operands?_eq_some_iff_meets shape keyed resolved' column' entry', same]
    constructor
    · intro meets
      have found := (operands?_eq_some_iff_meets shape keyed resolved column entry).mpr
        (meets.exchange own)
      rw [found]
      rfl
    · intro exchanged
      obtain ⟨⟨_, _⟩, found, pair⟩ := Option.map_eq_some_iff.mp exchanged
      cases pair
      exact ((operands?_eq_some_iff_meets shape keyed resolved column entry).mp found).exchange
        other
  have type : s'.type = s.type := Except.ok.inj (own'.symm.trans own)
  rw [standing, standing, turned, type]
  cases s.operands? t (t.exclusions s.column) id c with
  | none => rfl
  | some operands => exact Value.standing_swap s.type operands.1 operands.2

/-- In a row of both columns the exchanged comparison has the same value. -/
theorem get?_outcome_exchange (shape : t.Shape) (keyed : t.Keyed)
    (comparison : op.isComparison = true)
    (resolved : resolve t op (.column i) (.column j) = .ok s)
    (resolved' : resolve t op.swap (.column j) (.column i) = .ok s')
    (column : (Operand.column i).Rooted t) (column' : (Operand.column j).Rooted t)
    (entry : (t.children i).get? id = some c) (entry' : (t.children j).get? id' = some d)
    (same : id'.row = id.row) :
    ∃ v, (s.outcome t).values.get? id.row = some v ∧
      (s'.outcome t).values.get? id.row = some v := by
  have turned := standing_exchange shape keyed resolved resolved' column column' entry entry' same
  obtain ⟨-, -, -, -, -, rfl, rfl⟩ := resolve_column_eq_ok_iff.mp resolved
  obtain ⟨-, -, -, -, -, operator, rfl⟩ := resolve_column_eq_ok_iff.mp resolved'
  obtain ⟨key, column⟩ := column
  obtain ⟨key', column'⟩ := column'
  refine ⟨_, get?_outcome keyed comparison column entry, ?_⟩
  rw [← same, get?_outcome keyed (by rw [operator, BinaryOp.isComparison_swap, comparison])
    column' entry', turned, operator, BinaryOp.reads_swap]

end Scan

end Exchange

/-- All comparisons of two sides succeed wherever one by "less" does, with entries for the same
rows, and agree at each of them. Comparisons of two columns of an ingested table say the same as the
exchanged ones in every row in which both columns have a cell. -/
theorem Expr.comparisons_agree :
    (∀ (t : Tree) (c : EvalContext) (left right : Operand) (o : Outcome), right.isNull = false →
      (c.eval t (.binary .lt left right)).1 = .ok o →
      c.Live ∧ ∃ outcome : BinaryOp → Outcome,
        (∀ op : BinaryOp, op.isComparison = true →
          (∀ d : EvalContext, d.Live → (d.eval t (.binary op left right)).1 = .ok (outcome op)) ∧
          (outcome op).type = .bool ∧ (outcome op).values.constant = none ∧
          (outcome op).values.rows.keys = o.values.rows.keys) ∧
        ∀ row ∈ o.values.rows.keys, Agree fun op => (outcome op).values.get? row) ∧
    ∀ t : Tree, t.Ingested → ∀ (c : EvalContext) (op : BinaryOp) (i j : Nat) (o : Outcome),
      op.isComparison = true → (Operand.column i).Rooted t → (Operand.column j).Rooted t →
      (c.eval t (.binary op (.column i) (.column j))).1 = .ok o →
      ∃ o', (∀ d : EvalContext, d.Live →
          (d.eval t (.binary op.swap (.column j) (.column i))).1 = .ok o') ∧
        ∀ id ∈ (t.children i).keys, ∀ id' ∈ (t.children j).keys, id'.row = id.row →
          ∃ v, o.values.get? id.row = some v ∧ o'.values.get? id.row = some v := by
  constructor
  · intro t c left right o plain done
    obtain ⟨live, result⟩ := EvalContext.eval_eq_ok_iff.mp done
    obtain ⟨scan, resolved, rfl⟩ := BinaryOp.scan_of_result plain result
    obtain ⟨-, -, -, -, operator, -⟩ := Scan.resolve_ok resolved
    have less : scan.op.isComparison = true := by rw [operator]; rfl
    have keys : (scan.outcome t).values.rows.keys = (scan.standings t).keys := by
      rw [Scan.outcome_eq_reads less, OrderedMap.keys_map]
    refine ⟨live, fun op => ⟨{ rows := (scan.standings t).map op.reads }, .bool⟩, ?_, ?_⟩
    · intro op comparison
      refine ⟨fun d live' => EvalContext.eval_eq_ok_iff.mpr ⟨live', ?_⟩, rfl, rfl, ?_⟩
      · have other := Scan.resolve_of_ordered resolved comparison
        exact (BinaryOp.result_of_resolve plain other).trans
          (congrArg Except.ok (Scan.outcome_eq_reads (s := { scan with op }) comparison))
      · rw [keys, OrderedMap.keys_map]
    · intro row member
      rw [keys] at member
      obtain ⟨stand, found⟩ := OrderedMap.exists_get?_of_mem_keys member
      refine agree_of_reads stand fun op _ => ?_
      rw [RowValues.get?, OrderedMap.get?_map, found]
      rfl
  · intro t ingested c op i j o comparison column column' done
    obtain ⟨-, result⟩ := EvalContext.eval_eq_ok_iff.mp done
    obtain ⟨scan, resolved, rfl⟩ := BinaryOp.scan_of_result rfl result
    have exchanged := Scan.resolve_swap resolved
    refine ⟨_, fun d live => EvalContext.eval_eq_ok_iff.mpr
      ⟨live, BinaryOp.result_of_resolve rfl exchanged⟩, fun id child id' child' same => ?_⟩
    obtain ⟨c, entry⟩ := OrderedMap.exists_get?_of_mem_keys child
    obtain ⟨d, entry'⟩ := OrderedMap.exists_get?_of_mem_keys child'
    exact Scan.get?_outcome_exchange ingested.reachable.sound.shape ingested.keyed comparison
      resolved exchanged column column' entry entry' same

def nearInstants : Tree :=
  let nullable : Nullable := { allowed := true }
  (Ingest.fill {} [{ name := "T", type := .timestamp, nullable },
      { name := "U", type := .timestamp, nullable }]
    [[.instant ⟨100, 0, by decide⟩, .instant ⟨100, 5, by decide⟩],
      [.null, .instant ⟨100, 0, by decide⟩],
      [.instant ⟨50, 0, by decide⟩, .instant ⟨100, 0, by decide⟩]]).tree

theorem Expr.comparisons_agree_near :
    ∃ (outcome : BinaryOp → Outcome) (exchanged : Outcome),
      (∀ op : BinaryOp, op.isComparison = true →
        (EvalContext.eval {} nearInstants (.binary op (.column 1) (.column 2))).1 =
          .ok (outcome op)) ∧
      (outcome .ge).values.rows.keys = [1, 2, 3] ∧
      (∀ row ∈ [1, 2, 3], Agree fun op => (outcome op).values.get? row) ∧
      (EvalContext.eval {} nearInstants (.binary .ge (.column 2) (.column 1))).1 =
        .ok exchanged ∧ exchanged.values.get? 1 = (outcome .le).values.get? 1 := by
  obtain ⟨agreeing, exchanging⟩ := Expr.comparisons_agree
  have live : EvalContext.Live {} := ⟨rfl, rfl⟩
  have ends : (EvalContext.eval {} nearInstants
      (.binary .lt (.column 1) (.column 2))).1.toOption.map (fun o => o.values.rows.keys) =
        some [1, 2, 3] := by decide +kernel
  obtain ⟨o, ends, rows⟩ := Option.map_eq_some_iff.mp ends
  obtain ⟨-, outcome, each, agree⟩ :=
    agreeing nearInstants {} _ _ o rfl (ok_of_toOption ends)
  have ingested : nearInstants.Ingested := Tree.ingested_fill _ _ _
  obtain ⟨o', done', same⟩ := exchanging nearInstants ingested {} .le 1 2 (outcome .le) rfl
    ⟨.header 1, by decide +kernel⟩ ⟨.header 2, by decide +kernel⟩ ((each .le rfl).1 {} live)
  obtain ⟨v, first, second⟩ := same (.of 1 1) (by decide +kernel) (.of 2 1) (by decide +kernel) rfl
  rw [BinaryOp.swap] at done'
  refine ⟨outcome, o', fun op comparison => (each op comparison).1 {} live, ?_, ?_,
    done' {} live, second.trans first.symm⟩
  · rw [(each .ge rfl).2.2.2, rows]
  · rw [← rows]
    exact agree

end LayeredTable
