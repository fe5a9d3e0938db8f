import Mathlib.Data.List.Basic
import LayeredTable.Proofs.DefectLog
import LayeredTable.Proofs.Expr.Guard
import LayeredTable.Proofs.Expr.Typed
import LayeredTable.Proofs.Ingest.Keyed

/-! Rows whose value is lost. A comparison or a sum that is null at a row where both sides show a
value has one defect there, and there is no other defect. One kind of loss goes unreported: a sum or
difference of instants that no instant stands for. -/
namespace LayeredTable

/-- Whether two operands meet at a row: it is not left out, and they show `a` and `b` there. A
literal shows itself at every row, a column its visible cells. -/
def Operand.Meets (t : Tree) (left right : Operand) (row : UInt32) (a b : Value) : Prop :=
  (t.exclusions 0).contains row = false ∧ ∃ type, left.type t = .ok type ∧
    left.shown? t type row = some a ∧ right.shown? t type row = some b

namespace BinaryOp

/-- Whether two values are instants whose sum or difference no instant stands for. -/
def Overflows (op : BinaryOp) (a b : Value) : Prop :=
  ∃ x y, a = .instant x ∧ b = .instant y ∧
    (op = add ∧ ¬ Instant.Valid (x.seconds + y.seconds) 0 ∨
      op = subtract ∧ ¬ Instant.Valid (x.seconds - y.seconds) 0)

def mismatch (op : BinaryOp) (type : FieldType) (a b : Value) : String :=
  op.name ++ ": expected " ++ type.label ++ " but found " ++ a.kind.label ++ " and " ++ b.kind.label

variable {op : BinaryOp} {t : FieldType} {a b : Value}

theorem ofEpoch_eq_null_iff (seconds : Int) :
    ofEpoch seconds = .null ↔ ¬ Instant.Valid seconds 0 := by
  rw [ofEpoch, Instant.of?]
  split <;> rename_i found <;> split at found <;> simp_all

theorem overflows_instants (x y : Instant) : op.Overflows (.instant x) (.instant y) ↔
    op = add ∧ ¬ Instant.Valid (x.seconds + y.seconds) 0 ∨
      op = subtract ∧ ¬ Instant.Valid (x.seconds - y.seconds) 0 := by
  constructor
  · rintro ⟨_, _, ⟨⟩, ⟨⟩, lost⟩
    exact lost
  · exact fun lost => ⟨x, y, rfl, rfl, lost⟩

theorem apply_instants_eq_null_iff (arithmetic : op.isComparison = false) (x y : Instant) :
    op.apply (.instant x) (.instant y) = .ok .null ↔
      op.Overflows (.instant x) (.instant y) := by
  rw [overflows_instants]
  cases op with
  | add =>
    have sum : apply add (.instant x) (.instant y) = .ok (ofEpoch (x.seconds + y.seconds)) := rfl
    rw [sum, Except.ok.injEq, ofEpoch_eq_null_iff]
    simp
  | subtract =>
    have difference : apply subtract (.instant x) (.instant y) =
        .ok (ofEpoch (x.seconds - y.seconds)) := rfl
    rw [difference, Except.ok.injEq, ofEpoch_eq_null_iff]
    simp
  | _ => cases arithmetic

/-- Values that conform to the type an operator is used under are lost only by an overflow. -/
theorem apply_eq_null_iff (allowed : t ∈ op.allowed) (left : a.conformsTo t = true)
    (right : b.conformsTo t = true) :
    op.apply a b = .ok .null ↔ t.isTemporal = true ∧ op.Overflows a b := by
  cases comparison : op.isComparison with
  | true =>
    refine iff_of_false ?_ ?_
    · rw [apply_comparison comparison]
      cases a.order b <;> exact nofun
    · rintro ⟨-, x, y, -, -, ⟨rfl, -⟩ | ⟨rfl, -⟩⟩ <;> cases comparison
  | false =>
    rcases arithmetic_type comparison allowed with numeric | temporal | ⟨rfl, rfl⟩
    · obtain ⟨x, left⟩ := Value.exists_toDouble numeric left
      obtain ⟨y, right⟩ := Value.exists_toDouble numeric right
      obtain ⟨z, applied⟩ := apply_doubles comparison left right
      rw [applied]
      refine iff_of_false nofun fun lost => ?_
      rw [FieldType.isNumeric_of_isTemporal lost.1] at numeric
      cases numeric
    · obtain ⟨x, rfl⟩ := Value.exists_instant temporal left
      obtain ⟨y, rfl⟩ := Value.exists_instant temporal right
      rw [and_iff_right temporal]
      exact apply_instants_eq_null_iff comparison x y
    · obtain ⟨x, rfl⟩ := Value.exists_text left
      obtain ⟨y, rfl⟩ := Value.exists_text right
      exact iff_of_false nofun fun lost => by cases lost.1

end BinaryOp

/-- Instants conform to both temporal types. -/
theorem Value.instant_conformsTo {type : FieldType} (temporal : type.isTemporal = true)
    (x : Instant) : (Value.instant x).conformsTo type = true := by
  cases type with
  | timestamp | date => rfl
  | _ => cases temporal

namespace Scan

variable {t : Tree} {op : BinaryOp} {left right : Operand} {scan : Scan} {excluded : Exclusions}
  {id cell : CellId} {row : UInt32} {a b : Value} {c : Nat}

def fault? (s : Scan) (t : Tree) (excluded : Exclusions) (entry : CellId × Nat) :
    Option (UInt32 × Value × Value) :=
  (s.operands? t excluded entry.1 entry.2).bind fun operands =>
    if operands.1.conformsTo s.type && operands.2.conformsTo s.type then none
    else some (entry.1.row, operands)

def faults (s : Scan) (t : Tree) : List (UInt32 × Value × Value) :=
  (t.children s.column).entries.filterMap (s.fault? t (t.exclusions s.column))

def report (s : Scan) (column : UInt32) (fault : UInt32 × Value × Value) : Defect :=
  (Defect.of (s.op.mismatch s.type fault.2.1 fault.2.2)).atCell column fault.1

/-- A row has a defect just if its values are not of the shared type. -/
theorem row_snd (resolved : resolve t op left right = .ok scan) (excluded : Exclusions)
    (entry : CellId × Nat) : (scan.row t excluded entry).2 =
      (scan.fault? t excluded entry).map (scan.report entry.1.column) := by
  rw [row, fault?]
  cases scan.operands? t excluded entry.1 entry.2 with
  | none => rfl
  | some operands =>
    obtain ⟨a, b⟩ := operands
    simp only [Option.bind_some, combine]
    cases left : a.conformsTo scan.type with
    | false => rfl
    | true =>
      cases right : b.conformsTo scan.type with
      | false => rfl
      | true =>
        obtain ⟨v, applied, -⟩ := exists_apply resolved left right
        simp [applied]

theorem defects_eq (resolved : resolve t op left right = .ok scan) (keyed : t.Keyed)
    (column : (t.children 0).get? id = some scan.column) :
    scan.defects t = (scan.faults t).map (scan.report id.column) := by
  rw [defects, rows, faults, List.filterMap_map, List.map_filterMap]
  refine List.filterMap_congr fun entry listed => ?_
  obtain ⟨row, -, named⟩ := keyed id scan.column column entry.1 (List.mem_map.mpr ⟨_, listed, rfl⟩)
  rw [Function.comp_apply, row_snd resolved, named, CellId.column_of]

theorem faults_ascending (keyed : t.Keyed) (column : (t.children 0).get? id = some scan.column) :
    (scan.faults t).Pairwise fun f g => f.1 < g.1 := by
  refine List.pairwise_filterMap.mpr ((keyed.rows_ascending column).imp ?_)
  intro e e' less f found g found'
  obtain ⟨operands, -, made⟩ := Option.bind_eq_some_iff.mp found
  obtain ⟨operands', -, made'⟩ := Option.bind_eq_some_iff.mp found'
  split at made <;> cases made
  split at made' <;> cases made'
  exact less

theorem mem_faults_iff : (row, a, b) ∈ scan.faults t ↔ ∃ id c,
    (t.children scan.column).get? id = some c ∧ id.row = row ∧
      scan.operands? t (t.exclusions scan.column) id c = some (a, b) ∧
      ¬ (a.conformsTo scan.type = true ∧ b.conformsTo scan.type = true) := by
  simp only [faults, List.mem_filterMap, fault?, Option.bind_eq_some_iff, Prod.exists,
    OrderedMap.mem_entries_iff]
  refine exists_congr fun id => exists_congr fun c => and_congr_right fun entry => ?_
  constructor
  · rintro ⟨x, y, found, made⟩
    split at made
    · cases made
    · rename_i unfit
      cases made
      exact ⟨rfl, found, by simpa using unfit⟩
  · rintro ⟨rfl, found, unfit⟩
    refine ⟨a, b, found, if_neg ?_⟩
    simpa using unfit

/-- A scan's operands at a row are the values that its sides show there. -/
theorem meets_iff (shape : t.Shape) (keyed : t.Keyed)
    (resolved : resolve t op left right = .ok scan)
    (column : (t.children 0).get? id = some scan.column) :
    left.Meets t right row a b ↔ ∃ id c, (t.children scan.column).get? id = some c ∧
      id.row = row ∧ scan.operands? t (t.exclusions scan.column) id c = some (a, b) := by
  obtain ⟨i, n, rfl, here, rfl, rfl, type, -, partner⟩ := resolve_ok resolved
  obtain ⟨m, there, named, -⟩ := shape.child column
  rw [here] at there
  cases there
  have inside := (shape.lt_child column).2
  have declared : (Operand.column scan.column).type t = .ok n.type := by
    simp [Operand.type, Tree.node, here, Except.map]
  have own : (Operand.column scan.column).shown? t n.type row =
      (Partner.column scan.column).valueAt? t row := rfl
  rw [Operand.Meets, declared, Tree.exclusions_eq shape inside]
  simp only [Except.ok.injEq, exists_eq_left', own, ← Partner.valueAt?_ofOperand partner row,
    Partner.valueAt?_column_iff, here, Option.some.injEq, operands?_eq_some_iff]
  constructor
  · rintro ⟨kept, ⟨visible, c, entry, value⟩, other⟩
    refine ⟨.of n.id.column row, c, entry, CellId.row_of _ _, ?_⟩
    rw [CellId.row_of, value]
    exact ⟨kept, visible, rfl, other⟩
  · rintro ⟨cell, c, entry, rfl, kept, visible, value, other⟩
    have child := OrderedMap.mem_keys_of_get? entry
    obtain ⟨row, -, same⟩ := keyed id scan.column column cell child
    obtain ⟨m, content, -⟩ := shape.child entry
    have key : cell = .of n.id.column cell.row := by rw [named, same, CellId.row_of]
    rw [← key]
    refine ⟨kept, ⟨visible, c, entry, ?_⟩, other⟩
    rw [content] at value ⊢
    exact congrArg some value

/-- A value is lost if it is not of the shared type, or by an overflow, which is of that type. -/
theorem unfit_iff (resolved : resolve t op left right = .ok scan) :
    ¬ (a.conformsTo scan.type = true ∧ b.conformsTo scan.type = true) ↔
      (scan.combine a b).1 = .null ∧ ¬ (scan.type.isTemporal = true ∧ op.Overflows a b) := by
  obtain ⟨-, -, -, -, rfl, -, -, allowed, -⟩ := resolve_ok resolved
  rw [combine_fst, ← Bool.and_eq_true_iff]
  cases fits : a.conformsTo scan.type && b.conformsTo scan.type with
  | true =>
    obtain ⟨first, second⟩ := Bool.and_eq_true_iff.mp fits
    obtain ⟨v, applied, -⟩ := exists_apply resolved first second
    rw [← BinaryOp.apply_eq_null_iff allowed first second, applied]
    simp [Except.toOption]
  | false =>
    refine iff_of_true Bool.false_ne_true ⟨rfl, ?_⟩
    rintro ⟨temporal, x, y, rfl, rfl, -⟩
    rw [Value.instant_conformsTo temporal, Value.instant_conformsTo temporal] at fits
    cases fits

end Scan

namespace Eval

variable {policy : Policy} {s m : EvalState}

theorem recordRows_ok (recorded : policy.recordRowDefects = true) {ds : List Defect}
    (done : recordRows policy ds s = .ok () m) : m.defects = s.defects.logAll ds := by
  rw [recordRows, if_pos recorded] at done
  cases done
  rfl

end Eval

/-- A scan that is evaluated logs its defects and gives its outcome. -/
theorem Expr.scan_of_eval {t : Tree} {op : BinaryOp} {left right : Operand} {policy : Policy}
    {s m : EvalState} {o : Outcome} (scans : ¬ op.AsksHidden right)
    (recorded : policy.recordRowDefects = true)
    (done : (Expr.binary op left right).eval t policy s = .ok o m) :
    ∃ scan, Scan.resolve t op left right = .ok scan ∧ o = scan.outcome t ∧
      m.defects = s.defects.logAll (scan.defects t) := by
  obtain ⟨⟨⟩, k, first, next⟩ := bind_ok done
  obtain rfl := Eval.checkpoint_ok first
  rw [evalBinary_of_scan scans] at next
  obtain ⟨scan, k', resolved, next⟩ := bind_ok next
  obtain ⟨⟨⟩, l, logged, answer⟩ := bind_ok next
  cases answer
  have found := Eval.ofExcept_ok resolved
  rw [found] at resolved
  cases resolved
  exact ⟨scan, found, rfl, Eval.recordRows_ok recorded logged⟩

/-- The defects that a comparison, a sum or a difference leaves in a log, in the order of their
rows. At each row where the left column and the right side meet and whose value is null there is one
defect, and elsewhere none; only instants out of range become null without one. -/
theorem Expr.eval_reports_nulls {t : Tree} (reachable : t.Reachable) (keyed : t.Keyed)
    {op : BinaryOp} {left right : Operand} (rooted : left.Rooted t)
    (scans : ¬ op.AsksHidden right) {policy : Policy} (recorded : policy.recordRowDefects = true)
    {s m : EvalState} (enabled : s.defects.enabled = true) {o : Outcome}
    (done : (Expr.binary op left right).eval t policy s = .ok o m) :
    ∃ i n, left = .column i ∧ t.nodes[i]? = some n ∧ ∃ faults : List (UInt32 × Value × Value),
      m.defects.records.toList = s.defects.records.toList ++ faults.map (fun (row, a, b) =>
        (Defect.of (op.mismatch n.type a b)).atCell n.id.column row) ∧
      faults.Pairwise (fun f g => f.1 < g.1) ∧
      ∀ row a b, (row, a, b) ∈ faults ↔
        left.Meets t right row a b ∧ o.values.get? row = some .null ∧
          ¬ (n.type.isTemporal = true ∧ op.Overflows a b) := by
  have shape := reachable.sound.shape
  obtain ⟨scan, resolved, rfl, logged⟩ := scan_of_eval scans recorded done
  obtain ⟨i, n, rfl, here, rfl, rfl, type, -⟩ := Scan.resolve_ok resolved
  obtain ⟨id, column⟩ := rooted
  obtain ⟨m, there, named, -⟩ := shape.child column
  rw [here] at there
  cases there
  refine ⟨scan.column, n, rfl, here, scan.faults t, ?_, Scan.faults_ascending keyed column, ?_⟩
  · rw [logged, DefectLog.records_logAll enabled, Scan.defects_eq resolved keyed column, ← named,
      ← type]
    rfl
  · intro row a b
    rw [Scan.mem_faults_iff, Scan.meets_iff shape keyed resolved column, ← type]
    constructor
    · rintro ⟨cell, c, entry, rfl, found, unfit⟩
      have child := OrderedMap.mem_keys_of_get? entry
      have value := Scan.get?_of_operands entry
        (fun other member => keyed.eq_of_row column child member) found
      obtain ⟨null, within⟩ := (Scan.unfit_iff resolved).mp unfit
      exact ⟨⟨cell, c, entry, rfl, found⟩, value.trans (congrArg some null), within⟩
    · rintro ⟨⟨cell, c, entry, rfl, found⟩, null, within⟩
      have child := OrderedMap.mem_keys_of_get? entry
      have value := Scan.get?_of_operands entry
        (fun other member => keyed.eq_of_row column child member) found
      rw [value] at null
      exact ⟨cell, c, entry, rfl, found,
        (Scan.unfit_iff resolved).mpr ⟨Option.some.inj null, within⟩⟩

def farInstants : Tree :=
  ((Session.start (.new ⟨0⟩)).run
    [.add 0 (.column 1 "T" .timestamp {}) false,
      .add 1 (.cell (.of 1 3) (.instant ⟨5000000000000, 0, by decide⟩)) false,
      .add 1 (.cell (.of 1 1) (.instant ⟨3600, 0, by decide⟩)) false,
      .add 1 (.cell (.of 1 2) (.text "late")) false]).tree

theorem Expr.eval_reports_nulls_far :
    ∃ o m, (Expr.binary .add (.column 1) (.column 1)).eval farInstants {} {} = .ok o m ∧
      (Defect.of "add: expected TIMESTAMP but found STRING and STRING").atCell 1 2 ∈
        m.defects.records.toList ∧
      ∀ d ∈ m.defects.records.toList, d.row ≠ some 3 := by
  have ends : (((Expr.binary .add (.column 1) (.column 1)).eval farInstants {}).run' {}).map
      (fun o => o.values.get? 2) = some (some .null) := by decide +kernel
  obtain ⟨o, ends, null⟩ := Option.map_eq_some_iff.mp ends
  obtain ⟨m, done⟩ := exists_ok ends
  have reachable : farInstants.Reachable := ⟨⟨0⟩, _, rfl⟩
  have keyed : farInstants.Keyed := Tree.keyed_of_entries (by decide +kernel)
  have rooted : (Operand.column 1).Rooted farInstants := ⟨.header 1, by decide +kernel⟩
  have scans : ¬ BinaryOp.add.AsksHidden (.column 1) := fun asks => nomatch asks.2
  obtain ⟨i, n, same, here, faults, records, -, listed⟩ :=
    Expr.eval_reports_nulls reachable keyed rooted scans rfl rfl done
  cases same
  have column : farInstants.nodes[1]?.map (fun n => (n.type, n.id.column)) =
      some (.timestamp, 1) := by decide +kernel
  rw [here] at column
  obtain ⟨type, number⟩ := Prod.mk.inj (Option.some.inj column)
  have declared : (Operand.column 1).type farInstants = .ok .timestamp := by decide +kernel
  have shown (row : UInt32) : (Operand.column 1).shown? farInstants .timestamp row =
      (Partner.column 1).valueAt? farInstants row := rfl
  refine ⟨o, m, done, ?_, fun d member => ?_⟩
  · have text : (Partner.column 1).valueAt? farInstants 2 = some (.text "late") := by
      decide +kernel
    have meets : (Operand.column 1).Meets farInstants (.column 1) 2 (.text "late") (.text "late") :=
      ⟨by decide +kernel, _, declared, text, text⟩
    have fault := (listed 2 _ _).mpr ⟨meets, null, fun lost => by obtain ⟨-, _, _, ⟨⟩, -⟩ := lost⟩
    rw [records, type, number]
    exact List.mem_append_right _ (List.mem_map.mpr ⟨_, fault, rfl⟩)
  · rw [records, List.mem_append] at member
    obtain ⟨⟨row, a, b⟩, fault, rfl⟩ := List.mem_map.mp (member.resolve_left nofun)
    rintro there
    obtain rfl : row = 3 := Option.some.inj there
    obtain ⟨⟨-, _, known, left, right⟩, -, within⟩ := (listed 3 a b).mp fault
    rw [declared] at known
    cases known
    have far : (Partner.column 1).valueAt? farInstants 3 =
        some (.instant ⟨5000000000000, 0, by decide⟩) := by decide +kernel
    rw [shown, far] at left right
    cases left
    cases right
    exact within ⟨by rw [type]; rfl, _, _, rfl, rfl, .inl ⟨rfl, by decide⟩⟩

/-- The sum of two instants of a filled table that is out of range, and no defect of it. -/
theorem Expr.add_overflow_unreported :
    let t := (Ingest.fill {} [{ name := "T", type := .timestamp }]
      [[.instant ⟨5000000000000, 0, by decide⟩]]).tree
    let sum := Expr.binary .add (.column 1) (.column 1)
    (t.exclusions 0).contains 1 = false ∧ t.isHidden? 1 (.of 1 1) = some false ∧
      (EvalContext.eval {} t sum).1.toOption.map (fun o => o.values.get? 1) = some (some .null) ∧
      (EvalContext.eval {} t sum).2.state.defects.records = #[] := by
  decide +kernel

end LayeredTable
