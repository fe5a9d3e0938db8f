import LayeredTable.Proofs.Expr.Choice
import LayeredTable.Proofs.Session.Basic

/-! Conjunction and disjunction at single rows. A joined result is true at a row that is not left
out if its operands say so there, with one exception: where neither operand has an entry, a
disjunction has a value only if both have a constant. -/
namespace LayeredTable

def Logic.Joins : Logic → Prop → Prop → Prop
  | and, p, q => p ∧ q
  | or, p, q => p ∨ q

theorem Logic.combine_iff (op : Logic) (a b : Bool) :
    op.combine a b = true ↔ op.Joins (a = true) (b = true) := by
  cases op with
  | and => exact Bool.and_eq_true_iff
  | or => exact Bool.or_eq_true_iff

namespace Outcome

variable {o l r : Outcome} {row : UInt32} {op : Logic} {excluded : Exclusions}

/-- Whether a result is true at a row, by the row's entry or else by the constant. -/
def Holds (o : Outcome) (row : UInt32) : Prop := o.values.get? row = some (.bool true)

/-- Whether one of two results has an entry for a row, or both have a constant. -/
def Share (l r : Outcome) (row : UInt32) : Prop :=
  l.values.rows.contains row = true ∨ r.values.rows.contains row = true ∨
    (l.values.constant.isSome = true ∧ r.values.constant.isSome = true)

theorem boolAt?_iff_holds : (o.values.boolAt? row).getD false = true ↔ o.Holds row := by
  rw [RowValues.boolAt?, Holds]
  cases o.values.get? row with
  | none => simp
  | some v => cases v <;> simp [Value.asBool?]

theorem holds_of_no_entry (absent : row ∉ o.values.rows.keys) :
    o.Holds row ↔ o.values.constant = some (.bool true) := by
  rw [Holds, RowValues.get?_of_absent absent]

/-- A boolean constant is its own reading as a boolean. -/
theorem BooleanConstant.asBool?_iff (boolean : o.BooleanConstant) (b : Bool) :
    o.values.constant.bind Value.asBool? = some b ↔ o.values.constant = some (.bool b) := by
  cases constant : o.values.constant with
  | none => simp
  | some v =>
    obtain ⟨c, rfl⟩ := boolean v constant
    simp [Value.asBool?]

/-- The rows of a join that have an entry are those of the operands and those left out. -/
theorem join_get? (op : Logic) (excluded : Exclusions) (l r : Outcome) (row : UInt32) :
    (join op excluded l r).values.get? row =
      if row ∈ l.values.rows.keys ++ r.values.rows.keys ++ excluded.rows.filter (1 ≤ ·) then
        some (.bool (!excluded.contains row &&
          op.combine ((l.values.boolAt? row).getD false) ((r.values.boolAt? row).getD false)))
      else (join op excluded l r).values.constant :=
  RowValues.get?_tabulate _ _ _ row

/-- A join has a constant if both operands have one and both are booleans. -/
theorem join_constant : (join op excluded l r).values.constant =
    (l.values.constant.bind Value.asBool?).bind fun a =>
      (r.values.constant.bind Value.asBool?).map fun b => .bool (op.combine a b) := by
  rw [join]
  cases l.values.constant.bind Value.asBool? <;> cases r.values.constant.bind Value.asBool? <;> rfl

/-- The constant of a join holds if both constants are there and hold jointly. -/
theorem join_constant_iff (left : l.BooleanConstant) (right : r.BooleanConstant) :
    (join op excluded l r).values.constant = some (.bool true) ↔
      op.Joins (l.values.constant = some (.bool true)) (r.values.constant = some (.bool true)) ∧
        l.values.constant.isSome = true ∧ r.values.constant.isSome = true := by
  simp only [join_constant, Option.bind_eq_some_iff, Option.map_eq_some_iff, left.asBool?_iff,
    right.asBool?_iff, Value.bool.injEq]
  constructor
  · rintro ⟨a, constant, b, other, holds⟩
    rw [Logic.combine_iff] at holds
    simpa [constant, other] using holds
  · rintro ⟨holds, some, some'⟩
    obtain ⟨v, constant⟩ := Option.isSome_iff_exists.mp some
    obtain ⟨w, other⟩ := Option.isSome_iff_exists.mp some'
    obtain ⟨a, rfl⟩ := left v constant
    obtain ⟨b, rfl⟩ := right w other
    refine ⟨a, constant, b, other, ?_⟩
    rw [Logic.combine_iff]
    simpa [constant, other] using holds

/-- A join holds at a row that is not left out exactly if its operands do, where a disjunction has
a value at all. -/
theorem join_holds_iff (left : l.BooleanConstant) (right : r.BooleanConstant)
    (positive : 1 ≤ row) : (join op excluded l r).Holds row ↔
      excluded.contains row = false ∧ op.Joins (l.Holds row) (r.Holds row) ∧
        (op = .or → l.Share r row) := by
  rw [Holds, join_get?]
  by_cases out : excluded.contains row = true
  · have listed : row ∈ excluded.rows := OrderedMap.contains_iff_mem_keys.mp out
    simp [out, listed, positive]
  have kept : row ∉ excluded.rows := mt OrderedMap.contains_iff_mem_keys.mpr out
  rw [Bool.not_eq_true] at out
  have entry (o : Outcome) : row ∈ o.values.rows.keys ↔ o.values.rows.contains row = true :=
    OrderedMap.contains_iff_mem_keys.symm
  simp only [List.mem_append, List.mem_filter, kept, false_and, or_false, entry, out]
  split
  · rename_i listed
    have share : l.Share r row := listed.elim .inl (.inr ∘ .inl)
    simp [Logic.combine_iff, boolAt?_iff_holds, share]
  · rename_i unlisted
    obtain ⟨absentLeft, absentRight⟩ := not_or.mp unlisted
    have noLeft := mt (entry l).mp absentLeft
    have noRight := mt (entry r).mp absentRight
    rw [join_constant_iff left right, holds_of_no_entry noLeft, holds_of_no_entry noRight, Share]
    cases op with
    | or => simp [absentLeft, absentRight]
    | and =>
      refine ⟨fun both => ⟨trivial, both.1, ?_⟩, fun both => ⟨both.2.1, ?_, ?_⟩⟩
      · intro isOr
        cases isOr
      · rw [both.2.1.1]
        rfl
      · rw [both.2.1.2]
        rfl

end Outcome

/-- Evaluated conjunctions and disjunctions hold at the rows that are not left out and at which
their operands hold, both or one of them. Only where neither operand has an entry and one of them
lacks a constant does a disjunction have no value, whatever the other's constant is. -/
theorem Expr.logic_holds_iff {t : Tree} {op : Logic} {left right : Expr} {policy p q : Policy}
    {s m i i' j j' : EvalState} {o l r : Outcome}
    (done : (Expr.logic op left right).eval t policy s = .ok o m)
    (leftDone : left.eval t p i = .ok l i') (rightDone : right.eval t q j = .ok r j')
    {row : UInt32} (positive : 1 ≤ row) :
    o.Holds row ↔ (t.exclusions 0).contains row = false ∧
      op.Joins (l.Holds row) (r.Holds row) ∧ (op = .or → l.Share r row) := by
  have leftResult := eval_result leftDone
  have rightResult := eval_result rightDone
  obtain ⟨l', r', first, second, -, -, rfl⟩ := result_logic (eval_result done)
  obtain rfl := Except.ok.inj (leftResult.symm.trans first)
  obtain rfl := Except.ok.inj (rightResult.symm.trans second)
  exact Outcome.join_holds_iff (result_booleanConstant leftResult)
    (result_booleanConstant rightResult) positive

def unevenColumns : Tree :=
  ((Session.start (.new ⟨0⟩)).run
    [.add 0 (.column 1 "A" (.integer .int64) {}) false,
      .add 1 (.cell (.of 1 1) (.int64 1)) false,
      .add 0 (.column 2 "B" (.integer .int64) {}) false,
      .add 3 (.cell (.of 2 1) (.int64 1)) false,
      .add 3 (.cell (.of 2 2) (.int64 2)) false]).tree

theorem Expr.logic_holds_iff_uneven :
    ∃ o m, (Expr.logic .or (.constant true) atLeastOne).eval unevenColumns {} {} = .ok o m ∧
      o.Holds 1 ∧ ¬ o.Holds 2 := by
  have whole : (((Expr.logic .or (.constant true) atLeastOne).eval unevenColumns {}).run'
      {}).isSome = true := by decide +kernel
  have right : ((atLeastOne.eval unevenColumns {}).run' {}).map (fun r =>
      (r.values.rows.keys, r.values.constant)) = some ([1], none) := by decide +kernel
  obtain ⟨o, ends⟩ := Option.isSome_iff_exists.mp whole
  obtain ⟨m, done⟩ := exists_ok ends
  obtain ⟨r, rightEnds, values⟩ := Option.map_eq_some_iff.mp right
  obtain ⟨j, rightDone⟩ := exists_ok rightEnds
  obtain ⟨keys, constant⟩ := Prod.mk.inj values
  have leftDone : (Expr.constant true).eval unevenColumns {} {} = .ok (.ofBool true) {} := rfl
  have first : o.Holds 1 ↔ _ := Expr.logic_holds_iff done leftDone rightDone (by decide)
  have second : o.Holds 2 ↔ _ := Expr.logic_holds_iff done leftDone rightDone (by decide)
  have entry (row : UInt32) : r.values.rows.contains row = true ↔ row = 1 := by
    rw [OrderedMap.contains_iff_mem_keys, keys, List.mem_singleton]
  refine ⟨o, m, done, first.mpr ⟨by decide +kernel, .inl rfl, fun _ => ?_⟩, ?_⟩
  · exact .inr (.inl ((entry 1).mpr rfl))
  · intro holds
    rcases (second.mp holds).2.2 rfl with left | right | ⟨-, other⟩
    · cases left
    · exact absurd ((entry 2).mp right) (by decide)
    · rw [constant] at other
      cases other

/-- The second row is not left out and the constant holds there, and yet the disjunction has no
value. -/
theorem Expr.or_drops_constant :
    (unevenColumns.exclusions 0).contains 2 = false ∧
      (((Expr.constant true).eval unevenColumns {}).run' {}).bind (fun l => l.values.get? 2) =
        some (.bool true) ∧
      ((Expr.logic .or (.constant true) atLeastOne).eval unevenColumns {} |>.run' {}).map
        (fun o => o.values.get? 2) = some none := by
  refine ⟨?_, ?_, ?_⟩ <;> decide +kernel

end LayeredTable
