import LayeredTable.Proofs.Expr.Choice
import LayeredTable.Proofs.Value.Kind
import LayeredTable.Proofs.Value.Order

/-! Declared types against stored values. What an evaluation stores is null or conforms to the type
that its result declares, as long as no choice meets a row that its branch has no value for. A scan
never fails at values that conform to the type its sides share. -/
namespace LayeredTable

namespace Value

variable {v : Value} {t : FieldType}

/-- A value that a result of type `t` may store. -/
def Fits (v : Value) (t : FieldType) : Prop := v = null ∨ v.conformsTo t = true

theorem fits_bool (b : Bool) : (bool b).Fits .bool := .inr rfl

/-! The forms of values of a type. -/

theorem exists_toDouble (numeric : t.isNumeric = true) (conforms : v.conformsTo t = true) :
    ∃ x, v.toDouble = .ok x := by
  rw [← FieldType.isNumeric_carrier, ← kind_of_conformsTo conforms] at numeric
  cases v with
  | integer | float32 | float64 => exact ⟨_, rfl⟩
  | _ => cases numeric

theorem exists_instant (temporal : t.isTemporal = true) (conforms : v.conformsTo t = true) :
    ∃ i, v = .instant i := by
  have kind := (kind_of_conformsTo conforms).trans (FieldType.carrier_of_isTemporal temporal)
  cases v with
  | instant i => exact ⟨i, rfl⟩
  | _ => cases kind

theorem exists_text (conforms : v.conformsTo .text = true) : ∃ s, v = .text s := by
  have kind := kind_of_conformsTo conforms
  cases v with
  | text s => exact ⟨s, rfl⟩
  | _ => cases kind

end Value

namespace BinaryOp

variable {op : BinaryOp} {a b : Value} {t : FieldType}

theorem null_not_allowed (op : BinaryOp) : .null ∉ op.allowed := by cases op <;> decide

/-- What can be added or subtracted are numbers and instants; texts can be added. -/
theorem arithmetic_type (arithmetic : op.isComparison = false) (allowed : t ∈ op.allowed) :
    t.isNumeric = true ∨ t.isTemporal = true ∨ op = add ∧ t = .text := by
  cases t with
  | integer kind => exact .inl rfl
  | float32 | float64 => exact .inl rfl
  | timestamp | date => exact .inr (.inl rfl)
  | text =>
    cases op with
    | add => exact .inr (.inr ⟨rfl, rfl⟩)
    | subtract => exact absurd allowed (by decide)
    | _ => cases arithmetic
  | _ =>
    cases op with
    | add | subtract => exact absurd allowed (by decide)
    | _ => cases arithmetic

theorem apply_comparison (comparison : op.isComparison = true) (a b : Value) :
    op.apply a b = (a.order b).map fun order => .bool (op.holds order) := by
  cases op with
  | add | subtract => cases comparison
  | _ => rfl

theorem apply_doubles (arithmetic : op.isComparison = false) {x y : Binary64}
    (left : a.toDouble = .ok x) (right : b.toDouble = .ok y) :
    ∃ z, op.apply a b = .ok (.float64 z) := by
  cases op with
  | add =>
    refine ⟨x.add y, ?_⟩
    rw [apply, addValues.eq_def]
    split
    · cases left
    · cases left
    · rw [left, right]
      rfl
  | subtract =>
    refine ⟨x.subtract y, ?_⟩
    rw [apply, subtractValues.eq_def]
    split
    · cases left
    · rw [left, right]
      rfl
  | _ => cases arithmetic

theorem apply_instants (arithmetic : op.isComparison = false) (x y : Instant) :
    ∃ seconds, op.apply (.instant x) (.instant y) = .ok (ofEpoch seconds) := by
  cases op with
  | add | subtract => exact ⟨_, rfl⟩
  | _ => cases arithmetic

theorem ofEpoch_fits (seconds : Int) : (ofEpoch seconds).Fits .timestamp := by
  rw [ofEpoch]
  split
  · exact .inr rfl
  · exact .inl rfl

/-- Of values that conform to a type it allows, an operator makes one that fits its result type. -/
theorem exists_apply (allowed : t ∈ op.allowed) (left : a.conformsTo t = true)
    (right : b.conformsTo t = true) :
    ∃ v, op.apply a b = .ok v ∧ v.Fits (op.resultType t) := by
  rw [resultType]
  cases comparison : op.isComparison with
  | true =>
    have kind := Value.kind_of_conformsTo left
    -- null conforms to the null type alone, and no operator allows that
    have some : a ≠ .null := by
      rintro rfl
      have null : t = .null := by
        cases t with
        | null => rfl
        | _ => cases kind
      exact op.null_not_allowed (null ▸ allowed)
    obtain ⟨order, known⟩ :=
      Value.exists_order (kind.trans (Value.kind_of_conformsTo right).symm) some
    refine ⟨.bool (op.holds order), ?_, Value.fits_bool _⟩
    rw [apply_comparison comparison, known]
    rfl
  | false =>
    rcases arithmetic_type comparison allowed with numeric | temporal | ⟨rfl, rfl⟩
    · obtain ⟨x, left⟩ := Value.exists_toDouble numeric left
      obtain ⟨y, right⟩ := Value.exists_toDouble numeric right
      obtain ⟨z, applied⟩ := apply_doubles comparison left right
      refine ⟨_, applied, ?_⟩
      simp only [numeric]
      exact .inr rfl
    · obtain ⟨x, rfl⟩ := Value.exists_instant temporal left
      obtain ⟨y, rfl⟩ := Value.exists_instant temporal right
      obtain ⟨seconds, applied⟩ := apply_instants comparison x y
      refine ⟨_, applied, ?_⟩
      simp only [FieldType.isNumeric_of_isTemporal temporal, temporal]
      exact ofEpoch_fits seconds
    · obtain ⟨x, rfl⟩ := Value.exists_text left
      obtain ⟨y, rfl⟩ := Value.exists_text right
      exact ⟨_, rfl, .inr rfl⟩

theorem skipped_fits (op : BinaryOp) (t : FieldType) : op.skipped.Fits (op.resultType t) := by
  rw [skipped, resultType]
  cases op.isComparison with
  | true => exact Value.fits_bool false
  | false => exact .inl rfl

end BinaryOp

/-- What a scan applies its operator to cannot make it fail. -/
theorem Scan.exists_apply {t : Tree} {op : BinaryOp} {left right : Operand} {scan : Scan}
    (resolved : resolve t op left right = .ok scan) {a b : Value}
    (conforms : a.conformsTo scan.type = true) (conforms' : b.conformsTo scan.type = true) :
    ∃ v, scan.op.apply a b = .ok v ∧ v.Fits (scan.op.resultType scan.type) := by
  obtain ⟨-, -, -, -, rfl, -, -, allowed, -⟩ := resolve_ok resolved
  exact BinaryOp.exists_apply allowed conforms conforms'

/-- A result that stores only what its type declares, and a constant only for booleans. -/
structure Outcome.Typed (o : Outcome) : Prop where
  rows : ∀ row v, o.values.rows.get? row = some v → v.Fits o.type
  constant : ∀ v, o.values.constant = some v → o.type = .bool ∧ v.Fits o.type

/-- Whether no choice in an expression meets a row that its chosen branch has no value for. A choice
whose parts have no results meets no row. -/
def Expr.gapless (t : Tree) : Expr → Bool
  | constant _ | binary _ _ _ => true
  | not inner => inner.gapless t
  | logic _ left right => left.gapless t && right.gapless t
  | choice cond whenTrue otherwise =>
    cond.gapless t && whenTrue.gapless t && otherwise.gapless t &&
      match cond.result t, whenTrue.result t, otherwise.result t with
      | .ok c, .ok a, .ok b => (Outcome.chooseRows c a b).all (·.2.isNone)
      | _, _, _ => true

namespace Outcome

variable {o a b c : Outcome}

theorem typed_ofList {entries : List (UInt32 × Value)} {type : FieldType}
    (fits : ∀ entry ∈ entries, entry.2.Fits type) : (Outcome.mk (.ofList entries) type).Typed where
  rows row v found := fits (row, v) (RowValues.mem_of_rows_ofList found)
  constant v same := by cases same

theorem Typed.fits (typed : o.Typed) {row : UInt32} {v : Value}
    (found : o.values.get? row = some v) : v.Fits o.type := by
  rcases Option.or_eq_some_iff.mp found with own | ⟨-, constant⟩
  · exact typed.rows row v own
  · exact (typed.constant v constant).2

/-- Values that are changed to ones that fit the booleans make a boolean result. -/
theorem Typed.mapBool (typed : o.Typed) {f : Value → Value}
    (fits : ∀ v, v.Fits o.type → (f v).Fits .bool) : (Outcome.mk (o.values.map f) .bool).Typed := by
  refine ⟨fun row v found => ?_, fun v same => ⟨rfl, ?_⟩⟩
  · rw [RowValues.map, OrderedMap.get?_map] at found
    obtain ⟨w, own, rfl⟩ := Option.map_eq_some_iff.mp found
    exact fits w (typed.rows row w own)
  · obtain ⟨w, constant, rfl⟩ := Option.map_eq_some_iff.mp same
    exact fits w (typed.constant w constant).2

theorem Typed.negate (typed : o.Typed) (boolean : o.type = .bool) : o.negate.Typed := by
  apply typed.mapBool
  intro v fits
  cases v with
  | bool b => exact Value.fits_bool !b
  | _ => exact boolean ▸ fits

theorem join_typed (op : Logic) (excluded : Exclusions) (l r : Outcome) :
    (join op excluded l r).Typed where
  rows row v found := by
    obtain ⟨other, -, same⟩ := List.mem_map.mp (RowValues.mem_of_rows_ofList found)
    cases same
    exact Value.fits_bool _
  constant v same := by
    obtain ⟨b, rfl⟩ := join_booleanConstant op excluded v same
    exact ⟨rfl, Value.fits_bool b⟩

/-- Without a gap a chosen value is one of the branches'. -/
theorem choose_fits (whenTrue : a.Typed) (otherwise : b.Typed) (same : a.type = b.type)
    {row : UInt32} {v : Value} (met : (choose a b row v).2.isNone = true) :
    (choose a b row v).1.2.Fits a.type := by
  obtain ⟨selected, type⟩ : (branch a b v).Typed ∧ (branch a b v).type = a.type := by
    rw [branch]
    split
    · exact ⟨whenTrue, rfl⟩
    · exact ⟨otherwise, same.symm⟩
  obtain ⟨w, found⟩ := Option.isSome_iff_exists.mp (choose_snd row v ▸ met)
  rw [choose_fst, found]
  exact type ▸ selected.fits found

theorem Typed.chosen (whenTrue : a.Typed) (otherwise : b.Typed) (same : a.type = b.type)
    (gapless : (chooseRows c a b).all (·.2.isNone) = true) : (chosen c a b).Typed := by
  rw [Outcome.chosen]
  cases whole : wholeBranch? c a b with
  | some branch =>
    rcases eq_of_wholeBranch? whole with rfl | rfl
    · exact whenTrue
    · exact otherwise
  | none =>
    apply typed_ofList
    intro entry listed
    obtain ⟨choice, there, rfl⟩ := List.mem_map.mp listed
    have met := List.all_eq_true.mp gapless choice there
    obtain ⟨⟨row, v⟩, -, rfl⟩ := List.mem_map.mp there
    exact choose_fits whenTrue otherwise same met

end Outcome

section Leaves

variable {t : Tree} {op : BinaryOp} {left right : Operand} {o : Outcome} {scan : Scan}

theorem hiddenCheck_typed {want : Bool} (done : hiddenCheck t op want left = .ok o) : o.Typed := by
  cases left with
  | literal v type => cases done
  | column i =>
    obtain ⟨n, -, answer⟩ := exceptBind_ok done
    cases answer
    apply Outcome.typed_ofList
    intro entry listed
    obtain ⟨cell, -, rfl⟩ := List.mem_map.mp listed
    exact Value.fits_bool _

theorem Scan.row_fits (resolved : resolve t op left right = .ok scan) (excluded : Exclusions)
    (entry : CellId × Nat) :
    (scan.row t excluded entry).1.2.Fits (scan.op.resultType scan.type) := by
  rw [row]
  cases scan.operands? t excluded entry.1 entry.2 with
  | none => exact scan.op.skipped_fits scan.type
  | some pair =>
    obtain ⟨a, b⟩ := pair
    change (scan.combine a b).1.Fits _
    rw [combine_fst]
    split
    · rename_i conform
      obtain ⟨left, right⟩ := Bool.and_eq_true_iff.mp conform
      obtain ⟨v, applied, fits⟩ := exists_apply resolved left right
      rw [applied]
      exact fits
    · exact .inl rfl

theorem Scan.outcome_typed (resolved : resolve t op left right = .ok scan) :
    (scan.outcome t).Typed := by
  apply Outcome.typed_ofList
  intro entry listed
  obtain ⟨row, there, rfl⟩ := List.mem_map.mp listed
  obtain ⟨cell, -, rfl⟩ := List.mem_map.mp there
  exact row_fits resolved (t.exclusions scan.column) cell

theorem BinaryOp.result_typed (done : op.result t left right = .ok o) : o.Typed := by
  rcases result_ok done with ⟨op', want, checked⟩ | ⟨scan, resolved, rfl⟩
  · exact hiddenCheck_typed checked
  · exact Scan.outcome_typed resolved

end Leaves

namespace Expr

variable {t : Tree} {e : Expr} {o : Outcome}

theorem gapless_choice {cond whenTrue otherwise : Expr} {c a b : Outcome}
    (gapless : (choice cond whenTrue otherwise).gapless t = true)
    (condDone : cond.result t = .ok c) (trueDone : whenTrue.result t = .ok a)
    (otherwiseDone : otherwise.result t = .ok b) :
    whenTrue.gapless t = true ∧ otherwise.gapless t = true ∧
      (Outcome.chooseRows c a b).all (·.2.isNone) = true := by
  simp only [Expr.gapless, condDone, trueDone, otherwiseDone, Bool.and_eq_true] at gapless
  exact ⟨gapless.1.1.2, gapless.1.2, gapless.2⟩

theorem result_typed (done : e.result t = .ok o) (gapless : e.gapless t = true) : o.Typed := by
  induction e generalizing o with
  | constant x =>
    cases done
    refine ⟨fun row v found => (by cases found), fun v same => ?_⟩
    cases same
    exact ⟨rfl, Value.fits_bool x⟩
  | binary op left right => exact BinaryOp.result_typed done
  | not inner ih =>
    obtain ⟨a, first, boolean, rfl⟩ := result_not done
    exact (ih first gapless).negate boolean
  | logic op left right =>
    obtain ⟨l, r, -, -, -, -, rfl⟩ := result_logic done
    exact Outcome.join_typed op (t.exclusions 0) l r
  | choice cond whenTrue otherwise _ ihTrue ihOtherwise =>
    obtain ⟨c, a, b, first, second, third, same, rfl⟩ := result_choice done
    obtain ⟨left, right, met⟩ := gapless_choice gapless first second third
    exact (ihTrue second left).chosen (ihOtherwise third right) same met

end Expr

/-- Types are sound. An evaluation that goes through without a gap in a choice stores, in its rows
and its constant, null and values that conform to its declared type, and a constant only where that
type is boolean. In a scan the operator has a value for all pairs that conform to the shared
type. -/
theorem Expr.eval_typed {t : Tree} {e : Expr} {policy : Policy} {s m : EvalState} {o : Outcome}
    (done : e.eval t policy s = .ok o m) (gapless : e.gapless t = true) :
    (∀ row v, o.values.rows.get? row = some v → v = .null ∨ v.conformsTo o.type = true) ∧
    (∀ v, o.values.constant = some v →
      o.type = .bool ∧ (v = .null ∨ v.conformsTo o.type = true)) ∧
    ∀ op left right scan, Scan.resolve t op left right = .ok scan →
      ∀ a b : Value, a.conformsTo scan.type = true → b.conformsTo scan.type = true →
        ∃ v, scan.op.apply a b = .ok v := by
  have typed : o.Typed := result_typed (eval_result done) gapless
  refine ⟨typed.rows, typed.constant, fun op l r scan resolved a b left right => ?_⟩
  obtain ⟨v, applied, -⟩ := Scan.exists_apply resolved left right
  exact ⟨v, applied⟩

def mixedDates : Tree :=
  ((Session.start (.new ⟨0⟩)).run
    [.add 0 (.column 1 "A" (.integer .int64) {}) false,
      .add 1 (.cell (.of 1 1) (.int64 1)) false,
      .add 1 (.cell (.of 1 2) (.int64 0)) false,
      .add 0 (.column 2 "D" .date {}) false,
      .add 4 (.cell (.of 2 1) (.instant ⟨86400, 0, by decide⟩)) false,
      .add 4 (.cell (.of 2 2) (.text "late")) false]).tree

def doubledOrGone : Expr :=
  .choice atLeastOne (.binary .add (.column 4) (.column 4))
    (.binary .subtract (.column 4) (.column 4))

theorem Expr.eval_typed_dates :
    ∃ o m, doubledOrGone.eval mixedDates {} {} = .ok o m ∧ o.type = .timestamp ∧
      o.values.rows.keys = [1, 2] ∧
      ∀ row v, o.values.rows.get? row = some v → v = .null ∨ ∃ i, v = .instant i := by
  have whole : ((doubledOrGone.eval mixedDates {}).run' {}).map (fun o =>
      (o.type, o.values.rows.keys)) = some (.timestamp, [1, 2]) := by decide +kernel
  obtain ⟨o, ends, shape⟩ := Option.map_eq_some_iff.mp whole
  obtain ⟨type, keys⟩ := Prod.mk.inj shape
  obtain ⟨m, done⟩ := exists_ok ends
  refine ⟨o, m, done, type, keys, fun row v found => ?_⟩
  rcases (Expr.eval_typed done (by decide +kernel)).1 row v found with null | conforms
  · exact .inl null
  · rw [type] at conforms
    exact .inr (Value.exists_instant rfl conforms)

end LayeredTable
