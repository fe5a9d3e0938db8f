import LayeredTable.Proofs.State
import LayeredTable.Value

/-! How values compare. Values of one kind other than null do, and no others. Floating-point numbers
apart, the order of a kind is that of the keys of its values; only instants share keys, those
within one second. Main statement: `Value.order_laws`. -/
namespace LayeredTable

theorem Binary.order_swap {f : Format} (x y : Binary f) :
    y.order x = (x.order y).map Ordering.swap := by
  have ranks : compare y.rank x.rank = (compare x.rank y.rank).swap := Std.OrientedCmp.eq_swap
  rw [order, order, Bool.or_comm, ranks]
  split <;> rfl

namespace Value

variable {a b c : Value}

section Comparable

/-- Values of one kind other than null are comparable. -/
theorem exists_order (same : a.kind = b.kind) (some : a ≠ null) :
    ∃ order, a.order b = .ok order := by
  cases a with
  | null => exact absurd rfl some
  | integer j x admitted =>
    cases b <;> cases same
    exact ⟨_, if_pos rfl⟩
  | _ =>
    cases b <;> cases same
    exact ⟨_, rfl⟩

theorem kind_of_order {order : Option Ordering} (known : a.order b = .ok order) :
    a.kind = b.kind ∧ a ≠ null := by
  cases a with
  | null => cases b <;> cases known
  | integer j x _ =>
    cases b with
    | integer k y _ =>
      by_cases same : j = k
      · exact ⟨congrArg FieldType.integer same, nofun⟩
      · simp [Value.order, same] at known
    | _ => cases known
  | _ => cases b <;> first | exact ⟨rfl, nofun⟩ | cases known

theorem error_of_order {e : TypeError} (failed : a.order b = .error e) :
    e = .incomparable a.kind b.kind := by
  unfold order at failed
  split at failed
  · cases failed
  · split at failed <;> cases failed
    rfl
  all_goals cases failed
  rfl

/-- A comparison is refused only for the kinds of its sides. -/
theorem order_eq_error_iff {e : TypeError} : a.order b = .error e ↔
    (a.kind ≠ b.kind ∨ a = null ∨ b = null) ∧ e = .incomparable a.kind b.kind := by
  constructor
  · intro failed
    refine ⟨Classical.byContradiction fun comparable => ?_, error_of_order failed⟩
    simp only [not_or, Classical.not_not] at comparable
    obtain ⟨order, known⟩ := exists_order comparable.1 comparable.2.1
    rw [failed] at known
    cases known
  · rintro ⟨apart, rfl⟩
    cases known : a.order b with
    | error e => rw [error_of_order known]
    | ok order =>
      obtain ⟨same, some⟩ := kind_of_order known
      rcases apart with other | none | rfl
      · exact absurd same other
      · exact absurd none some
      · cases a <;> first | exact absurd rfl some | cases same

theorem order_swap (a b : Value) :
    (b.order a).toOption = (a.order b).toOption.map (Option.map Ordering.swap) := by
  have exchanged {α : Type} [Ord α] [Std.OrientedOrd α] (x y : α) :
      some (some (compare y x)) =
        (some (some (compare x y))).map (Option.map Ordering.swap) :=
    congrArg (some ∘ some) Std.OrientedCmp.eq_swap
  cases a with
  | null => cases b <;> rfl
  | bool x =>
    cases b with
    | bool y => exact exchanged x y
    | _ => rfl
  | integer j x _ =>
    cases b with
    | integer k y _ =>
      by_cases same : j = k
      · subst same
        simpa [order, Except.toOption] using exchanged x y
      · simp [order, Except.toOption, same, Ne.symm same]
    | _ => rfl
  | float32 x =>
    cases b with
    | float32 y => exact congrArg some (x.order_swap y)
    | _ => rfl
  | float64 x =>
    cases b with
    | float64 y => exact congrArg some (x.order_swap y)
    | _ => rfl
  | text x =>
    cases b with
    | text y => exact exchanged x y
    | _ => rfl
  | instant x =>
    cases b with
    | instant y => exact exchanged x.seconds y.seconds
    | _ => rfl

end Comparable

section Keys

/-- The number in the key of a value: of instants their seconds, and none for texts. -/
def number : Value → Int
  | bool b => if b then 1 else 0
  | integer _ n _ => n
  | instant t => t.seconds
  | _ => 0

def letters : Value → String
  | text s => s
  | _ => ""

def compareKeys : Value → Value → Ordering := compareLex (compareOn number) (compareOn letters)

instance : Std.TransCmp compareKeys :=
  inferInstanceAs (Std.TransCmp (compareLex (compareOn number) (compareOn letters)))

theorem order_eq_compareKeys (same : a.kind = b.kind) (plain : a ≠ null)
    (exact : a.kind.isFloat = false) : a.order b = .ok (some (a.compareKeys b)) := by
  cases a with
  | null => exact absurd rfl plain
  | bool x =>
    cases b <;> cases same
    rename_i y
    cases x <;> cases y <;> rfl
  | float32 | float64 => cases exact
  | integer | text | instant =>
    cases b <;> cases same
    simp [order, compareKeys, compareLex, compareOn, number, letters]

/-- Of one kind, no two values have the same key but instants of the same second. -/
theorem compareKeys_eq_iff (same : a.kind = b.kind) (exact : a.kind.isFloat = false) :
    a.compareKeys b = .eq ↔
      a = b ∨ ∃ s, a.epochSeconds? = some s ∧ b.epochSeconds? = some s := by
  have keys : a.compareKeys b = .eq ↔ a.number = b.number ∧ a.letters = b.letters := by
    simp [compareKeys, compareLex, compareOn, Ordering.then_eq_eq]
  rw [keys]
  cases a with
  | null =>
    cases b <;> cases same
    simp
  | bool x =>
    cases b <;> cases same
    rename_i y
    cases x <;> cases y <;> simp [number, letters, epochSeconds?]
  | float32 | float64 => cases exact
  | integer | text =>
    cases b <;> cases same
    simp [number, letters, epochSeconds?]
  | instant x =>
    cases b <;> cases same
    rename_i y
    have seconds (alike : x = y) : y.seconds = x.seconds := alike ▸ rfl
    simpa [number, letters, epochSeconds?, eq_comm] using seconds

/-- Of three values in this order the first two decide, unless they are alike. -/
theorem compareKeys_trans (first : a.compareKeys b ≠ .gt) (second : b.compareKeys c ≠ .gt) :
    a.compareKeys c = (a.compareKeys b).then (b.compareKeys c) := by
  cases ab : a.compareKeys b with
  | gt => exact absurd ab first
  | lt =>
    cases bc : b.compareKeys c with
    | gt => exact absurd bc second
    | lt => exact Std.TransCmp.lt_trans ab bc
    | eq => exact Std.TransCmp.lt_of_lt_of_eq ab bc
  | eq =>
    cases bc : b.compareKeys c with
    | gt => exact absurd bc second
    | lt => exact Std.TransCmp.lt_of_eq_of_lt ab bc
    | eq => exact Std.TransCmp.eq_trans ab bc

end Keys

/-- Two values are refused a comparison exactly if their kinds differ or one of them is null.
Floating-point numbers apart, values of one kind are always in some order, the sides exchanged are
in the order turned around, and what is less or equal goes on to what that is less or equal to.
They are equal in this order only if they are the same or instants of the same second. -/
theorem order_laws :
    (∀ (a b : Value) (e : TypeError), a.order b = .error e ↔
      (a.kind ≠ b.kind ∨ a = null ∨ b = null) ∧ e = .incomparable a.kind b.kind) ∧
    ∀ a b : Value, a.kind = b.kind → a ≠ null → a.kind.isFloat = false →
      ∃ o, a.order b = .ok (some o) ∧ b.order a = .ok (some o.swap) ∧
        (o = .eq ↔ a = b ∨ ∃ s, a.epochSeconds? = some s ∧ b.epochSeconds? = some s) ∧
        ∀ (c : Value) (o' : Ordering), b.order c = .ok (some o') → o ≠ .gt → o' ≠ .gt →
          a.order c = .ok (some (o.then o')) := by
  refine ⟨fun a b e => order_eq_error_iff, fun a b same plain exact => ?_⟩
  have known := order_eq_compareKeys same plain exact
  refine ⟨a.compareKeys b, known, ?_, compareKeys_eq_iff same exact, ?_⟩
  · have turned := order_swap a b
    rw [known] at turned
    exact ok_of_toOption turned
  · intro c o' next first second
    obtain ⟨same', plain'⟩ := kind_of_order next
    have exact' : b.kind.isFloat = false := same ▸ exact
    rw [order_eq_compareKeys same' plain' exact'] at next
    cases next
    rw [order_eq_compareKeys (same.trans same') plain exact, compareKeys_trans first second]

/-- One number of two widths is not compared. The last nanosecond of a second is like its first and
before the next second. -/
theorem order_laws_within_second :
    (integer .int8 1 (by decide)).order (integer .int16 1 (by decide)) =
        .error (.incomparable (.integer .int8) (.integer .int16)) ∧
      (instant ⟨100, 999999999, by decide⟩).order (instant ⟨100, 0, by decide⟩) =
        .ok (some .eq) ∧
      (instant ⟨100, 999999999, by decide⟩).order (instant ⟨101, 0, by decide⟩) =
        .ok (some .lt) := by
  obtain ⟨refused, laws⟩ := order_laws
  have widths : (integer .int8 1 (by decide)).kind ≠ (integer .int16 1 (by decide)).kind := by
    decide
  obtain ⟨o, known, -, alike, onward⟩ := laws (instant ⟨100, 999999999, by decide⟩)
    (instant ⟨100, 0, by decide⟩) rfl nofun rfl
  obtain rfl := alike.mpr (.inr ⟨100, rfl, rfl⟩)
  have next : (instant ⟨100, 0, by decide⟩).order (instant ⟨101, 0, by decide⟩) =
      .ok (some .lt) := rfl
  exact ⟨(refused _ _ _).mpr ⟨.inl widths, rfl⟩, known, onward _ _ next nofun nofun⟩

end Value
end LayeredTable
