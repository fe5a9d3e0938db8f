import LayeredTable.Time.Calendar

/-! Days and dates stand for each other. The year of a day is the one whose first day is the last
not after it, the month is found among the lengths of that year's months, and the date that comes
out is valid and has the day's number. Of two valid dates the earlier one has the smaller number, so
a valid date is the one of its day. -/
namespace LayeredTable.Date

def daysIn (lengths : List Nat) : Nat := lengths.foldr (· + ·) 0

theorem daysIn_cons (length : Nat) (rest : List Nat) :
    daysIn (length :: rest) = length + daysIn rest := rfl

theorem daysBeforeMonth_eq (leap : Bool) (month : Nat) :
    daysBeforeMonth leap month = daysIn ((monthLengths leap).take (month - 1)) := rfl

theorem daysIn_monthLengths (leap : Bool) :
    daysIn (monthLengths leap) = if leap then 366 else 365 := by
  cases leap <;> rfl

/-- A year has the days of its months. -/
theorem daysBeforeYear_succ (year : Int) :
    daysBeforeYear (year + 1) = daysBeforeYear year + daysIn (monthLengths (isLeap year)) := by
  have fours : (year + 1 + 3) / 4 = (year + 3) / 4 + if year % 4 = 0 then 1 else 0 := by
    split <;> omega
  have centuries :
      (year + 1 + 99) / 100 = (year + 99) / 100 + if year % 100 = 0 then 1 else 0 := by
    split <;> omega
  have cycles :
      (year + 1 + 399) / 400 = (year + 399) / 400 + if year % 400 = 0 then 1 else 0 := by
    split <;> omega
  have leap : isLeap year = (year % 4 = 0 ∧ (year % 100 ≠ 0 ∨ year % 400 = 0)) := by
    simp [isLeap]
  rw [daysBeforeYear, daysBeforeYear, fours, centuries, cycles, daysIn_monthLengths]
  simp only [leap]
  split <;> split <;> split <;> split <;> omega

theorem daysBeforeYear_yearOfDay (n : Int) : daysBeforeYear (yearOfDay n) ≤ n := by
  obtain ⟨guess, same⟩ : ∃ guess, guess = n * 400 / 146097 := ⟨_, rfl⟩
  simp only [yearOfDay, ← same]
  split
  · unfold daysBeforeYear
    omega
  · split <;> omega

theorem lt_daysBeforeYear_yearOfDay (n : Int) : n < daysBeforeYear (yearOfDay n + 1) := by
  obtain ⟨guess, same⟩ : ∃ guess, guess = n * 400 / 146097 := ⟨_, rfl⟩
  simp only [yearOfDay, ← same]
  split
  · rwa [Int.sub_add_cancel]
  · split
    · unfold daysBeforeYear
      omega
    · omega

theorem daysBeforeYear_mono {year later : Int} (before : year ≤ later) :
    daysBeforeYear year ≤ daysBeforeYear later := by
  unfold daysBeforeYear
  omega

/-- A year has begun by a day if its first day is not after it. -/
theorem le_yearOfDay_iff {year n : Int} : year ≤ yearOfDay n ↔ daysBeforeYear year ≤ n := by
  constructor
  · intro before
    exact Int.le_trans (daysBeforeYear_mono before) (daysBeforeYear_yearOfDay n)
  · intro begun
    refine Int.not_lt.mp fun after => ?_
    have next := lt_daysBeforeYear_yearOfDay n
    have := daysBeforeYear_mono (Int.add_one_le_of_lt after)
    omega

/-- The month found is one of those listed, the day one of its days, and the days of the months
passed over are what the day of the month leaves of `n`. -/
theorem monthDay_spec {lengths : List Nat} {n : Nat} (month : Nat) (inside : n < daysIn lengths) :
    ∃ i, ∃ found : i < lengths.length, ∃ day,
      monthDay month lengths n = (month + i, day + 1) ∧ day < lengths[i] ∧
        daysIn (lengths.take i) + day = n := by
  induction lengths generalizing month n with
  | nil => exact absurd inside (Nat.not_lt_zero n)
  | cons length rest ih =>
    rw [monthDay]
    split
    · rename_i here
      exact ⟨0, Nat.succ_pos _, n, rfl, here, Nat.zero_add n⟩
    · rename_i later
      rw [daysIn_cons] at inside
      obtain ⟨i, found, day, reached, bound, total⟩ :=
        ih (month + 1) (n := n - length) (by omega)
      refine ⟨i + 1, by simpa using found, day, ?_, by simpa using bound, ?_⟩
      · rw [reached]
        congr 1
        omega
      · rw [List.take_succ_cons, daysIn_cons]
        omega

variable (n : Int)

/-- The date of a day in full: a month and a day of its year, and the days before them. -/
theorem ofDayNumber_spec :
    ∃ year : Int, ∃ i, ∃ found : i < (monthLengths (isLeap year)).length, ∃ day,
      ofDayNumber n = ⟨year, i + 1, day + 1⟩ ∧ day < (monthLengths (isLeap year))[i] ∧
        daysBeforeYear year + daysIn ((monthLengths (isLeap year)).take i) + day = n + epoch := by
  have lower := daysBeforeYear_yearOfDay (n + epoch)
  have upper := lt_daysBeforeYear_yearOfDay (n + epoch)
  rw [daysBeforeYear_succ] at upper
  have inside : (n + epoch - daysBeforeYear (yearOfDay (n + epoch))).toNat <
      daysIn (monthLengths (isLeap (yearOfDay (n + epoch)))) := by omega
  obtain ⟨i, found, day, reached, bound, total⟩ := monthDay_spec 1 inside
  refine ⟨yearOfDay (n + epoch), i, found, day, ?_, bound, by omega⟩
  rw [ofDayNumber, reached, Nat.add_comm 1 i]

theorem isValid_ofDayNumber : (ofDayNumber n).isValid = true := by
  obtain ⟨year, i, found, day, same, bound, -⟩ := ofDayNumber_spec n
  have months : (monthLengths (isLeap year)).length = 12 := rfl
  simp only [same, isValid, Nat.add_sub_cancel, Bool.and_eq_true, decide_eq_true_eq,
    List.getD_eq_getElem?_getD, List.getElem?_eq_getElem found, Option.getD_some]
  omega

theorem day_le (n : Int) : (ofDayNumber n).day ≤ 31 := by
  obtain ⟨year, i, found, day, same, bound, -⟩ := ofDayNumber_spec n
  have longest (leap : Bool) : ∀ length ∈ monthLengths leap, length ≤ 31 := by
    cases leap <;> decide
  have short := longest _ _ (List.getElem_mem found)
  simp only [same]
  omega

theorem dayNumber_ofDayNumber : (ofDayNumber n).dayNumber = n := by
  obtain ⟨year, i, found, day, same, -, total⟩ := ofDayNumber_spec n
  simp only [same, dayNumber, daysBeforeMonth_eq, Nat.add_sub_cancel]
  omega

section Order

theorem daysIn_take_succ (lengths : List Nat) (i : Nat) :
    daysIn (lengths.take (i + 1)) = daysIn (lengths.take i) + lengths.getD i 0 := by
  induction lengths generalizing i with
  | nil => cases i <;> rfl
  | cons length rest ih =>
    cases i with
    | zero => exact Nat.add_comm length 0
    | succ i =>
      rw [List.take_succ_cons, List.take_succ_cons, daysIn_cons, daysIn_cons, ih,
        List.getD_cons_succ, Nat.add_assoc]

theorem daysIn_take_mono (lengths : List Nat) {i j : Nat} (before : i ≤ j) :
    daysIn (lengths.take i) ≤ daysIn (lengths.take j) := by
  induction before with
  | refl => exact Nat.le_refl _
  | step _ ih =>
    rw [daysIn_take_succ]
    exact Nat.le_add_right_of_le ih

theorem daysBeforeMonth_mono (leap : Bool) {month later : Nat} (before : month ≤ later) :
    daysBeforeMonth leap month ≤ daysBeforeMonth leap later :=
  daysIn_take_mono (monthLengths leap) (Nat.sub_le_sub_right before 1)

theorem isValid_iff {d : Date} : d.isValid = true ↔ 1 ≤ d.month ∧ d.month ≤ 12 ∧ 1 ≤ d.day ∧
    d.day ≤ (monthLengths (isLeap d.year)).getD (d.month - 1) 0 := by
  simp [isValid, and_assoc]

def dayOfYear (d : Date) : Nat := daysBeforeMonth (isLeap d.year) d.month + (d.day - 1)

/-- Dates come in the order of their years, then of their months, then of their days. -/
def Before (d e : Date) : Prop :=
  d.year < e.year ∨ d.year = e.year ∧ (d.month < e.month ∨ d.month = e.month ∧ d.day < e.day)

instance (d e : Date) : Decidable (d.Before e) := inferInstanceAs (Decidable (_ ∨ _))

variable {d e : Date} (valid : d.isValid = true) (valid' : e.isValid = true)

include valid

theorem dayNumber_eq : d.dayNumber = daysBeforeYear d.year + d.dayOfYear - epoch := by
  have day := (isValid_iff.mp valid).2.2.1
  rw [dayNumber, dayOfYear]
  omega

/-- A date is one of the days of its month. -/
theorem dayOfYear_lt_month : d.dayOfYear < daysBeforeMonth (isLeap d.year) (d.month + 1) := by
  obtain ⟨month, -, day, days⟩ := isValid_iff.mp valid
  have next := daysIn_take_succ (monthLengths (isLeap d.year)) (d.month - 1)
  rw [Nat.sub_add_cancel month] at next
  rw [dayOfYear, daysBeforeMonth_eq, daysBeforeMonth_eq, Nat.add_sub_cancel, next]
  omega

/-- A date is one of the days of its year. -/
theorem dayNumber_lt_year : d.dayNumber < daysBeforeYear (d.year + 1) - epoch := by
  have inside := dayOfYear_lt_month valid
  have month : d.month + 1 ≤ 13 := Nat.succ_le_succ (isValid_iff.mp valid).2.1
  have months := daysBeforeMonth_mono (isLeap d.year) month
  have all : daysBeforeMonth (isLeap d.year) 13 = daysIn (monthLengths (isLeap d.year)) := rfl
  rw [dayNumber_eq valid, daysBeforeYear_succ]
  omega

theorem le_dayNumber_year : daysBeforeYear d.year - epoch ≤ d.dayNumber := by
  rw [dayNumber_eq valid]
  omega

include valid'

/-- Days come in the order of their dates: the rest of a year is before the next, and the rest of a
month before the next of that year. -/
theorem dayNumber_lt_of_before (before : d.Before e) : d.dayNumber < e.dayNumber := by
  rcases before with years | ⟨year, months | ⟨month, days⟩⟩
  · have last := dayNumber_lt_year valid
    have first := le_dayNumber_year valid'
    have between := daysBeforeYear_mono (Int.add_one_le_of_lt years)
    omega
  · have last := dayOfYear_lt_month valid
    have first : daysBeforeMonth (isLeap e.year) e.month ≤ e.dayOfYear := Nat.le_add_right _ _
    have between := daysBeforeMonth_mono (isLeap e.year) (Nat.add_one_le_of_lt months)
    rw [year] at last
    rw [dayNumber_eq valid, dayNumber_eq valid', year]
    omega
  · have day := (isValid_iff.mp valid).2.2.1
    rw [dayNumber_eq valid, dayNumber_eq valid', dayOfYear, dayOfYear, year, month]
    omega

/-- No two valid dates are the same day. -/
theorem eq_of_dayNumber (same : d.dayNumber = e.dayNumber) : d = e := by
  have forward : ¬ d.Before e := fun before =>
    Int.ne_of_lt (dayNumber_lt_of_before valid valid' before) same
  have backward : ¬ e.Before d := fun before =>
    Int.ne_of_lt (dayNumber_lt_of_before valid' valid before) same.symm
  obtain ⟨year, month, day⟩ := d
  obtain ⟨year', month', day'⟩ := e
  simp only [Before, not_or, not_and] at forward backward
  rw [mk.injEq]
  omega

omit valid'

/-- A valid date is the date of its day. -/
theorem ofDayNumber_dayNumber : ofDayNumber d.dayNumber = d :=
  eq_of_dayNumber (isValid_ofDayNumber _) valid (dayNumber_ofDayNumber _)

end Order

end LayeredTable.Date
