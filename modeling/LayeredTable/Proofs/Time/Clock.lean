import LayeredTable.Proofs.Time.Calendar
import LayeredTable.Time.Instant

/-! An instant on clocks ahead of universal time or behind it. Whatever clock it is, the instant
falls on a valid date, and the fields of its reading fit their places. A clock that is off by whole
minutes shows it in full: the instant is the one that the reading names. -/
namespace LayeredTable.Instant

/-- The reading of an instant on a clock that is `offset` seconds ahead of universal time. -/
def readingAt (t : Instant) (offset : Int) : Reading :=
  let seconds := t.seconds + offset
  let ofDay := (seconds % 86400).toNat
  let leap := 1000000000 ≤ t.nanos
  { date := .ofDayNumber (seconds / 86400)
    hour := ofDay / 3600
    minute := ofDay / 60 % 60
    second := if leap then ofDay % 60 + 1 else ofDay % 60
    nanos := if leap then t.nanos - 1000000000 else t.nanos
    offset }

structure Reading.Fits (r : Reading) : Prop where
  month : r.date.month < 100
  day : r.date.day < 100
  hour : r.hour < 100
  minute : r.minute < 100
  second : r.second < 100
  nanos : r.nanos < 1000000000

variable (t : Instant) (offset : Int)

section Anywhere

theorem isValid_date : (t.readingAt offset).date.isValid = true :=
  Date.isValid_ofDayNumber _

theorem dayNumber_date :
    (t.readingAt offset).date.dayNumber = (t.seconds + offset) / 86400 :=
  Date.dayNumber_ofDayNumber _

theorem hour_le : (t.readingAt offset).hour ≤ 23 := by
  simp only [readingAt]
  omega

theorem minute_le : (t.readingAt offset).minute ≤ 59 := by
  simp only [readingAt]
  omega

theorem second_le : (t.readingAt offset).second ≤ 60 := by
  simp only [readingAt]
  split <;> omega

theorem nanos_lt : (t.readingAt offset).nanos < 1000000000 := by
  have valid := t.valid
  simp only [readingAt]
  unfold Valid at valid
  split <;> omega

theorem fits_readingAt : (t.readingAt offset).Fits := by
  have month := (Date.isValid_iff.mp (t.isValid_date offset)).2.1
  have day : (t.readingAt offset).date.day ≤ 31 := Date.day_le _
  have hour := t.hour_le offset
  have minute := t.minute_le offset
  have second := t.second_le offset
  refine ⟨?_, ?_, ?_, ?_, ?_, t.nanos_lt offset⟩ <;> omega

/-- An instant is the one that its reading names. With part of a minute in the offset a leap second
would not end a minute of the clock. -/
theorem ofReading?_readingAt (whole : offset % 60 = 0) (behind : -86400 < offset)
    (ahead : offset < 86400) (early : -262143 ≤ (t.readingAt offset).date.year)
    (late : (t.readingAt offset).date.year ≤ 262142) :
    ofReading? (t.readingAt offset) = some t := by
  obtain ⟨r, same⟩ : ∃ r, t.readingAt offset = r := ⟨_, rfl⟩
  have valid := t.valid
  unfold Valid at valid
  have own : r.offset = offset := same ▸ rfl
  have allowed : (r.date.isValid && -262143 ≤ r.date.year && r.date.year ≤ 262142 &&
      r.hour ≤ 23 && r.minute ≤ 59 && r.second ≤ 60 && -86400 < r.offset &&
      r.offset < 86400) = true := by
    have date := t.isValid_date offset
    have hour := t.hour_le offset
    have minute := t.minute_le offset
    have second := t.second_le offset
    rw [same] at early late date hour minute second
    simp [own, behind, ahead, early, late, date, hour, minute, second]
  have sameSeconds : r.date.dayNumber * 86400 + r.hour * 3600 + r.minute * 60 +
      min r.second 59 - r.offset = t.seconds := by
    rw [own, ← same, dayNumber_date]
    simp only [readingAt]
    split <;> omega
  have sameNanos : (r.nanos + if r.second = 60 then 1000000000 else 0) = t.nanos := by
    rw [← same]
    simp only [readingAt]
    split <;> split <;> omega
  rw [same, ofReading?, if_pos allowed, sameSeconds, sameNanos, of?, dif_pos t.valid]

end Anywhere

section Universal

theorem reading_eq : t.reading = t.readingAt 0 := by
  simp only [reading, readingAt, Int.add_zero]

theorem fits_reading : t.reading.Fits := by
  rw [reading_eq]
  exact t.fits_readingAt 0

/-- The years that instants have are those that readings may have. -/
theorem year_bounds : -262143 ≤ t.reading.date.year ∧ t.reading.date.year ≤ 262142 := by
  obtain ⟨lower, upper, -⟩ := t.valid
  have first : Date.daysBeforeYear (-262143) = -95745764 := rfl
  have past : Date.daysBeforeYear (262142 + 1) = 95745765 := rfl
  have epoch : Date.epoch = 719528 := rfl
  change -262143 ≤ Date.yearOfDay (t.seconds / 86400 + Date.epoch) ∧
    Date.yearOfDay (t.seconds / 86400 + Date.epoch) ≤ 262142
  constructor
  · rw [Date.le_yearOfDay_iff]
    omega
  · refine Int.lt_add_one_iff.mp (Int.not_le.mp fun late => ?_)
    have := Date.le_yearOfDay_iff.mp late
    omega

theorem ofReading?_reading : ofReading? t.reading = some t := by
  obtain ⟨early, late⟩ := t.year_bounds
  rw [reading_eq] at early late ⊢
  exact t.ofReading?_readingAt 0 rfl (by decide) (by decide) early late

end Universal
end LayeredTable.Instant
