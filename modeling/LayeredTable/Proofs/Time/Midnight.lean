import LayeredTable.Cast
import LayeredTable.Proofs.Time.Timestamp

/-! A date that stands alone against timestamps. It is read as the midnight that begins it, as is
its timestamp at midnight of universal time and the timestamp that any other clock shows at that
instant. Main statement: `readInstant_midnight`. -/
namespace LayeredTable

open Text Instant

structure Date.Plain (d : Date) : Prop where
  valid : d.isValid = true
  early : 0 ≤ d.year
  late : d.year ≤ 9999

namespace Instant

/-- What a clock is ahead of universal time or behind it, in whole minutes of less than a day. No
difference at all may be written either way. -/
structure Offset where
  behind : Bool
  hours : Nat
  minutes : Nat
  hours_le : hours ≤ 23
  minutes_le : minutes ≤ 59

namespace Offset

variable (o : Offset)

def seconds : Int :=
  if o.behind then -(o.hours * 3600 + o.minutes * 60) else o.hours * 3600 + o.minutes * 60

def chars : List Char :=
  (if o.behind then '-' else '+') :: paddedDigits 2 o.hours ++ ':' :: paddedDigits 2 o.minutes

theorem seconds_whole : o.seconds % 60 = 0 := by
  rw [seconds]
  split <;> omega

theorem seconds_bounds : -86400 < o.seconds ∧ o.seconds < 86400 := by
  have hours := o.hours_le
  have minutes := o.minutes_le
  rw [seconds]
  split <;> omega

theorem spells_chars : Spells o.chars o.seconds where
  ends := by
    rintro c ⟨⟩
    split <;> decide
  taken := by
    have hours := o.hours_le
    have minutes := o.minutes_le
    have first (rest : List Char) :
        takeDigits 2 2 (paddedDigits 2 o.hours ++ rest) = some (o.hours, rest) :=
      takeDigits_two (by omega) (by decide)
    have second : takeDigits 2 2 (paddedDigits 2 o.minutes) = some (o.minutes, []) :=
      takeDigits_last (by omega) (by decide)
    rw [chars, seconds]
    split <;> simp [takeZone, takeChar, first, second, minutes]
  visible := by
    rw [chars]
    split <;> simp [isBlank]

end Offset

theorem spells_universal : Spells ['Z'] 0 where
  ends := by
    rintro c ⟨⟩
    decide
  taken := by decide
  visible := by simp [isBlank]

/-- A clock that is off by whole minutes shows an instant in full, as long as the year that it shows
has four digits. -/
theorem read_readingAt (t : Instant) (o : Offset)
    (early : 0 ≤ (t.readingAt o.seconds).date.year)
    (late : (t.readingAt o.seconds).date.year ≤ 9999) :
    read ((t.readingAt o.seconds).chars o.chars) = some t := by
  obtain ⟨behind, ahead⟩ := o.seconds_bounds
  refine read_chars (t.fits_readingAt _) early late o.spells_chars ?_
  exact t.ofReading?_readingAt o.seconds o.seconds_whole behind ahead (by omega) (by omega)

end Instant

theorem Date.chars_midnight (d : Date) :
    d.chars ++ ['T', '0', '0', ':', '0', '0', ':', '0', '0', 'Z'] =
      Reading.chars ['Z'] ⟨d, 0, 0, 0, 0, 0⟩ := by
  have zeros : paddedDigits 2 0 = ['0', '0'] := by decide +kernel
  simp [Reading.chars, zeros, fractionChars]

namespace Date.Plain

variable {d : Date} (plain : d.Plain)

include plain

theorem dayNumber_bounds : -719528 ≤ d.dayNumber ∧ d.dayNumber < 2932897 := by
  have first := le_dayNumber_year plain.valid
  have last := dayNumber_lt_year plain.valid
  have begun := daysBeforeYear_mono plain.early
  have ended := daysBeforeYear_mono (Int.add_le_add_right plain.late 1)
  have start : daysBeforeYear 0 = 0 := rfl
  have past : daysBeforeYear (9999 + 1) = 3652425 := rfl
  have epoch : epoch = 719528 := rfl
  omega

def midnight : Instant where
  seconds := d.dayNumber * 86400
  nanos := 0
  valid := by
    have bounds := plain.dayNumber_bounds
    unfold Instant.Valid
    omega

theorem reading_midnight : plain.midnight.reading = ⟨d, 0, 0, 0, 0, 0⟩ := by
  have day : d.dayNumber * 86400 / 86400 = d.dayNumber := Int.mul_ediv_cancel _ (by decide)
  have start : d.dayNumber * 86400 % 86400 = 0 := Int.mul_emod_left _ _
  simp [Instant.reading, midnight, day, start, ofDayNumber_dayNumber plain.valid]

theorem fits_midnight : Reading.Fits ⟨d, 0, 0, 0, 0, 0⟩ :=
  plain.reading_midnight ▸ plain.midnight.fits_reading

theorem ofReading?_midnight :
    Instant.ofReading? ⟨d, 0, 0, 0, 0, 0⟩ = some plain.midnight :=
  plain.reading_midnight ▸ plain.midnight.ofReading?_reading

/-- A date alone is no timestamp, since no time of day follows, and is then read as a date. -/
theorem read_chars : Instant.read d.chars = some plain.midnight := by
  have fits := plain.fits_midnight
  have month (rest : List Char) : takeDigits 2 2 (paddedDigits 2 d.month ++ rest) =
      some (d.month, rest) := takeDigits_two fits.month (by decide)
  have day : takeDigits 2 2 (paddedDigits 2 d.day) = some (d.day, []) :=
    takeDigits_last fits.day (by decide)
  have stamp : readTimestamp d.chars = none := by
    simp [readTimestamp, chars, takeDigits_year plain.early plain.late, takeChar, month, day,
      takeSeparator]
  have date : takeDate id d.chars = some (d, []) := by
    have dashes (cs : List Char) : id ('-' :: cs) = '-' :: cs := rfl
    have taken := takeDate_chars dashes fits.month fits.day []
    rwa [List.append_nil] at taken
  have alone : readDate d.chars = some plain.midnight := by
    simp [readDate, date, plain.ofReading?_midnight]
  rw [Instant.read, stamp, alone, Option.none_or]

theorem read_universal : Instant.read (Reading.chars ['Z'] ⟨d, 0, 0, 0, 0, 0⟩) =
    some plain.midnight :=
  Instant.read_chars plain.fits_midnight plain.early plain.late spells_universal
    plain.ofReading?_midnight

end Date.Plain

/-- An instant that can be read is read with blanks around it, too. -/
theorem readInstant_of_read {front cs back : List Char} {t : Instant}
    (leading : ∀ c ∈ front, isBlank c = true) (trailing : ∀ c ∈ back, isBlank c = true)
    (visible : Visible cs) (known : Instant.read cs = some t) :
    readInstant (.ofList (front ++ cs ++ back)) = .ok t := by
  rw [readInstant, String.toList_ofList, trim_append leading trailing visible, known]

/-- A date alone, the midnight of universal time that begins it and the same instant on any clock
whose date is written with four digits for the year are read as one instant, with or without blanks
around them. Of two dates the earlier is read as the earlier instant, by whole days. -/
theorem readInstant_midnight :
    (∀ d : Date, d.Plain → ∃ t : Instant, t.reading = ⟨d, 0, 0, 0, 0, 0⟩ ∧
      ∀ front back : List Char,
        (∀ c ∈ front, isBlank c = true) → (∀ c ∈ back, isBlank c = true) →
        readInstant (.ofList (front ++ d.chars ++ back)) = .ok t ∧
        readInstant (.ofList (front ++
          (d.chars ++ ['T', '0', '0', ':', '0', '0', ':', '0', '0', 'Z']) ++ back)) = .ok t ∧
        ∀ o : Instant.Offset, 0 ≤ (t.readingAt o.seconds).date.year →
          (t.readingAt o.seconds).date.year ≤ 9999 →
          readInstant (.ofList (front ++ (t.readingAt o.seconds).chars o.chars ++ back)) =
            .ok t) ∧
    ∀ d e : Date, d.Plain → e.Plain → d.Before e → ∃ t u : Instant,
      readInstant (.ofList d.chars) = .ok t ∧ readInstant (.ofList e.chars) = .ok u ∧
      ∃ days : Nat, 0 < days ∧ u.seconds = t.seconds + days * 86400 := by
  constructor
  · intro d plain
    refine ⟨plain.midnight, plain.reading_midnight, ?_⟩
    intro front back leading trailing
    refine ⟨?_, ?_, fun o early late => ?_⟩
    · exact readInstant_of_read leading trailing (visible_date d) plain.read_chars
    · rw [d.chars_midnight]
      have visible := Reading.visible_chars ⟨d, 0, 0, 0, 0, 0⟩ spells_universal.visible
      exact readInstant_of_read leading trailing visible plain.read_universal
    · have visible := Reading.visible_chars (plain.midnight.readingAt o.seconds)
        o.spells_chars.visible
      exact readInstant_of_read leading trailing visible (read_readingAt _ o early late)
  · intro d e plain plain' before
    have alone (d : Date) (plain : d.Plain) :
        readInstant (.ofList d.chars) = .ok plain.midnight := by
      have read := @readInstant_of_read [] d.chars [] _ (by simp) (by simp) (visible_date d)
        plain.read_chars
      rwa [List.nil_append, List.append_nil] at read
    have later := Date.dayNumber_lt_of_before plain.valid plain'.valid before
    refine ⟨plain.midnight, plain'.midnight, alone d plain, alone e plain',
      (e.dayNumber - d.dayNumber).toNat, by omega, ?_⟩
    simp only [Date.Plain.midnight]
    omega

/-- The start of March after a leap day, which a clock far enough behind still shows, and the same
start in a century without a leap day. -/
theorem readInstant_midnight_march :
    let march : Instant := ⟨951868800, 0, by decide⟩
    readInstant "\u3000 2000-03-01\n" = .ok march ∧
      readInstant "2000-03-01T00:00:00Z" = .ok march ∧
      readInstant "2000-02-29T00:01:00-23:59" = .ok march ∧
      ∃ t u : Instant, readInstant "1900-02-28" = .ok t ∧ readInstant "1900-03-01" = .ok u ∧
        ∃ days : Nat, 0 < days ∧ u.seconds = t.seconds + days * 86400 := by
  intro march
  obtain ⟨dates, order⟩ := readInstant_midnight
  obtain ⟨t, reading, texts⟩ := dates ⟨2000, 3, 1⟩ ⟨by decide, by decide, by decide⟩
  have same : t = march := by
    have named := t.ofReading?_reading
    have known : Instant.ofReading? ⟨⟨2000, 3, 1⟩, 0, 0, 0, 0, 0⟩ = some march := by
      decide +kernel
    rw [reading, known] at named
    exact (Option.some.inj named).symm
  let behind : Instant.Offset := ⟨true, 23, 59, by decide, by decide⟩
  have spaced : String.ofList (['\u3000', ' '] ++ Date.chars ⟨2000, 3, 1⟩ ++ ['\n']) =
      "\u3000 2000-03-01\n" := by decide +kernel
  have stamped : String.ofList ([] ++ (Date.chars ⟨2000, 3, 1⟩ ++
      ['T', '0', '0', ':', '0', '0', ':', '0', '0', 'Z']) ++ []) =
      "2000-03-01T00:00:00Z" := by decide +kernel
  have shifted : String.ofList ([] ++ (t.readingAt behind.seconds).chars behind.chars ++ []) =
      "2000-02-29T00:01:00-23:59" := by
    rw [same]
    decide +kernel
  have february : String.ofList (Date.chars ⟨1900, 2, 28⟩) = "1900-02-28" := by decide +kernel
  have first : String.ofList (Date.chars ⟨1900, 3, 1⟩) = "1900-03-01" := by decide +kernel
  obtain ⟨date, -, -⟩ := texts ['\u3000', ' '] ['\n'] (by simp [isBlank])
    (by simp [isBlank])
  obtain ⟨-, universal, others⟩ := texts [] [] (by simp) (by simp)
  have elsewhere := others behind (by rw [same]; decide +kernel) (by rw [same]; decide +kernel)
  have ordered := order ⟨1900, 2, 28⟩ ⟨1900, 3, 1⟩ ⟨by decide, by decide, by decide⟩
    ⟨by decide, by decide, by decide⟩ (by decide)
  rw [spaced, same] at date
  rw [stamped, same] at universal
  rw [shifted, same] at elsewhere
  rw [february, first] at ordered
  exact ⟨date, universal, elsewhere, ordered⟩

end LayeredTable
