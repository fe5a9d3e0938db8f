import LayeredTable.Proofs.Time.Reading

/-! The timestamp grammar against the written form of instants. No two instants are written alike.
What is written is read back as long as the year has four digits; a year with a sign is read under
neither grammar. -/
namespace LayeredTable.Instant

open Text

variable {t u : Instant} {zone : List Char}

def utc : List Char := ['+', '0', '0', ':', '0', '0']

theorem toList_text (t : Instant) : t.text.toList = t.chars utc := by
  rw [text, String.toList_ofList, utc]

section Zone

theorem chars_append (t : Instant) (zone : List Char) : t.chars zone = t.chars [] ++ zone := by
  simp [chars]

/-- Interchange tells instants apart, and another zone is the same for all of them. -/
theorem chars_inj : t.chars zone = u.chars zone ↔ t = u := by
  constructor
  · intro same
    rw [t.chars_append, u.chars_append, List.append_left_inj] at same
    have spelled : t.interchangeText = u.interchangeText := by
      rw [interchangeText, t.chars_append, same, ← u.chars_append, ← interchangeText]
    have read := t.readInterchange_interchangeText
    rw [spelled, u.readInterchange_interchangeText] at read
    exact (Option.some.inj read).symm
  · rintro rfl
    rfl

theorem text_inj : t.text = u.text ↔ t = u := by
  rw [← String.toList_inj, toList_text, toList_text, chars_inj]

theorem visible_yearChars (year : Int) : Visible (yearChars year) := by
  rw [yearChars]
  split
  · exact visible_paddedDigits _ _
  · split <;> simp [isBlank]

theorem visible_fractionChars (nanos : Nat) : Visible (fractionChars nanos) := by
  unfold fractionChars
  split
  · exact visible_nil
  · split
    · simp [isBlank]
    · split <;> simp [isBlank]

theorem visible_date (d : Date) : Visible d.chars := by
  simp [Date.chars, visible_yearChars, isBlank]

/-- A reading is written without blanks. -/
theorem Reading.visible_chars (r : Reading) (visible : Visible zone) : Visible (r.chars zone) := by
  simp [Reading.chars, visible_date, visible_fractionChars, visible, isBlank]

structure Spells (zone : List Char) (offset : Int) : Prop where
  ends : ∀ c ∈ zone.head?, c ≠ '.' ∧ isDigit c = false
  taken : takeZone (takeChar ':') zone = some (offset, [])
  visible : Visible zone

theorem spells_utc : Spells utc 0 where
  ends := by
    rintro c ⟨⟩
    decide
  taken := by decide
  visible := by simp [utc, isBlank]

theorem trim_chars (t : Instant) : trim (t.chars utc) = t.chars utc :=
  trim_of_visible (t.reading.visible_chars spells_utc.visible)

end Zone

section Fields

/-- With four digits for the year all fields have their fixed width, and the grammar reads them one
by one. -/
theorem readTimestamp_chars {r : Reading} (fits : r.Fits) (early : 0 ≤ r.date.year)
    (late : r.date.year ≤ 9999) (spelled : Spells zone r.offset) :
    readTimestamp (r.chars zone) = ofReading? r := by
  have year := takeDigits_year early late
  have field {n : Nat} {rest : List Char} (two : n < 100) :
      takeDigits 2 2 (paddedDigits 2 n ++ rest) = some (n, rest) :=
    takeDigits_two two (by decide)
  have fraction := takeFraction_fractionChars fits.nanos spelled.ends
  have named : readTimestamp (r.chars zone) =
      ofReading? { r with date.year := r.date.year.toNat } := by
    simp [Reading.chars, Date.chars, readTimestamp, year, takeSeparator, takeChar, field,
      fits.month, fits.day, fits.hour, fits.minute, fits.second, fraction, spelled.taken]
  rw [named, Int.toNat_of_nonneg early]

theorem read_chars {r : Reading} (fits : r.Fits) (early : 0 ≤ r.date.year)
    (late : r.date.year ≤ 9999) (spelled : Spells zone r.offset) (named : ofReading? r = some t) :
    read (r.chars zone) = some t := by
  rw [read, readTimestamp_chars fits early late spelled, named, Option.some_or]

variable (t)

/-- A sign before the year is none of the four digits that a timestamp starts with, and a date is
not all that is written. -/
theorem read_text_of_signed (signed : ¬ (0 ≤ t.reading.date.year ∧ t.reading.date.year ≤ 9999)) :
    read (t.chars utc) = none := by
  have stamp : readTimestamp (t.chars utc) = none := by
    have first : ∃ c cs, t.chars utc = c :: cs ∧ isDigit c = false := by
      rw [chars, yearChars, if_neg signed]
      split <;> exact ⟨_, _, rfl, by decide⟩
    obtain ⟨c, cs, same, other⟩ := first
    simp [same, readTimestamp, takeDigits, other]
  have date : readDate (t.chars utc) = none := by
    have dashes (cs : List Char) : id ('-' :: cs) = '-' :: cs := rfl
    have fits := t.fits_reading
    simp [chars_eq, Reading.chars, readDate, takeDate_chars dashes fits.month fits.day]
  rw [read, stamp, date, Option.or_none]

/-- An instant is read back from its text exactly if its year has four digits. -/
theorem read_text_iff : read (t.chars utc) = some t ↔
    0 ≤ t.reading.date.year ∧ t.reading.date.year ≤ 9999 := by
  constructor
  · intro done
    by_cases years : 0 ≤ t.reading.date.year ∧ t.reading.date.year ≤ 9999
    · exact years
    · rw [t.read_text_of_signed years] at done
      cases done
  · rintro ⟨early, late⟩
    exact read_chars t.fits_reading early late spells_utc t.ofReading?_reading

end Fields
end LayeredTable.Instant
