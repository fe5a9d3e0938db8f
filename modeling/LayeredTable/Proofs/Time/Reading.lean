import LayeredTable.Proofs.Text.Numeral
import LayeredTable.Proofs.Time.Clock
import LayeredTable.Time.Reading

/-! Instants read back. Each field of a reading is read off the front of its written form, and
interchange reads what it spells. -/
namespace LayeredTable

open Text

def Date.chars (d : Date) : List Char :=
  Instant.yearChars d.year ++ '-' :: paddedDigits 2 d.month ++ '-' :: paddedDigits 2 d.day

namespace Instant

def Reading.chars (zone : List Char) (r : Reading) : List Char :=
  r.date.chars ++
    'T' :: paddedDigits 2 r.hour ++ ':' :: paddedDigits 2 r.minute ++
    ':' :: paddedDigits 2 r.second ++ fractionChars r.nanos ++ zone

/-- An instant is written as its reading on a clock of universal time. -/
theorem chars_eq (zone : List Char) (t : Instant) : t.chars zone = t.reading.chars zone := rfl

variable (t : Instant)

section Text

variable {least most width n : Nat} {rest : List Char}

/-- A run of digits is taken whole, where no more may be taken or another character follows. -/
theorem takeDigits_append {ds : List Char} (digits : ∀ c ∈ ds, isDigit c = true)
    (enough : least ≤ ds.length) (short : ds.length ≤ most)
    (ends : ds.length = most ∨ ∀ c ∈ rest.head?, isDigit c = false) :
    takeDigits least most (ds ++ rest) = some (digitsValue ds, rest) := by
  have run : ((ds ++ rest).take most).takeWhile isDigit = ds := by
    rw [List.take_append, List.take_of_length_le short, List.takeWhile_append_of_pos digits]
    rcases ends with full | other
    · simp [full]
    · cases rest with
      | nil => simp
      | cons c rest =>
        have : isDigit c = false := other c rfl
        cases most - ds.length <;> simp [this]
  simp [takeDigits, run, enough]

theorem takeDigits_paddedDigits (positive : 0 < width) (fits : n < pow10 width)
    (enough : least ≤ width) :
    takeDigits least width (paddedDigits width n ++ rest) = some (n, rest) := by
  have length := length_paddedDigits positive fits
  rw [takeDigits_append (fun _ => isDigit_of_mem_paddedDigits) (by omega) (by omega)
    (.inl length), digitsValue_paddedDigits]

theorem takeDigits_two (fits : n < 100) (enough : least ≤ 2) :
    takeDigits least 2 (paddedDigits 2 n ++ rest) = some (n, rest) :=
  takeDigits_paddedDigits (by decide) fits enough

/-- Two digits that end a text. -/
theorem takeDigits_last (fits : n < 100) (enough : least ≤ 2) :
    takeDigits least 2 (paddedDigits 2 n) = some (n, []) := by
  have taken := @takeDigits_two least n [] fits enough
  rwa [List.append_nil] at taken

/-- A year without a sign has four digits. -/
theorem takeDigits_year {year : Int} (early : 0 ≤ year) (late : year ≤ 9999)
    (rest : List Char) : takeDigits 4 4 (yearChars year ++ rest) = some (year.toNat, rest) := by
  have small : year.toNat < 10000 := by omega
  rw [yearChars, if_pos ⟨early, late⟩]
  exact takeDigits_paddedDigits (by decide) small (by decide)

/-- Digits are in nobody's way who skips blanks. -/
theorem trimStart_paddedDigits :
    trimStart (paddedDigits width n ++ rest) = paddedDigits width n ++ rest := by
  obtain ⟨c, cs, same, digit⟩ := exists_cons_paddedDigits width n
  rw [same, List.cons_append, trimStart,
    List.dropWhile_cons_of_neg (by simp [isBlank_of_isDigit digit])]

theorem trimStart_yearChars (year : Int) :
    trimStart (yearChars year ++ rest) = yearChars year ++ rest := by
  rw [yearChars]
  split
  · exact trimStart_paddedDigits
  · split <;> exact List.dropWhile_cons_of_neg (by decide)

/-- Without a sign a year has four digits at most. -/
theorem takeYear_of_isDigit {c : Char} (digit : isDigit c = true) (cs : List Char) :
    takeYear (c :: cs) = (takeDigits 1 4 (c :: cs)).map fun (n, cs) => ((n : Int), cs) := by
  unfold takeYear
  split
  · rename_i minus
    rw [(List.cons.inj minus).1] at digit
    exact absurd digit (by decide)
  · rename_i plus
    rw [(List.cons.inj plus).1] at digit
    exact absurd digit (by decide)
  · rfl

/-- A year ends at the minus before the month. -/
theorem takeYear_yearChars (year : Int) :
    takeYear (yearChars year ++ '-' :: rest) = some (year, '-' :: rest) := by
  have signed : takeDigits 1 (paddedDigits 4 year.natAbs ++ '-' :: rest).length
      (paddedDigits 4 year.natAbs ++ '-' :: rest) = some (year.natAbs, '-' :: rest) := by
    have long := le_length_paddedDigits 4 year.natAbs
    rw [takeDigits_append (fun _ => isDigit_of_mem_paddedDigits) (by omega) (by simp)
      (.inr (by rintro c ⟨⟩; decide)), digitsValue_paddedDigits]
  rw [yearChars]
  split
  · rename_i years
    have small : year.toNat < 10000 := by omega
    have unsigned : takeDigits 1 4 (paddedDigits 4 year.toNat ++ '-' :: rest) =
        some (year.toNat, '-' :: rest) :=
      takeDigits_paddedDigits (by decide) small (by decide)
    obtain ⟨c, cs, same, digit⟩ := exists_cons_paddedDigits 4 year.toNat
    rw [same, List.cons_append] at unsigned ⊢
    rw [takeYear_of_isDigit digit, unsigned]
    simp only [Option.map_some, Int.toNat_of_nonneg years.1]
  · split <;> simp only [List.cons_append, takeYear, signed, Option.map_some] <;>
      congr 2 <;> omega

/-- A date is read up to what follows its day, whether or not blanks may stand in it. -/
theorem takeDate_chars {blanks : List Char → List Char} {date : Date}
    (passes : ∀ cs, blanks ('-' :: cs) = '-' :: cs) (month : date.month < 100)
    (day : date.day < 100) (rest : List Char) :
    takeDate blanks (date.chars ++ rest) = some (date, rest) := by
  simp [takeDate, Date.chars, trimStart_yearChars, takeYear_yearChars, passes, takeChar,
    trimStart_paddedDigits, takeDigits_two, month, day]

/-- A fraction counts nanoseconds by the place of its last digit. -/
theorem takeFraction_paddedDigits (positive : 0 < width) (short : width ≤ 9)
    (fits : n < pow10 width) (ends : ∀ c ∈ rest.head?, isDigit c = false) :
    takeFraction ('.' :: paddedDigits width n ++ rest) = some (n * pow10 (9 - width), rest) := by
  have length := length_paddedDigits positive fits
  have taken : takeDigits 1 9 (paddedDigits width n ++ rest) = some (n, rest) := by
    rw [takeDigits_append (fun _ => isDigit_of_mem_paddedDigits) (by omega) (by omega)
      (.inr ends), digitsValue_paddedDigits]
  have stays : rest.dropWhile isDigit = rest := by
    cases rest with
    | nil => rfl
    | cons c rest => simp [ends c rfl]
  simp [takeFraction, taken, length, stays]

/-- The fraction of a second ends where neither a point nor a digit follows. -/
theorem takeFraction_fractionChars {nanos : Nat} (below : nanos < 1000000000)
    (ends : ∀ c ∈ rest.head?, c ≠ '.' ∧ isDigit c = false) :
    takeFraction (fractionChars nanos ++ rest) = some (nanos, rest) := by
  have other (c : Char) (first : c ∈ rest.head?) := (ends c first).2
  unfold fractionChars
  split
  · subst nanos
    cases rest with
    | nil => rfl
    | cons c rest => simp [takeFraction, (ends c rfl).1]
  · split
    · have small : nanos / 1000000 < 1000 := by omega
      rw [takeFraction_paddedDigits (by decide) (by decide) small other]
      congr 2
      change nanos / 1000000 * 1000000 = nanos
      omega
    · split
      · have small : nanos / 1000 < 1000000 := by omega
        rw [takeFraction_paddedDigits (by decide) (by decide) small other]
        congr 2
        change nanos / 1000 * 1000 = nanos
        omega
      · rw [takeFraction_paddedDigits (by decide) (by decide) below other]
        congr 2
        exact Nat.mul_one nanos

/-- Interchange reads what it spells. -/
theorem readInterchange_interchangeText : readInterchange t.interchangeText.toList = some t := by
  have fits := t.fits_reading
  have dashes (cs : List Char) : trimStart ('-' :: cs) = '-' :: cs := rfl
  have date := takeDate_chars dashes fits.month fits.day
  have field {n : Nat} {rest : List Char} (two : n < 100) :
      takeDigits 1 2 (trimStart (paddedDigits 2 n ++ rest)) = some (n, rest) := by
    rw [trimStart_paddedDigits, takeDigits_two two (by decide)]
  have fraction : takeFraction (fractionChars t.reading.nanos ++ ['Z']) =
      some (t.reading.nanos, ['Z']) :=
    takeFraction_fractionChars fits.nanos (by rintro c ⟨⟩; decide)
  have colon (cs : List Char) : trimStart (':' :: cs) = ':' :: cs := rfl
  have zone : takeRelaxedZone (trimStart ['Z']) = some (0, []) := by decide
  have done : trimStart [] = [] := rfl
  have named : readInterchange t.interchangeText.toList = ofReading? t.reading := by
    simp [interchangeText, chars_eq, Reading.chars, readInterchange, date, takeSeparator,
      takeChar, field, fits.hour, fits.minute, fits.second, colon, fraction, zone, done]
    rfl
  rw [named, ofReading?_reading]

end Text
end Instant
end LayeredTable
