import LayeredTable.Text.Numeral
import LayeredTable.Time.Calendar

/-! Instants of coordinated universal time and their written form. An instant inside a leap second
keeps the second before it and has a thousand million nanoseconds or more. -/
namespace LayeredTable

open Text

/-- The seconds of years -262143 to 262142, and nanoseconds that pass one second only where a leap
second can be. -/
def Instant.Valid (seconds : Int) (nanos : Nat) : Prop :=
  -8334601228800 ≤ seconds ∧ seconds ≤ 8210266876799 ∧
    (nanos < 1000000000 ∨ nanos < 2000000000 ∧ seconds % 60 = 59)

instance (seconds : Int) (nanos : Nat) : Decidable (Instant.Valid seconds nanos) :=
  inferInstanceAs (Decidable (_ ∧ _ ∧ _))

structure Instant where
  seconds : Int
  nanos : Nat
  valid : Instant.Valid seconds nanos
  deriving DecidableEq, Repr

namespace Instant

def of? (seconds : Int) (nanos : Nat) : Option Instant :=
  if valid : Valid seconds nanos then some ⟨seconds, nanos, valid⟩ else none

/-- A date and a time of day as they are written, with the offset of the writer's clock. -/
structure Reading where
  date : Date
  hour : Nat
  minute : Nat
  second : Nat
  nanos : Nat
  /-- Seconds that the clock is ahead of universal time. -/
  offset : Int
  deriving DecidableEq, Repr

/-- The instant a reading names. Second 60 is the leap second after second 59. -/
def ofReading? (r : Reading) : Option Instant :=
  if r.date.isValid && -262143 ≤ r.date.year && r.date.year ≤ 262142 && r.hour ≤ 23 &&
      r.minute ≤ 59 && r.second ≤ 60 && -86400 < r.offset && r.offset < 86400 then
    of? (r.date.dayNumber * 86400 + r.hour * 3600 + r.minute * 60 + min r.second 59 - r.offset)
      (r.nanos + if r.second = 60 then 1000000000 else 0)
  else none

def reading (t : Instant) : Reading :=
  let ofDay := (t.seconds % 86400).toNat
  let leap := 1000000000 ≤ t.nanos
  { date := .ofDayNumber (t.seconds / 86400)
    hour := ofDay / 3600
    minute := ofDay / 60 % 60
    second := if leap then ofDay % 60 + 1 else ofDay % 60
    nanos := if leap then t.nanos - 1000000000 else t.nanos
    offset := 0 }

/-- Years from 0000 to 9999 have four digits; others have a sign and at least four. -/
def yearChars (year : Int) : List Char :=
  if 0 ≤ year ∧ year ≤ 9999 then paddedDigits 4 year.toNat
  else (if year < 0 then '-' else '+') :: paddedDigits 4 year.natAbs

/-- No fraction, or three, six or nine digits, as few as lose nothing. -/
def fractionChars (nanos : Nat) : List Char :=
  if nanos = 0 then []
  else if nanos % 1000000 = 0 then '.' :: paddedDigits 3 (nanos / 1000000)
  else if nanos % 1000 = 0 then '.' :: paddedDigits 6 (nanos / 1000)
  else '.' :: paddedDigits 9 nanos

/-- Date and time of day with a `T` between, then `zone` for the offset zero. -/
def chars (zone : List Char) (t : Instant) : List Char :=
  let r := t.reading
  yearChars r.date.year ++ '-' :: paddedDigits 2 r.date.month ++
    '-' :: paddedDigits 2 r.date.day ++
    'T' :: paddedDigits 2 r.hour ++ ':' :: paddedDigits 2 r.minute ++
    ':' :: paddedDigits 2 r.second ++ fractionChars r.nanos ++ zone

def text (t : Instant) : String := .ofList (t.chars ['+', '0', '0', ':', '0', '0'])

def interchangeText (t : Instant) : String := .ofList (t.chars ['Z'])

end Instant
end LayeredTable
