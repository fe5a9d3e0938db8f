import LayeredTable.Text.Blank
import LayeredTable.Time.Instant

/-! Reading instants. Cells and expressions accept the timestamp grammar of RFC 3339 or a plain
date, which is midnight; interchange accepts a relaxed timestamp with blanks, any year and an
offset without a colon. -/
namespace LayeredTable.Instant

open Text

def takeDigits (least most : Nat) (cs : List Char) : Option (Nat × List Char) :=
  let ds := (cs.take most).takeWhile isDigit
  if least ≤ ds.length then some (digitsValue ds, cs.drop ds.length) else none

def takeChar (c : Char) : List Char → Option (List Char)
  | d :: cs => if d = c then some cs else none
  | [] => none

/-- Four digits at most without a sign; with one, any number of them. -/
def takeYear : List Char → Option (Int × List Char)
  | '-' :: cs => (takeDigits 1 cs.length cs).map fun (n, cs) => (-(n : Int), cs)
  | '+' :: cs => (takeDigits 1 cs.length cs).map fun (n, cs) => ((n : Int), cs)
  | cs => (takeDigits 1 4 cs).map fun (n, cs) => ((n : Int), cs)

/-- Digits after a point; those after the ninth are dropped. -/
def takeFraction : List Char → Option (Nat × List Char)
  | '.' :: cs => do
    let (n, rest) ← takeDigits 1 9 cs
    let count := cs.length - rest.length
    return (n * pow10 (9 - count), rest.dropWhile isDigit)
  | cs => some (0, cs)

def takeSeparator : List Char → Option (List Char)
  | c :: cs => if c = 'T' ∨ c = 't' ∨ c = ' ' then some cs else none
  | [] => none

/-- `Z` or a signed offset in hours and minutes, in seconds; `colon` passes what stands between the
two. The minus sign may also be U+2212. -/
def takeZone (colon : List Char → Option (List Char)) : List Char → Option (Int × List Char)
  | c :: cs =>
    if c = 'Z' ∨ c = 'z' then some (0, cs)
    else if c = '+' ∨ c = '-' ∨ c = '\u2212' then do
      let (hours, cs) ← takeDigits 2 2 cs
      let cs ← colon cs
      let (minutes, cs) ← takeDigits 2 2 cs
      let seconds : Int := hours * 3600 + minutes * 60
      if minutes ≤ 59 then some (if c = '+' then seconds else -seconds, cs) else none
    else none
  | [] => none

/-- RFC 3339: fields of fixed width and a required offset. -/
def readTimestamp (cs : List Char) : Option Instant := do
  let (year, cs) ← takeDigits 4 4 cs
  let cs ← takeChar '-' cs
  let (month, cs) ← takeDigits 2 2 cs
  let cs ← takeChar '-' cs
  let (day, cs) ← takeDigits 2 2 cs
  let cs ← takeSeparator cs
  let (hour, cs) ← takeDigits 2 2 cs
  let cs ← takeChar ':' cs
  let (minute, cs) ← takeDigits 2 2 cs
  let cs ← takeChar ':' cs
  let (second, cs) ← takeDigits 2 2 cs
  let (nanos, cs) ← takeFraction cs
  let (offset, cs) ← takeZone (takeChar ':') cs
  if cs.isEmpty then ofReading? ⟨⟨year, month, day⟩, hour, minute, second, nanos, offset⟩
  else none

def takeDate (blanks : List Char → List Char) (cs : List Char) : Option (Date × List Char) := do
  let (year, cs) ← takeYear (trimStart cs)
  let cs ← takeChar '-' (blanks cs)
  let (month, cs) ← takeDigits 1 2 (trimStart cs)
  let cs ← takeChar '-' (blanks cs)
  let (day, cs) ← takeDigits 1 2 (trimStart cs)
  return (⟨year, month, day⟩, cs)

def readDate (cs : List Char) : Option Instant := do
  let (date, cs) ← takeDate id cs
  if cs.isEmpty then ofReading? ⟨date, 0, 0, 0, 0, 0⟩ else none

def read (cs : List Char) : Option Instant := (readTimestamp cs).or (readDate cs)

def skipColons (cs : List Char) : Option (List Char) :=
  some (cs.dropWhile fun c => c = ':' || isBlank c)

/-- `UTC` in any case, or an offset whose colon may be missing. -/
def takeRelaxedZone (cs : List Char) : Option (Int × List Char) :=
  if (cs.take 3).map Char.toUpper = ['U', 'T', 'C'] then some (0, cs.drop 3)
  else takeZone skipColons cs

def readInterchange (cs : List Char) : Option Instant := do
  let (date, cs) ← takeDate trimStart cs
  let cs ← takeSeparator cs
  let (hour, cs) ← takeDigits 1 2 (trimStart cs)
  let cs ← takeChar ':' (trimStart cs)
  let (minute, cs) ← takeDigits 1 2 (trimStart cs)
  let cs ← takeChar ':' (trimStart cs)
  let (second, cs) ← takeDigits 1 2 (trimStart cs)
  let (nanos, cs) ← takeFraction cs
  let (offset, cs) ← takeRelaxedZone (trimStart cs)
  if (trimStart cs).isEmpty then ofReading? ⟨date, hour, minute, second, nanos, offset⟩ else none

end LayeredTable.Instant
