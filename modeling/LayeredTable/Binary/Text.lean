import LayeredTable.Binary.Shortest
import LayeredTable.Text.Numeral

/-! Decimal texts of floating-point numbers. A text is the shortest decimal under a layout, which
says where positional notation ends and how the rest is spelled. -/
namespace LayeredTable

open Text

structure Layout where
  /-- Whether a number whose first digit stands at `10 ^ e` is written without an exponent. -/
  positional : Int → Bool
  /-- Whether a whole number keeps the fraction `.0`. -/
  keepsFraction : Bool
  /-- Whether a positive exponent has a plus sign. -/
  signsExponent : Bool
  tie : Tie

namespace Layout

/-- Cells: every digit in its place, never an exponent. -/
def plain : Layout := ⟨fun _ => true, false, false, .upper⟩

/-- Messages: a fraction always, an exponent from `1e16` on and below `1e-4`. -/
def message : Layout := ⟨fun e => -4 ≤ e && e < 16, true, false, .upper⟩

/-- Interchange: a fraction always. A single has an exponent from `1e+13` on and below `1e-6`, a
wider number from `1e+16` on and below `1e-5`. -/
def interchange (f : Format) : Layout :=
  if f = .single then ⟨fun e => -6 ≤ e && e < 13, true, true, .even⟩
  else ⟨fun e => -5 ≤ e && e < 16, true, true, .even⟩

def positionalChars (l : Layout) (d : Decimal) : List Char :=
  let ds := digits d.digits
  let whole := ds ++ List.replicate d.exponent.toNat '0'
  if 0 ≤ d.exponent then
    if l.keepsFraction then whole ++ ['.', '0'] else whole
  else
    let places := (-d.exponent).toNat
    let padded := List.replicate (places + 1 - ds.length) '0' ++ ds
    padded.take (padded.length - places) ++ '.' :: padded.drop (padded.length - places)

def scientificChars (l : Layout) (d : Decimal) (e : Int) : List Char :=
  let ds := digits d.digits
  let tail := ds.drop 1
  let sign := if l.signsExponent && 0 ≤ e then ['+'] else []
  ds.take 1 ++ (if tail.isEmpty then [] else '.' :: tail) ++ 'e' :: sign ++ intChars e

def finiteChars (l : Layout) (d : Decimal) : List Char :=
  let e := d.exponent + (digitCount d.digits : Int) - 1
  if d.digits = 0 || l.positional e then l.positionalChars d else l.scientificChars d e

end Layout

namespace Binary

variable {f : Format}

def chars (l : Layout) (x : Binary f) : List Char :=
  let sign := if x.negative then ['-'] else []
  if x.isNaN then ['N', 'a', 'N']
  else if x.isInfinite then sign ++ ['i', 'n', 'f']
  else sign ++ l.finiteChars (x.shortest l.tie)

def text (l : Layout) (x : Binary f) : String := .ofList (x.chars l)

/-- Reads digits, a point and perhaps more digits, after at most a minus sign. -/
def readPositional (cs : List Char) : Option (Binary f) :=
  let (negative, body) := match cs with
    | '-' :: rest => (true, rest)
    | _ => (false, cs)
  let whole := body.takeWhile isDigit
  match body.dropWhile isDigit with
  | '.' :: places =>
    if !whole.isEmpty && places.all isDigit then
      some (ofDecimal negative (digitsValue (whole ++ places)) (-(places.length : Int)))
    else none
  | _ => none

end Binary
end LayeredTable
