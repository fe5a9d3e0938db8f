import LayeredTable.Binary.Basic
import LayeredTable.Text.Numeral

/-! The numbers of JSON. A floating-point number is read by scaling the leading digits that fit a
64-bit word with one or more rounded steps, so long spellings may miss the nearest double. -/
namespace LayeredTable

open Text

structure JsonNumber where
  negative : Bool
  whole : List Char
  fraction : List Char
  /-- Whether the exponent is negative, and its digits. -/
  exponent : Option (Bool × List Char)
  deriving DecidableEq, Repr

namespace JsonNumber

/-- Digits without a superfluous leading zero, and what follows them. -/
def takeWhole (cs : List Char) : Option (List Char × List Char) :=
  match cs.takeWhile isDigit with
  | [] => none
  | d :: ds =>
    if d = '0' ∧ ds ≠ [] then none else some (d :: ds, cs.dropWhile isDigit)

def takeFraction : List Char → Option (List Char × List Char)
  | '.' :: cs =>
    match cs.takeWhile isDigit with
    | [] => none
    | ds => some (ds, cs.dropWhile isDigit)
  | cs => some ([], cs)

def readExponentDigits (negative : Bool) (cs : List Char) : Option (Bool × List Char) :=
  if !cs.isEmpty && cs.all isDigit then some (negative, cs) else none

def readExponent : List Char → Option (Option (Bool × List Char))
  | [] => some none
  | e :: cs =>
    if e = 'e' ∨ e = 'E' then
      match cs with
      | '-' :: ds => (readExponentDigits true ds).map some
      | '+' :: ds => (readExponentDigits false ds).map some
      | ds => (readExponentDigits false ds).map some
    else none

def read (cs : List Char) : Option JsonNumber := do
  let (negative, cs) := match cs with
    | '-' :: rest => (true, rest)
    | _ => (false, cs)
  let (whole, cs) ← takeWhole cs
  let (fraction, cs) ← takeFraction cs
  return { negative, whole, fraction, exponent := ← readExponent cs }

/-- The integer that a number is, if it has neither fraction nor exponent. Minus zero is a
floating-point number. -/
def toInt? (n : JsonNumber) : Option Int :=
  if n.fraction.isEmpty && n.exponent.isNone then
    let value := digitsValue n.whole
    if n.negative then if value = 0 then none else some (-(value : Int)) else some value
  else none

/-- Appends digits to a significand while it fits 64 bits. The answer has the number of digits
left over. -/
def absorb (significand : Nat) : List Char → Nat × Nat
  | [] => (significand, 0)
  | d :: ds =>
    let more := significand * 10 + digitValue d
    if 18446744073709551615 < more then (significand, ds.length + 1) else absorb more ds

/-- Scales by a power of ten, each step rounded. There is no answer beyond the finite numbers. -/
def scale (x : Binary64) (exponent : Int) : Option Binary64 :=
  if 0 ≤ exponent then
    if exponent ≤ 308 then
      let y := x.multiply (.ofDecimal false 1 exponent)
      if y.isInfinite then none else some y
    else if x.isZero then some x else none
  else if -308 ≤ exponent then some (x.divide (.ofDecimal false 1 (-exponent)))
  else if x.isZero then some x
  else scale (x.divide (.ofDecimal false 1 308)) (exponent + 308)
termination_by (-exponent).toNat
decreasing_by omega

def toDouble? (n : JsonNumber) : Option Binary64 := do
  let (leading, dropped) := absorb 0 n.whole
  let (significand, unused) := absorb leading n.fraction
  let places : Int := (dropped : Int) - (n.fraction.length - unused : Nat)
  let magnitude ←
    match n.exponent with
    | none => scale (.ofInt significand) places
    | some (negative, ds) =>
      let e : Int := digitsValue ds
      if e ≤ 2147483647 then
        scale (.ofInt significand) (if negative then places - e else places + e)
      else if significand = 0 ∨ negative then some (.zero false)
      else none
  return { magnitude with negative := n.negative }

end JsonNumber
end LayeredTable
