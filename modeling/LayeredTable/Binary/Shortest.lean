import LayeredTable.Binary.Basic

/-! The shortest decimal that reads back as a given number: the fewest digits of which some decimal
lies among the reals that round to the number, and of those the decimal nearest to it. -/
namespace LayeredTable

structure Decimal where
  digits : Nat
  exponent : Int
  deriving DecidableEq, Repr

inductive Tie
  | even
  | upper
  deriving DecidableEq, Repr

def Decimal.trimZeros (d : Decimal) : Decimal :=
  if d.digits ≠ 0 ∧ d.digits % 10 = 0 then trimZeros ⟨d.digits / 10, d.exponent + 1⟩ else d
termination_by d.digits
decreasing_by omega

def digitCount (n : Nat) : Nat := if n < 10 then 1 else digitCount (n / 10) + 1

/-- The greatest `e` with `10 ^ e ≤ numerator / denominator`, for a positive fraction. -/
def floorLog10 (numerator denominator : Nat) : Int :=
  if denominator ≤ numerator then (digitCount (numerator / denominator) : Int) - 1
  else
    let d := digitCount (denominator / numerator)
    if denominator ≤ numerator * pow10 (d - 1) then 1 - (d : Int) else -(d : Int)

/-- The reals from `low` to `high`, over one denominator, that round to the value between them. -/
structure Interval where
  low : Nat
  value : Nat
  high : Nat
  denominator : Nat
  closed : Bool

namespace Interval

/-- The multiple of `10 ^ exponent` inside the interval that is nearest to its value, of the two
multiples that enclose the value. -/
def nearest? (i : Interval) (tie : Tie) (exponent : Int) : Option Decimal :=
  let step := pow10 exponent.toNat * i.denominator
  let factor := pow10 (-exponent).toNat
  let inside (n : Nat) : Bool :=
    if i.closed then i.low * factor ≤ n * step && n * step ≤ i.high * factor
    else i.low * factor < n * step && n * step < i.high * factor
  let below := i.value * factor / step
  let above := below + 1
  if inside below then
    let down := i.value * factor - below * step
    let up := above * step - i.value * factor
    let takeAbove := up < down || up == down && (tie == .upper || below % 2 == 1)
    some ⟨if inside above && takeAbove then above else below, exponent⟩
  else if inside above then some ⟨above, exponent⟩
  else none

/-- Tries grids of steps from `10 ^ exponent` on, each a tenth of the one before. -/
def search (i : Interval) (tie : Tie) (exponent : Int) : Nat → Decimal
  | 0 => ⟨i.value * pow10 (-exponent).toNat / (pow10 exponent.toNat * i.denominator), exponent⟩
  | more + 1 =>
    match i.nearest? tie exponent with
    | some d => d
    | none => i.search tie (exponent - 1) more

end Interval

namespace Binary

variable {f : Format}

/-- The reals that round to a positive finite number. Below a power of two the neighbours are
twice as near; the ends belong to the interval when the significand is even. -/
def interval (x : Binary f) : Interval :=
  let half := if x.significand = pow2 f.fraction ∧ x.scale ≠ 0 then 1 else 2
  { low := (4 * x.significand - half) * pow2 x.scale
    value := 4 * x.units
    high := (4 * x.significand + 2) * pow2 x.scale
    denominator := 4 * pow2 f.unit
    closed := x.significand % 2 == 0 }

/-- The shortest decimal of a finite number's absolute value. As many digits as the significand
has bits are always enough. -/
def shortest (x : Binary f) (tie : Tie) : Decimal :=
  if x.isZero then ⟨0, 0⟩
  else
    let i := x.interval
    (i.search tie (floorLog10 i.value i.denominator) f.fraction).trimZeros

end Binary
end LayeredTable
