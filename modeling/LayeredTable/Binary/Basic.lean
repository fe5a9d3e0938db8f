import LayeredTable.Text.Numeral

/-! Binary interchange floating point of any width, computed on exact integers. A number is a sign
and a magnitude word; the words of one sign are ordered as their values, so comparison and
rounding need no case for each exponent. -/
namespace LayeredTable

def pow2 (n : Nat) : Nat := Nat.pow 2 n

theorem pow2_pos (n : Nat) : 0 < pow2 n := Nat.two_pow_pos n

theorem pow2_add (m n : Nat) : pow2 (m + n) = pow2 m * pow2 n := Nat.pow_add 2 m n

structure Format where
  fraction : Nat
  exponent : Nat
  deriving DecidableEq, Repr

namespace Format

def single : Format := ⟨23, 8⟩

def double : Format := ⟨52, 11⟩

/-- The magnitude word of infinity; every greater word is not a number. -/
def infinity (f : Format) : Nat := (pow2 f.exponent - 1) * pow2 f.fraction

/-- A finite value is a whole number of units of size `2 ^ (-unit)`. -/
def unit (f : Format) : Nat := pow2 (f.exponent - 1) - 2 + f.fraction

theorem infinity_lt (f : Format) : f.infinity < pow2 (f.exponent + f.fraction) := by
  have := pow2_pos f.exponent
  rw [infinity, pow2_add]
  exact Nat.mul_lt_mul_of_pos_right (by omega) (pow2_pos f.fraction)

end Format

structure Binary (f : Format) where
  negative : Bool
  magnitude : Nat
  fits : magnitude < pow2 (f.exponent + f.fraction)
  deriving DecidableEq, Repr

abbrev Binary32 := Binary .single

abbrev Binary64 := Binary .double

/-- `numerator / denominator` rounded to the nearest integer, a half to the even neighbour. -/
def roundHalfEven (numerator denominator : Nat) : Nat :=
  let quotient := numerator / denominator
  let twice := 2 * (numerator % denominator)
  if twice < denominator then quotient
  else if twice = denominator && quotient % 2 = 0 then quotient
  else quotient + 1

namespace Binary

variable {f g : Format}

def ofBits (bits : Nat) : Binary f :=
  ⟨bits.testBit (f.exponent + f.fraction), bits % pow2 (f.exponent + f.fraction),
    Nat.mod_lt _ (pow2_pos _)⟩

def bits (x : Binary f) : Nat :=
  (if x.negative then pow2 (f.exponent + f.fraction) else 0) + x.magnitude

def isNaN (x : Binary f) : Bool := f.infinity < x.magnitude

def isInfinite (x : Binary f) : Bool := x.magnitude == f.infinity

def isFinite (x : Binary f) : Bool := x.magnitude < f.infinity

def isZero (x : Binary f) : Bool := x.magnitude == 0

def zero (negative : Bool) : Binary f := ⟨negative, 0, pow2_pos _⟩

def infinite (negative : Bool) : Binary f := ⟨negative, f.infinity, f.infinity_lt⟩

/-- One not-a-number stands for all: no operation tells two apart. -/
def nan : Binary f :=
  ⟨false, pow2 (f.exponent + f.fraction) - 1, Nat.sub_lt (pow2_pos _) Nat.one_pos⟩

def scale (x : Binary f) : Nat := x.magnitude / pow2 f.fraction - 1

/-- The fraction with its leading one, which only subnormal numbers lack. -/
def significand (x : Binary f) : Nat :=
  if x.magnitude < pow2 f.fraction then x.magnitude
  else x.magnitude % pow2 f.fraction + pow2 f.fraction

def units (x : Binary f) : Nat := x.significand * pow2 x.scale

def signedUnits (x : Binary f) : Int := if x.negative then -(x.units : Int) else x.units

/-- The number nearest to `numerator / denominator` units, a tie to the even word. -/
def round (negative : Bool) (numerator denominator : Nat) : Binary f :=
  let shift := (numerator / denominator).log2 - f.fraction
  let word := shift * pow2 f.fraction + roundHalfEven numerator (denominator * pow2 shift)
  ⟨negative, min word f.infinity, Nat.lt_of_le_of_lt (Nat.min_le_right _ _) f.infinity_lt⟩

/-- The number nearest to `digits * 10 ^ exponent`. -/
def ofDecimal (negative : Bool) (digits : Nat) (exponent : Int) : Binary f :=
  round negative (digits * pow10 exponent.toNat * pow2 f.unit) (pow10 (-exponent).toNat)

def ofInt (n : Int) : Binary f := ofDecimal (n < 0) n.natAbs 0

def convert (x : Binary f) : Binary g :=
  if x.isNaN then nan
  else if x.isInfinite then infinite x.negative
  else round x.negative (x.units * pow2 g.unit) (pow2 f.unit)

def toInt? (x : Binary f) : Option Int :=
  if x.isFinite && x.units % pow2 f.unit == 0 then
    some (if x.negative then -(x.units / pow2 f.unit : Nat) else (x.units / pow2 f.unit : Nat))
  else none

def negate (x : Binary f) : Binary f := { x with negative := !x.negative }

def add (x y : Binary f) : Binary f :=
  if x.isNaN || y.isNaN then nan
  else if x.isInfinite then
    if y.isInfinite && x.negative != y.negative then nan else x
  else if y.isInfinite then y
  else
    let sum := x.signedUnits + y.signedUnits
    if sum = 0 then zero (x.negative && y.negative) else round (sum < 0) sum.natAbs 1

def subtract (x y : Binary f) : Binary f := x.add y.negate

def multiply (x y : Binary f) : Binary f :=
  let negative := x.negative != y.negative
  if x.isNaN || y.isNaN then nan
  else if x.isInfinite || y.isInfinite then
    if x.isZero || y.isZero then nan else infinite negative
  else round negative (x.units * y.units) (pow2 f.unit)

def divide (x y : Binary f) : Binary f :=
  let negative := x.negative != y.negative
  if x.isNaN || y.isNaN then nan
  else if x.isInfinite then if y.isInfinite then nan else infinite negative
  else if y.isInfinite then zero negative
  else if y.isZero then if x.isZero then nan else infinite negative
  else round negative (x.units * pow2 f.unit) y.units

/-- The place of a number among the numbers of its format; the two zeros share one place. -/
def rank (x : Binary f) : Int := if x.negative then -(x.magnitude : Int) else x.magnitude

def order (x y : Binary f) : Option Ordering :=
  if x.isNaN || y.isNaN then none else some (compare x.rank y.rank)

/-- Numeric equality: the zeros are equal, not-a-number is not equal to itself. -/
def equal (x y : Binary f) : Bool := x.order y == some .eq

end Binary
end LayeredTable
