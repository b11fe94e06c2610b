/-!
# Binary floating point

Numbers of the IEEE 754 format binary64, and the nearest of them to a decimal number.
-/

namespace Brainfuck.Decimal

inductive Binary64
  | nan
  | infinite (negative : Bool)
  /-- The number mantissa * 2 ^ exponent.  The mantissa is below 2 ^ 53, and at least 2 ^ 52 unless
  the exponent is -1074, the least there is. -/
  | finite (negative : Bool) (mantissa : Nat) (exponent : Int)
deriving DecidableEq

/-- The quotient rounded to the nearest whole number, a half to the even one. -/
def divideNearest (numerator denominator : Nat) : Nat :=
  let q := numerator / denominator
  let twice := 2 * (numerator % denominator)
  if twice < denominator ∨ (twice = denominator ∧ q % 2 = 0) then q else q + 1

/-- A fraction as a pair of whole numbers, multiplied by base ^ exponent. -/
def scale (base : Nat) (exponent : Int) : Nat × Nat → Nat × Nat
  | (numerator, denominator) =>
    if 0 ≤ exponent then (numerator * base.pow exponent.toNat, denominator)
    else (numerator, denominator * base.pow (-exponent).toNat)

namespace Binary64

/-- The least mantissa of a number that is not at the lower end of the range. -/
def leadingBit : Nat := 0x10000000000000

/-- The nearest number to a positive fraction; a tie goes to the even mantissa. -/
def ofFraction (negative : Bool) (fraction : Nat × Nat) : Binary64 :=
  let guess : Int := fraction.1.log2 - fraction.2.log2 - 53
  let quotient (exponent : Int) : Nat :=
    let (numerator, denominator) := scale 2 (-exponent) fraction
    numerator / denominator
  let exponent := max (-1074) (if quotient guess < 2 * leadingBit then guess else guess + 1)
  let (numerator, denominator) := scale 2 (-exponent) fraction
  let mantissa := divideNearest numerator denominator
  let (mantissa, exponent) :=
    if mantissa = 2 * leadingBit then (leadingBit, exponent + 1) else (mantissa, exponent)
  if 971 < exponent then infinite negative else finite negative mantissa exponent

/-- The nearest number to digits * 10 ^ exponent.  Exponents far outside the range of the format
are settled without computing the power. -/
def ofDecimal (negative : Bool) (digits : Nat) (exponent : Int) : Binary64 :=
  if digits = 0 then finite negative 0 (-1074)
  else
    let magnitude : Int := digits.log2 / 3 + exponent
    if 1000 < exponent then infinite negative
    else if magnitude < -1000 then finite negative 0 (-1074)
    else ofFraction negative (scale 10 exponent (digits, 1))

end Binary64

end Brainfuck.Decimal
