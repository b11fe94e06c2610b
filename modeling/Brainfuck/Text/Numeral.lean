/-!
# Numerals

Reading whole numbers that fit in 64 bits, and single hexadecimal digits.
-/

namespace Brainfuck.Text

/-- The value of a decimal digit, ASCII only. -/
def digit? (c : Char) : Option Nat :=
  if c.isDigit then some (c.toNat - '0'.toNat) else none

/-- The value of a hexadecimal digit of either case. -/
def hexDigit? (c : Char) : Option Nat :=
  if c.isDigit then some (c.toNat - '0'.toNat)
  else if 'a' ≤ c ∧ c ≤ 'f' then some (c.toNat - 'a'.toNat + 10)
  else if 'A' ≤ c ∧ c ≤ 'F' then some (c.toNat - 'A'.toNat + 10)
  else none

/-- The largest number that fits in 64 bits. -/
def maxUnsigned : Nat := 0xFFFFFFFFFFFFFFFF

/-- The numeral without the `+` that may stand in front of it. -/
def unsignedPart : List Char → List Char
  | '+' :: rest => rest
  | cs => cs

/-- A decimal numeral for a number of at most 64 bits: digits, perhaps with `+` in front. -/
def unsigned? (cs : List Char) : Option Nat :=
  let digits := unsignedPart cs
  let n := Nat.ofDigitChars 10 digits 0
  if digits ≠ [] ∧ digits.all Char.isDigit ∧ n ≤ maxUnsigned then some n else none

end Brainfuck.Text
