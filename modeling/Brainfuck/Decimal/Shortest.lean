import Brainfuck.Decimal.Binary64

/-!
# Shortest decimals

The text of a binary number with the fewest digits that still read back as that number, always
with a decimal point and never with an exponent.
-/

namespace Brainfuck.Decimal

/-- The numbers that round to a given one, in units of 2 ^ exponent, with that number itself. -/
structure Neighbourhood where
  low : Nat
  value : Nat
  high : Nat
  exponent : Int
  /-- Whether the ends round to the number, too. -/
  closed : Bool

/-- Half the way to the numbers next to mantissa * 2 ^ exponent.  The way down is half as long
where the exponent changes. -/
def Neighbourhood.of (mantissa : Nat) (exponent : Int) : Neighbourhood :=
  let narrow := mantissa = Binary64.leadingBit ∧ -1074 < exponent
  { low := 4 * mantissa - (if narrow then 1 else 2), value := 4 * mantissa, high := 4 * mantissa + 2,
    exponent := exponent - 2, closed := mantissa % 2 = 0 }

/-- The multiple of 10 ^ place in the neighbourhood that is nearest to its number, the upper one
of two, divided by 10 ^ place. -/
def Neighbourhood.multiple? (n : Neighbourhood) (place : Int) : Option Nat :=
  let (unit, grid) := scale 10 (-place) (scale 2 n.exponent (1, 1))
  let inside (k : Nat) : Bool :=
    if n.closed then n.low * unit ≤ k * grid && k * grid ≤ n.high * unit
    else n.low * unit < k * grid && k * grid < n.high * unit
  let below := n.value * unit / grid
  match inside below, inside (below + 1) with
  | false, false => none
  | true, false => some below
  | false, true => some (below + 1)
  | true, true =>
    if 2 * (n.value * unit - below * grid) < grid then some below else some (below + 1)

/-- The multiple for the highest place at most `place` that has one, with its place. -/
def Neighbourhood.shortest (n : Neighbourhood) : Nat → Int → Nat × Int
  | 0, place => (0, place)
  | fuel + 1, place =>
    match n.multiple? place with
    | some digits => (digits, place)
    | none => n.shortest fuel (place - 1)

/-- The number digits * 10 ^ place, with a decimal point and at least one digit on either side. -/
def positional (digits : Nat) (place : Int) : String :=
  let ds := Nat.toDigits 10 digits
  if 0 ≤ place then String.ofList (ds ++ List.replicate place.toNat '0') ++ ".0"
  else
    let fraction := (-place).toNat
    let padded := List.replicate (fraction + 1 - ds.length) '0' ++ ds
    String.ofList (padded.take (padded.length - fraction)) ++ "." ++
      String.ofList (padded.drop (padded.length - fraction))

/-- The places tried go from that of the largest number down to below that of the smallest. -/
def Binary64.text : Binary64 → String
  | nan => "NaN"
  | infinite negative => if negative then "-inf" else "inf"
  | finite negative mantissa exponent =>
    let sign := if negative then "-" else ""
    let (digits, place) :=
      if mantissa = 0 then (0, 0) else (Neighbourhood.of mantissa exponent).shortest 700 310
    sign ++ positional digits place

end Brainfuck.Decimal
