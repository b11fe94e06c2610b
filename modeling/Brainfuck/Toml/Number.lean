import Brainfuck.Text.Numeral
import Brainfuck.Toml.Node

/-!
# TOML numbers

Whole numbers of 64 bits in four bases, and floating-point numbers.  Digits may have single
underscores between them.
-/

namespace Brainfuck.Toml

open Decimal

/-- Digits of the base that `digit` reads, with single underscores between them: how many there
are and the number they make, going on from `count` digits that make `n`. -/
def digitRun (base : Nat) (digit : Char → Option Nat) : Nat → Nat → Reader (Nat × Nat)
  | count, n, [] => if count = 0 then none else some ((count, n), [])
  | count, n, c :: rest =>
    match digit c with
    | some d => digitRun base digit (count + 1) (base * n + d) rest
    | none =>
      match count, c, rest with
      | 0, _, _ => none
      | _ + 1, '_', d :: rest =>
        match digit d with
        | some d => digitRun base digit (count + 1) (base * n + d) rest
        | none => none
      | _ + 1, '_', [] => none
      | _ + 1, _, _ => some ((count, n), c :: rest)

def sign : List Char → Bool × List Char
  | '-' :: rest => (true, rest)
  | '+' :: rest => (false, rest)
  | cs => (false, cs)

/-- A decimal whole number without leading zeros, of any size. -/
def whole : Reader Nat
  | '0' :: rest => some (0, rest)
  | cs => (digitRun 10 Text.digit? 0 0 cs).map fun ((_, n), rest) => (n, rest)

def octalDigit? (c : Char) : Option Nat := (Text.digit? c).filter (· < 8)

def binaryDigit? (c : Char) : Option Nat := (Text.digit? c).filter (· < 2)

/-- A whole number of 64 bits with a sign. -/
def bounded (i : Int) : Option Node :=
  if -0x8000000000000000 ≤ i ∧ i < 0x8000000000000000 then some (.integer i) else none

def prefixed (base : Nat) (digit : Char → Option Nat) : Reader Node := fun cs =>
  (digitRun base digit 0 0 cs).bind fun ((_, n), rest) => (bounded n).map (·, rest)

def integer : Reader Node
  | '0' :: 'x' :: rest => prefixed 16 Text.hexDigit? rest
  | '0' :: 'o' :: rest => prefixed 8 octalDigit? rest
  | '0' :: 'b' :: rest => prefixed 2 binaryDigit? rest
  | cs =>
    let (negative, cs) := sign cs
    (whole cs).bind fun (n, rest) => (bounded (if negative then -n else n)).map (·, rest)

/-- The places behind the point: how many, and the number that they make behind `n`. -/
def places (n : Nat) : Reader (Nat × Nat)
  | '.' :: rest =>
    (digitRun 10 Text.digit? 0 0 rest).map fun ((count, m), rest) => ((count, n * Nat.pow 10 count + m), rest)
  | _ => none

def exponent : Reader Int := fun cs =>
  let body (cs : List Char) : Option (Int × List Char) :=
    let (negative, cs) := sign cs
    (digitRun 10 Text.digit? 0 0 cs).map fun ((_, n), rest) => (if negative then -n else n, rest)
  match cs with
  | 'e' :: rest => body rest
  | 'E' :: rest => body rest
  | _ => none

/-- A number with a point, an exponent, or both.  Too large a positive number is refused. -/
def decimal (negative : Bool) : Reader Node := fun cs =>
  (whole cs).bind fun (n, rest) =>
    let finished (digits : Nat) (power : Int) (rest : List Char) : Option (Node × List Char) :=
      match Binary64.ofDecimal negative digits power with
      | .infinite false => none
      | x => some (.float x, rest)
    match places n rest with
    | some ((count, digits), rest) =>
      match rest, exponent rest with
      | 'e' :: _, none => none
      | 'E' :: _, none => none
      | rest, none => finished digits (-count) rest
      | _, some (power, rest) => finished digits (power - count) rest
    | none => (exponent rest).bind fun (power, rest) => finished n power rest

def float : Reader Node := fun cs =>
  let (negative, cs) := sign cs
  match cs with
  | 'i' :: 'n' :: 'f' :: rest => some (.float (.infinite negative), rest)
  | 'n' :: 'a' :: 'n' :: rest => some (.float .nan, rest)
  | cs => decimal negative cs

end Brainfuck.Toml
