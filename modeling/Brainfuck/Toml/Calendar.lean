import Brainfuck.Text.Numeral
import Brainfuck.Toml.Node

/-!
# TOML dates and times

Which texts are dates, times, or both.  What they stand for is not kept.
-/

namespace Brainfuck.Toml

/-- A number of exactly two digits between two bounds. -/
def twoDigits (low high : Nat) : Reader Nat
  | a :: b :: rest =>
    match Text.digit? a, Text.digit? b with
    | some a, some b => if low ≤ 10 * a + b ∧ 10 * a + b ≤ high then some (10 * a + b, rest) else none
    | _, _ => none
  | _ => none

def isLeapYear (year : Nat) : Bool := year % 4 = 0 && (year % 100 ≠ 0 || year % 400 = 0)

def daysIn (year month : Nat) : Nat :=
  if month = 2 then (if isLeapYear year then 29 else 28)
  else if month = 4 ∨ month = 6 ∨ month = 9 ∨ month = 11 then 30 else 31

/-- A character that has to stand there. -/
def expect (c : Char) : List Char → Option (List Char)
  | d :: rest => if c = d then some rest else none
  | [] => none

/-- A date; the text behind it. -/
def date? (cs : List Char) : Option (List Char) := do
  let (century, cs) ← twoDigits 0 99 cs
  let (year, cs) ← twoDigits 0 99 cs
  let cs ← expect '-' cs
  let (month, cs) ← twoDigits 1 12 cs
  let cs ← expect '-' cs
  let (_, cs) ← twoDigits 1 (daysIn (100 * century + year) month) cs
  return cs

/-- A time of day, with seconds and perhaps fractions of them. -/
def time? (cs : List Char) : Option (List Char) := do
  let (_, cs) ← twoDigits 0 23 cs
  let cs ← expect ':' cs
  let (_, cs) ← twoDigits 0 59 cs
  let cs ← expect ':' cs
  let (_, cs) ← twoDigits 0 60 cs
  match cs with
  | '.' :: rest =>
    if (rest.takeWhile (·.isDigit)).isEmpty then return cs else return rest.dropWhile (·.isDigit)
  | cs => return cs

/-- The distance from universal time, if it is given. -/
def offset (cs : List Char) : List Char :=
  let distance (cs : List Char) : Option (List Char) := do
    let (_, cs) ← twoDigits 0 23 cs
    let cs ← expect ':' cs
    let (_, cs) ← twoDigits 0 59 cs
    return cs
  match cs with
  | 'Z' :: rest => rest
  | 'z' :: rest => rest
  | '+' :: rest => (distance rest).getD cs
  | '-' :: rest => (distance rest).getD cs
  | cs => cs

/-- A date, a time, or a date and a time with an offset or without. -/
def moment : Reader Node := fun cs =>
  let rest? := match date? cs with
    | some rest =>
      let clock? := match rest with
        | 'T' :: clock => time? clock
        | 't' :: clock => time? clock
        | ' ' :: clock => time? clock
        | _ => none
      some ((clock?.map offset).getD rest)
    | none => time? cs
  rest?.map (.moment, ·)

end Brainfuck.Toml
