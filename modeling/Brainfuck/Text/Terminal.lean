import Brainfuck.Text.Utf8

/-!
# Terminal control

Text as it is without the control sequences in it.  Of the control characters only white space is
kept; white space also breaks off a sequence that is not complete.
-/

namespace Brainfuck.Text.Terminal

/-- What the next character belongs to. -/
inductive Mode
  | ground
  | escape
  | intermediate
  | control
  | command
  | device
deriving DecidableEq

def isSpace (c : Char) : Bool :=
  c = ' ' || c = '\t' || c = '\n' || c = '\x0c' || c = '\r'

/-- The mode behind a character below U+0080 that is not one of CAN, SUB and ESC. -/
def Mode.after (c : Char) : Mode → Mode
  | ground => ground
  | escape =>
    if c < ' ' ∨ c = '\x7f' then escape
    else if c ≤ '/' then intermediate
    else if c = 'P' ∨ c = 'X' ∨ c = '^' ∨ c = '_' then device
    else if c = '[' then control
    else if c = ']' then command
    else ground
  | intermediate => if c ≤ '/' ∨ c = '\x7f' then intermediate else ground
  | control => if c ≤ '?' ∨ c = '\x7f' then control else ground
  | command => if c = '\x07' then ground else command
  | device => device

/-- Whether white space in this mode is kept, and ends the sequence. -/
def Mode.keepsSpace : Mode → Bool
  | escape => true
  | intermediate => true
  | control => true
  | _ => false

/-- What is left of a text that begins in the given mode.  A character of several bytes inside a
sequence loses its first byte, and the others are no characters by themselves. -/
def plain : Mode → List Char → List Char
  | _, [] => []
  | mode, c :: rest =>
    if c = '\x1b' then plain .escape rest
    else if c = '\x18' ∨ c = '\x1a' then plain .ground rest
    else if 0x80 ≤ c.toNat then
      if mode = .ground then c :: plain .ground rest
      else List.replicate (c.utf8Size - 1) Utf8.replacement ++ plain .ground rest
    else if mode = .ground then
      if (' ' ≤ c ∧ c ≠ '\x7f') ∨ isSpace c then c :: plain .ground rest else plain .ground rest
    else if mode.keepsSpace ∧ c ≠ ' ' ∧ isSpace c then c :: plain .ground rest
    else plain (mode.after c) rest

end Brainfuck.Text.Terminal
