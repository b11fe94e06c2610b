/-!
# Source windows

The piece of a text that is shown around a position: its line, as far as it is close enough.
-/

namespace Brainfuck

structure Window where
  text : List Char
  /-- Where in `text` the position is. -/
  column : Nat
deriving DecidableEq

namespace Window

/-- How many characters are shown on either side of the position. -/
def reach : Nat := 32

/-- Tabs are shown as one blank, so that columns are characters. -/
def shown (c : Char) : Char := if c = '\t' then ' ' else c

/-- The last position of `source` that is not behind `position`. -/
def clamp (source : List Char) (position : Nat) : Nat := min position (source.length - 1)

/-- What is shown left of `position`, going backwards. -/
def leftOf (source : List Char) (position : Nat) : List Char :=
  ((source.take position).reverse.takeWhile (· ≠ '\n')).take reach

/-- What is shown from `position` on. -/
def rightFrom (source : List Char) (position : Nat) : List Char :=
  ((source.drop position).takeWhile (· ≠ '\n')).take (reach + 1)

def around (source : List Char) (position : Nat) : Window :=
  let left := leftOf source (clamp source position)
  ⟨(left.reverse ++ rightFrom source (clamp source position)).map shown, left.length⟩

end Window

end Brainfuck
