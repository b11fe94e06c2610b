/-!
# Instructions

The eight instructions and the characters that stand for them.  A symbol reads back as its
instruction (`ofChar?_symbol`), and no other character is read as one (`ofChar?_eq_some_iff`).
-/

namespace Brainfuck

inductive Instruction
  | right | left | increment | decrement | output | input | loopStart | loopEnd
deriving DecidableEq

namespace Instruction

def symbol : Instruction → Char
  | right => '>'
  | left => '<'
  | increment => '+'
  | decrement => '-'
  | output => '.'
  | input => ','
  | loopStart => '['
  | loopEnd => ']'

/-- The instruction a character stands for; any other character is a comment. -/
def ofChar? : Char → Option Instruction
  | '>' => some right
  | '<' => some left
  | '+' => some increment
  | '-' => some decrement
  | '.' => some output
  | ',' => some input
  | '[' => some loopStart
  | ']' => some loopEnd
  | _ => none

@[simp] theorem ofChar?_symbol (i : Instruction) : ofChar? i.symbol = some i := by
  cases i <;> rfl

theorem ofChar?_eq_some_iff {c : Char} {i : Instruction} : ofChar? c = some i ↔ c = i.symbol := by
  constructor
  · intro h
    unfold ofChar? at h
    split at h <;> first | (cases h; rfl) | cases h
  · rintro rfl
    exact ofChar?_symbol i

theorem symbol_ne_newline (i : Instruction) : i.symbol ≠ '\n' := by
  cases i <;> decide

end Instruction

end Brainfuck
