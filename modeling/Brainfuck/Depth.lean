import Brainfuck.Instruction

/-!
# Nesting depth

How many brackets are open at each place of a program, as a plain count.
-/

namespace Brainfuck

/-- The number of `[` less the number of `]` among the first `k` instructions. -/
def depth (instructions : List Instruction) (k : Nat) : Int :=
  ((instructions.take k).count .loopStart : Int) - (instructions.take k).count .loopEnd

/-- What an instruction adds to the depth. -/
def Instruction.rise : Instruction → Int
  | loopStart => 1
  | loopEnd => -1
  | _ => 0

@[simp] theorem depth_zero (instructions : List Instruction) : depth instructions 0 = 0 := by
  simp [depth]

theorem depth_succ {instructions : List Instruction} {k : Nat} {i : Instruction}
    (h : instructions[k]? = some i) : depth instructions (k + 1) = depth instructions k + i.rise := by
  simp only [depth, List.take_add_one, h, List.count_append]
  cases i <;> simp [Instruction.rise] <;> omega

end Brainfuck
