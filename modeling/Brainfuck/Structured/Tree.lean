import Brainfuck.Instruction

/-!
# Programs as trees

A program whose brackets match, with its loops as parts instead of jumps.  Writing a tree out and
reading it back gives the same tree (`ofInstructions?_instructions`).
-/

namespace Brainfuck.Structured

/-- An instruction that is not a bracket. -/
inductive Primitive
  | right | left | increment | decrement | output | input
deriving DecidableEq

def Primitive.instruction : Primitive → Instruction
  | right => .right
  | left => .left
  | increment => .increment
  | decrement => .decrement
  | output => .output
  | input => .input

/-- What is left to do of a program or loop body. -/
inductive Tree
  | done
  | step (p : Primitive) (rest : Tree)
  | loop (body rest : Tree)
deriving DecidableEq

namespace Tree

def instructions : Tree → List Instruction
  | done => []
  | step p rest => p.instruction :: rest.instructions
  | loop body rest => .loopStart :: (body.instructions ++ .loopEnd :: rest.instructions)

/-- Put an instruction in front.  The first tree is what follows in the innermost loop, the next
what follows that loop in the loop around it, and so on. -/
def push : Instruction → List Tree → Option (List Tree)
  | .right, t :: ts => some (step .right t :: ts)
  | .left, t :: ts => some (step .left t :: ts)
  | .increment, t :: ts => some (step .increment t :: ts)
  | .decrement, t :: ts => some (step .decrement t :: ts)
  | .output, t :: ts => some (step .output t :: ts)
  | .input, t :: ts => some (step .input t :: ts)
  | .loopEnd, ts => some (done :: ts)
  | .loopStart, body :: rest :: ts => some (loop body rest :: ts)
  | _, _ => none

/-- Put instructions in front, the last one first. -/
def pushAll (is : List Instruction) (ts : List Tree) : Option (List Tree) :=
  is.foldr (fun i ts => ts.bind (push i)) (some ts)

/-- The tree that is written out as `is`, if its brackets match. -/
def ofInstructions? (is : List Instruction) : Option Tree :=
  match pushAll is [done] with
  | some [t] => some t
  | _ => none

theorem pushAll_cons (i : Instruction) (is : List Instruction) (ts : List Tree) :
    pushAll (i :: is) ts = (pushAll is ts).bind (push i) := rfl

theorem pushAll_append (is js : List Instruction) (ts : List Tree) :
    pushAll (is ++ js) ts = (pushAll js ts).bind (pushAll is) := by
  induction is with
  | nil => exact (Option.bind_fun_some _).symm
  | cons i is ih =>
    rw [List.cons_append, pushAll_cons, ih, Option.bind_assoc]
    rfl

theorem push_instruction (p : Primitive) (t : Tree) (ts : List Tree) :
    push p.instruction (t :: ts) = some (step p t :: ts) := by
  cases p <;> rfl

theorem pushAll_instructions (t : Tree) (ts : List Tree) :
    pushAll t.instructions (done :: ts) = some (t :: ts) := by
  induction t generalizing ts with
  | done => rfl
  | step p rest ih => rw [instructions, pushAll_cons, ih, Option.bind_some, push_instruction]
  | loop body rest ihBody ihRest =>
    rw [instructions, pushAll_cons, pushAll_append, pushAll_cons, ihRest]
    simp only [Option.bind_some, push, ihBody]

theorem ofInstructions?_instructions (t : Tree) : ofInstructions? t.instructions = some t := by
  simp only [ofInstructions?, pushAll_instructions]

end Tree

end Brainfuck.Structured
