import Brainfuck.Machine
import Brainfuck.Structured.Tree

/-!
# Evaluating trees

What a program means, said without jumps and without a program counter: a loop tests the cell,
which is one step, does its body, takes one step for its end, and begins again.  The index `ip`
of a part is needed for the errors only.
-/

namespace Brainfuck.Structured

structure World where
  tape : Tape
  steps : Nat
  console : Console

inductive Outcome
  | finished (w : World)
  | failed (e : RunError) (w : World)

namespace World

/-- One step that changed nothing else. -/
def tick (w : World) : World := ⟨w.tape, w.steps + 1, w.console⟩

/-- One step that left this tape. -/
def moved (w : World) (tape : Tape) : World := ⟨tape, w.steps + 1, w.console⟩

end World

/-- Write the cell. -/
def write (ip : Nat) (w : World) : Outcome :=
  match w.console.write w.tape.cell with
  | (.ok _, console) => .finished ⟨w.tape, w.steps + 1, console⟩
  | (.error cause, console) => .failed (.device ip cause) ⟨w.tape, w.steps, console⟩

/-- Read into the cell, after a flush; the end of input and byte 26 leave the cell as it is. -/
def read (ip : Nat) (w : World) : Outcome :=
  match w.console.flush with
  | (.error cause, console) => .failed (.device ip cause) ⟨w.tape, w.steps, console⟩
  | (.ok _, console) =>
    match console.read with
    | (.error cause, console) => .failed (.device ip cause) ⟨w.tape, w.steps, console⟩
    | (.ok none, console) => .finished ⟨w.tape, w.steps + 1, console⟩
    | (.ok (some b), console) =>
      .finished ⟨if b = 26 then w.tape else w.tape.write b, w.steps + 1, console⟩

def Primitive.perform (p : Primitive) (ip : Nat) (w : World) : Outcome :=
  match p with
  | .right =>
    match w.tape.right? with
    | some tape => .finished (w.moved tape)
    | none => .failed (.offTape ip w.tape.pointer .overflow) w
  | .left =>
    match w.tape.left? with
    | some tape => .finished (w.moved tape)
    | none => .failed (.offTape ip w.tape.pointer .underflow) w
  | .increment => .finished (w.moved (w.tape.write (w.tape.cell + 1)))
  | .decrement => .finished (w.moved (w.tape.write (w.tape.cell - 1)))
  | .output => write ip w
  | .input => read ip w

/-- The outcomes of the tree whose first instruction has index `ip`.  A program that runs for
ever has none. -/
inductive Evaluation : Tree → Nat → World → Outcome → Prop
  | done {ip : Nat} {w : World} : Evaluation .done ip w (.finished w)
  | step {p : Primitive} {rest : Tree} {ip : Nat} {w w' : World} {o : Outcome} :
      p.perform ip w = .finished w' → Evaluation rest (ip + 1) w' o →
      Evaluation (.step p rest) ip w o
  | stepFailed {p : Primitive} {rest : Tree} {ip : Nat} {w w' : World} {e : RunError} :
      p.perform ip w = .failed e w' → Evaluation (.step p rest) ip w (.failed e w')
  | leave {body rest : Tree} {ip : Nat} {w : World} {o : Outcome} :
      w.tape.cell = 0 → Evaluation rest (ip + body.instructions.length + 2) w.tick o →
      Evaluation (.loop body rest) ip w o
  | again {body rest : Tree} {ip : Nat} {w w' : World} {o : Outcome} :
      w.tape.cell ≠ 0 → Evaluation body (ip + 1) w.tick (.finished w') →
      Evaluation (.loop body rest) ip w'.tick o → Evaluation (.loop body rest) ip w o
  | bodyFailed {body rest : Tree} {ip : Nat} {w w' : World} {e : RunError} :
      w.tape.cell ≠ 0 → Evaluation body (ip + 1) w.tick (.failed e w') →
      Evaluation (.loop body rest) ip w (.failed e w')

end Brainfuck.Structured
