/-!
# Errors of a run

Why a program could not be started or a run stopped, the instruction it is blamed on (`ip?`),
and the words for it (`label`, `message`).
-/

namespace Brainfuck

/-- The side of a loop that has no partner. -/
inductive Excess
  | opening | closing
deriving DecidableEq

def Excess.word : Excess → String
  | opening => "open"
  | closing => "close"

/-- The end of the tape the pointer was about to leave by. -/
inductive Edge
  | underflow | overflow
deriving DecidableEq

def Edge.word : Edge → String
  | underflow => "underflow"
  | overflow => "overflow"

inductive RunError
  | unbalanced (ip : Nat) (excess : Excess)
  | offTape (ip pointer : Nat) (edge : Edge)
  /-- The input, the output or the trace failed; `cause` is what it said. -/
  | device (ip : Nat) (cause : String)
  | outOfSteps (limit : Nat)
deriving DecidableEq

namespace RunError

/-- The instruction to blame, as an index into the program; running out of steps blames none. -/
def ip? : RunError → Option Nat
  | unbalanced ip _ => some ip
  | offTape ip _ _ => some ip
  | device ip _ => some ip
  | outOfSteps _ => none

/-- What a failed device said. -/
def cause? : RunError → Option String
  | device _ cause => some cause
  | _ => none

def label : RunError → String
  | unbalanced .. => "Parse error"
  | offTape .. => "Runtime error"
  | device .. => "I/O error"
  | outOfSteps _ => "Execution aborted"

def message : RunError → String
  | unbalanced ip excess => s!"unbalanced brackets: excess {excess.word} at instruction {ip}"
  | offTape ip pointer edge => s!"pointer {edge.word} at instruction {ip} (ptr={pointer})"
  | device ip cause => s!"I/O error at instruction {ip}: {cause}"
  | outOfSteps limit => s!"step limit exceeded ({limit})"

end RunError

end Brainfuck
