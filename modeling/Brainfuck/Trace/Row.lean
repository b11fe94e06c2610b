import Brainfuck.Instruction

/-!
# Rows of the trace table

A `Row` is what the table says about one instruction: the state it found and the `Action` it was.
-/

namespace Brainfuck.Trace

/-- What an instruction did, in the words of the table. -/
inductive Action
  | moved (pointer : Nat)
  | incremented (pointer : Nat) (before after : UInt8)
  | decremented (pointer : Nat) (before after : UInt8)
  | suppressed (b : UInt8)
  | endOfInput
  | entered
  | skipped (partner : Nat)
  | returned (partner : Nat)
deriving DecidableEq

namespace Action

/-- The action of `i` on cell `pointer`, which holds `cell`, when control goes on at `next`. -/
def ofInstruction (i : Instruction) (pointer : Nat) (cell : UInt8) (next : Nat) : Action :=
  match i with
  | .right => moved (pointer + 1)
  | .left => moved (pointer - 1)
  | .increment => incremented pointer cell (cell + 1)
  | .decrement => decremented pointer cell (cell - 1)
  | .output => suppressed cell
  | .input => endOfInput
  | .loopStart => if cell = 0 then skipped (next - 1) else entered
  | .loopEnd => returned next

def text : Action → String
  | moved pointer => s!"Moved pointer head to index {pointer}"
  | incremented pointer before after => s!"Increment cell[{pointer}] from {before} to {after}"
  | decremented pointer before after => s!"Decrement cell[{pointer}] from {before} to {after}"
  | suppressed b => s!"Output byte {b} (suppressed in debug)"
  | endOfInput => "Read byte -> simulated end of input (cell unchanged)"
  | entered => "Enter loop (cell != 0)"
  | skipped partner => s!"Cell is 0; jump forward past matching ']' at IP {partner}"
  | returned partner => s!"Jump back to matching '[' at IP {partner}"

end Action

/-- An instruction about to be done, in the state it finds. -/
structure Moment where
  step : Nat
  ip : Nat
  pointer : Nat
  cell : UInt8
  instruction : Instruction
deriving DecidableEq

/-- One line of the table: an instruction and where it led. -/
structure Row extends Moment where
  next : Nat
deriving DecidableEq

def Row.action (r : Row) : Action :=
  .ofInstruction r.instruction r.pointer r.cell r.next

/-- The digits of `n`, with blanks behind them up to `width`; longer numbers are kept whole. -/
def column (width n : Nat) : String :=
  n.repr ++ String.ofList (List.replicate (width - n.repr.length) ' ')

def Row.text (r : Row) : String :=
  s!"{column 4 r.step} | {column 3 r.ip} | {column 3 r.pointer} | {column 4 r.cell.toNat} |  " ++
  s!"{r.instruction.symbol}    | {r.action.text}\n"

/-- The two lines above the rows. -/
def header : String :=
  "STEP | IP  | PTR | CELL | INSTR | ACTION\n" ++
  "-----+-----+-----+------+-------+------------------------------------------------\n"

end Brainfuck.Trace
