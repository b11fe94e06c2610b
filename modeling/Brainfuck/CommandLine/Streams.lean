import Brainfuck.Session
import Brainfuck.Text.Utf8

/-!
# Standard streams

A command has one stream of bytes to read and one to write.  Its program is given a byte of the
input for each `,` and no earlier, and what an instruction writes is passed on before the next one
is done (`streamed`); so both can be real streams, of which only so much is known as has been used.
A traced program passes on the rows of its trace and reads nothing (`recorded`).
-/

namespace Brainfuck.CommandLine

/-- The bytes that can still be read, and those that have been written. -/
structure Streams where
  input : List UInt8 := []
  output : Array UInt8 := #[]
deriving DecidableEq

namespace Streams

def print (io : Streams) (bytes : Array UInt8) : Streams := ⟨io.input, io.output ++ bytes⟩

theorem print_empty (io : Streams) : io.print #[] = io := by
  rw [print, Array.append_empty]

/-- What an instruction can read: the next byte, if there is one, for `,` and nothing for the others. -/
def supply (i : Instruction) : Streams → Option UInt8 × Streams
  | ⟨input, output⟩ =>
    match i, input with
    | .input, b :: rest => (some b, ⟨rest, output⟩)
    | _, input => (none, ⟨input, output⟩)

end Streams

/-- An instruction at the streams: it has a console of its own. -/
def performAt (exe : Executable) (i : Instruction) :
    State × Streams → Except RunError Unit × State × Streams
  | (⟨tape, pc, steps, _⟩, io) =>
    match io.supply i with
    | (next, io) =>
      match exe.perform i ⟨tape, pc, steps, { script := next.toList.map .byte }⟩ with
      | (r, ⟨tape, pc, steps, console⟩) => (r, ⟨tape, pc, steps, {}⟩, io.print console.sink.stored)

/-- The program at the streams. -/
def streamed (exe : Executable) : Process (State × Streams) :=
  ⟨fun (s, _) => exe.program.instruction? s.pc, performAt exe⟩

/-- An instruction whose row is written to the output. -/
def recordAt (exe : Executable) (i : Instruction) :
    State × Streams → Except RunError Unit × State × Streams
  | (s, io) =>
    match exe.record i (s, .empty none) with
    | (r, s, t) => (r, s, io.print (Text.Utf8.encode t.text).toArray)

theorem recordAt_eq (exe : Executable) (i : Instruction) (s : State) (io : Streams) :
    recordAt exe i (s, io) = ((exe.record i (s, .empty none)).1, (exe.record i (s, .empty none)).2.1,
      io.print (Text.Utf8.encode (exe.record i (s, .empty none)).2.2.text).toArray) := rfl

/-- The program writing the rows of its trace to the output. -/
def recorded (exe : Executable) : Process (State × Streams) :=
  ⟨fun (s, _) => exe.program.instruction? s.pc, recordAt exe⟩

end Brainfuck.CommandLine
