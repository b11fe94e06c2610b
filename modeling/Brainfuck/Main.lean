import Brainfuck.CommandLine.Directory
import Brainfuck.CommandLine.Runner

/-!
# The program

The command on real files, streams and variables.  The run is done in small pieces, so that
input is asked for only when the program wants it, and all output before it is there to be seen.
-/

namespace Brainfuck.CommandLine

def commandName : String := "brainfry"

/-- Bytes of a file, or why there are none. -/
def readFile (path : String) : IO (Except IO.Error (List UInt8)) := do
  try
    return .ok (← IO.FS.readBinFile path).toList
  catch e => return .error e

/-- What to say about a file that cannot be read.  The system's number for the error may come
negated. -/
def reason (e : IO.Error) : String :=
  let byCode (code : UInt32) : String :=
    if code = 20 ∨ code = -20 then ReadError.notADirectory.message
    else if code = 21 ∨ code = -21 then ReadError.isADirectory.message
    else toString e
  match e with
  | .noFileOrDirectory .. => ReadError.notFound.message
  | .inappropriateType _ code _ => byCode code
  | _ => toString e

/-- The settings file as it is now. -/
def findSettings (path : String) : IO Settings.File := do
  match ← readFile path with
  | .ok bytes => return .ofBytes bytes
  | .error (.noFileOrDirectory ..) => return .absent
  | .error e => return .unreadable (reason e)

/-- The settings that the environment and the user's files lead to; warnings are printed. -/
def loadSettings : IO Settings := do
  let path := Settings.filePath ((← IO.getEnv "HOME").getD "") (← IO.getEnv "XDG_CONFIG_HOME")
  let tapeLength ← IO.getEnv Settings.Variable.tapeLength.name
  let maxSteps ← IO.getEnv Settings.Variable.maxSteps.name
  let debug ← IO.getEnv Settings.Variable.debug.name
  let (s, notices) := Settings.load path (← findSettings path) fun
    | .tapeLength => tapeLength
    | .maxSteps => maxSteps
    | .debug => debug
  for notice in notices do
    IO.eprintln s!"{notice.level.word} {notice.message}"
  return s

/-- The next byte of the input, if the next instruction wants one. -/
def supply (exe : Executable) (s : State) : IO Streams := do
  if exe.program.instruction? s.pc = some .input then
    (← IO.getStdout).flush
    return { input := (← (← IO.getStdin).read 1).toList }
  else return {}

/-- Run with real input and output, one instruction at a time. -/
partial def interact (exe : Executable) (limit : Option Nat) (s : State) : IO Stop := do
  if let some limit := limit then
    if limit ≤ s.steps then return .atLimit limit (exe.real.runFor 0 s).1
  match (streamed exe).runFor 1 (s, ← supply exe s) with
  | (stop, s, io) =>
    (← IO.getStdout).write ⟨io.output⟩
    match stop with
    | some stop => return stop
    | none => interact exe limit s

/-- Print the trace of a run, some rows at a time. -/
partial def trace (exe : Executable) (limit : Option Nat) (s : State) : IO Stop := do
  let rows := match limit with
    | some limit => min 1000 (limit - s.steps)
    | none => 1000
  match (recorded exe).runFor rows (s, {}) with
  | (stop, s, io) =>
    (← IO.getStdout).write ⟨io.output⟩
    match stop, limit with
    | some stop, _ => return stop
    | none, none => trace exe none s
    | none, some limit =>
      if limit ≤ s.steps then return .atLimit limit none else trace exe (some limit) s

def runProgram (s : Settings) (content : List UInt8) : IO Exit := do
  let source := String.ofList (Text.Utf8.decode content)
  match (Program.parse source).link with
  | .error e => return concluded commandName source [] (.failed e)
  | .ok exe =>
    let start := State.initial s.tapeLength {}
    let stop ← if s.debug then do
        (← IO.getStdout).putStr Trace.header
        trace exe s.maxSteps start
      else interact exe s.maxSteps start
    return concluded commandName source [] stop

def perform (arguments : List String) : IO Exit := do
  match plan commandName (arguments.map Text.Utf8.encode) with
  | .error exit => return exit
  | .ok file =>
    match ← readFile (String.ofList (Text.Utf8.decode file)) with
    | .ok content => runProgram (← loadSettings) content
    | .error e => return unreadable commandName file (reason e)

end Brainfuck.CommandLine

def main (arguments : List String) : IO UInt32 := do
  let exit ← Brainfuck.CommandLine.perform arguments
  let out ← IO.getStdout
  out.write ⟨exit.output.toArray⟩
  out.flush
  IO.eprint exit.diagnostics
  return exit.code.toUInt32
