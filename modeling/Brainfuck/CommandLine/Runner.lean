import Brainfuck.CommandLine.Arguments
import Brainfuck.CommandLine.Streams
import Brainfuck.Diagnostic
import Brainfuck.Settings.Load

/-!
# The command

What the command does, given its arguments, its files, its settings and all of its input: the
status it ends with, and what it writes.
-/

namespace Brainfuck.CommandLine

/-- What is left of a command that is over. -/
structure Exit where
  code : Nat
  output : List UInt8
  diagnostics : String
deriving DecidableEq

def usage (command : String) : String :=
  "Usage:\n" ++
  s!"  {command} <FILE>    # Run the Brainfuck program stored in FILE\n" ++
  "\n" ++
  "Options:\n" ++
  "  --help,    -h   Show this help\n" ++
  "  --version, -V   Show the version\n" ++
  "\n" ++
  "Notes:\n" ++
  "- Only the characters ><+-.,[] are instructions; everything else is a comment.\n" ++
  "- Input (`,`) reads one byte from stdin. On end of input, or on byte 26,\n" ++
  "  the current cell is left unchanged.\n" ++
  "- The tape holds 30,000 cells; moving the pointer off either end is an error.\n" ++
  "\n" ++
  "Environment:\n" ++
  "  BRAINFRY_MAX_STEPS=<N>   Abort after N instructions (default unlimited)\n" ++
  "  BRAINFRY_TAPE_LEN=<N>    Tape length in cells (default 30000)\n" ++
  "  BRAINFRY_DEBUG=1         Print a step-by-step table instead of running I/O\n" ++
  "  BRAINFRY_LOG=<FILTER>    Log filter for diagnostics on stderr (default warn)\n" ++
  "\n" ++
  "Settings can also be placed in brainfry.toml in the user config directory.\n" ++
  "\n"

def versionText : String := "brainfry 0.1.0\n"

/-- What the arguments lead to: the file of the program to run, or, without one, the end. -/
def plan (command : String) (arguments : List Argument) : Except Exit Argument :=
  match Request.ofArguments arguments with
  | .error e => .error ⟨2, [], s!"{command}: {e.message}\n" ++ usage command⟩
  | .ok .version => .error ⟨0, Text.Utf8.encode versionText, ""⟩
  | .ok .help => .error ⟨0, [], usage command⟩
  | .ok .nothing => .error ⟨2, [], usage command⟩
  | .ok (.run file) => .ok file

/-- The end when the file of the program cannot be read. -/
def unreadable (command : String) (file : Argument) (reason : String) : Exit :=
  ⟨1, [], s!"{command}: failed to read {String.ofList (Text.Utf8.decode file)}: {reason}\n"⟩

/-- The end of a run of `source` that has written `output`. -/
def concluded (command source : String) (output : List UInt8) : Stop → Exit
  | .finished => ⟨0, output, ""⟩
  | .failed e => ⟨1, output, Diagnostic.render (some command) source (Program.parse source) e none⟩

/-- Run a program at the streams as the settings say; a run that never ends has no end to tell. -/
def runAt (exe : Executable) (s : Settings) (io : Streams) : Option (Stop × Streams) :=
  let start := State.initial s.tapeLength {}
  let ended :=
    if s.debug then
      (recorded exe).runWithin s.maxSteps 0 (start, io.print (Text.Utf8.encode Trace.header).toArray)
    else (streamed exe).runWithin s.maxSteps 0 (start, io)
  match ended with
  | some (stop, _, io) => some (stop, io)
  | none => none

theorem runAt_real (exe : Executable) {s : Settings} (h : s.debug = false) (io : Streams) :
    runAt exe s io = ((streamed exe).runWithin s.maxSteps 0 (.initial s.tapeLength {}, io)).map
      fun x => (x.1, x.2.2) := by
  simp only [runAt, h]
  cases (streamed exe).runWithin s.maxSteps 0 (.initial s.tapeLength {}, io) <;> rfl

theorem runAt_traced (exe : Executable) {s : Settings} (h : s.debug = true) (io : Streams) :
    runAt exe s io = ((recorded exe).runWithin s.maxSteps 0
      (.initial s.tapeLength {}, io.print (Text.Utf8.encode Trace.header).toArray)).map
        fun x => (x.1, x.2.2) := by
  simp only [runAt, h]
  cases (recorded exe).runWithin s.maxSteps 0
    (.initial s.tapeLength {}, io.print (Text.Utf8.encode Trace.header).toArray) <;> rfl

/-- Run the program in a file that holds `content`.  What has not been read of the input is returned as
well. -/
def runFile (command : String) (s : Settings) (content input : List UInt8) :
    Option (Exit × List UInt8) :=
  let source := String.ofList (Text.Utf8.decode content)
  match (Program.parse source).link with
  | .error e => some (concluded command source [] (.failed e), input)
  | .ok exe =>
    match runAt exe s { input := input } with
    | some (stop, io) => some (concluded command source io.output.toList stop, io.input)
    | none => none

/-- Do what the arguments ask for.  `read` reads a file or says why it cannot. -/
def executeOn (command : String) (arguments : List Argument)
    (read : Argument → Except String (List UInt8)) (s : Settings) (input : List UInt8) :
    Option (Exit × List UInt8) :=
  match plan command arguments with
  | .error exit => some (exit, input)
  | .ok file =>
    match read file with
    | .ok content => runFile command s content input
    | .error reason => some (unreadable command file reason, input)

def execute (command : String) (arguments : List Argument) (read : Argument → Except String (List UInt8))
    (s : Settings) (input : List UInt8) : Option Exit :=
  (executeOn command arguments read s input).map Prod.fst

end Brainfuck.CommandLine
