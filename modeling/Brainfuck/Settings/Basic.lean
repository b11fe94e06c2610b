import Brainfuck.Color
import Brainfuck.Notice
import Brainfuck.Settings.Contents
import Brainfuck.Tape
import Brainfuck.Text.Blank
import Brainfuck.Text.Numeral

/-!
# Settings

The settings of a run, and how a file and the environment change them, the environment last.  A
value that is not acceptable changes nothing and leaves a notice.
-/

namespace Brainfuck

structure Settings where
  tapeLength : Nat := Tape.defaultLength
  /-- `none` is no bound. -/
  maxSteps : Option Nat := none
  /-- Whether to write a trace instead of doing input and output. -/
  debug : Bool := false
  palette : Palette := {}
deriving DecidableEq

namespace Settings

/-- The tape length after an attempt to set it. -/
def adoptLength (current new : Nat) : Nat × List Notice :=
  if new = 0 then (current, [.tapeTooShort current]) else (new, [])

/-- A color after an attempt to set it to what is written in the file, if anything is. -/
def adoptColor (slot : String) (current : Color) : Option String → Color × List Notice
  | none => (current, [])
  | some value =>
    match Color.parse? value with
    | some color => (color, [])
    | none => (current, [.unknownColor slot value])

/-- The settings that a file makes of the default ones. -/
def ofContents (c : Contents) : Settings × List Notice :=
  let initial : Settings := {}
  let (tapeLength, lengthNotices) := match c.interpreter.tapeLength with
    | none => (initial.tapeLength, [])
    | some n => adoptLength initial.tapeLength n
  let (error, errorNotices) := adoptColor "error" initial.palette.error c.colors.error
  let (caret, caretNotices) := adoptColor "caret" initial.palette.caret c.colors.caret
  let (program, programNotices) := adoptColor "program" initial.palette.program c.colors.program
  ({ tapeLength, maxSteps := c.interpreter.maxSteps.or initial.maxSteps,
     debug := c.interpreter.debug.getD initial.debug, palette := ⟨error, caret, program⟩ },
   lengthNotices ++ errorNotices ++ caretNotices ++ programNotices)

/-! ## The environment -/

/-- A switch, in any case and with blanks around it; to say nothing is to say no. -/
def switch? (raw : String) : Option Bool :=
  match String.ofList ((Text.trim raw.toList).map Char.toLower) with
  | "1" | "true" | "yes" | "on" => some true
  | "0" | "false" | "no" | "off" | "" => some false
  | _ => none

/-- A number of at most 64 bits, with blanks around it. -/
def numeral? (raw : String) : Option Nat := Text.unsigned? (Text.trim raw.toList)

/-- Change one setting if its variable is set, and say so if the value cannot be read. -/
def override {α : Type} (which : Variable) (read : String → Option α)
    (adopt : Settings → α → Settings × List Notice) (raw : Option String) (s : Settings) :
    Settings × List Notice :=
  match raw with
  | none => (s, [])
  | some raw =>
    match read raw with
    | some value => adopt s value
    | none => (s, [.invalidVariable which raw])

def overrideLength : Option String → Settings → Settings × List Notice :=
  override .tapeLength numeral? fun s n =>
    match adoptLength s.tapeLength n with
    | (tapeLength, notices) => ({ s with tapeLength }, notices)

def overrideSteps : Option String → Settings → Settings × List Notice :=
  override .maxSteps numeral? fun s n => ({ s with maxSteps := some n }, [])

def overrideDebug : Option String → Settings → Settings × List Notice :=
  override .debug switch? fun s debug => ({ s with debug }, [])

/-- The settings that the environment makes of `s`. -/
def applyEnvironment (lookup : Variable → Option String) (s : Settings) : Settings × List Notice :=
  let (s, lengthNotices) := overrideLength (lookup .tapeLength) s
  let (s, stepNotices) := overrideSteps (lookup .maxSteps) s
  let (s, debugNotices) := overrideDebug (lookup .debug) s
  (s, lengthNotices ++ stepNotices ++ debugNotices)

end Settings

end Brainfuck
