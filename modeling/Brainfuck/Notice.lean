import Brainfuck.JumpTable
import Brainfuck.Settings.Variable

/-!
# Notices

What the library reports on the side: facts about runs, and warnings about settings that are
not taken over.  Each has a `level`, a `message` and named `fields`.
-/

namespace Brainfuck

inductive Notice
  | bracketsResolved (instructions loops : Nat)
  | runFinished (steps pointer : Nat) (ok : Bool)
  | tapeTooShort (kept : Nat)
  | unknownColor (slot value : String)
  | invalidVariable (which : Settings.Variable) (value : String)
  | unreadableFile (path reason : String)
  | malformedFile (path : String)
deriving DecidableEq

namespace Notice

inductive Level
  | debug | warning
deriving DecidableEq

def Level.word : Level → String
  | debug => "DEBUG"
  | warning => "WARN"

inductive Field
  | count (n : Nat)
  | flag (b : Bool)
  | text (s : String)
deriving DecidableEq

def level : Notice → Level
  | bracketsResolved .. => .debug
  | runFinished .. => .debug
  | _ => .warning

def message : Notice → String
  | bracketsResolved .. => "brackets resolved"
  | runFinished .. => "run finished"
  | tapeTooShort kept => s!"tape length must be at least 1; keeping {kept}"
  | unknownColor .. => "ignoring unknown color"
  | invalidVariable .tapeLength _ => "ignoring invalid tape length"
  | invalidVariable .maxSteps _ => "ignoring invalid step limit"
  | invalidVariable .debug _ => "ignoring invalid debug flag"
  | unreadableFile .. => "ignoring unreadable config file"
  | malformedFile _ => "ignoring malformed config file"

def fields : Notice → List (String × Field)
  | bracketsResolved instructions loops => [("instructions", .count instructions), ("loops", .count loops)]
  | runFinished steps pointer ok => [("steps", .count steps), ("pointer", .count pointer), ("ok", .flag ok)]
  | tapeTooShort _ => []
  | unknownColor slot value => [("key", .text slot), ("value", .text value)]
  | invalidVariable which value => [("var", .text which.name), ("value", .text value)]
  | unreadableFile path reason => [("path", .text path), ("error", .text reason)]
  | malformedFile path => [("path", .text path), ("error", .text "toml")]

end Notice

/-- What there is to say about brackets that could be resolved. -/
def JumpTable.notice (t : JumpTable) : Notice := .bracketsResolved t.size t.loopCount

end Brainfuck
