import Brainfuck.Color
import Brainfuck.Program
import Brainfuck.RunError
import Brainfuck.Window

/-!
# Error reports

An error is reported in one line, and, when it can be traced to a place in the source, two more:
the source around that place and a caret below it.
-/

namespace Brainfuck.Diagnostic

/-- The line that says what went wrong. -/
def headline (name : Option String) (e : RunError) (paints : Paints) : String :=
  let origin := match name with
    | some name => paints.program name ++ ": "
    | none => ""
  s!"{origin}{paints.error e.label}: {e.message}\n"

/-- The two lines that show where in `source`. -/
def excerpt (source : List Char) (position : Nat) (paints : Paints) : String :=
  let window := Window.around source position
  let caret := paints.caret "^"
  let margin := String.ofList (List.replicate window.column ' ')
  s!"  {String.ofList window.text}\n  {margin}{caret}\n"

/-- The report on error `e` of program `p`, read from `source`, in the name of a program. -/
def report (name : Option String) (source : String) (p : Program) (e : RunError) (paints : Paints) : String :=
  match e.ip?.bind p.offset? with
  | some position => headline name e paints ++ excerpt source.toList position paints
  | none => headline name e paints

/-- A report in the colors of a palette, or without colors. -/
def render (name : Option String) (source : String) (p : Program) (e : RunError)
    (palette : Option Palette) : String :=
  report name source p e (palette.elim .plain .ofPalette)

end Brainfuck.Diagnostic
