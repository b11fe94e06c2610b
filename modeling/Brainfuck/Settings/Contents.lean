import Brainfuck.Decimal.Shortest
import Brainfuck.Text.Quoted
import Brainfuck.Toml.Document

/-!
# Settings files

What a settings file may say (`Contents`), and how it is found in a TOML document.  A document of
the wrong shape is blamed for its first problem, in the order of its entries.
-/

namespace Brainfuck.Settings

/-- What is wrong with a document that is well-formed TOML. -/
inductive ShapeError
  | unknownField (name : String) (known : List String)
  | wrongType (found wanted : String)
  | outOfRange (i : Int)
deriving DecidableEq

/-- The names, in words: two as alternatives, more of them as a list. -/
def alternatives (names : List String) : String :=
  let marked := names.map fun name => s!"`{name}`"
  match marked with
  | [a, b] => s!"{a} or {b}"
  | marked => "one of " ++ String.intercalate ", " marked

def ShapeError.message : ShapeError → String
  | unknownField name known => s!"unknown field `{name}`, expected {alternatives known}"
  | wrongType found wanted => s!"invalid type: {found}, expected {wanted}"
  | outOfRange i => s!"invalid value: integer `{i}`, expected usize"

/-- A value, as error messages name it. -/
def describe : Toml.Node → String
  | .string s => s!"string {Text.quoted s}"
  | .integer i => s!"integer `{i}`"
  | .float x => s!"floating point `{x.text}`"
  | .boolean b => s!"boolean `{b}`"
  | .moment => "map"
  | .array _ => "sequence"
  | .tables _ => "sequence"
  | .table .. => "map"

/-! ## Values -/

def number : Toml.Node → Except ShapeError Nat
  | .integer i => if 0 ≤ i then .ok i.toNat else .error (.outOfRange i)
  | node => .error (.wrongType (describe node) "usize")

def flag : Toml.Node → Except ShapeError Bool
  | .boolean b => .ok b
  | node => .error (.wrongType (describe node) "a boolean")

def text : Toml.Node → Except ShapeError String
  | .string s => .ok s
  | node => .error (.wrongType (describe node) "a string")

/-! ## Sections -/

/-- The fields of a section, in order, each with what its value does to what is known so far. -/
abbrev Fields (α : Type) := List (String × (α → Toml.Node → Except ShapeError α))

/-- Read named values. -/
def readEntries {α : Type} (fields : Fields α) (empty : α) (entries : Toml.Entries) :
    Except ShapeError α :=
  entries.foldlM (fun known (name, node) =>
    match fields.lookup name with
    | some read => read known node
    | none => .error (.unknownField name (fields.map (·.1)))) empty

/-- Read values by position; those behind the last field do not matter. -/
def readItems {α : Type} (fields : Fields α) (empty : α) (items : List Toml.Node) :
    Except ShapeError α :=
  (fields.zip items).foldlM (fun known ((_, read), node) => read known node) empty

/-- Read a section, which is a table or an array.  A date counts as a table with one field. -/
def readSection {α : Type} (title : String) (fields : Fields α) (empty : α) :
    Toml.Node → Except ShapeError α
  | .table _ entries => readEntries fields empty entries
  | .array items => readItems fields empty items
  | .tables items => readItems fields empty items
  | .moment => .error (.unknownField "$__toml_private_datetime" (fields.map (·.1)))
  | node => .error (.wrongType (describe node) s!"struct {title}")

structure InterpreterContents where
  tapeLength : Option Nat := none
  maxSteps : Option Nat := none
  debug : Option Bool := none
deriving DecidableEq

def InterpreterContents.fields : Fields InterpreterContents := [
  ("tape_len", fun s node => (number node).map fun n => { s with tapeLength := some n }),
  ("max_steps", fun s node => (number node).map fun n => { s with maxSteps := some n }),
  ("debug", fun s node => (flag node).map fun b => { s with debug := some b })]

structure ColorContents where
  error : Option String := none
  caret : Option String := none
  program : Option String := none
deriving DecidableEq

def ColorContents.fields : Fields ColorContents := [
  ("error", fun s node => (text node).map fun c => { s with error := some c }),
  ("caret", fun s node => (text node).map fun c => { s with caret := some c }),
  ("program", fun s node => (text node).map fun c => { s with program := some c })]

/-- What a settings file says; a field it does not mention is `none`. -/
structure Contents where
  interpreter : InterpreterContents := {}
  colors : ColorContents := {}
deriving DecidableEq

def Contents.fields : Fields Contents := [
  ("interpreter", fun c node =>
    (readSection "InterpreterSection" InterpreterContents.fields {} node).map fun s =>
      { c with interpreter := s }),
  ("colors", fun c node =>
    (readSection "ColorSection" ColorContents.fields {} node).map fun s => { c with colors := s })]

/-- Why the text of a settings file is of no use. -/
inductive ContentsError
  | notToml
  | shape (e : ShapeError)
deriving DecidableEq

def Contents.parse (file : String) : Except ContentsError Contents :=
  match Toml.parse? file with
  | none => .error .notToml
  | some entries => (readEntries Contents.fields {} entries).mapError .shape

end Brainfuck.Settings
