import Brainfuck.Toml.Calendar
import Brainfuck.Toml.Key
import Brainfuck.Toml.Number
import Brainfuck.Toml.Table

/-!
# TOML documents

`Toml.parse?` reads a document: values (`value`), then lines (`statements`), then sections, of
which the tables are built.
-/

namespace Brainfuck.Toml

/-! ## Values -/

/-- A value that holds no other values. -/
def scalar (cs : List Char) : Option (Node × List Char) :=
  match cs with
  | 't' :: 'r' :: 'u' :: 'e' :: rest => some (.boolean true, rest)
  | 'f' :: 'a' :: 'l' :: 's' :: 'e' :: rest => some (.boolean false, rest)
  | '\x22' :: _ => (quotation cs).map fun (s, rest) => (.string s, rest)
  | '\x27' :: _ => (quotation cs).map fun (s, rest) => (.string s, rest)
  | _ =>
    match moment cs with
    | some found => some found
    | none =>
      match float cs with
      | some found => some found
      | none => integer cs

/-- The items of an array behind its bracket; `done` holds those before, backwards. -/
def items (item : Reader Node) : Nat → List Node → Reader (List Node)
  | 0, _, _ => none
  | fuel + 1, done, cs =>
    match skipLines cs false with
    | ']' :: rest => some (done.reverse, rest)
    | cs =>
      (item cs).bind fun (v, rest) =>
        match skipLines rest false with
        | ',' :: rest => items item fuel (v :: done) rest
        | ']' :: rest => some ((v :: done).reverse, rest)
        | _ => none

/-- A key and its value, with the blanks around them. -/
def pair (item : Reader Node) : Reader Pair := fun cs =>
  (key cs).bind fun ((path, last), rest) =>
    match rest with
    | '=' :: rest =>
      (item (skipSpaces rest)).map fun (v, rest) => (⟨path, last, v⟩, skipSpaces rest)
    | _ => none

/-- The pairs of an inline table, of which there is at least one. -/
def pairs (item : Reader Node) : Nat → List Pair → Reader (List Pair)
  | 0, _, _ => none
  | fuel + 1, done, cs =>
    (pair item cs).bind fun (p, rest) =>
      match rest with
      | ',' :: rest => pairs item fuel (p :: done) rest
      | '\x7d' :: rest => some ((p :: done).reverse, rest)
      | _ => none

/-- An inline table behind its brace. -/
def inlineTable (item : Reader Node) : Reader Node := fun cs =>
  match skipSpaces cs with
  | '\x7d' :: rest => some (.table .inline [], rest)
  | _ =>
    (pairs item (cs.length + 1) [] cs).bind fun (ps, rest) =>
      (insertAll ps []).map fun entries => (.table .inline entries, rest)

/-- A value with at most so many arrays and tables inside each other. -/
def value : Nat → Reader Node
  | 0, cs => scalar cs
  | depth + 1, cs =>
    match cs with
    | '[' :: rest =>
      (items (value depth) (rest.length + 1) [] rest).map fun (vs, rest) => (.array vs, rest)
    | '\x7b' :: rest => inlineTable (value depth) rest
    | cs => scalar cs

/-! ## Lines and sections -/

inductive Statement
  | pair (p : Pair)
  | table (path : List String) (last : String)
  | nextTable (path : List String) (last : String)

/-- One line that holds something. -/
def statement (cs : List Char) : Option (Statement × List Char) :=
  match cs with
  | '[' :: '[' :: rest =>
    (key rest).bind fun ((path, last), rest) =>
      match rest with
      | ']' :: ']' :: rest => (lineEnd? rest).map (.nextTable path last, ·)
      | _ => none
  | '[' :: rest =>
    (key rest).bind fun ((path, last), rest) =>
      match rest with
      | ']' :: rest => (lineEnd? rest).map (.table path last, ·)
      | _ => none
  | cs =>
    (pair (value (depthLimit - 1)) cs).bind fun (p, rest) => (lineEnd? rest).map (.pair p, ·)

/-- All lines; `done` holds those before, backwards. -/
def statements : Nat → List Statement → List Char → Option (List Statement)
  | 0, _, _ => none
  | fuel + 1, done, cs =>
    match skipSpaces cs with
    | [] => some done.reverse
    | cs =>
      match lineEnd? cs with
      | some rest => statements fuel done rest
      | none => (statement cs).bind fun (s, rest) => statements fuel (s :: done) rest

/-- The pairs up to the next header, and what is left. -/
def leading : List Statement → List Pair × List Statement
  | .pair p :: rest =>
    match leading rest with
    | (ps, rest) => (p :: ps, rest)
  | rest => ([], rest)

/-- Add the sections that begin with a header each. -/
def sections : Nat → List Statement → Entries → Option Entries
  | _, [], entries => some entries
  | fuel + 1, .table path last :: rest, entries =>
    match leading rest with
    | (ps, rest) => (within (declare last ps) path entries).bind (sections fuel rest)
  | fuel + 1, .nextTable path last :: rest, entries =>
    match leading rest with
    | (ps, rest) => (within (declareNext last ps) path entries).bind (sections fuel rest)
  | _, _, _ => none

/-- The entries of a document's root table; a byte order mark in front is ignored. -/
def parse? (text : String) : Option Entries :=
  let cs := match text.toList with
    | '\uFEFF' :: rest => rest
    | cs => cs
  (statements (cs.length + 1) [] cs).bind fun ss =>
    match leading ss with
    | (ps, rest) => (insertAll ps []).bind (sections rest.length rest)

end Brainfuck.Toml
