import Brainfuck.Toml.Quotation

/-!
# TOML keys

A key is one name or several with dots between them.
-/

namespace Brainfuck.Toml

def isBare (c : Char) : Bool := c.isAlphanum || c = '_' || c = '-'

def name : Reader String
  | '\x22' :: rest => shortString ('\x22' :: rest)
  | '\x27' :: rest => shortString ('\x27' :: rest)
  | cs =>
    match cs.takeWhile isBare with
    | [] => none
    | bare => some (String.ofList bare, cs.dropWhile isBare)

/-- Names with dots between them, and blanks around each; `done` holds the names before, backwards. -/
def names : Nat → List String → Reader (List String)
  | 0, _, _ => none
  | fuel + 1, done, cs =>
    (name (skipSpaces cs)).bind fun (part, rest) =>
      match skipSpaces rest with
      | '.' :: rest => names fuel (part :: done) rest
      | rest => some ((part :: done).reverse, rest)

/-- How deep keys and values may nest. -/
def depthLimit : Nat := 80

/-- A key, as the names before the last and the last. -/
def key (cs : List Char) : Option ((List String × String) × List Char) :=
  (names (depthLimit - 1) [] cs).bind fun (parts, rest) =>
    parts.getLast?.map fun last => ((parts.dropLast, last), rest)

end Brainfuck.Toml
