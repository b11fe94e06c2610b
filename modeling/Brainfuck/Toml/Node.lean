import Brainfuck.Decimal.Binary64

/-!
# TOML values

What a TOML document holds.  A table remembers how it came to be, because that decides what the
rest of the document may still add to it.
-/

namespace Brainfuck.Toml

inductive Origin
  /-- Written as a value; nothing may be added. -/
  | inline
  /-- Opened by a header of its own. -/
  | declared
  /-- Only passed by in headers of tables inside it. -/
  | implied
  /-- Only passed by in dotted keys. -/
  | dotted
deriving DecidableEq

inductive Node
  | string (s : String)
  | integer (i : Int)
  | float (x : Decimal.Binary64)
  | boolean (b : Bool)
  | moment
  | array (items : List Node)
  | table (origin : Origin) (entries : List (String × Node))
  /-- The tables opened by headers in double brackets. -/
  | tables (items : List Node)

abbrev Entries := List (String × Node)

/-- Reads something from the beginning of a text and says what is left. -/
abbrev Reader (α : Type) := List Char → Option (α × List Char)

end Brainfuck.Toml
