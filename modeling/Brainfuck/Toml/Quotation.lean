import Brainfuck.Text.Numeral
import Brainfuck.Toml.Layout
import Brainfuck.Toml.Node

/-!
# TOML strings

The four kinds of strings: between quotes or apostrophes, with escapes or without, on one line or
on several.
-/

namespace Brainfuck.Toml

/-- What a string between quotes may hold as it is. -/
def isPlain (c : Char) : Bool := isCommentary c && c ≠ '\x22' && c ≠ '\\'

/-- What a string between apostrophes may hold as it is. -/
def isLiteral (c : Char) : Bool := isCommentary c && c ≠ '\x27'

/-- The character with the code point written in hexadecimal digits. -/
def codePoint? (digits : List Char) : Option Char :=
  (digits.mapM Text.hexDigit?).bind fun ds =>
    let n := ds.foldl (16 * · + ·) 0
    if n.isValidChar then some (Char.ofNat n) else none

/-- The character that a backslash and the beginning of the text stand for. -/
def escape? : Reader Char
  | 'u' :: a :: b :: c :: d :: rest => (codePoint? [a, b, c, d]).map (·, rest)
  | 'U' :: a :: b :: c :: d :: e :: f :: g :: h :: rest =>
    (codePoint? [a, b, c, d, e, f, g, h]).map (·, rest)
  | 'b' :: rest => some ('\x08', rest)
  | 't' :: rest => some ('\t', rest)
  | 'n' :: rest => some ('\n', rest)
  | 'f' :: rest => some ('\x0c', rest)
  | 'r' :: rest => some ('\r', rest)
  | '\x22' :: rest => some ('\x22', rest)
  | '\\' :: rest => some ('\\', rest)
  | _ => none

/-- The rest of a string between quotes; `done` is what has been read of it, backwards. -/
def basic : Nat → List Char → Reader (List Char)
  | 0, _, _ => none
  | fuel + 1, done, cs =>
    match cs with
    | '\x22' :: rest => some (done.reverse, rest)
    | '\\' :: rest => (escape? rest).bind fun (c, rest) => basic fuel (c :: done) rest
    | c :: rest => if isPlain c then basic fuel (c :: done) rest else none
    | [] => none

/-- The rest of a string between apostrophes. -/
def literal : List Char → Reader (List Char)
  | done, '\x27' :: rest => some (done.reverse, rest)
  | done, c :: rest => if isLiteral c then literal (c :: done) rest else none
  | _, [] => none

/-- Behind a backslash at the end of a line, what follows the blanks and line ends. -/
def continued? (cs : List Char) : Option (List Char) :=
  (newline? (skipSpaces cs)).map fun rest => skipBlankLines rest
where
  skipBlankLines : List Char → List Char
    | '\r' :: '\n' :: rest => skipBlankLines rest
    | '\n' :: rest => skipBlankLines rest
    | c :: rest => if isSpace c then skipBlankLines rest else c :: rest
    | [] => []

/-- Behind three delimiters: up to two more are the last characters of the string. -/
def closing (delimiter : Char) (done : List Char) : List Char → List Char × List Char
  | a :: b :: rest =>
    if a = delimiter ∧ b = delimiter then ((a :: b :: done).reverse, rest)
    else if a = delimiter then ((a :: done).reverse, b :: rest)
    else (done.reverse, a :: b :: rest)
  | [a] => if a = delimiter then ((a :: done).reverse, []) else (done.reverse, [a])
  | [] => (done.reverse, [])

/-- The rest of a string between three quotes.  Line ends become line feeds. -/
def longBasic : Nat → List Char → Reader (List Char)
  | 0, _, _ => none
  | fuel + 1, done, cs =>
    match cs with
    | '\x22' :: '\x22' :: '\x22' :: rest => some (closing '\x22' done rest)
    | '\x22' :: rest => longBasic fuel ('\x22' :: done) rest
    | '\\' :: rest =>
      match continued? rest with
      | some rest => longBasic fuel done rest
      | none => (escape? rest).bind fun (c, rest) => longBasic fuel (c :: done) rest
    | c :: rest =>
      match newline? (c :: rest) with
      | some rest => longBasic fuel ('\n' :: done) rest
      | none => if isPlain c then longBasic fuel (c :: done) rest else none
    | [] => none

/-- The rest of a string between three apostrophes.  Line ends become line feeds. -/
def longLiteral : Nat → List Char → Reader (List Char)
  | 0, _, _ => none
  | fuel + 1, done, cs =>
    match cs with
    | '\x27' :: '\x27' :: '\x27' :: rest => some (closing '\x27' done rest)
    | '\x27' :: rest => longLiteral fuel ('\x27' :: done) rest
    | c :: rest =>
      match newline? (c :: rest) with
      | some rest => longLiteral fuel ('\n' :: done) rest
      | none => if isLiteral c then longLiteral fuel (c :: done) rest else none
    | [] => none

/-- A string on several lines begins behind the line end that follows its delimiter at once. -/
def opened (cs : List Char) : List Char := (newline? cs).getD cs

/-- A string that has to end on its line. -/
def shortString : Reader String
  | '\x22' :: rest => (basic (rest.length + 1) [] rest).map fun (cs, rest) => (String.ofList cs, rest)
  | '\x27' :: rest => (literal [] rest).map fun (cs, rest) => (String.ofList cs, rest)
  | _ => none

/-- A string of any kind. -/
def quotation : Reader String
  | '\x22' :: '\x22' :: '\x22' :: rest =>
    (longBasic (rest.length + 1) [] (opened rest)).map fun (cs, rest) => (String.ofList cs, rest)
  | '\x27' :: '\x27' :: '\x27' :: rest =>
    (longLiteral (rest.length + 1) [] (opened rest)).map fun (cs, rest) => (String.ofList cs, rest)
  | cs => shortString cs

end Brainfuck.Toml
