/-!
# Blanks, comments and ends of lines

What stands between the parts of a TOML document.
-/

namespace Brainfuck.Toml

def isSpace (c : Char) : Bool := c = ' ' || c = '\t'

/-- Comments hold anything but control characters; tabs are allowed. -/
def isCommentary (c : Char) : Bool := c = '\t' || (' ' ≤ c && c ≠ '\x7f')

def skipSpaces (cs : List Char) : List Char := cs.dropWhile isSpace

/-- A line feed, alone or behind a carriage return. -/
def newline? : List Char → Option (List Char)
  | '\n' :: rest => some rest
  | '\r' :: '\n' :: rest => some rest
  | _ => none

/-- The rest of a line with nothing on it but blanks and perhaps a comment. -/
def lineEnd? (cs : List Char) : Option (List Char) :=
  let cs := match skipSpaces cs with
    | '#' :: comment => comment.dropWhile isCommentary
    | cs => cs
  match cs with
  | [] => some []
  | cs => newline? cs

/-- Skip blanks, ends of lines, and comments; `commented` says whether the text begins inside a
comment.  A character that no comment may hold ends the skipping. -/
def skipLines : List Char → Bool → List Char
  | [], _ => []
  | '\r' :: '\n' :: rest, _ => skipLines rest false
  | '\n' :: rest, _ => skipLines rest false
  | c :: rest, true => if isCommentary c then skipLines rest true else c :: rest
  | c :: rest, false =>
    if isSpace c then skipLines rest false
    else if c = '#' then skipLines rest true
    else c :: rest

end Brainfuck.Toml
