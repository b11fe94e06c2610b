import Brainfuck.CommandLine.Arguments

/-!
# Looking up files

Reading a file by its path, from a directory that holds files only.  Of what lies outside it is
known only that the directories above it are there.
-/

namespace Brainfuck.CommandLine

inductive ReadError
  | notFound | notADirectory | isADirectory
deriving DecidableEq

def ReadError.message : ReadError → String
  | notFound => "No such file or directory (os error 2)"
  | notADirectory => "Not a directory (os error 20)"
  | isADirectory => "Is a directory (os error 21)"

/-- The files in a directory, by name. -/
abbrev Directory := List (List UInt8 × List UInt8)

/-- Where a path has led so far. -/
inductive Place
  | here
  | above
  | file (content : List UInt8)
deriving DecidableEq

/-- Go on along a path whose parts are separated by slashes. -/
def Directory.follow (d : Directory) : List (List UInt8) → Place → Except ReadError Place
  | [], place => .ok place
  | _ :: _, .file _ => .error .notADirectory
  | part :: rest, place =>
    if part = [] ∨ part = [0x2E] then d.follow rest place
    else if part = [0x2E, 0x2E] then d.follow rest .above
    else
      match place, d.lookup part with
      | .here, some content => d.follow rest (.file content)
      | _, _ => .error .notFound

def Directory.read (d : Directory) (path : List UInt8) : Except ReadError (List UInt8) :=
  let start : Place := if path.head? = some 0x2F then .above else .here
  match d.follow (path.splitOn 0x2F) start with
  | .ok (.file content) => .ok content
  | .ok _ => .error .isADirectory
  | .error e => .error e

end Brainfuck.CommandLine
