import Brainfuck.Text.Terminal

/-!
# Command-line arguments

What the arguments ask for.  They are read from left to right, and the first problem is the one
that is reported; only an empty file name is noticed later, when the next flag is met or at the end.
-/

namespace Brainfuck.CommandLine

/-- An argument as it is given, which need not be text. -/
abbrev Argument := List UInt8

inductive UsageError
  | unexpectedArgument (argument : String)
  | unexpectedValue (value flag : String)
  | repeatedFlag (flag : String)
  | emptyFile
deriving DecidableEq

/-- A piece of the user's text, fit for a terminal. -/
def fit (s : String) : String := String.ofList (Text.Terminal.plain .ground s.toList)

def UsageError.text : UsageError → String
  | unexpectedArgument argument => s!"unexpected argument '{fit argument}' found"
  | unexpectedValue value flag =>
    s!"unexpected value '{fit value}' for '{flag}' found; no more were expected"
  | repeatedFlag flag => s!"the argument '{flag}' cannot be used multiple times"
  | emptyFile => "a value is required for '[FILE]' but none was supplied"

/-- The first line of the text. -/
def UsageError.message (e : UsageError) : String :=
  let line := e.text.toList.takeWhile (· ≠ '\n')
  String.ofList (if line.getLast? = some '\r' then line.dropLast else line)

/-- What the arguments ask for. -/
inductive Request
  | version
  | help
  | run (file : Argument)
  | nothing
deriving DecidableEq

/-- What the arguments read so far have said. -/
structure Seen where
  file : Option Argument := none
  help : Bool := false
deriving DecidableEq

/-- An empty name is no name. -/
def Seen.checked (s : Seen) : Except UsageError Seen :=
  if s.file = some [] then .error .emptyFile else .ok s

/-- What a flag or argument leads to: the version is shown at once. -/
inductive Progress
  | version
  | seen (s : Seen)
deriving DecidableEq

inductive Flag
  | help | version
deriving DecidableEq

def Flag.ofName? (name : List UInt8) : Option Flag :=
  if name = "help".toUTF8.toList then some help
  else if name = "version".toUTF8.toList then some version
  else none

def Flag.ofLetter? : Char → Option Flag
  | 'h' => some help
  | 'V' => some version
  | _ => none

def Flag.longForm : Flag → String
  | help => "--help"
  | version => "--version"

def Seen.raise (s : Seen) (flag : Flag) : Except UsageError Progress :=
  s.checked.bind fun s =>
    match flag with
    | .version => .ok .version
    | .help => if s.help then .error (.repeatedFlag flag.longForm) else .ok (.seen { s with help := true })

/-- A file name, of which there may be one. -/
def Seen.name (s : Seen) (argument : Argument) : Except UsageError Progress :=
  match s.file with
  | none => .ok (.seen { s with file := some argument })
  | some _ => .error (.unexpectedArgument (String.ofList (Text.Utf8.decode argument)))

/-- A flag written out behind two dashes, which takes no value. -/
def Seen.long (s : Seen) (body : List UInt8) : Except UsageError Progress :=
  let name := body.takeWhile (· ≠ 0x3D)
  match Flag.ofName? name, body.dropWhile (· ≠ 0x3D) with
  | none, _ => .error (.unexpectedArgument ("--" ++ String.ofList (Text.Utf8.decode name)))
  | some flag, [] => s.raise flag
  | some flag, _ :: value =>
    .error (.unexpectedValue (String.ofList (Text.Utf8.decode value)) flag.longForm)

/-- Flags of one letter each behind one dash, and behind them `garbage` that is no text. -/
def Seen.letters (garbage : List UInt8) : List Char → Seen → Except UsageError Progress
  | [], s =>
    if garbage.isEmpty then .ok (.seen s)
    else .error (.unexpectedArgument ("-" ++ String.ofList (Text.Utf8.decode garbage)))
  | c :: rest, s =>
    match Flag.ofLetter? c with
    | none => .error (.unexpectedArgument (String.ofList ['-', c]))
    | some flag =>
      match s.raise flag with
      | .ok (.seen s) => Seen.letters garbage rest s
      | other => other

/-- How many bytes at the beginning are text. -/
def textLength (bytes : List UInt8) : Nat → Nat
  | 0 => 0
  | n + 1 => if (Text.Utf8.decode? (bytes.take (n + 1))).isSome then n + 1 else textLength bytes n

def Seen.cluster (s : Seen) (body : List UInt8) : Except UsageError Progress :=
  let n := textLength body body.length
  Seen.letters (body.drop n) (Text.Utf8.decode (body.take n)) s

/-- What there is to do when there are no more arguments. -/
def Seen.finish (s : Seen) : Except UsageError Request :=
  s.checked.map fun s =>
    if s.help then .help
    else match s.file with
      | some file => .run file
      | none => .nothing

/-- Read the arguments that are left; behind `--` there are only file names. -/
def request : List Argument → Bool → Seen → Except UsageError Request
  | [], _, s => s.finish
  | argument :: rest, onlyNames, s =>
    let step := match onlyNames, argument with
      | true, _ => (s.name argument, true)
      | false, [0x2D, 0x2D] => (.ok (.seen s), true)
      | false, 0x2D :: 0x2D :: body => (s.long body, false)
      | false, [0x2D] => (s.name argument, false)
      | false, 0x2D :: body => (s.cluster body, false)
      | false, _ => (s.name argument, false)
    match step with
    | (.error e, _) => .error e
    | (.ok .version, _) => .ok .version
    | (.ok (.seen s), onlyNames) => request rest onlyNames s

/-- What the arguments of a command ask for. -/
def Request.ofArguments (arguments : List Argument) : Except UsageError Request :=
  request arguments false {}

end Brainfuck.CommandLine
