import Brainfuck.Text.Concealed

/-!
# Quoted text

Text between double quotes, written so that all of it can be seen: quotes, backslashes and
concealed characters are escaped.
-/

namespace Brainfuck.Text

/-- The digits of `n` in base 16, in lower case. -/
def hexadecimal (n : Nat) : String := String.ofList (Nat.toDigits 16 n)

def escape (c : Char) : String :=
  match c with
  | '\x00' => "\\0"
  | '\t' => "\\t"
  | '\n' => "\\n"
  | '\r' => "\\r"
  | '\\' => "\\\\"
  | '\x22' => "\\\""
  | c => if isConcealed c then s!"\\u\x7b{hexadecimal c.toNat}\x7d" else c.toString

def quoted (s : String) : String :=
  "\"" ++ s.toList.foldl (fun done c => done ++ escape c) "" ++ "\""

end Brainfuck.Text
