import Brainfuck.Text.Blank
import Brainfuck.Text.Numeral

/-!
# Terminal colors

Colors as users name them (`Color.parse?`), as terminals take them (`Color.code`), and text
painted in them.
-/

namespace Brainfuck

inductive Color
  | black | red | green | yellow | blue | purple | cyan | white
  | lightGray | darkGray | lightRed | lightGreen | lightYellow | lightBlue | lightPurple | lightCyan
  | rgb (r g b : UInt8)
deriving DecidableEq

namespace Color

/-- The color with the given name in lower case. -/
def ofName? : String → Option Color
  | "black" => some black
  | "red" => some red
  | "green" => some green
  | "yellow" => some yellow
  | "blue" => some blue
  | "magenta" | "purple" => some purple
  | "cyan" => some cyan
  | "white" => some white
  | "gray" | "grey" | "lightgray" | "light_gray" => some lightGray
  | "darkgray" | "dark_gray" | "darkgrey" | "dark_grey" => some darkGray
  | "lightred" | "light_red" => some lightRed
  | "lightgreen" | "light_green" => some lightGreen
  | "lightyellow" | "light_yellow" => some lightYellow
  | "lightblue" | "light_blue" => some lightBlue
  | "lightmagenta" | "light_magenta" => some lightPurple
  | "lightcyan" | "light_cyan" => some lightCyan
  | _ => none

/-- Two characters as one byte: two hexadecimal digits, or one with `+` in front. -/
def channel? (high low : Char) : Option UInt8 :=
  if high = '+' then (Text.hexDigit? low).map (·.toUInt8)
  else (Text.hexDigit? high).bind fun h => (Text.hexDigit? low).map fun l => (16 * h + l).toUInt8

/-- The color with the three channels written in `cs`. -/
def ofChannels? : List Char → Option Color
  | [r₁, r₀, g₁, g₀, b₁, b₀] =>
    match channel? r₁ r₀, channel? g₁ g₀, channel? b₁ b₀ with
    | some r, some g, some b => some (rgb r g b)
    | _, _, _ => none
  | _ => none

/-- A color as written by a user: `#` and three channels, or a name in any case. -/
def parse? (value : String) : Option Color :=
  match Text.trim value.toList with
  | '#' :: channels => ofChannels? channels
  | name => ofName? (String.ofList (name.map Char.toLower))

/-- What selects the color for the text that follows. -/
def code : Color → String
  | black => "30"
  | red => "31"
  | green => "32"
  | yellow => "33"
  | blue => "34"
  | purple => "35"
  | cyan => "36"
  | white => "37"
  | darkGray => "90"
  | lightRed => "91"
  | lightGreen => "92"
  | lightYellow => "93"
  | lightBlue => "94"
  | lightPurple => "95"
  | lightCyan => "96"
  | lightGray => "97"
  | rgb r g b => s!"38;2;{r};{g};{b}"

end Color

inductive Weight
  | plain | bold
deriving DecidableEq

/-- The control sequence that sets the given parameters of a terminal. -/
def setGraphics (parameters : String) : String := s!"\x1b[{parameters}m"

def Color.parameters (c : Color) : Weight → String
  | .plain => c.code
  | .bold => s!"1;{c.code}"

/-- Text in a color, with everything set back behind it; also around an empty text. -/
def Color.paint (c : Color) (weight : Weight) (text : String) : String :=
  setGraphics (c.parameters weight) ++ text ++ setGraphics "0"

/-- The colors of an error report. -/
structure Palette where
  error : Color := .rgb 0xf3 0x8b 0xa8
  caret : Color := .rgb 0xf9 0xe2 0xaf
  program : Color := .rgb 0x6c 0x70 0x86
deriving DecidableEq

/-- How the parts of an error report are painted that can have a color. -/
structure Paints where
  error : String → String
  caret : String → String
  program : String → String

namespace Paints

def plain : Paints := ⟨id, id, id⟩

def ofPalette (palette : Palette) : Paints where
  error := palette.error.paint .bold
  caret := palette.caret.paint .bold
  program := palette.program.paint .plain

end Paints

end Brainfuck
