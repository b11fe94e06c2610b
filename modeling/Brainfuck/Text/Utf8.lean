/-!
# UTF-8

Reading bytes as UTF-8.  `decode` accepts any bytes: each longest piece that could have been the
beginning of a character, but is not gone on with, becomes one U+FFFD, and so does each byte that
begins no character.  `decode?` accepts well-formed bytes only.  `encode` is the way back.
-/

namespace Brainfuck.Text.Utf8

/-- A character whose first bytes have been read. -/
structure Pending where
  /-- How many bytes are missing, at least one. -/
  missing : Nat
  /-- The bounds of the next byte. -/
  low : UInt8
  high : UInt8
  /-- The bits of the bytes read so far. -/
  bits : Nat
deriving DecidableEq

structure Decoder where
  pending : Option Pending := none
  /-- The characters read so far, the last one first. -/
  decoded : List Char := []
deriving DecidableEq

def replacement : Char := '\uFFFD'

namespace Decoder

/-- Read the first byte of a character.  The bounds of the second byte keep out characters that
have a shorter form, surrogates, and what is behind U+10FFFF. -/
def start (b : UInt8) (decoded : List Char) : Decoder :=
  if b ≤ 0x7F then ⟨none, Char.ofNat b.toNat :: decoded⟩
  else if 0xC2 ≤ b ∧ b ≤ 0xDF then ⟨some ⟨1, 0x80, 0xBF, b.toNat - 0xC0⟩, decoded⟩
  else if 0xE0 ≤ b ∧ b ≤ 0xEF then
    let low := if b = 0xE0 then 0xA0 else 0x80
    let high := if b = 0xED then 0x9F else 0xBF
    ⟨some ⟨2, low, high, b.toNat - 0xE0⟩, decoded⟩
  else if 0xF0 ≤ b ∧ b ≤ 0xF4 then
    let low := if b = 0xF0 then 0x90 else 0x80
    let high := if b = 0xF4 then 0x8F else 0xBF
    ⟨some ⟨3, low, high, b.toNat - 0xF0⟩, decoded⟩
  else ⟨none, replacement :: decoded⟩

/-- Read one byte.  One that cannot go on with the pending character begins a new one. -/
def feed (d : Decoder) (b : UInt8) : Decoder :=
  match d.pending with
  | none => start b d.decoded
  | some p =>
    if p.low ≤ b ∧ b ≤ p.high then
      let bits := p.bits * 64 + (b.toNat - 0x80)
      if p.missing ≤ 1 then ⟨none, Char.ofNat bits :: d.decoded⟩
      else ⟨some ⟨p.missing - 1, 0x80, 0xBF, bits⟩, d.decoded⟩
    else start b (replacement :: d.decoded)

def finish (d : Decoder) : List Char :=
  match d.pending with
  | none => d.decoded.reverse
  | some _ => (replacement :: d.decoded).reverse

end Decoder

def decode (bytes : List UInt8) : List Char := (bytes.foldl Decoder.feed {}).finish

/-- The text that `bytes` are the UTF-8 form of, if there is one. -/
def decode? (bytes : List UInt8) : Option String := String.fromUTF8? ⟨bytes.toArray⟩

/-- The UTF-8 form of a text. -/
def encode (text : String) : List UInt8 := text.toUTF8.data.toList

theorem encode_eq_flatMap (text : String) :
    encode text = text.toList.flatMap String.utf8EncodeChar := by
  have hbytes := String.toByteArray_ofList (l := text.toList)
  rw [String.ofList_toList] at hbytes
  show text.toByteArray.data.toList = _
  rw [hbytes, List.utf8Encode, List.toList_data_toByteArray]

theorem encode_append (a b : String) : encode (a ++ b) = encode a ++ encode b := by
  simp only [encode_eq_flatMap, String.toList_append, List.flatMap_append]

end Brainfuck.Text.Utf8
