import Brainfuck.Text.Utf8
import Mathlib.Algebra.Group.Nat.Defs
import Mathlib.Data.List.Basic

/-!
# The forms of characters

The UTF-8 form of a character has one to four bytes.  The first one says how many there are and
carries the leading bits of the character's number, each other one carries six bits more, and
which numbers have how many bytes depends on the leading bits alone.  So the first bytes of a form
tell exactly the leading bits of the character (`snoc_prefix_iff`).
-/

namespace Brainfuck.Text.Utf8

/-! ## Prefixes -/

/-- What is at the front of `bytes ++ rest` is at the front of `bytes`, or goes on with the first
byte of `rest`. -/
theorem prefix_append_cases {front bytes rest : List UInt8} (h : front <+: bytes ++ rest) :
    front <+: bytes ∨ ∃ b, [b] <+: rest ∧ bytes ++ [b] <+: front := by
  rcases List.prefix_or_prefix_of_prefix h (List.prefix_append bytes rest) with hfront | ⟨more, rfl⟩
  · exact Or.inl hfront
  · cases more with
    | nil => exact Or.inl (by simp)
    | cons b more =>
      rw [List.prefix_append_right_inj] at h
      exact Or.inr ⟨b, (List.prefix_append [b] more).trans h, by simp⟩

theorem append_singleton_prefix_iff {bytes bytes' : List UInt8} {b : UInt8} :
    bytes ++ [b] <+: bytes' ↔ bytes <+: bytes' ∧ bytes'[bytes.length]? = some b := by
  constructor
  · rintro ⟨rest, rfl⟩
    exact ⟨⟨[b] ++ rest, by simp⟩, by simp⟩
  · rintro ⟨⟨rest, rfl⟩, hb⟩
    rw [List.prefix_append_right_inj]
    cases rest with
    | nil => simp at hb
    | cons b' rest =>
      obtain rfl : b' = b := by simpa using hb
      exact List.prefix_append [b'] rest

/-! ## Bytes and sizes -/

/-- The form of a character, by its size. -/
theorem utf8EncodeChar_cases (c : Char) :
    (c.toNat < 0x80 ∧ c.utf8Size = 1 ∧ String.utf8EncodeChar c = [UInt8.ofNat c.toNat]) ∨
    (0x80 ≤ c.toNat ∧ c.toNat < 0x800 ∧ c.utf8Size = 2 ∧ String.utf8EncodeChar c =
      [UInt8.ofNat (c.toNat / 64 % 32 + 192), UInt8.ofNat (c.toNat % 64 + 128)]) ∨
    (0x800 ≤ c.toNat ∧ c.toNat < 0x10000 ∧ (c.toNat < 0xD800 ∨ 0xDFFF < c.toNat) ∧ c.utf8Size = 3 ∧
      String.utf8EncodeChar c = [UInt8.ofNat (c.toNat / 4096 % 16 + 224),
        UInt8.ofNat (c.toNat / 64 % 64 + 128), UInt8.ofNat (c.toNat % 64 + 128)]) ∨
    (0x10000 ≤ c.toNat ∧ c.toNat < 0x110000 ∧ c.utf8Size = 4 ∧
      String.utf8EncodeChar c = [UInt8.ofNat (c.toNat / 262144 % 8 + 240),
        UInt8.ofNat (c.toNat / 4096 % 64 + 128), UInt8.ofNat (c.toNat / 64 % 64 + 128),
        UInt8.ofNat (c.toNat % 64 + 128)]) := by
  have hvalid := c.valid
  have hval : c.val.toNat = c.toNat := rfl
  have hsize := String.length_utf8EncodeChar c
  simp only [UInt32.isValidChar, Nat.isValidChar, hval] at hvalid
  unfold String.utf8EncodeChar at hsize ⊢
  simp only [hval] at hsize ⊢
  by_cases h1 : c.toNat ≤ 0x7F
  · rw [if_pos h1] at hsize ⊢
    exact Or.inl ⟨by omega, hsize.symm, rfl⟩
  rw [if_neg h1] at hsize ⊢
  by_cases h2 : c.toNat ≤ 0x7FF
  · rw [if_pos h2] at hsize ⊢
    exact Or.inr (Or.inl ⟨by omega, by omega, hsize.symm, rfl⟩)
  rw [if_neg h2] at hsize ⊢
  by_cases h3 : c.toNat ≤ 0xFFFF
  · rw [if_pos h3] at hsize ⊢
    exact Or.inr (Or.inr (Or.inl ⟨by omega, by omega, by omega, hsize.symm, rfl⟩))
  · rw [if_neg h3] at hsize ⊢
    exact Or.inr (Or.inr (Or.inr ⟨by omega, by omega, hsize.symm, rfl⟩))

theorem exists_char_of_valid {v : Nat} (h : v.isValidChar) : ∃ c : Char, c.toNat = v :=
  ⟨Char.ofNatAux v h, rfl⟩

theorem toNat_char_ofNat (b : UInt8) : (Char.ofNat b.toNat).toNat = b.toNat := by
  have hlt := b.toNat_lt
  obtain ⟨c, hc⟩ := exists_char_of_valid (v := b.toNat) (Or.inl (by omega))
  rw [← hc, Char.ofNat_toNat]

/-- The characters of each size. -/
theorem exists_char_iff {v size : Nat} : (∃ c : Char, c.toNat = v ∧ c.utf8Size = size) ↔
    v < 0x80 ∧ size = 1 ∨ 0x80 ≤ v ∧ v < 0x800 ∧ size = 2 ∨
    0x800 ≤ v ∧ v < 0x10000 ∧ (v < 0xD800 ∨ 0xDFFF < v) ∧ size = 3 ∨
    0x10000 ≤ v ∧ v < 0x110000 ∧ size = 4 := by
  constructor
  · rintro ⟨c, rfl, rfl⟩
    have hcases := utf8EncodeChar_cases c
    omega
  · intro h
    have hvalid : v.isValidChar := by
      unfold Nat.isValidChar
      omega
    obtain ⟨c, rfl⟩ := exists_char_of_valid hvalid
    have hcases := utf8EncodeChar_cases c
    exact ⟨c, rfl, by omega⟩

theorem utf8EncodeChar_of_lt {c : Char} (h : c.toNat < 0x80) :
    String.utf8EncodeChar c = [UInt8.ofNat c.toNat] := by
  rcases utf8EncodeChar_cases c with ⟨-, -, hform⟩ | ⟨hge, -⟩ | ⟨hge, -⟩ | ⟨hge, -⟩
  · exact hform
  all_goals omega

theorem utf8EncodeChar_char_ofNat {b : UInt8} (h : b.toNat < 0x80) :
    String.utf8EncodeChar (Char.ofNat b.toNat) = [b] := by
  rw [utf8EncodeChar_of_lt (by rwa [toNat_char_ofNat]), toNat_char_ofNat, UInt8.ofNat_toNat]

/-- Whether all characters of a text have one byte. -/
def isPlain (text : String) : Bool := text.toList.all (·.toNat < 0x80)

@[simp] theorem isPlain_append (a b : String) : isPlain (a ++ b) = (isPlain a && isPlain b) := by
  rw [isPlain, String.toList_append, List.all_append]
  rfl

/-- In a plain text characters are bytes. -/
theorem encode_of_isPlain {text : String} (h : isPlain text = true) :
    encode text = text.toList.map fun c => UInt8.ofNat c.toNat := by
  rw [encode_eq_flatMap, List.map_eq_flatMap]
  refine List.flatMap_congr fun c hc => utf8EncodeChar_of_lt ?_
  exact of_decide_eq_true (List.all_eq_true.1 h c hc)

theorem length_encode_of_isPlain {text : String} (h : isPlain text = true) :
    (encode text).length = text.length := by
  rw [encode_of_isPlain h, List.length_map, String.length_toList]

/-- No byte of a longer form is a character's. -/
theorem le_toNat_of_mem_utf8EncodeChar {c : Char} {b : UInt8} (h : 0x80 ≤ c.toNat)
    (hb : b ∈ String.utf8EncodeChar c) : 0x80 ≤ b.toNat := by
  rcases utf8EncodeChar_cases c with ⟨hlt, -⟩ | ⟨-, hlt, -, hform⟩ | ⟨-, hlt, -, -, hform⟩ |
    ⟨-, hlt, -, hform⟩
  · omega
  all_goals
    rw [hform] at hb
    simp only [List.mem_cons, List.not_mem_nil, or_false, ← UInt8.toNat_inj, UInt8.toNat_ofNat'] at hb
    omega

/-- Behind the second byte, the bits left over are free. -/
theorem exists_char_of_div_eq {c : Char} {left v : Nat} (hleft : left + 2 ≤ c.utf8Size)
    (hv : v / 64 ^ left = c.toNat / 64 ^ left) :
    ∃ c' : Char, c'.toNat = v ∧ c'.utf8Size = c.utf8Size := by
  have hc := exists_char_iff.1 ⟨c, rfl, rfl⟩
  rw [exists_char_iff]
  obtain rfl | rfl | rfl : left = 0 ∨ left = 1 ∨ left = 2 := by omega
  all_goals omega

/-- The characters with given leading bits, found where all the other bits are zero. -/
theorem exists_char_div_iff {size left bits : Nat} (hleft : left + 2 ≤ size) :
    (∃ c : Char, c.utf8Size = size ∧ c.toNat / 64 ^ left = bits) ↔
      ∃ c : Char, c.toNat = bits * 64 ^ left ∧ c.utf8Size = size := by
  have hpos : 0 < 64 ^ left := Nat.pow_pos (by decide)
  constructor
  · rintro ⟨c, rfl, rfl⟩
    exact exists_char_of_div_eq hleft (Nat.mul_div_cancel _ hpos)
  · rintro ⟨c, hc, hsize⟩
    exact ⟨c, hsize, by rw [hc, Nat.mul_div_cancel _ hpos]⟩

/-! ## First bytes -/

/-- No character's form goes on with another's. -/
theorem form_unique {c c' : Char} {bytes : List UInt8}
    (h : String.utf8EncodeChar c <+: bytes) (h' : String.utf8EncodeChar c' <+: bytes) : c = c' := by
  obtain ⟨rest, hrest⟩ := h
  obtain ⟨rest', hrest'⟩ := h'
  have hdecode := @ByteArray.utf8DecodeChar?_utf8EncodeChar_append rest.toByteArray c
  have hdecode' := @ByteArray.utf8DecodeChar?_utf8EncodeChar_append rest'.toByteArray c'
  rw [← List.toByteArray_append, hrest] at hdecode
  rw [← List.toByteArray_append, hrest', hdecode] at hdecode'
  exact Option.some.inj hdecode'

/-- The first byte of a character's form. -/
theorem singleton_prefix_utf8EncodeChar {b : UInt8} {c : Char} :
    [b] <+: String.utf8EncodeChar c ↔
      c.utf8Size = 1 ∧ b.toNat = c.toNat ∨ c.utf8Size = 2 ∧ b.toNat = c.toNat / 64 + 0xC0 ∨
      c.utf8Size = 3 ∧ b.toNat = c.toNat / 4096 + 0xE0 ∨
      c.utf8Size = 4 ∧ b.toNat = c.toNat / 262144 + 0xF0 := by
  rcases utf8EncodeChar_cases c with ⟨hlt, hsize, hform⟩ | ⟨hge, hlt, hsize, hform⟩ |
    ⟨hge, hlt, -, hsize, hform⟩ | ⟨hge, hlt, hsize, hform⟩
  all_goals
    rw [hform, hsize, List.cons_prefix_cons, ← UInt8.toNat_inj, UInt8.toNat_ofNat']
    simp only [List.nil_prefix, and_true, true_and, Nat.reduceEqDiff, false_and, or_false,
      false_or]
    omega

/-- The bytes behind the first one carry six bits each. -/
theorem getElem?_utf8EncodeChar {c : Char} {read left : Nat} (h : read + 1 + (left + 1) = c.utf8Size) :
    (String.utf8EncodeChar c)[read + 1]? = some (UInt8.ofNat (c.toNat / 64 ^ left % 64 + 128)) := by
  rcases utf8EncodeChar_cases c with ⟨-, hsize, hform⟩ | ⟨-, -, hsize, hform⟩ |
    ⟨-, -, -, hsize, hform⟩ | ⟨-, -, hsize, hform⟩
  · omega
  · obtain ⟨rfl, rfl⟩ : read = 0 ∧ left = 0 := by omega
    simp [hform]
  · obtain ⟨rfl, rfl⟩ | ⟨rfl, rfl⟩ : read = 0 ∧ left = 1 ∨ read = 1 ∧ left = 0 := by omega
    all_goals simp [hform]
  · obtain ⟨rfl, rfl⟩ | ⟨rfl, rfl⟩ | ⟨rfl, rfl⟩ :
        read = 0 ∧ left = 2 ∨ read = 1 ∧ left = 1 ∨ read = 2 ∧ left = 0 := by omega
    all_goals simp [hform]

/-- Where bytes fix the leading bits of a character, the next byte adds six to them. -/
theorem snoc_prefix_iff {read : List UInt8} {size left bits : Nat} (hread : 0 < read.length)
    (hlength : read.length + (left + 1) = size)
    (hleads : ∀ c, read <+: String.utf8EncodeChar c ↔
      c.utf8Size = size ∧ c.toNat / 64 ^ (left + 1) = bits) (b : UInt8) (c : Char) :
    read ++ [b] <+: String.utf8EncodeChar c ↔ (0x80 ≤ b.toNat ∧ b.toNat ≤ 0xBF) ∧
      c.utf8Size = size ∧ c.toNat / 64 ^ left = bits * 64 + (b.toNat - 0x80) := by
  have hpow : c.toNat / 64 ^ (left + 1) = c.toNat / 64 ^ left / 64 := by
    rw [Nat.pow_succ, Nat.div_div_eq_div_mul]
  have hbyte : c.utf8Size = size → (String.utf8EncodeChar c)[read.length]? =
      some (UInt8.ofNat (c.toNat / 64 ^ left % 64 + 0x80)) := by
    intro hsize
    obtain ⟨n, hn⟩ := Nat.exists_eq_add_one.2 hread
    rw [hn]
    exact getElem?_utf8EncodeChar (by omega)
  rw [append_singleton_prefix_iff, hleads, hpow]
  constructor
  · rintro ⟨⟨hsize, hbits⟩, hb⟩
    rw [hbyte hsize, Option.some_inj, ← UInt8.toNat_inj, UInt8.toNat_ofNat'] at hb
    exact ⟨by omega, hsize, by omega⟩
  · rintro ⟨hb, hsize, hbits⟩
    refine ⟨⟨hsize, by omega⟩, ?_⟩
    rw [hbyte hsize, Option.some_inj, ← UInt8.toNat_inj, UInt8.toNat_ofNat']
    omega

end Brainfuck.Text.Utf8
