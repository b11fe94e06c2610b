import Brainfuck.Program
import Brainfuck.Proofs.CharacterForms

/-!
# Lossy decoding

`Decodes` says which text bytes stand for, without a decoder: a character for its UTF-8 form, and
U+FFFD for each maximal subpart of what is no character's form.  `decode` gives that text and no
other, because what is pending (`Pending.Reads`) always has all that can be known of a character
by its first bytes.  A byte below 0x80 is a character wherever it stands, so no bytes of a comment
hide an instruction or make one.
-/

namespace Brainfuck

namespace Text.Utf8

/-! ## Texts and their bytes -/

/-- Some character's form begins with `bytes`. -/
def Begins (bytes : List UInt8) : Prop := ∃ c, bytes <+: String.utf8EncodeChar c

/-- Bytes that can be replaced as one. -/
def Subpart (bytes : List UInt8) : Prop := bytes ≠ [] ∧ Begins bytes ∨ bytes.length = 1

/-- No character's form is at the front of `bytes`, and no subpart there is longer than `sub`. -/
structure MaximalSubpart (sub bytes : List UInt8) : Prop where
  unconvertible : ∀ c, ¬ String.utf8EncodeChar c <+: bytes
  leads : sub <+: bytes
  subpart : Subpart sub
  longest : ∀ longer, longer <+: bytes → Subpart longer → longer.length ≤ sub.length

/-- Well-formed characters are read, and each maximal ill-formed subpart becomes one U+FFFD. -/
inductive Decodes : List UInt8 → List Char → Prop
  | nil : Decodes [] []
  | char (c : Char) {bytes text} : Decodes bytes text →
      Decodes (String.utf8EncodeChar c ++ bytes) (c :: text)
  | replaced {sub bytes text} : MaximalSubpart sub (sub ++ bytes) → Decodes bytes text →
      Decodes (sub ++ bytes) ('\uFFFD' :: text)

theorem Begins.mono {bytes bytes' : List UInt8} (h : Begins bytes') (hleads : bytes <+: bytes') :
    Begins bytes :=
  h.elim fun c hc => ⟨c, hleads.trans hc⟩

theorem Subpart.ne_nil {bytes : List UInt8} (h : Subpart bytes) : bytes ≠ [] := by
  rcases h with ⟨hne, -⟩ | hone
  · exact hne
  · exact List.ne_nil_of_length_eq_add_one hone

/-- A subpart that is no character's form, and that no byte behind it goes on with, is maximal. -/
theorem maximalSubpart_append {sub rest : List UInt8} (hsub : Subpart sub)
    (hform : ∀ c, ¬ String.utf8EncodeChar c <+: sub)
    (hstop : ∀ b, [b] <+: rest → ¬ Begins (sub ++ [b])) : MaximalSubpart sub (sub ++ rest) := by
  refine ⟨?_, List.prefix_append sub rest, hsub, ?_⟩
  · intro c hc
    rcases prefix_append_cases hc with hc | ⟨b, hb, hc⟩
    · exact hform c hc
    · exact hstop b hb ⟨c, hc⟩
  · intro longer hlonger hpart
    rcases prefix_append_cases hlonger with hle | ⟨b, hb, hle⟩
    · exact hle.length_le
    · rcases hpart with ⟨-, hbegins⟩ | hone
      · exact absurd (hbegins.mono hle) (hstop b hb)
      · have hlen := hle.length_le
        have hpos := List.length_pos_iff.2 hsub.ne_nil
        rw [List.length_append, List.length_singleton] at hlen
        omega

/-- Bytes stand for one text only. -/
theorem Decodes.unique {bytes : List UInt8} {text text' : List Char} (h : Decodes bytes text)
    (h' : Decodes bytes text') : text = text' := by
  induction h generalizing text' with
  | nil =>
    generalize hbytes : ([] : List UInt8) = bytes at h'
    cases h' with
    | nil => rfl
    | char c => exact absurd (List.append_eq_nil_iff.1 hbytes.symm).1 String.utf8EncodeChar_ne_nil
    | replaced hmax => exact absurd (List.append_eq_nil_iff.1 hbytes.symm).1 hmax.subpart.ne_nil
  | @char c rest text _ ih =>
    generalize hbytes : String.utf8EncodeChar c ++ rest = bytes at h'
    cases h' with
    | nil => exact absurd (List.append_eq_nil_iff.1 hbytes).1 String.utf8EncodeChar_ne_nil
    | @char c' rest' text' hrest =>
      have hc : c = c' := form_unique (List.prefix_append _ rest) (hbytes ▸ List.prefix_append _ _)
      subst hc
      rw [ih ((List.append_cancel_left hbytes) ▸ hrest)]
    | replaced hmax => exact absurd (hbytes ▸ List.prefix_append _ _) (hmax.unconvertible c)
  | @replaced sub rest text hmax _ ih =>
    generalize hbytes : sub ++ rest = bytes at h'
    cases h' with
    | nil => exact absurd (List.append_eq_nil_iff.1 hbytes).1 hmax.subpart.ne_nil
    | char c => exact absurd (hbytes ▸ List.prefix_append _ _) (hmax.unconvertible c)
    | @replaced sub' rest' text' hmax' hrest =>
      have hlen : sub.length = sub'.length :=
        Nat.le_antisymm (hmax'.longest sub (hbytes ▸ hmax.leads) hmax.subpart)
          (hmax.longest sub' (hbytes ▸ hmax'.leads) hmax'.subpart)
      obtain ⟨rfl, rfl⟩ := List.append_inj hbytes hlen
      rw [ih hrest]

/-! ## What is pending -/

/-- `p` has all that the bytes read so far tell about a character of `size` bytes: its leading
bits, and which bytes some such character goes on with. -/
structure Pending.Reads (p : Pending) (read : List UInt8) (size : Nat) : Prop where
  read_pos : 0 < read.length
  missing_pos : 0 < p.missing
  length : read.length + p.missing = size
  bounds : p.low ≤ p.high
  prefix_iff : ∀ c, read <+: String.utf8EncodeChar c ↔
    c.utf8Size = size ∧ c.toNat / 64 ^ p.missing = p.bits
  next_iff : ∀ b, p.low ≤ b ∧ b ≤ p.high ↔ Begins (read ++ [b])

/-- Bytes that fix the leading bits of a character are pending: the bounds of the next byte are
those for which there is such a character. -/
theorem reads_of_prefix_iff {read : List UInt8} {size left bits : Nat} {low high : UInt8}
    (hread : 0 < read.length) (hlength : read.length + (left + 1) = size) (hbounds : low ≤ high)
    (hleads : ∀ c, read <+: String.utf8EncodeChar c ↔
      c.utf8Size = size ∧ c.toNat / 64 ^ (left + 1) = bits)
    (hnext : ∀ b, low ≤ b ∧ b ≤ high ↔ (0x80 ≤ b.toNat ∧ b.toNat ≤ 0xBF) ∧
      ∃ c : Char, c.utf8Size = size ∧ c.toNat / 64 ^ left = bits * 64 + (b.toNat - 0x80)) :
    (⟨left + 1, low, high, bits⟩ : Pending).Reads read size where
  read_pos := hread
  missing_pos := Nat.succ_pos left
  length := hlength
  bounds := hbounds
  prefix_iff := hleads
  next_iff b := by
    simp only [hnext, Begins, snoc_prefix_iff hread hlength hleads, exists_and_left]

/-- The first byte of a form of two bytes. -/
theorem reads_two {b : UInt8} (h : 0xC2 ≤ b.toNat ∧ b.toNat ≤ 0xDF) :
    (⟨1, 0x80, 0xBF, b.toNat - 0xC0⟩ : Pending).Reads [b] 2 := by
  refine reads_of_prefix_iff Nat.one_pos rfl (by decide) ?_ ?_
  · intro c
    have hc := exists_char_iff.1 ⟨c, rfl, rfl⟩
    rw [singleton_prefix_utf8EncodeChar]
    omega
  · intro b'
    rw [exists_char_div_iff (by decide), exists_char_iff]
    simp only [UInt8.le_iff_toNat_le, UInt8.reduceToNat, Nat.reduceEqDiff, and_true, and_false, or_false,
      false_or]
    omega

/-- The first byte of a form of three.  Behind 0xE0 there are shorter forms, and behind 0xED
surrogates. -/
theorem reads_three {b : UInt8} (h : 0xE0 ≤ b.toNat ∧ b.toNat ≤ 0xEF) :
    (⟨2, if b = 0xE0 then 0xA0 else 0x80, if b = 0xED then 0x9F else 0xBF, b.toNat - 0xE0⟩ :
      Pending).Reads [b] 3 := by
  refine reads_of_prefix_iff Nat.one_pos rfl (by split <;> split <;> simp_all) ?_ ?_
  · intro c
    have hc := exists_char_iff.1 ⟨c, rfl, rfl⟩
    rw [singleton_prefix_utf8EncodeChar]
    omega
  · intro b'
    rw [exists_char_div_iff (by decide), exists_char_iff]
    simp only [UInt8.le_iff_toNat_le, ← UInt8.toNat_inj, apply_ite UInt8.toNat, UInt8.reduceToNat]
    simp only [Nat.reduceEqDiff, and_true, and_false, or_false, false_or]
    split <;> split <;> omega

/-- The first byte of a form of four.  Behind 0xF0 there are shorter forms, and behind 0xF4 numbers
above U+10FFFF. -/
theorem reads_four {b : UInt8} (h : 0xF0 ≤ b.toNat ∧ b.toNat ≤ 0xF4) :
    (⟨3, if b = 0xF0 then 0x90 else 0x80, if b = 0xF4 then 0x8F else 0xBF, b.toNat - 0xF0⟩ :
      Pending).Reads [b] 4 := by
  refine reads_of_prefix_iff Nat.one_pos rfl (by split <;> split <;> simp_all) ?_ ?_
  · intro c
    have hc := exists_char_iff.1 ⟨c, rfl, rfl⟩
    rw [singleton_prefix_utf8EncodeChar]
    omega
  · intro b'
    rw [exists_char_div_iff (by decide), exists_char_iff]
    simp only [UInt8.le_iff_toNat_le, ← UInt8.toNat_inj, apply_ite UInt8.toNat, UInt8.reduceToNat]
    simp only [Nat.reduceEqDiff, and_true, and_false, false_or]
    split <;> split <;> omega

/-- A first byte is a character, or is pending, or begins no character. -/
theorem start_cases (b : UInt8) (decoded : List Char) :
    (∃ c, String.utf8EncodeChar c = [b] ∧ Decoder.start b decoded = ⟨none, c :: decoded⟩) ∨
    (∃ p size, p.Reads [b] size ∧ Decoder.start b decoded = ⟨some p, decoded⟩) ∨
    (¬ Begins [b] ∧ Decoder.start b decoded = ⟨none, replacement :: decoded⟩) := by
  unfold Decoder.start
  simp only [UInt8.le_iff_toNat_le, UInt8.reduceToNat]
  by_cases h1 : b.toNat ≤ 0x7F
  · exact Or.inl ⟨Char.ofNat b.toNat, utf8EncodeChar_char_ofNat (by omega), if_pos h1⟩
  rw [if_neg h1]
  by_cases h2 : 0xC2 ≤ b.toNat ∧ b.toNat ≤ 0xDF
  · exact Or.inr (Or.inl ⟨_, 2, reads_two h2, if_pos h2⟩)
  rw [if_neg h2]
  by_cases h3 : 0xE0 ≤ b.toNat ∧ b.toNat ≤ 0xEF
  · exact Or.inr (Or.inl ⟨_, 3, reads_three h3, if_pos h3⟩)
  rw [if_neg h3]
  by_cases h4 : 0xF0 ≤ b.toNat ∧ b.toNat ≤ 0xF4
  · exact Or.inr (Or.inl ⟨_, 4, reads_four h4, if_pos h4⟩)
  refine Or.inr (Or.inr ⟨?_, if_neg h4⟩)
  rintro ⟨c, hc⟩
  have hchar := exists_char_iff.1 ⟨c, rfl, rfl⟩
  rw [singleton_prefix_utf8EncodeChar] at hc
  omega

/-- With something pending, a byte ends the character, or goes on with it, or begins anew because
no character goes on so. -/
theorem feed_cases {p : Pending} {read : List UInt8} {size : Nat} (h : p.Reads read size) (b : UInt8)
    (decoded : List Char) :
    (∃ c, String.utf8EncodeChar c = read ++ [b] ∧
      Decoder.feed ⟨some p, decoded⟩ b = ⟨none, c :: decoded⟩) ∨
    (∃ p', p'.Reads (read ++ [b]) size ∧ Decoder.feed ⟨some p, decoded⟩ b = ⟨some p', decoded⟩) ∨
    (¬ Begins (read ++ [b]) ∧
      Decoder.feed ⟨some p, decoded⟩ b = Decoder.start b (replacement :: decoded)) := by
  obtain ⟨left, hleft⟩ := Nat.exists_eq_add_one.2 h.missing_pos
  have hread := h.read_pos
  have hlength := h.length
  have hleads := h.prefix_iff
  rw [hleft] at hlength hleads
  by_cases hb : p.low ≤ b ∧ b ≤ p.high
  · obtain ⟨c, hc⟩ := (h.next_iff b).1 hb
    have hsnoc := snoc_prefix_iff hread hlength hleads b
    obtain ⟨hbounds, hsize, hbits⟩ := (hsnoc c).1 hc
    cases left with
    | zero =>
      refine Or.inl ⟨c, (hc.eq_of_length ?_).symm, ?_⟩
      · rw [String.length_utf8EncodeChar, List.length_append, List.length_singleton]
        omega
      · have hchar : p.bits * 64 + (b.toNat - 0x80) = c.toNat := by omega
        simp only [Decoder.feed, if_pos hb, hleft, Nat.zero_add, Nat.le_refl, if_true, hchar,
          Char.ofNat_toNat]
    | succ left =>
      refine Or.inr (Or.inl ⟨⟨left + 1, 0x80, 0xBF, p.bits * 64 + (b.toNat - 0x80)⟩,
        reads_of_prefix_iff (by simp) ?_ (by decide) ?_ ?_, ?_⟩)
      · rw [List.length_append, List.length_singleton]
        omega
      · intro c'
        rw [hsnoc c', and_iff_right hbounds]
      · intro b'
        rw [exists_char_div_iff (by omega), ← hsize, ← hbits]
        simp only [UInt8.le_iff_toNat_le, UInt8.reduceToNat]
        refine ⟨fun hb' => ⟨hb', @exists_char_of_div_eq c (left + 1) _ (by omega) ?_⟩, And.left⟩
        have hpos : 0 < 64 ^ left := Nat.pow_pos (by decide)
        rw [Nat.pow_succ, ← Nat.div_div_eq_div_mul, Nat.mul_div_cancel _ hpos]
        omega
      · have hmissing : ¬ p.missing ≤ 1 := by omega
        simp only [Decoder.feed, if_pos hb, if_neg hmissing]
        rw [hleft]
        rfl
  · exact Or.inr (Or.inr ⟨fun hbegins => hb ((h.next_iff b).2 hbegins), if_neg hb⟩)

theorem Pending.Reads.begins {p : Pending} {read : List UInt8} {size : Nat} (h : p.Reads read size) :
    Begins read :=
  ((h.next_iff p.low).1 ⟨UInt8.le_refl _, h.bounds⟩).mono (List.prefix_append read [p.low])

/-- What is pending is no character yet. -/
theorem Pending.Reads.maximalSubpart {p : Pending} {read rest : List UInt8} {size : Nat}
    (h : p.Reads read size) (hstop : ∀ b, [b] <+: rest → ¬ Begins (read ++ [b])) :
    MaximalSubpart read (read ++ rest) := by
  refine maximalSubpart_append (Or.inl ⟨List.length_pos_iff.1 h.read_pos, h.begins⟩) ?_ hstop
  obtain ⟨c, hc⟩ := h.begins
  intro c' hc'
  obtain rfl : c' = c := form_unique (hc'.trans hc) (List.prefix_refl _)
  have hle := hc'.length_le
  have hsize := ((h.prefix_iff c').1 hc).1
  have hlength := h.length
  have hmissing := h.missing_pos
  rw [String.length_utf8EncodeChar] at hle
  omega

theorem maximalSubpart_singleton {b : UInt8} {rest : List UInt8} (h : ¬ Begins [b]) :
    MaximalSubpart [b] ([b] ++ rest) := by
  refine maximalSubpart_append (Or.inr rfl) ?_ ?_
  · intro c hc
    have hform : String.utf8EncodeChar c = [b] :=
      hc.eq_of_length_le (List.length_pos_iff.2 String.utf8EncodeChar_ne_nil)
    exact h ⟨c, hform ▸ List.prefix_refl _⟩
  · intro b' _ hb'
    exact h (hb'.mono (List.prefix_append [b] [b']))

/-! ## The decoder -/

/-- `d` goes on to write, behind its characters, what the bytes `read` and `rest` stand for. -/
def Decoder.Writes (d : Decoder) (read rest : List UInt8) : Prop :=
  ∃ text, (rest.foldl Decoder.feed d).finish = d.decoded.reverse ++ text ∧ Decodes (read ++ rest) text

/-- Between characters, a decoder writes what the rest stands for; with something pending, also
what that stands for. -/
structure WritesAll (rest : List UInt8) : Prop where
  between : ∀ decoded, Decoder.Writes ⟨none, decoded⟩ [] rest
  within : ∀ p read size decoded, Pending.Reads p read size → Decoder.Writes ⟨some p, decoded⟩ read rest

theorem WritesAll.start {rest : List UInt8} (h : WritesAll rest) (b : UInt8) (decoded : List Char) :
    ∃ text, (rest.foldl Decoder.feed (Decoder.start b decoded)).finish = decoded.reverse ++ text ∧
      Decodes ([b] ++ rest) text := by
  rcases start_cases b decoded with ⟨c, hc, hstart⟩ | ⟨p, size, hreads, hstart⟩ | ⟨hbegins, hstart⟩
  · obtain ⟨text, hfinish, htext⟩ := h.between (c :: decoded)
    refine ⟨c :: text, by rw [hstart, hfinish]; simp, ?_⟩
    rw [← hc]
    exact htext.char c
  · rw [hstart]
    exact h.within p [b] size decoded hreads
  · obtain ⟨text, hfinish, htext⟩ := h.between (replacement :: decoded)
    exact ⟨replacement :: text, by rw [hstart, hfinish]; simp,
      htext.replaced (maximalSubpart_singleton hbegins)⟩

theorem writesAll (rest : List UInt8) : WritesAll rest := by
  induction rest with
  | nil =>
    constructor
    · intro decoded
      exact ⟨[], by simp [Decoder.finish], Decodes.nil⟩
    · intro p read size decoded hreads
      refine ⟨[replacement], by simp [Decoder.finish], Decodes.nil.replaced (hreads.maximalSubpart ?_)⟩
      intro b hb
      exact absurd (List.prefix_nil.1 hb) (List.cons_ne_nil b [])
  | cons b rest ih =>
    constructor
    · exact ih.start b
    · intro p read size decoded hreads
      rcases feed_cases hreads b decoded with ⟨c, hc, hfeed⟩ | ⟨p', hreads', hfeed⟩ | ⟨hstop, hfeed⟩
      · obtain ⟨text, hfinish, htext⟩ := ih.between (c :: decoded)
        refine ⟨c :: text, by rw [List.foldl_cons, hfeed, hfinish]; simp, ?_⟩
        rw [List.append_cons, ← hc]
        exact htext.char c
      · obtain ⟨text, hfinish, htext⟩ := ih.within p' (read ++ [b]) size decoded hreads'
        refine ⟨text, by rw [List.foldl_cons, hfeed, hfinish], ?_⟩
        rw [List.append_cons]
        exact htext
      · obtain ⟨text, hfinish, htext⟩ := ih.start b (replacement :: decoded)
        refine ⟨replacement :: text, by rw [List.foldl_cons, hfeed, hfinish]; simp, ?_⟩
        refine htext.replaced (hreads.maximalSubpart ?_)
        intro b' hb'
        obtain rfl : b' = b := by simpa using hb'
        exact hstop

/-- The decoder writes the one text that the bytes stand for. -/
theorem decodes_iff_eq_decode {bytes : List UInt8} {text : List Char} :
    Decodes bytes text ↔ text = decode bytes := by
  obtain ⟨text', hfinish, htext'⟩ := (writesAll bytes).between []
  have hdecode : Decodes bytes (decode bytes) := by
    rw [decode, hfinish]
    exact htext'
  constructor
  · intro h
    exact h.unique hdecode
  · rintro rfl
    exact hdecode

end Text.Utf8

/-! ## Instructions among any bytes -/

open Text.Utf8

namespace Instruction

/-- The instruction a byte stands for in ASCII. -/
def ofByte? (b : UInt8) : Option Instruction := ofChar? (Char.ofNat b.toNat)

theorem toNat_symbol_lt (i : Instruction) : i.symbol.toNat < 0x80 := by
  cases i <;> decide

theorem ofChar?_eq_none {c : Char} (h : 0x80 ≤ c.toNat) : ofChar? c = none := by
  cases hc : ofChar? c with
  | none => rfl
  | some i =>
    have hlt := toNat_symbol_lt i
    rw [ofChar?_eq_some_iff.1 hc] at h
    omega

theorem ofByte?_eq_none {b : UInt8} (h : 0x80 ≤ b.toNat) : ofByte? b = none :=
  ofChar?_eq_none (by rwa [toNat_char_ofNat])

theorem filterMap_ofByte?_utf8EncodeChar (c : Char) :
    (String.utf8EncodeChar c).filterMap ofByte? = (ofChar? c).toList := by
  by_cases hlt : c.toNat < 0x80
  · have hbyte : (UInt8.ofNat c.toNat).toNat = c.toNat := by
      rw [UInt8.toNat_ofNat']
      omega
    rw [utf8EncodeChar_of_lt hlt, List.filterMap_cons, ofByte?, hbyte, Char.ofNat_toNat]
    cases ofChar? c <;> rfl
  · rw [ofChar?_eq_none (Nat.le_of_not_lt hlt), Option.toList_none, List.filterMap_eq_nil_iff]
    intro b hb
    exact ofByte?_eq_none (le_toNat_of_mem_utf8EncodeChar (Nat.le_of_not_lt hlt) hb)

end Instruction

/-- A byte below 0x80 is a character, so no subpart that is replaced has one. -/
theorem Text.Utf8.MaximalSubpart.le_toNat {sub bytes : List UInt8} (h : MaximalSubpart sub bytes) {b : UInt8}
    (hb : b ∈ sub) : 0x80 ≤ b.toNat := by
  refine Nat.le_of_not_lt fun hlt => ?_
  obtain ⟨c, hc⟩ : ∃ c, String.utf8EncodeChar c = sub := by
    rcases h.subpart with ⟨hne, c, hc⟩ | hone
    · have hclt : c.toNat < 0x80 := by
        refine Nat.lt_of_not_le fun hge => ?_
        have hle := le_toNat_of_mem_utf8EncodeChar hge (hc.subset hb)
        omega
      refine ⟨c, (hc.eq_of_length_le ?_).symm⟩
      rw [utf8EncodeChar_of_lt hclt]
      exact List.length_pos_iff.2 hne
    · obtain ⟨b', rfl⟩ := List.length_eq_one_iff.1 hone
      obtain rfl := List.mem_singleton.1 hb
      exact ⟨_, utf8EncodeChar_char_ofNat hlt⟩
  exact h.unconvertible c (hc ▸ h.leads)

/-- Whatever surrounds them, the instructions of a text are those of its bytes. -/
theorem filterMap_ofChar?_of_decodes {bytes : List UInt8} {text : List Char} (h : Decodes bytes text) :
    text.filterMap Instruction.ofChar? = bytes.filterMap Instruction.ofByte? := by
  induction h with
  | nil => rfl
  | @char c bytes text _ ih =>
    rw [List.filterMap_append, Instruction.filterMap_ofByte?_utf8EncodeChar, ← ih, List.filterMap_cons]
    cases Instruction.ofChar? c <;> rfl
  | @replaced sub bytes text hmax _ ih =>
    have hnone : sub.filterMap Instruction.ofByte? = [] :=
      List.filterMap_eq_nil_iff.2 fun b hb => Instruction.ofByte?_eq_none (hmax.le_toNat hb)
    rw [List.filterMap_append, hnone, ← ih]
    rfl

/-- **Any bytes may stand in a comment.**  The decoder writes the one text that the bytes stand
for, and the program read from it is what the bytes of the instruction symbols spell. -/
theorem comments_never_change_program (bytes : List UInt8) :
    (∀ text, Decodes bytes text ↔ text = decode bytes) ∧
    (Program.parse (String.ofList (decode bytes))).instructions =
      bytes.filterMap fun b => Instruction.ofChar? (Char.ofNat b.toNat) := by
  refine ⟨fun text => decodes_iff_eq_decode, ?_⟩
  rw [Program.instructions_parse, String.toList_ofList]
  exact filterMap_ofChar?_of_decodes (decodes_iff_eq_decode.2 rfl)

/-- What breaks off a character is still read for itself. -/
example : decode [0xF0, 0x9F, 0x2B, 0xED, 0xA0, 0x2E] =
    ['\uFFFD', '+', '\uFFFD', '\uFFFD', '.'] := by decide

end Brainfuck
