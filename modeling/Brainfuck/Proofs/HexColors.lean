import Brainfuck.Color
import Brainfuck.Proofs.CharacterForms
import Brainfuck.Text.Piece

/-!
# Hexadecimal colors

A text that begins with `#` is a color if three channels follow (`hex_color_forms`).  A channel is meant to be
two hexadecimal digits (`Color.Pair`), but since it is read as a number, it may also be a plus sign and one
digit (`Color.Signed`, `signed_channels_read`).

A color can also be read from the bytes of a text: these are counted, checked to be below 0x80, cut into
pairs, and the pairs read as numbers (`Color.ofBytes?`).  No pair that is cut out ends inside a character, so
that there is always an answer, and it is the same (`Color.ofBytes?_encode`).
-/

namespace Brainfuck

open Text

namespace Text

/-- A hexadecimal digit of either case and its value. -/
def HexDigit (c : Char) (v : Nat) : Prop := "0123456789abcdef".toList[v]? = some c.toLower

instance (c : Char) (v : Nat) : Decidable (HexDigit c v) :=
  inferInstanceAs (Decidable (_ = _))

theorem hexDigit?_char_ofNat : ∀ n, n < 128 → ∀ v, v < 16 →
    (hexDigit? (Char.ofNat n) = some v ↔ HexDigit (Char.ofNat n) v) := by
  decide +kernel

theorem HexDigit.lt {c : Char} {v : Nat} (h : HexDigit c v) : v < 16 :=
  (List.getElem?_eq_some_iff.1 h).1

theorem HexDigit.ne_plus {c : Char} {v : Nat} (h : HexDigit c v) : c ≠ '+' := by
  rintro rfl
  exact absurd (List.mem_of_getElem? h) (by decide)

theorem toLower_of_le {c : Char} (h : 128 ≤ c.toNat) : c.toLower = c := by
  have hval : c.val.toNat = c.toNat := rfl
  unfold Char.toLower
  rw [dif_neg]
  rintro ⟨-, hle⟩
  have := UInt32.le_iff_toNat_le.1 hle
  have hz : 'Z'.val.toNat = 90 := rfl
  omega

theorem HexDigit.toNat_lt {c : Char} {v : Nat} (h : HexDigit c v) : c.toNat < 128 := by
  by_contra hle
  have hmem := List.mem_of_getElem? h
  rw [toLower_of_le (by omega)] at hmem
  have hall : "0123456789abcdef".toList.all (·.toNat < 128) = true := rfl
  have := List.all_eq_true.1 hall c hmem
  exact hle (of_decide_eq_true this)

theorem hexDigit?_lt {c : Char} {v : Nat} (h : hexDigit? c = some v) : v < 16 ∧ c.toNat < 128 := by
  unfold hexDigit? at h
  simp only [Char.isDigit, Char.le_def, UInt32.le_iff_toNat_le, Bool.and_eq_true, decide_eq_true_eq] at h
  have hval : c.val.toNat = c.toNat := rfl
  split at h
  · next hc =>
    cases h
    simp at hc ⊢
    omega
  · split at h
    · next hc =>
      cases h
      simp at hc ⊢
      omega
    · split at h
      · next hc =>
        cases h
        simp at hc ⊢
        omega
      · cases h

theorem hexDigit?_eq_some_iff {c : Char} {v : Nat} : hexDigit? c = some v ↔ HexDigit c v := by
  have htable : c.toNat < 128 → v < 16 → (hexDigit? c = some v ↔ HexDigit c v) := by
    intro hc hv
    rw [← Char.ofNat_toNat c]
    exact hexDigit?_char_ofNat c.toNat hc v hv
  constructor
  · intro h
    have hlt := hexDigit?_lt h
    exact (htable hlt.2 hlt.1).1 h
  · intro h
    exact (htable h.toNat_lt h.lt).2 h

end Text

namespace Color

/-- A byte as two hexadecimal digits. -/
def Pair (b : UInt8) (cs : List Char) : Prop :=
  ∃ high low h l, cs = [high, low] ∧ HexDigit high h ∧ HexDigit low l ∧ b.toNat = 16 * h + l

/-- A byte as `+` and one hexadecimal digit. -/
def Signed (b : UInt8) (cs : List Char) : Prop :=
  ∃ low, cs = ['+', low] ∧ HexDigit low b.toNat

/-- A color as its three channels, one behind the other, all written in the given way. -/
def IsWritten (written : UInt8 → List Char → Prop) (color : Color) (channels : List Char) : Prop :=
  ∃ r g b rs gs bs, color = .rgb r g b ∧ channels = rs ++ gs ++ bs ∧
    written r rs ∧ written g gs ∧ written b bs

theorem channel?_eq_some_iff {high low : Char} {b : UInt8} :
    channel? high low = some b ↔ Pair b [high, low] ∨ Signed b [high, low] := by
  unfold channel?
  split
  · next hplus =>
    subst hplus
    constructor
    · intro h
      obtain ⟨l, hl, rfl⟩ := Option.map_eq_some_iff.1 h
      rw [hexDigit?_eq_some_iff] at hl
      have hlt := hl.lt
      refine Or.inr ⟨low, rfl, ?_⟩
      rwa [Nat.toUInt8_eq, UInt8.toNat_ofNat', Nat.mod_eq_of_lt (by omega)]
    · rintro (⟨high, low, h, l, heq, hh, -⟩ | ⟨low, heq, hl⟩)
      · cases heq
        exact absurd rfl hh.ne_plus
      · cases heq
        rw [hexDigit?_eq_some_iff.2 hl, Option.map_some, Nat.toUInt8_eq, UInt8.ofNat_toNat]
  · next hplus =>
    constructor
    · intro hchannel
      obtain ⟨h, hh, hchannel⟩ := Option.bind_eq_some_iff.1 hchannel
      obtain ⟨l, hl, rfl⟩ := Option.map_eq_some_iff.1 hchannel
      rw [hexDigit?_eq_some_iff] at hh hl
      have hhigh := hh.lt
      have hlow := hl.lt
      refine Or.inl ⟨high, low, h, l, rfl, hh, hl, ?_⟩
      rw [Nat.toUInt8_eq, UInt8.toNat_ofNat', Nat.mod_eq_of_lt (by omega)]
    · rintro (⟨high, low, h, l, heq, hh, hl, hb⟩ | ⟨low, heq, -⟩)
      · cases heq
        rw [hexDigit?_eq_some_iff.2 hh, Option.bind_some, hexDigit?_eq_some_iff.2 hl, Option.map_some,
          ← hb, Nat.toUInt8_eq, UInt8.ofNat_toNat]
      · cases heq
        exact absurd rfl hplus

/-- A byte as two characters that are read as one. -/
def Channel (b : UInt8) (cs : List Char) : Prop := Pair b cs ∨ Signed b cs

theorem Channel.exists_eq {b : UInt8} {cs : List Char} (h : Channel b cs) :
    ∃ high low, cs = [high, low] ∧ channel? high low = some b := by
  have hread := h
  rcases h with ⟨high, low, -, -, rfl, -⟩ | ⟨low, rfl, -⟩
  · exact ⟨high, low, rfl, channel?_eq_some_iff.2 hread⟩
  · exact ⟨'+', low, rfl, channel?_eq_some_iff.2 hread⟩

theorem ofChannels?_eq_some_iff {channels : List Char} {color : Color} :
    ofChannels? channels = some color ↔ IsWritten Channel color channels := by
  constructor
  · intro h
    unfold ofChannels? at h
    split at h
    · next r₁ r₀ g₁ g₀ b₁ b₀ =>
      split at h
      · next r g b hr hg hb =>
        cases h
        exact ⟨r, g, b, [r₁, r₀], [g₁, g₀], [b₁, b₀], rfl, rfl, channel?_eq_some_iff.1 hr,
          channel?_eq_some_iff.1 hg, channel?_eq_some_iff.1 hb⟩
      · cases h
    · cases h
  · rintro ⟨r, g, b, rs, gs, bs, rfl, rfl, hr, hg, hb⟩
    obtain ⟨r₁, r₀, rfl, hred⟩ := hr.exists_eq
    obtain ⟨g₁, g₀, rfl, hgreen⟩ := hg.exists_eq
    obtain ⟨b₁, b₀, rfl, hblue⟩ := hb.exists_eq
    simp only [ofChannels?, List.cons_append, List.nil_append, hred, hgreen, hblue]

/-! ## Bytes -/

/-- A number of at most 8 bits in hexadecimal digits, perhaps with `+` in front. -/
def octet? (bytes : List UInt8) : Option UInt8 :=
  let digits := if bytes.head? = some 0x2B then bytes.tail else bytes
  if digits = [] then none
  else
    (digits.foldlM (fun n b =>
      (hexDigit? (Char.ofNat b.toNat)).bind fun d =>
        if 16 * n + d < 256 then some (16 * n + d) else none) 0).map Nat.toUInt8

/-- The color that bytes stand for: six bytes below 0x80, of which two at a time are cut out and read as a
number.  There is no answer if they cannot be cut out. -/
def ofBytes? (bytes : List UInt8) : Option (Option Color) :=
  if bytes.length = 6 ∧ bytes.all (· < 0x80) = true then do
    let r ← Utf8.piece? bytes 0 2
    let g ← Utf8.piece? bytes 2 4
    let b ← Utf8.piece? bytes 4 6
    some ((octet? r).bind fun r => (octet? g).bind fun g => (octet? b).map fun b => .rgb r g b)
  else some none

theorem octet?_eq_channel? (a b : UInt8) :
    octet? [a, b] = channel? (Char.ofNat a.toNat) (Char.ofNat b.toNat) := by
  have hplus : Char.ofNat a.toNat = '+' ↔ a = 0x2B := by
    constructor
    · intro h
      have hnat := congrArg Char.toNat h
      rw [Utf8.toNat_char_ofNat] at hnat
      exact UInt8.toNat_inj.1 hnat
    · rintro rfl
      rfl
  unfold channel?
  by_cases h : a = 0x2B
  · rw [if_pos (hplus.2 h)]
    cases hl : hexDigit? (Char.ofNat b.toNat) with
    | none => simp [octet?, h, hl]
    | some l =>
      have : l < 256 := by have := hexDigit?_lt hl; omega
      simp [octet?, h, hl, this]
  · rw [if_neg fun heq => h (hplus.1 heq)]
    cases hh : hexDigit? (Char.ofNat a.toNat) with
    | none => simp [octet?, h, hh]
    | some d =>
      have hd : d < 256 := by have := hexDigit?_lt hh; omega
      cases hl : hexDigit? (Char.ofNat b.toNat) with
      | none => simp [octet?, h, hh, hl]
      | some l =>
        have : 16 * d + l < 256 := by
          have := hexDigit?_lt hh
          have := hexDigit?_lt hl
          omega
        simp [octet?, h, hh, hl, hd, this]

theorem Channel.toNat_lt {b : UInt8} {cs : List Char} (h : Channel b cs) : ∀ c ∈ cs, c.toNat < 0x80 := by
  rcases h with ⟨high, low, _, _, rfl, hh, hl, -⟩ | ⟨low, rfl, hl⟩
  · simp [hh.toNat_lt, hl.toNat_lt]
  · simp [hl.toNat_lt]

theorem Pair.plus_notMem {b : UInt8} {cs : List Char} (h : Pair b cs) : '+' ∉ cs := by
  obtain ⟨high, low, _, _, rfl, hh, hl, -⟩ := h
  simp [hh.ne_plus.symm, hl.ne_plus.symm]

/-- A color in the documented form is one that is read and has no sign. -/
theorem isWritten_pair_iff {color : Color} {channels : List Char} :
    IsWritten Pair color channels ↔ IsWritten Channel color channels ∧ '+' ∉ channels := by
  constructor
  · rintro ⟨r, g, b, rs, gs, bs, hcolor, rfl, hr, hg, hb⟩
    refine ⟨⟨r, g, b, rs, gs, bs, hcolor, rfl, Or.inl hr, Or.inl hg, Or.inl hb⟩, ?_⟩
    simp [hr.plus_notMem, hg.plus_notMem, hb.plus_notMem]
  · rintro ⟨⟨r, g, b, rs, gs, bs, hcolor, rfl, hr, hg, hb⟩, hplus⟩
    have hunsigned : ∀ {c cs}, Channel c cs → '+' ∉ cs → Pair c cs := by
      rintro c cs (hpair | ⟨low, rfl, -⟩) hcs
      · exact hpair
      · exact absurd List.mem_cons_self hcs
    simp only [List.mem_append, not_or] at hplus
    exact ⟨r, g, b, rs, gs, bs, hcolor, rfl, hunsigned hr hplus.1.1, hunsigned hg hplus.1.2,
      hunsigned hb hplus.2⟩

/-- A text that is read as a color has six characters, of one byte each. -/
theorem IsWritten.length_eq {color : Color} {channels : List Char} (h : IsWritten Channel color channels) :
    channels.length = 6 ∧ ∀ c ∈ channels, c.toNat < 0x80 := by
  obtain ⟨r, g, b, rs, gs, bs, -, rfl, hr, hg, hb⟩ := h
  constructor
  · obtain ⟨_, _, rfl, -⟩ := hr.exists_eq
    obtain ⟨_, _, rfl, -⟩ := hg.exists_eq
    obtain ⟨_, _, rfl, -⟩ := hb.exists_eq
    rfl
  · intro c hc
    rcases List.mem_append.1 hc with hc | hc
    · rcases List.mem_append.1 hc with hc | hc
      · exact hr.toNat_lt c hc
      · exact hg.toNat_lt c hc
    · exact hb.toNat_lt c hc

/-- The six bytes of a plain text are the six characters. -/
theorem ofBytes?_of_plain {channels : List Char} (hlength : channels.length = 6)
    (hplain : ∀ c ∈ channels, c.toNat < 0x80) :
    ofBytes? (channels.map fun c => UInt8.ofNat c.toNat) = some (ofChannels? channels) := by
  have hbytes : (channels.map fun c => UInt8.ofNat c.toNat).all (· < 0x80) = true := by
    rw [List.all_map, List.all_eq_true]
    intro c hc
    have := hplain c hc
    simp [UInt8.lt_iff_toNat_lt]
    omega
  have hback : ∀ c ∈ channels, Char.ofNat (UInt8.ofNat c.toNat).toNat = c := by
    intro c hc
    have := hplain c hc
    rw [UInt8.toNat_ofNat', Nat.mod_eq_of_lt (by omega), Char.ofNat_toNat]
  have hlen : (channels.map fun c => UInt8.ofNat c.toNat).length = 6 := by rw [List.length_map, hlength]
  rw [ofBytes?, if_pos ⟨hlen, hbytes⟩, Utf8.piece?_eq_some hbytes (by decide) (by omega),
    Utf8.piece?_eq_some hbytes (by decide) (by omega), Utf8.piece?_eq_some hbytes (by decide) (by omega)]
  match channels, hlength, hback with
  | [r₁, r₀, g₁, g₀, b₁, b₀], _, hback =>
    simp only [List.forall_mem_cons] at hback
    obtain ⟨hr₁, hr₀, hg₁, hg₀, hb₁, hb₀, -⟩ := hback
    show some ((octet? [_, _]).bind fun r => (octet? [_, _]).bind fun g => (octet? [_, _]).map fun b =>
      rgb r g b) = some (ofChannels? [r₁, r₀, g₁, g₀, b₁, b₀])
    simp only [octet?_eq_channel?, hr₁, hr₀, hg₁, hg₀, hb₁, hb₀, ofChannels?]
    cases channel? r₁ r₀ <;> cases channel? g₁ g₀ <;> cases channel? b₁ b₀ <;> rfl

theorem ofBytes?_encode (channels : List Char) :
    ofBytes? (Utf8.encode (String.ofList channels)) = some (ofChannels? channels) := by
  have hrefused : ¬ (channels.length = 6 ∧ ∀ c ∈ channels, c.toNat < 0x80) →
      ofChannels? channels = none := by
    intro h
    by_contra hsome
    obtain ⟨color, hcolor⟩ := Option.ne_none_iff_exists'.1 hsome
    exact h (ofChannels?_eq_some_iff.1 hcolor).length_eq
  have hform : Utf8.encode (String.ofList channels) = channels.flatMap String.utf8EncodeChar := by
    rw [Utf8.encode_eq_flatMap, String.toList_ofList]
  by_cases hplain : ∀ c ∈ channels, c.toNat < 0x80
  · have hall : Utf8.isPlain (String.ofList channels) = true := by simpa [Utf8.isPlain] using hplain
    rw [Utf8.encode_of_isPlain hall, String.toList_ofList]
    by_cases hlength : channels.length = 6
    · exact ofBytes?_of_plain hlength hplain
    · rw [hrefused fun h => hlength h.1, ofBytes?, if_neg fun h => hlength (by simpa using h.1)]
  · rw [hrefused fun h => hplain h.2, hform, ofBytes?, if_neg]
    rintro ⟨-, hbytes⟩
    apply hplain
    intro c hc
    by_contra hle
    obtain ⟨b, hb⟩ := List.exists_mem_of_ne_nil _ (String.utf8EncodeChar_ne_nil (c := c))
    have hlow := List.all_eq_true.1 hbytes b (List.mem_flatMap.2 ⟨c, hc, hb⟩)
    have hhigh := Utf8.le_toNat_of_mem_utf8EncodeChar (by omega) hb
    rw [decide_eq_true_eq, UInt8.lt_iff_toNat_lt] at hlow
    have : (0x80 : UInt8).toNat = 0x80 := rfl
    omega

end Color

open Color

/-! ## Top theorem -/

/-- Of the texts that begin with `#`, those are colors that go on with three channels.  A channel is two
hexadecimal digits of either case, or a plus sign and one digit; without plus signs only the digits
are left. -/
theorem hex_color_forms (value : String) (channels : List Char)
    (h : Text.trim value.toList = '#' :: channels) :
    ofBytes? (Utf8.encode (String.ofList channels)) = some (parse? value) ∧
    (∀ color, parse? value = some color ↔ IsWritten Channel color channels) ∧
    (∀ color, IsWritten Pair color channels ↔ parse? value = some color ∧ '+' ∉ channels) := by
  have hparse : parse? value = ofChannels? channels := by
    unfold parse?
    rw [h]
    rfl
  rw [hparse]
  refine ⟨ofBytes?_encode channels, fun color => ofChannels?_eq_some_iff, fun color => ?_⟩
  rw [ofChannels?_eq_some_iff]
  exact isWritten_pair_iff

theorem hex_color_forms_padded :
    Text.trim " #fF8000\u2003".toList = '#' :: "fF8000".toList ∧
    Color.parse? " #fF8000\u2003" = some (.rgb 255 128 0) ∧
    Color.ofBytes? (Utf8.encode "fF8000") = some (some (.rgb 255 128 0)) := by
  have htrim : Text.trim " #fF8000\u2003".toList = '#' :: "fF8000".toList := by decide
  obtain ⟨hbytes, -, hdigits⟩ := hex_color_forms " #fF8000\u2003" "fF8000".toList htrim
  have hwritten : Color.IsWritten Color.Pair (.rgb 255 128 0) "fF8000".toList :=
    ⟨255, 128, 0, ['f', 'F'], ['8', '0'], ['0', '0'], rfl, rfl,
      ⟨'f', 'F', 15, 15, rfl, by decide, by decide, rfl⟩,
      ⟨'8', '0', 8, 0, rfl, by decide, by decide, rfl⟩,
      ⟨'0', '0', 0, 0, rfl, by decide, by decide, rfl⟩⟩
  have hcolor := ((hdigits _).1 hwritten).1
  refine ⟨htrim, hcolor, ?_⟩
  rw [← hcolor, ← hbytes, String.ofList_toList]

/-- In a color with signs a digit is missing from every channel. -/
theorem signed_channels_read :
    Text.trim "#+1+2+3".toList = '#' :: "+1+2+3".toList ∧
    Color.parse? "#+1+2+3" = some (.rgb 1 2 3) ∧
    ∀ color, ¬ Color.IsWritten Color.Pair color "+1+2+3".toList := by
  refine ⟨by decide, by decide, fun color h => ?_⟩
  exact (Color.isWritten_pair_iff.1 h).2 (by decide)

end Brainfuck
