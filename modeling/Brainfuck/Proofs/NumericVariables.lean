import Brainfuck.Proofs.SettingLayers
import Brainfuck.Proofs.TraceReading
import Mathlib.Algebra.Group.Nat.Defs
import Mathlib.Data.List.Induction

/-!
# Numbers in variables

A variable gives a number if it holds a decimal numeral (`Text.Numeral`) for a number of at most 64 bits, with
blanks around it or not.  Of any other text only a notice is left, and the setting is what it was before
(`numeric_variables_exact`).

A numeral is read whole and then compared with the largest number of 64 bits.  To read it digit by digit, and
to give up as soon as the number is too large, comes to the same (`Text.readNumeral?_eq`), because a number
never becomes smaller as digits are added.
-/

namespace Brainfuck

namespace Text

/-! ## Decimal numerals -/

/-- One decimal digit or more, and the number that they denote. -/
inductive Digits : List Char → Nat → Prop
  | single {d : Nat} (h : d < 10) : Digits [d.digitChar] d
  | snoc {digits : List Char} {n d : Nat} (hn : Digits digits n) (h : d < 10) :
      Digits (digits ++ [d.digitChar]) (10 * n + d)

/-- Digits, perhaps with a plus sign in front. -/
def Numeral (cs : List Char) (n : Nat) : Prop :=
  Digits cs n ∨ ∃ digits, cs = '+' :: digits ∧ Digits digits n

/-- The number that digits make behind those that make `n`, given up as soon as it is too large. -/
def readDigits : Nat → List Char → Option Nat
  | n, [] => some n
  | n, c :: cs =>
    (digit? c).bind fun d => if 10 * n + d ≤ maxUnsigned then readDigits (10 * n + d) cs else none

/-- A numeral, read digit by digit. -/
def readNumeral? (cs : List Char) : Option Nat :=
  if unsignedPart cs = [] then none else readDigits 0 (unsignedPart cs)

theorem exists_digitChar_eq {c : Char} (h : c.isDigit = true) : ∃ d < 10, d.digitChar = c := by
  have hbounds : '0'.toNat ≤ c.toNat ∧ c.toNat ≤ '9'.toNat := Char.isDigit_iff_toNat.1 h
  have hzero : '0'.toNat = 48 := rfl
  have hnine : '9'.toNat = 57 := rfl
  refine ⟨c.toNat - 48, by omega, Char.toNat_inj.1 ?_⟩
  rw [Nat.toNat_digitChar_of_lt_ten (by omega)]
  omega

theorem digits_iff {cs : List Char} {n : Nat} :
    Digits cs n ↔ cs ≠ [] ∧ cs.all Char.isDigit = true ∧ Nat.ofDigitChars 10 cs 0 = n := by
  constructor
  · intro h
    induction h with
    | single h =>
      refine ⟨List.cons_ne_nil _ _, by simpa using h, ?_⟩
      rw [Nat.ofDigitChars_cons_digitChar_of_lt_ten h, Nat.ofDigitChars_nil]
      omega
    | snoc hn h ih =>
      obtain ⟨-, hall, rfl⟩ := ih
      refine ⟨by simp, ?_, ?_⟩
      · rw [List.all_append, hall]
        simpa using h
      · rw [Nat.ofDigitChars_append, Nat.ofDigitChars_cons_digitChar_of_lt_ten h, Nat.ofDigitChars_nil]
  · rintro ⟨hne, hall, rfl⟩
    induction cs using List.reverseRecOn with
    | nil => exact absurd rfl hne
    | append_singleton cs c ih =>
      rw [List.all_append, Bool.and_eq_true] at hall
      obtain ⟨hcs, hc⟩ := hall
      obtain ⟨d, hd, rfl⟩ := exists_digitChar_eq (c := c) (by simpa using hc)
      rw [Nat.ofDigitChars_append, Nat.ofDigitChars_cons_digitChar_of_lt_ten hd, Nat.ofDigitChars_nil]
      by_cases hnil : cs = []
      · subst hnil
        rw [Nat.ofDigitChars_nil, Nat.mul_zero, Nat.zero_add]
        exact Digits.single hd
      · exact Digits.snoc (ih hnil hcs) hd

theorem Digits.ne_plus_cons {cs : List Char} {n : Nat} (h : Digits ('+' :: cs) n) : False := by
  have := (digits_iff.1 h).2.1
  simp at this

theorem numeral_iff {cs : List Char} {n : Nat} : Numeral cs n ↔ Digits (unsignedPart cs) n := by
  unfold Numeral unsignedPart
  split
  · next rest =>
    constructor
    · rintro (h | ⟨digits, heq, h⟩)
      · exact h.ne_plus_cons.elim
      · cases heq
        exact h
    · exact fun h => Or.inr ⟨rest, rfl, h⟩
  · next hplus =>
    constructor
    · rintro (h | ⟨digits, rfl, -⟩)
      · exact h
      · exact absurd rfl (hplus digits)
    · exact Or.inl

theorem unsigned?_eq_some_iff {cs : List Char} {n : Nat} :
    unsigned? cs = some n ↔ Numeral cs n ∧ n < 2 ^ 64 := by
  have hmax : n ≤ maxUnsigned ↔ n < 2 ^ 64 := Nat.lt_succ_iff.symm
  rw [numeral_iff, digits_iff, ← hmax]
  constructor
  · intro h
    obtain ⟨⟨hne, hall, hle⟩, hn⟩ := Option.ite_none_right_eq_some.1 h
    cases hn
    exact ⟨⟨hne, hall, rfl⟩, hle⟩
  · rintro ⟨⟨hne, hall, rfl⟩, hle⟩
    exact if_pos ⟨hne, hall, hle⟩

/-- A number only grows as more digits are read, so it is too large once a part of it is. -/
theorem le_ofDigitChars (n : Nat) (cs : List Char) : n ≤ Nat.ofDigitChars 10 cs n := by
  induction cs generalizing n with
  | nil => exact Nat.le_of_eq Nat.ofDigitChars_nil.symm
  | cons c cs ih =>
    rw [Nat.ofDigitChars_cons]
    exact Nat.le_trans (by omega) (ih _)

theorem readDigits_eq {n : Nat} (h : n ≤ maxUnsigned) (cs : List Char) :
    readDigits n cs =
      if cs.all Char.isDigit = true ∧ Nat.ofDigitChars 10 cs n ≤ maxUnsigned then
        some (Nat.ofDigitChars 10 cs n)
      else none := by
  induction cs generalizing n with
  | nil => simp [readDigits, h]
  | cons c cs ih =>
    rw [readDigits, digit?, Nat.ofDigitChars_cons, List.all_cons]
    cases hc : c.isDigit with
    | false => simp
    | true =>
      by_cases hle : 10 * n + (c.toNat - '0'.toNat) ≤ maxUnsigned
      · simp only [if_true, Option.bind_some, if_pos hle, ih hle, Bool.true_and]
      · have hgrow := le_ofDigitChars (10 * n + (c.toNat - '0'.toNat)) cs
        simp only [if_true, Option.bind_some, if_neg hle, Bool.true_and]
        rw [if_neg]
        omega

/-- Giving up early makes no difference. -/
theorem readNumeral?_eq (cs : List Char) : readNumeral? cs = unsigned? cs := by
  unfold readNumeral? unsigned?
  by_cases hnil : unsignedPart cs = []
  · simp [hnil]
  · simp only [hnil, if_false, readDigits_eq (Nat.zero_le _), ne_eq, not_false_eq_true, true_and]

end Text

namespace Settings

/-! ## What is said about a variable -/

/-- Whether a notice is about what a variable holds. -/
def isAbout (which : Variable) : Notice → Bool
  | .invalidVariable other _ => other = which
  | .tapeTooShort _ => which = .tapeLength
  | _ => false

/-- The number that a variable holds, if it holds one that fits in 64 bits. -/
def Holds (raw : String) (n : Nat) : Prop := Text.Numeral (Text.trim raw.toList) n ∧ n < 2 ^ 64

theorem numeral?_eq_some_iff {raw : String} {n : Nat} : numeral? raw = some n ↔ Holds raw n :=
  Text.unsigned?_eq_some_iff

theorem numeral?_eq_none_iff {raw : String} : numeral? raw = none ↔ ¬ ∃ n, Holds raw n := by
  rw [Option.eq_none_iff_forall_not_mem, not_exists]
  exact forall_congr' fun n => not_congr numeral?_eq_some_iff

theorem holds_repr {n : Nat} (h : n < 2 ^ 64) : Holds n.repr n := by
  have htrim : Text.trim n.repr.toList = n.repr.toList := by
    have := @Text.trim_pad [] n.repr.toList [] (by simp)
      (fun c hc => Text.not_isBlank_of_isDigit (Text.isDigit_of_mem_repr hc)) (Text.repr_ne_nil n) (by simp)
    rwa [List.nil_append, List.append_nil] at this
  refine ⟨?_, h⟩
  rw [htrim]
  refine Or.inl (Text.digits_iff.2 ⟨Text.repr_ne_nil n, ?_, ?_⟩)
  · exact List.all_eq_true.2 fun c hc => Text.isDigit_of_mem_repr hc
  · rw [Nat.toList_repr, Nat.ofDigitChars_ten_toDigits]

theorem length?_eq_some_iff {raw : String} {n : Nat} : length? raw = some n ↔ Holds raw n ∧ 1 ≤ n := by
  unfold length?
  rw [Option.bind_eq_some_iff]
  constructor
  · rintro ⟨m, hm, hpositive⟩
    obtain ⟨hpos, heq⟩ := Option.ite_none_right_eq_some.1 hpositive
    cases heq
    exact ⟨numeral?_eq_some_iff.1 hm, hpos⟩
  · rintro ⟨hn, hpos⟩
    exact ⟨n, numeral?_eq_some_iff.2 hn, if_pos hpos⟩

section
variable {α β : Type} {read : α → Option β} {notice : α → Notice} {which : Variable}

theorem complaint_of_some {a : α} {b : β} (h : read a = some b) : complaint read notice (some a) = [] := by
  rw [complaint_some, h]
  rfl

theorem complaint_of_none {a : α} (h : read a = none) : complaint read notice (some a) = [notice a] := by
  rw [complaint_some, h]
  rfl

theorem exists_of_mem_complaint {value : Option α} {x : Notice} (h : x ∈ complaint read notice value) :
    ∃ a, notice a = x := by
  obtain ⟨a, -, ha⟩ := Option.map_eq_some_iff.1 (Option.mem_toList.1 h)
  exact ⟨a, ha⟩

theorem filter_complaint (value : Option α) (h : ∀ a, isAbout which (notice a) = true) :
    (complaint read notice value).filter (isAbout which) = complaint read notice value := by
  refine List.filter_eq_self.2 fun x hx => ?_
  obtain ⟨a, rfl⟩ := exists_of_mem_complaint hx
  exact h a

theorem filter_complaint_eq_nil (value : Option α) (h : ∀ a, isAbout which (notice a) = false) :
    (complaint read notice value).filter (isAbout which) = [] := by
  refine List.filter_eq_nil_iff.2 fun x hx => ?_
  obtain ⟨a, rfl⟩ := exists_of_mem_complaint hx
  simp [h a]

end

theorem isAbout_lengthNotice (which : Variable) (kept : Nat) (raw : String) :
    isAbout which (lengthNotice kept raw) = decide (which = .tapeLength) := by
  unfold lengthNotice
  split <;> cases which <;> rfl

/-- What an environment has to say about the step limit. -/
theorem filter_steps (lookup : Variable → Option String) (s : Settings) :
    (applyEnvironment lookup s).2.filter (isAbout .maxSteps) =
      complaint numeral? (.invalidVariable .maxSteps) (lookup .maxSteps) := by
  rw [applyEnvironment_eq]
  simp only [environmentComplaints, List.filter_append]
  rw [filter_complaint_eq_nil _ fun raw => isAbout_lengthNotice _ _ raw,
    filter_complaint (lookup .maxSteps) fun _ => rfl,
    filter_complaint_eq_nil (lookup .debug) fun _ => rfl, List.nil_append, List.append_nil]

/-- What an environment has to say about the tape length. -/
theorem filter_length (lookup : Variable → Option String) (s : Settings) :
    (applyEnvironment lookup s).2.filter (isAbout .tapeLength) =
      complaint length? (lengthNotice s.tapeLength) (lookup .tapeLength) := by
  rw [applyEnvironment_eq]
  simp only [environmentComplaints, List.filter_append]
  rw [filter_complaint _ fun raw => isAbout_lengthNotice _ _ raw,
    filter_complaint_eq_nil (lookup .maxSteps) fun _ => rfl,
    filter_complaint_eq_nil (lookup .debug) fun _ => rfl, List.append_nil, List.append_nil]

theorem maxSteps_applyEnvironment (lookup : Variable → Option String) (s : Settings) :
    (applyEnvironment lookup s).1.maxSteps = ((lookup .maxSteps).bind numeral?).or s.maxSteps := by
  rw [applyEnvironment_eq]
  rfl

theorem tapeLength_applyEnvironment (lookup : Variable → Option String) (s : Settings) :
    (applyEnvironment lookup s).1.tapeLength = ((lookup .tapeLength).bind length?).getD s.tapeLength := by
  rw [applyEnvironment_eq]
  rfl

/-! ## Single variables -/

variable {lookup : Variable → Option String} {raw : String}

theorem maxSteps_eq_iff (h : lookup .maxSteps = some raw) (n : Nat) :
    (∀ s, (applyEnvironment lookup s).1.maxSteps = some n) ↔ Holds raw n := by
  simp only [maxSteps_applyEnvironment, h, Option.bind_some]
  rw [← numeral?_eq_some_iff]
  constructor
  · intro hall
    -- from settings without a limit, so that the limit comes from the variable
    have hnone := hall {}
    cases hread : numeral? raw with
    | none =>
      rw [hread] at hnone
      cases hnone
    | some m =>
      rw [hread] at hnone
      exact hnone
  · intro hread s
    rw [hread]
    rfl

theorem tapeLength_eq_iff (h : lookup .tapeLength = some raw) (n : Nat) :
    (∀ s, (applyEnvironment lookup s).1.tapeLength = n) ↔ Holds raw n ∧ 1 ≤ n := by
  simp only [tapeLength_applyEnvironment, h, Option.bind_some]
  rw [← length?_eq_some_iff]
  constructor
  · intro hall
    cases hread : length? raw with
    | none =>
      -- two different lengths are both kept
      have hone := hall { tapeLength := 1 }
      have htwo := hall { tapeLength := 2 }
      simp only [hread, Option.getD_none] at hone htwo
      omega
    | some m =>
      have hm := hall {}
      simp only [hread, Option.getD_some] at hm
      rw [hm]
  · intro hread s
    rw [hread]
    rfl

theorem steps_kept (h : lookup .maxSteps = some raw) (hread : ¬ ∃ n, Holds raw n) (s : Settings) :
    (applyEnvironment lookup s).1.maxSteps = s.maxSteps ∧
    (applyEnvironment lookup s).2.filter (isAbout .maxSteps) = [.invalidVariable .maxSteps raw] := by
  have hnone := numeral?_eq_none_iff.2 hread
  rw [maxSteps_applyEnvironment, filter_steps, h, Option.bind_some, hnone]
  exact ⟨rfl, complaint_of_none hnone⟩

theorem length_kept (h : lookup .tapeLength = some raw) (hread : length? raw = none) (s : Settings) :
    (applyEnvironment lookup s).1.tapeLength = s.tapeLength ∧
    (applyEnvironment lookup s).2.filter (isAbout .tapeLength) = [lengthNotice s.tapeLength raw] := by
  rw [tapeLength_applyEnvironment, filter_length, h, Option.bind_some, hread]
  exact ⟨rfl, complaint_of_none hread⟩

end Settings

open Settings

/-! ## Top theorem -/

/-- A variable sets a number just if it holds a decimal numeral for one of at most 64 bits; if it holds
anything else, the setting stays and the notice quotes all that it holds.  A tape length of zero stays
out as well, with a notice of its own. -/
theorem numeric_variables_exact (lookup : Variable → Option String) (raw : String) :
    numeral? raw = Text.readNumeral? (Text.trim raw.toList) ∧
    (lookup .maxSteps = some raw →
      (∀ n, (∀ s, (applyEnvironment lookup s).1.maxSteps = some n) ↔ Holds raw n) ∧
      (∀ n s, Holds raw n → (applyEnvironment lookup s).2.filter (isAbout .maxSteps) = []) ∧
      ∀ s, (¬ ∃ n, Holds raw n) → (applyEnvironment lookup s).1.maxSteps = s.maxSteps ∧
        (applyEnvironment lookup s).2.filter (isAbout .maxSteps) = [.invalidVariable .maxSteps raw]) ∧
    (lookup .tapeLength = some raw →
      (∀ n, (∀ s, (applyEnvironment lookup s).1.tapeLength = n) ↔ Holds raw n ∧ 1 ≤ n) ∧
      (∀ n s, Holds raw n → 1 ≤ n → (applyEnvironment lookup s).2.filter (isAbout .tapeLength) = []) ∧
      (∀ s, Holds raw 0 → (applyEnvironment lookup s).1.tapeLength = s.tapeLength ∧
        (applyEnvironment lookup s).2.filter (isAbout .tapeLength) = [.tapeTooShort s.tapeLength]) ∧
      ∀ s, (¬ ∃ n, Holds raw n) → (applyEnvironment lookup s).1.tapeLength = s.tapeLength ∧
        (applyEnvironment lookup s).2.filter (isAbout .tapeLength) = [.invalidVariable .tapeLength raw]) ∧
    (∀ n s, n < 2 ^ 64 → lookup .maxSteps = some (toString n) →
      (applyEnvironment lookup s).1.maxSteps = some n) ∧
    (∀ n s, 1 ≤ n → n < 2 ^ 64 → lookup .tapeLength = some (toString n) →
      (applyEnvironment lookup s).1.tapeLength = n) := by
  refine ⟨(Text.readNumeral?_eq _).symm,
    fun h => ⟨maxSteps_eq_iff h, ?_, fun s hread => steps_kept h hread s⟩,
    fun h => ⟨tapeLength_eq_iff h, ?_, ?_, ?_⟩, ?_, ?_⟩
  · intro n s hn
    rw [filter_steps, h]
    exact complaint_of_some (numeral?_eq_some_iff.2 hn)
  · intro n s hn hpos
    rw [filter_length, h]
    exact complaint_of_some (length?_eq_some_iff.2 ⟨hn, hpos⟩)
  · intro s hzero
    have hread : numeral? raw = some 0 := numeral?_eq_some_iff.2 hzero
    have hnotice : lengthNotice s.tapeLength raw = .tapeTooShort s.tapeLength := if_pos hread
    rw [← hnotice]
    refine length_kept h ?_ s
    rw [length?, hread]
    rfl
  · intro s hnone
    have hread : numeral? raw = none := numeral?_eq_none_iff.2 hnone
    have hnotice : lengthNotice s.tapeLength raw = .invalidVariable .tapeLength raw := by
      rw [lengthNotice, hread]
      rfl
    rw [← hnotice]
    refine length_kept h ?_ s
    rw [length?, hread]
    rfl
  · intro n s hn h
    exact (maxSteps_eq_iff h n).2 (holds_repr hn) s
  · intro n s hpos hn h
    exact (tapeLength_eq_iff h n).2 ⟨holds_repr hn, hpos⟩ s

/-- The largest number, behind zeros and between blanks; one more; and zero. -/
theorem numeric_variables_exact_largest :
    (applyEnvironment (fun _ => some " +0018446744073709551615\u2003") {}).1.maxSteps =
      some 18446744073709551615 ∧
    (applyEnvironment (fun _ => some "18446744073709551616") { tapeLength := 7 }).1.tapeLength = 7 ∧
    (applyEnvironment (fun _ => some "18446744073709551616") { tapeLength := 7 }).2.filter
      (isAbout .tapeLength) = [.invalidVariable .tapeLength "18446744073709551616"] ∧
    (applyEnvironment (fun _ => some "00\n") { tapeLength := 7 }).2.filter (isAbout .tapeLength) =
      [.tapeTooShort 7] ∧
    (applyEnvironment (fun _ => some (toString 7)) {}).1.tapeLength = 7 := by
  obtain ⟨-, hsteps, -⟩ :=
    numeric_variables_exact (fun _ => some " +0018446744073709551615\u2003") " +0018446744073709551615\u2003"
  obtain ⟨-, -, htape, -⟩ :=
    numeric_variables_exact (fun _ => some "18446744073709551616") "18446744073709551616"
  obtain ⟨-, -, hzero, -⟩ := numeric_variables_exact (fun _ => some "00\n") "00\n"
  obtain ⟨-, -, -, -, hwritten⟩ := numeric_variables_exact (fun _ => some (toString 7)) ""
  have hlargest : Holds " +0018446744073709551615\u2003" 18446744073709551615 :=
    numeral?_eq_some_iff.1 (by decide +kernel)
  have hnone : ¬ ∃ n, Holds "18446744073709551616" n := numeral?_eq_none_iff.1 (by decide +kernel)
  have hkept := (htape rfl).2.2.2 { tapeLength := 7 } hnone
  refine ⟨((hsteps rfl).1 _).2 hlargest {}, hkept.1, hkept.2, ?_,
    hwritten 7 {} (by decide) (by decide) rfl⟩
  exact ((hzero rfl).2.2.1 { tapeLength := 7 } (numeral?_eq_some_iff.1 (by decide +kernel))).2

end Brainfuck
