import Brainfuck.JumpTable
import Brainfuck.Proofs.Nesting

/-!
# Resolving brackets

`JumpTable.resolve` accepts exactly the balanced programs, blames the right bracket of all others
(`resolve_accepts_or_blames`), and pairs brackets in the only proper way (`partner?_unique_matching`).

The scan is followed by two invariants.  `Unclosed is ip us` says that `us` are the brackets open at
`ip`, innermost first; `Paired is ip t` says that `t` holds the pairs that end before `ip`.  What
comes out is one of the three cases of `Resolved` (`resolved_resolve`).
-/

namespace Brainfuck

/-- The brackets still open when the scan has come to a place, innermost first. -/
inductive Unclosed (is : List Instruction) : Nat → List Nat → Prop
  | closed {ip : Nat} :
      depth is ip = 0 → (∀ k ≤ ip, 0 ≤ depth is k) → Unclosed is ip []
  | within {ip i : Nat} {us : List Nat} :
      Unclosed is i us → is[i]? = some .loopStart → i < ip → depth is ip = depth is i + 1 →
      (∀ k, i < k → k ≤ ip → depth is i < depth is k) → Unclosed is ip (i :: us)

/-- The table holds all pairs that end before `ip` and nothing else. -/
structure Paired (is : List Instruction) (ip : Nat) (t : JumpTable) : Prop where
  size : t.size = is.length
  partner : ∀ i j, t.partner? i = some j ↔ (i < ip ∧ j < ip) ∧ (Matches is i j ∨ Matches is j i)
  loopCount : t.loopCount = (is.take ip).count .loopEnd

/-- What becomes of a program: a table of its pairs, or the bracket to blame. -/
inductive Resolved (is : List Instruction) : Except RunError JumpTable → Prop
  | paired {t : JumpTable} : Balanced is → Paired is is.length t → Resolved is (.ok t)
  | excessClosing {i : Nat} :
      i < is.length → (∀ k ≤ i, 0 ≤ depth is k) → depth is (i + 1) < 0 →
      Resolved is (.error (.unbalanced i .closing))
  | excessOpening {i : Nat} :
      (∀ k ≤ is.length, 0 ≤ depth is k) → is[i]? = some .loopStart →
      depth is is.length = depth is i + 1 →
      (∀ k, i < k → k ≤ is.length → depth is i < depth is k) →
      Resolved is (.error (.unbalanced i .opening))

/-! ## Brackets still open -/

namespace Unclosed

variable {is : List Instruction} {ip i : Nat} {us : List Nat}

theorem nonneg (h : Unclosed is ip us) : ∀ k ≤ ip, 0 ≤ depth is k := by
  induction h with
  | closed _ hn => exact hn
  | @within ip i us _ _ _ _ hin ih =>
    intro k hk
    by_cases hki : k ≤ i
    · exact ih k hki
    · have := hin k (by omega) hk
      have := ih i (Nat.le_refl i)
      omega

/-- Nothing changes over a part that ends at the depth where it began and never goes below. -/
theorem extend {j : Nat} (h : Unclosed is i us) (hij : i ≤ j) (hd : depth is j = depth is i)
    (hin : ∀ k, i ≤ k → k ≤ j → depth is i ≤ depth is k) : Unclosed is j us := by
  cases h with
  | closed h0 hn =>
    refine .closed (hd.trans h0) ?_
    intro k hk
    by_cases hki : k ≤ i
    · exact hn k hki
    · have := hin k (by omega) hk
      omega
  | within hu ho hlt hdepth hinner =>
    refine .within hu ho (by omega) (by omega) ?_
    intro k hk hkj
    by_cases hki : k ≤ i
    · exact hinner k hk hki
    · have := hin k (by omega) hkj
      have := hinner i hlt (Nat.le_refl i)
      omega

theorem skip {x : Instruction} (h : Unclosed is ip us) (hx : is[ip]? = some x) (hr : x.rise = 0) :
    Unclosed is (ip + 1) us := by
  have hd := depth_succ hx
  refine h.extend (Nat.le_succ ip) (by omega) ?_
  intro k hk hk'
  by_cases hkip : k = ip
  · rw [hkip]
  · rw [show k = ip + 1 by omega]
    omega

theorem push (h : Unclosed is ip us) (hx : is[ip]? = some .loopStart) :
    Unclosed is (ip + 1) (ip :: us) := by
  have hd : depth is (ip + 1) = depth is ip + 1 := depth_succ hx
  refine .within h hx (Nat.lt_succ_self ip) hd ?_
  intro k hk hk'
  rw [show k = ip + 1 by omega]
  omega

/-- The innermost open bracket is the one that the next `]` closes. -/
theorem matches_of_closing (h : Unclosed is ip (i :: us)) (hx : is[ip]? = some .loopEnd) :
    Matches is i ip := by
  cases h with
  | within hu ho hlt hdepth hin =>
    have hd : depth is (ip + 1) = depth is ip - 1 := depth_succ hx
    exact ⟨ho, hlt, hin, by omega⟩

theorem pop (h : Unclosed is ip (i :: us)) (hx : is[ip]? = some .loopEnd) :
    Unclosed is (ip + 1) us := by
  have hm := h.matches_of_closing hx
  cases h with
  | within hu ho hlt hdepth hin =>
    refine hu.extend (by omega) hm.back ?_
    intro k hk hk'
    by_cases hki : k = i
    · rw [hki]
    · by_cases hkip : k ≤ ip
      · exact Int.le_of_lt (hin k (by omega) hkip)
      · rw [show k = ip + 1 by omega, hm.back]

end Unclosed

/-! ## The table so far -/

namespace Paired

variable {is : List Instruction} {ip i : Nat} {t : JumpTable}

theorem unpaired (is : List Instruction) : Paired is 0 (.unpaired is.length) := by
  refine ⟨JumpTable.size_unpaired _, fun i j => ?_, rfl⟩
  rw [JumpTable.partner?_unpaired]
  simp

/-- A pair ends at its `]`. -/
theorem skip {x : Instruction} (h : Paired is ip t) (hx : is[ip]? = some x) (hne : x ≠ .loopEnd) :
    Paired is (ip + 1) t := by
  have hend {a b : Nat} (hm : Matches is a b) (hb : b < ip + 1) : b < ip := by
    rcases Nat.lt_or_eq_of_le (Nat.le_of_lt_succ hb) with hlt | rfl
    · exact hlt
    · have := hx.symm.trans hm.closing
      cases this
      exact absurd rfl hne
  refine ⟨h.size, fun i j => ?_, ?_⟩
  · rw [h.partner]
    constructor
    · rintro ⟨⟨hi, hj⟩, hm⟩
      exact ⟨⟨by omega, by omega⟩, hm⟩
    · rintro ⟨⟨hi, hj⟩, hm | hm⟩
      · have := hend hm hj
        have := hm.lt
        exact ⟨⟨by omega, by omega⟩, Or.inl hm⟩
      · have := hend hm hi
        have := hm.lt
        exact ⟨⟨by omega, by omega⟩, Or.inr hm⟩
  · rw [h.loopCount, List.take_add_one, hx, List.count_append]
    simp [hne]

theorem pair (h : Paired is ip t) (hm : Matches is i ip) : Paired is (ip + 1) (t.pair i ip) := by
  have hlen := hm.lt_length
  have hlt := hm.lt
  refine ⟨by rw [JumpTable.size_pair, h.size], fun a b => ?_, ?_⟩
  · rw [JumpTable.partner?_pair t (by rw [h.size]; omega) (by rw [h.size]; exact hlen)]
    split
    · next ha =>
      subst ha
      constructor
      · intro hb
        cases hb
        exact ⟨⟨by omega, by omega⟩, Or.inr hm⟩
      · rintro ⟨-, hm' | hm'⟩
        · exact absurd hm (fun hm => hm'.left_ne_right hm)
        · rw [hm.left_unique hm']
    · next ha =>
      split
      · next ha' =>
        subst ha'
        constructor
        · intro hb
          cases hb
          exact ⟨⟨by omega, by omega⟩, Or.inl hm⟩
        · rintro ⟨-, hm' | hm'⟩
          · rw [hm.right_unique hm']
          · exact absurd hm' (fun hm' => hm.left_ne_right hm')
      · next ha' =>
        rw [h.partner]
        constructor
        · rintro ⟨⟨ha, hb⟩, hm'⟩
          exact ⟨⟨by omega, by omega⟩, hm'⟩
        · rintro ⟨⟨hai, hbi⟩, hm' | hm'⟩
          · -- `b` is not `ip`, whose partner is `i`
            have hne : b ≠ ip := by
              rintro rfl
              exact ha' (hm'.left_unique hm)
            exact ⟨⟨by omega, by omega⟩, Or.inl hm'⟩
          · have := hm'.lt
            exact ⟨⟨by omega, by omega⟩, Or.inr hm'⟩
  · rw [List.take_add_one, hm.closing, List.count_append, ← h.loopCount]
    rfl

end Paired

/-! ## The scan -/

theorem resolved_scan {is : List Instruction} (rest : List Instruction) (ip : Nat) (us : List Nat)
    (t : JumpTable) (hrest : is.drop ip = rest) (hip : ip ≤ is.length) (hu : Unclosed is ip us)
    (hp : Paired is ip t) : Resolved is (JumpTable.scan rest ip us t) := by
  induction rest generalizing ip us t with
  | nil =>
    have hend : ip = is.length := by
      have := List.drop_eq_nil_iff.1 hrest
      omega
    subst hend
    cases hu with
    | closed h0 hn => exact .paired ⟨hn, h0⟩ hp
    | within hu ho hlt hdepth hin =>
      exact .excessOpening (hu.within ho hlt hdepth hin).nonneg ho hdepth hin
  | cons x rest ih =>
    have hx : is[ip]? = some x := by
      have := congrArg List.head? hrest
      rwa [List.head?_drop] at this
    have hlt : ip < is.length := (List.getElem?_eq_some_iff.1 hx).1
    have hrest' : is.drop (ip + 1) = rest := by
      rw [← List.tail_drop, hrest, List.tail_cons]
    cases x
    case loopStart =>
      exact ih (ip + 1) (ip :: us) t hrest' hlt (hu.push hx) (hp.skip hx (by decide))
    case loopEnd =>
      cases us with
      | nil =>
        have hd : depth is (ip + 1) = depth is ip - 1 := depth_succ hx
        have hn := hu.nonneg
        cases hu with
        | closed h0 _ => exact .excessClosing hlt hn (by omega)
      | cons i us =>
        exact ih (ip + 1) us (t.pair i ip) hrest' hlt (hu.pop hx) (hp.pair (hu.matches_of_closing hx))
    all_goals exact ih (ip + 1) us t hrest' hlt (hu.skip hx rfl) (hp.skip hx (by decide))

theorem resolved_resolve (is : List Instruction) : Resolved is (JumpTable.resolve is) :=
  resolved_scan is 0 [] _ rfl (Nat.zero_le _) (.closed (depth_zero is) fun k hk => by
    rw [Nat.le_zero.1 hk, depth_zero]) (Paired.unpaired is)

theorem resolve_eq_ok {is : List Instruction} {t : JumpTable} (h : JumpTable.resolve is = .ok t) :
    Balanced is ∧ Paired is is.length t := by
  have hr := resolved_resolve is
  rw [h] at hr
  cases hr with
  | paired hb hp => exact ⟨hb, hp⟩

theorem partner?_eq_some_iff {is : List Instruction} {t : JumpTable}
    (h : JumpTable.resolve is = .ok t) (i j : Nat) :
    t.partner? i = some j ↔ Matches is i j ∨ Matches is j i := by
  rw [(resolve_eq_ok h).2.partner]
  constructor
  · exact And.right
  · rintro (hm | hm)
    · have := hm.lt
      have := hm.lt_length
      exact ⟨⟨by omega, by omega⟩, Or.inl hm⟩
    · have := hm.lt
      have := hm.lt_length
      exact ⟨⟨by omega, by omega⟩, Or.inr hm⟩

/-- A partner further on is that of a `[`. -/
theorem matches_of_partner? {is : List Instruction} {t : JumpTable} {i j : Nat}
    (h : JumpTable.resolve is = .ok t) (hij : t.partner? i = some j) (hlt : i < j) : Matches is i j := by
  rcases (partner?_eq_some_iff h i j).1 hij with hm | hm
  · exact hm
  · have := hm.lt
    omega

theorem exists_resolve_eq_ok_iff (is : List Instruction) :
    (∃ t, JumpTable.resolve is = .ok t) ↔ Balanced is := by
  constructor
  · rintro ⟨t, h⟩
    exact (resolve_eq_ok h).1
  · rintro ⟨hn, h0⟩
    have hr := resolved_resolve is
    generalize JumpTable.resolve is = r at hr
    cases hr with
    | paired => exact ⟨_, rfl⟩
    | @excessClosing i hlt _ hneg =>
      have := hn (i + 1) hlt
      omega
    | @excessOpening i _ ho hd _ =>
      have := hn i (Nat.le_of_lt (List.getElem?_eq_some_iff.1 ho).1)
      omega

theorem exists_first_unopened {is : List Instruction} (h : ∃ k ≤ is.length, depth is k < 0) :
    ∃ i, IsLeast {i | i < is.length ∧ depth is (i + 1) < 0} i := by
  obtain ⟨k, hk, hneg⟩ := h
  have hex : ∃ i, i < is.length ∧ depth is (i + 1) < 0 := by
    cases k with
    | zero =>
      rw [depth_zero] at hneg
      omega
    | succ k => exact ⟨k, hk, hneg⟩
  classical
  exact ⟨Nat.find hex, Nat.find_spec hex, fun i hi => Nat.find_min' hex hi⟩

/-- What stands behind the first `]` that nothing opened does not matter. -/
theorem first_unopened_append {is : List Instruction} {i : Nat} (rest : List Instruction)
    (h : IsLeast {i | i < is.length ∧ depth is (i + 1) < 0} i) :
    IsLeast {j | j < (is.take (i + 1) ++ rest).length ∧
      depth (is.take (i + 1) ++ rest) (j + 1) < 0} i := by
  obtain ⟨⟨hlt, hneg⟩, hleast⟩ := h
  have hlen : (is.take (i + 1)).length = i + 1 := by
    rw [List.length_take]
    omega
  have hsame (k : Nat) (hk : k ≤ i + 1) : depth (is.take (i + 1) ++ rest) k = depth is k := by
    rw [depth_append_of_le rest (by omega), depth_take, Nat.min_eq_left hk]
  constructor
  · refine ⟨?_, ?_⟩
    · rw [List.length_append]
      omega
    · rwa [hsame _ (Nat.le_refl _)]
  · rintro j ⟨-, hj⟩
    apply Classical.byContradiction
    intro hji
    rw [hsame (j + 1) (by omega)] at hj
    exact hji (hleast ⟨by omega, hj⟩)

/-- The first `]` that nothing opened is blamed. -/
theorem resolve_eq_error_closing {is : List Instruction} {i : Nat}
    (h : IsLeast {i | i < is.length ∧ depth is (i + 1) < 0} i) :
    JumpTable.resolve is = .error (.unbalanced i .closing) := by
  obtain ⟨⟨hlt, hneg⟩, hleast⟩ := h
  have hr := resolved_resolve is
  generalize JumpTable.resolve is = r at hr
  cases hr with
  | paired hb =>
    have := hb.1 (i + 1) hlt
    omega
  | @excessClosing i' hlt' hn hneg' =>
    have hle : i ≤ i' := hleast ⟨hlt', hneg'⟩
    have hge : i' ≤ i := by
      apply Classical.byContradiction
      intro hlt
      have := hn (i + 1) (by omega)
      omega
    rw [Nat.le_antisymm hle hge]
  | excessOpening hn =>
    have := hn (i + 1) hlt
    omega

/-- If nothing is closed too often but something is left open, the last `[` left open is blamed. -/
theorem resolve_eq_error_opening {is : List Instruction} (hn : ∀ k ≤ is.length, 0 ≤ depth is k)
    (hpos : 0 < depth is is.length) :
    ∃ i, IsGreatest {i | is[i]? = some .loopStart ∧
        ∀ j, i < j → j ≤ is.length → depth is i < depth is j} i ∧
      JumpTable.resolve is = .error (.unbalanced i .opening) := by
  have hr := resolved_resolve is
  generalize JumpTable.resolve is = r at hr
  cases hr with
  | paired hb =>
    have := hb.2
    omega
  | @excessClosing i hlt _ hneg =>
    have := hn (i + 1) hlt
    omega
  | @excessOpening i _ ho hd hin =>
    refine ⟨i, ⟨⟨ho, hin⟩, ?_⟩, rfl⟩
    rintro i' ⟨ho', hin'⟩
    apply Classical.byContradiction
    intro hlt
    have hlen := (List.getElem?_eq_some_iff.1 ho').1
    have := hin i' (by omega) (by omega)
    have := hin' is.length hlen (Nat.le_refl _)
    omega

/-! ## Top theorems -/

theorem resolve_accepts_or_blames (is : List Instruction) :
    ((∃ t, JumpTable.resolve is = .ok t) ↔
      (∀ k ≤ is.length, 0 ≤ depth is k) ∧ depth is is.length = 0) ∧
    ((∃ k ≤ is.length, depth is k < 0) →
      ∃ i, IsLeast {i | i < is.length ∧ depth is (i + 1) < 0} i ∧
        JumpTable.resolve is = .error (.unbalanced i .closing) ∧
        ∀ rest, JumpTable.resolve (is.take (i + 1) ++ rest) = .error (.unbalanced i .closing)) ∧
    ((∀ k ≤ is.length, 0 ≤ depth is k) → 0 < depth is is.length →
      ∃ i, IsGreatest {i | is[i]? = some .loopStart ∧
          ∀ j, i < j → j ≤ is.length → depth is i < depth is j} i ∧
        JumpTable.resolve is = .error (.unbalanced i .opening)) := by
  refine ⟨exists_resolve_eq_ok_iff is, ?_, resolve_eq_error_opening⟩
  intro hneg
  obtain ⟨i, hi⟩ := exists_first_unopened hneg
  refine ⟨i, hi, resolve_eq_error_closing hi, ?_⟩
  intro rest
  exact resolve_eq_error_closing (first_unopened_append rest hi)

theorem partner?_unique_matching (is : List Instruction) (t : JumpTable)
    (h : JumpTable.resolve is = .ok t) :
    ProperMatching is t.partner? ∧ (∀ m, ProperMatching is m → m = t.partner?) ∧
    (∀ i j, is[i]? = some .loopStart → t.partner? i = some j →
      IsLeast {k | i < k ∧ depth is (k + 1) = depth is i} j) ∧
    (∀ i j k l, t.partner? i = some j → t.partner? k = some l → i < j → k < l → i < k →
      j < k ∨ l < j) ∧
    t.size = is.length ∧ t.loopCount = is.count .loopStart ∧ t.loopCount = is.count .loopEnd := by
  obtain ⟨hb, hp⟩ := resolve_eq_ok h
  have hproper := hb.properMatching (partner?_eq_some_iff h)
  have hclosing : t.loopCount = is.count .loopEnd := by rw [hp.loopCount, List.take_length]
  refine ⟨hproper, ?_, ?_, ?_, hp.size, by rw [hb.count_eq, hclosing], hclosing⟩
  · intro m hm
    exact hm.unique hb hproper
  · intro i j hi hij
    obtain ⟨-, hlt, -⟩ := hproper.opening i j hi hij
    exact (matches_of_partner? h hij hlt).isLeast_right
  · intro i j k l hij hkl hlt hlt' hik
    exact (matches_of_partner? h hij hlt).disjoint_or_nested (matches_of_partner? h hkl hlt') hik

theorem partner?_unique_matching_nested :
    JumpTable.resolve [.loopStart, .loopStart, .increment, .loopEnd, .loopEnd, .loopStart, .loopEnd] =
      .ok ⟨#[some 4, some 3, none, some 1, some 0, some 6, some 5], 3⟩ ∧
    ProperMatching
      [.loopStart, .loopStart, .increment, .loopEnd, .loopEnd, .loopStart, .loopEnd]
      (JumpTable.partner? ⟨#[some 4, some 3, none, some 1, some 0, some 6, some 5], 3⟩) :=
  ⟨rfl, (partner?_unique_matching _ _ rfl).1⟩

end Brainfuck
