import Brainfuck.Depth
import Mathlib.Data.Nat.Find
import Mathlib.Order.Bounds.Basic

/-!
# Nesting

What it is for brackets to match, said by the depth alone and not by a scan.  `Balanced` programs
are never below depth 0 and end there; `Matches is i j` says that the `]` at `j` is the first place
behind the `[` at `i` where the depth is back to what it was before `i`.

    Matches is i j → Matches is i j' → j = j'                           (Matches.right_unique)
    Matches is i j → Matches is k l → i < k → j < k ∨ l < j             (Matches.disjoint_or_nested)
    Balanced is → is[i]? = some .loopStart → ∃ j, Matches is i j        (Balanced.exists_closing)
    Balanced is → is[j]? = some .loopEnd → ∃ i, Matches is i j          (Balanced.exists_opening)

So a balanced program has one `ProperMatching` at most (`ProperMatching.unique`).
-/

namespace Brainfuck

/-- Nothing is closed that is not open, and nothing is left open. -/
def Balanced (is : List Instruction) : Prop :=
  (∀ k ≤ is.length, 0 ≤ depth is k) ∧ depth is is.length = 0

structure Matches (is : List Instruction) (i j : Nat) : Prop where
  opening : is[i]? = some .loopStart
  lt : i < j
  inside : ∀ k, i < k → k ≤ j → depth is i < depth is k
  back : depth is (j + 1) = depth is i

/-- Every bracket and nothing else has a partner; a `[` has a `]` behind it, with a balanced part
between them. -/
structure ProperMatching (is : List Instruction) (partner? : Nat → Option Nat) : Prop where
  isSome_iff : ∀ i, (partner? i).isSome ↔ is[i]? = some .loopStart ∨ is[i]? = some .loopEnd
  opening : ∀ i j, is[i]? = some .loopStart → partner? i = some j →
    is[j]? = some .loopEnd ∧ i < j ∧ Balanced ((is.drop (i + 1)).take (j - i - 1))
  involutive : ∀ i j, partner? i = some j → partner? j = some i

/-! ## Depth -/

theorem depth_of_length_le (is : List Instruction) {k : Nat} (h : is.length ≤ k) :
    depth is k = depth is is.length := by
  unfold depth
  rw [List.take_of_length_le h, List.take_length]

theorem depth_take (is : List Instruction) (m k : Nat) : depth (is.take m) k = depth is (min k m) := by
  unfold depth
  rw [List.take_take]

theorem depth_drop (is : List Instruction) (m k : Nat) :
    depth (is.drop m) k = depth is (m + k) - depth is m := by
  unfold depth
  rw [List.take_add]
  simp only [List.count_append]
  omega

theorem depth_append_of_le {xs : List Instruction} (ys : List Instruction) {k : Nat}
    (h : k ≤ xs.length) : depth (xs ++ ys) k = depth xs k := by
  unfold depth
  rw [List.take_append_of_le_length h]

theorem depth_append_add (xs ys : List Instruction) (k : Nat) :
    depth (xs ++ ys) (xs.length + k) = depth xs xs.length + depth ys k := by
  have h := depth_drop (xs ++ ys) xs.length k
  rw [List.drop_left, depth_append_of_le ys (Nat.le_refl _)] at h
  omega

theorem depth_cons (x : Instruction) (xs : List Instruction) (k : Nat) :
    depth (x :: xs) (k + 1) = x.rise + depth xs k := by
  have hx : depth [x] 1 = x.rise := by
    have := depth_succ (show [x][0]? = some x from rfl)
    rwa [depth_zero, Int.zero_add] at this
  have := depth_append_add [x] xs k
  rwa [List.length_singleton, Nat.add_comm, hx] at this

/-- The depth changes only at an instruction that has a rise. -/
theorem exists_rise_of_depth_ne {is : List Instruction} {k : Nat}
    (h : depth is (k + 1) ≠ depth is k) :
    ∃ x, is[k]? = some x ∧ depth is (k + 1) = depth is k + x.rise := by
  cases hx : is[k]? with
  | none =>
    have hk := List.getElem?_eq_none_iff.1 hx
    rw [depth_of_length_le is hk, depth_of_length_le is (Nat.le_succ_of_le hk)] at h
    exact absurd rfl h
  | some x => exact ⟨x, rfl, depth_succ hx⟩

/-- One instruction changes the depth by one at most. -/
theorem depth_succ_bounds (is : List Instruction) (k : Nat) :
    depth is k - 1 ≤ depth is (k + 1) ∧ depth is (k + 1) ≤ depth is k + 1 := by
  by_cases h : depth is (k + 1) = depth is k
  · omega
  · obtain ⟨x, -, hd⟩ := exists_rise_of_depth_ne h
    cases x <;> simp only [Instruction.rise] at hd <;> omega

theorem opening_of_depth_lt {is : List Instruction} {k : Nat} (h : depth is k < depth is (k + 1)) :
    is[k]? = some .loopStart := by
  obtain ⟨x, hx, hd⟩ := exists_rise_of_depth_ne (Int.ne_of_gt h)
  cases x
  case loopStart => exact hx
  all_goals
    simp only [Instruction.rise] at hd
    omega

theorem closing_of_depth_lt {is : List Instruction} {k : Nat} (h : depth is (k + 1) < depth is k) :
    is[k]? = some .loopEnd := by
  obtain ⟨x, hx, hd⟩ := exists_rise_of_depth_ne (Int.ne_of_lt h)
  cases x
  case loopEnd => exact hx
  all_goals
    simp only [Instruction.rise] at hd
    omega

/-! ## Matching brackets -/

namespace Matches

variable {is : List Instruction} {i i' j j' k l : Nat}

theorem closing (h : Matches is i j) : is[j]? = some .loopEnd := by
  apply closing_of_depth_lt
  rw [h.back]
  exact h.inside j h.lt (Nat.le_refl j)

theorem lt_length (h : Matches is i j) : j < is.length :=
  (List.getElem?_eq_some_iff.1 h.closing).1

theorem right_unique (h : Matches is i j) (h' : Matches is i j') : j = j' := by
  rcases Nat.lt_trichotomy j j' with hlt | heq | hlt
  · have := h'.inside (j + 1) (by have := h.lt; omega) hlt
    rw [h.back] at this
    omega
  · exact heq
  · have := h.inside (j' + 1) (by have := h'.lt; omega) hlt
    rw [h'.back] at this
    omega

theorem left_unique (h : Matches is i j) (h' : Matches is i' j) : i = i' := by
  have hd : depth is i = depth is i' := by rw [← h.back, h'.back]
  rcases Nat.lt_trichotomy i i' with hlt | heq | hlt
  · have := h.inside i' hlt (Nat.le_of_lt h'.lt)
    omega
  · exact heq
  · have := h'.inside i hlt (Nat.le_of_lt h.lt)
    omega

/-- No `[` is also a `]`. -/
theorem left_ne_right (h : Matches is i j) (h' : Matches is k i) : False := by
  have := h.opening.symm.trans h'.closing
  cases this

/-- Two pairs lie side by side or one in the other. -/
theorem disjoint_or_nested (h : Matches is i j) (h' : Matches is k l) (hik : i < k) :
    j < k ∨ l < j := by
  by_cases hjk : j < k
  · exact Or.inl hjk
  · right
    have hik := h.inside k hik (by omega)
    have hkj : k ≠ j := by
      rintro rfl
      exact h'.left_ne_right h
    have hlj : l ≠ j := by
      rintro rfl
      have := h.left_unique h'
      omega
    apply Classical.byContradiction
    intro hl
    have := h'.inside (j + 1) (by omega) (by omega)
    rw [h.back] at this
    omega

/-- The `]` is where the depth is back for the first time. -/
theorem isLeast_right (h : Matches is i j) : IsLeast {k | i < k ∧ depth is (k + 1) = depth is i} j := by
  refine ⟨⟨h.lt, h.back⟩, ?_⟩
  rintro k ⟨hik, hk⟩
  apply Classical.byContradiction
  intro hkj
  have := h.inside (k + 1) (by omega) (by omega)
  omega

/-- What is enclosed by a pair is balanced. -/
theorem balanced_inside (h : Matches is i j) : Balanced ((is.drop (i + 1)).take (j - i - 1)) := by
  have hlt := h.lt
  have hlen := h.lt_length
  have hup := depth_succ h.opening
  have hdown := depth_succ h.closing
  have hback := h.back
  simp only [Instruction.rise] at hup hdown
  refine ⟨fun k hk => ?_, ?_⟩
  · have hk : k ≤ j - i - 1 := by
      rw [List.length_take] at hk
      omega
    have := h.inside (i + 1 + k) (by omega) (by omega)
    rw [depth_take, Nat.min_eq_left hk, depth_drop]
    omega
  · have hseg : ((is.drop (i + 1)).take (j - i - 1)).length = j - i - 1 := by
      rw [List.length_take, List.length_drop]
      omega
    have hj : i + 1 + (j - i - 1) = j := by omega
    rw [hseg, depth_take, Nat.min_self, depth_drop, hj]
    omega

/-- A balanced part between two brackets makes them a pair. -/
theorem of_balanced {body : List Instruction} (before after : List Instruction) (h : Balanced body) :
    Matches (before ++ .loopStart :: (body ++ .loopEnd :: after)) before.length
      (before.length + body.length + 1) := by
  let rest := body ++ Instruction.loopEnd :: after
  have hstart : depth (before ++ .loopStart :: rest) before.length = depth before before.length :=
    depth_append_of_le _ (Nat.le_refl _)
  have hinside (k : Nat) : depth (before ++ .loopStart :: rest) (before.length + (k + 1)) =
      depth before before.length + 1 + depth rest k := by
    rw [depth_append_add, depth_cons, Int.add_assoc]
    rfl
  refine ⟨by simp, by omega, fun k hik hkj => ?_, ?_⟩
  · obtain ⟨k, rfl⟩ : ∃ m, k = before.length + (m + 1) := ⟨k - before.length - 1, by omega⟩
    have hk : k ≤ body.length := by omega
    have := h.1 k hk
    rw [hstart, hinside, depth_append_of_le _ hk]
    omega
  · have hend : depth rest (body.length + 1) = -1 := by
      rw [depth_append_add, h.2]
      rfl
    have := hinside (body.length + 1)
    rw [hend] at this
    rw [hstart]
    show depth (before ++ .loopStart :: rest) (before.length + (body.length + 1 + 1)) = _
    omega

end Matches

/-! ## Every bracket of a balanced program has a partner -/

namespace Balanced

variable {is : List Instruction}

theorem count_eq (h : Balanced is) : is.count .loopStart = is.count .loopEnd := by
  have := h.2
  unfold depth at this
  rw [List.take_length] at this
  omega

theorem exists_closing (h : Balanced is) {i : Nat} (hi : is[i]? = some .loopStart) :
    ∃ j, Matches is i j := by
  have hlen : i < is.length := (List.getElem?_eq_some_iff.1 hi).1
  have hex : ∃ k, i < k ∧ depth is k ≤ depth is i :=
    ⟨is.length, hlen, by rw [h.2]; exact h.1 i (Nat.le_of_lt hlen)⟩
  -- the first place behind `i` where the depth is back
  obtain ⟨hik, hback⟩ := Nat.find_spec hex
  have hbefore (k : Nat) (hk : k < Nat.find hex) (hik : i < k) : depth is i < depth is k := by
    have := Nat.find_min hex hk
    omega
  generalize Nat.find hex = first at hik hback hbefore
  have hup := depth_succ hi
  simp only [Instruction.rise] at hup
  have hne : first ≠ i + 1 := by
    rintro rfl
    omega
  refine ⟨first - 1, hi, by omega, fun k hik hk => hbefore k (by omega) hik, ?_⟩
  have hlast := hbefore (first - 1) (by omega) (by omega)
  have hstep := (depth_succ_bounds is (first - 1)).1
  rw [show first - 1 + 1 = first by omega] at hstep ⊢
  omega

theorem exists_opening (h : Balanced is) {j : Nat} (hj : is[j]? = some .loopEnd) :
    ∃ i, Matches is i j := by
  have hlen : j < is.length := (List.getElem?_eq_some_iff.1 hj).1
  have hdown := depth_succ hj
  simp only [Instruction.rise] at hdown
  have hzero : depth is 0 ≤ depth is (j + 1) := by
    rw [depth_zero]
    exact h.1 (j + 1) hlen
  -- the last place up to `j` that is no deeper than what follows `j`
  have hlow := Nat.findGreatest_spec (P := fun k => depth is k ≤ depth is (j + 1)) (Nat.zero_le j) hzero
  have hle := Nat.findGreatest_le (P := fun k => depth is k ≤ depth is (j + 1)) j
  have hafter (k : Nat) (hk : Nat.findGreatest (fun k => depth is k ≤ depth is (j + 1)) j < k)
      (hkj : k ≤ j) : depth is (j + 1) < depth is k := by
    have := Nat.findGreatest_is_greatest hk hkj
    omega
  generalize Nat.findGreatest (fun k => depth is k ≤ depth is (j + 1)) j = last at hlow hle hafter
  have hne : last ≠ j := by
    rintro rfl
    omega
  have hnext := hafter (last + 1) (by omega) (by omega)
  have hstep := (depth_succ_bounds is last).2
  refine ⟨last, opening_of_depth_lt (by omega), by omega, fun k hk hkj => ?_, by omega⟩
  have := hafter k hk hkj
  omega

end Balanced

/-! ## Proper matchings -/

theorem eq_take_append_between {α : Type} {xs : List α} {i j : Nat} {x y : α}
    (hi : xs[i]? = some x) (hj : xs[j]? = some y) (hij : i < j) :
    xs = xs.take i ++ x :: ((xs.drop (i + 1)).take (j - i - 1) ++ y :: xs.drop (j + 1)) := by
  obtain ⟨hil, rfl⟩ := List.getElem?_eq_some_iff.1 hi
  obtain ⟨hjl, rfl⟩ := List.getElem?_eq_some_iff.1 hj
  have hmid : (xs.drop (i + 1)).drop (j - i - 1) = xs[j] :: xs.drop (j + 1) := by
    rw [List.drop_drop, show i + 1 + (j - i - 1) = j by omega, List.drop_eq_getElem_cons hjl]
  rw [← hmid, List.take_append_drop, ← List.drop_eq_getElem_cons hil, List.take_append_drop]

namespace ProperMatching

variable {is : List Instruction} {m m' : Nat → Option Nat}

theorem matches_of_opening (h : ProperMatching is m) {i j : Nat} (hi : is[i]? = some .loopStart)
    (hm : m i = some j) : Matches is i j := by
  obtain ⟨hj, hij, hb⟩ := h.opening i j hi hm
  have hlen : (is.take i).length = i := by
    have := (List.getElem?_eq_some_iff.1 hi).1
    rw [List.length_take]
    omega
  have hseg : ((is.drop (i + 1)).take (j - i - 1)).length = j - i - 1 := by
    have := (List.getElem?_eq_some_iff.1 hj).1
    rw [List.length_take, List.length_drop]
    omega
  have hpair := Matches.of_balanced (is.take i) (is.drop (j + 1)) hb
  rw [← eq_take_append_between hi hj hij, hlen, hseg,
    show i + (j - i - 1) + 1 = j by omega] at hpair
  exact hpair

theorem eq_some_iff (hb : Balanced is) (h : ProperMatching is m) (i j : Nat) :
    m i = some j ↔ Matches is i j ∨ Matches is j i := by
  have hopen {i j : Nat} (hm : Matches is i j) : m i = some j := by
    obtain ⟨j', hj'⟩ := Option.isSome_iff_exists.1 ((h.isSome_iff i).2 (Or.inl hm.opening))
    rw [hj', hm.right_unique (h.matches_of_opening hm.opening hj')]
  constructor
  · intro hij
    rcases (h.isSome_iff i).1 (by rw [hij]; rfl) with hi | hi
    · exact Or.inl (h.matches_of_opening hi hij)
    · -- the `[` of the `]` at `i` is paired with it, and so is `j`
      obtain ⟨k, hk⟩ := hb.exists_opening hi
      have hki := h.involutive k i (hopen hk)
      rw [hij] at hki
      cases hki
      exact Or.inr hk
  · rintro (hm | hm)
    · exact hopen hm
    · exact h.involutive j i (hopen hm)

theorem unique (hb : Balanced is) (h : ProperMatching is m) (h' : ProperMatching is m') : m = m' := by
  funext i
  apply Option.ext
  intro j
  rw [h.eq_some_iff hb, h'.eq_some_iff hb]

end ProperMatching

/-- The pairs of a balanced program are a proper matching. -/
theorem Balanced.properMatching {is : List Instruction} (hb : Balanced is) {m : Nat → Option Nat}
    (h : ∀ i j, m i = some j ↔ Matches is i j ∨ Matches is j i) : ProperMatching is m where
  isSome_iff i := by
    rw [Option.isSome_iff_exists]
    constructor
    · rintro ⟨j, hj⟩
      rcases (h i j).1 hj with hm | hm
      · exact Or.inl hm.opening
      · exact Or.inr hm.closing
    · rintro (hi | hi)
      · obtain ⟨j, hm⟩ := hb.exists_closing hi
        exact ⟨j, (h i j).2 (Or.inl hm)⟩
      · obtain ⟨j, hm⟩ := hb.exists_opening hi
        exact ⟨j, (h i j).2 (Or.inr hm)⟩
  opening i j hi hij := by
    rcases (h i j).1 hij with hm | hm
    · exact ⟨hm.closing, hm.lt, hm.balanced_inside⟩
    · have := hi.symm.trans hm.closing
      cases this
  involutive i j hij := (h j i).2 ((h i j).1 hij).symm

end Brainfuck
