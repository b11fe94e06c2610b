import Brainfuck.Structured.Tree
import Brainfuck.Proofs.Resolution

/-!
# Balanced programs are trees

What is read as a tree is written out again as it was (`instructions_of_ofInstructions?`), and a
program can be read as a tree when its brackets resolve (`exists_tree_of_resolve`).  Written out, a
tree is balanced (`balanced_instructions`), so that its loops are pairs of the jump table wherever
it stands in a program (`Stands.matches_loop`).
-/

namespace Brainfuck

/-- `part` is found in `is` from `ip` on. -/
def Stands (is : List Instruction) (ip : Nat) (part : List Instruction) : Prop :=
  ∃ before after, is = before ++ part ++ after ∧ before.length = ip

/-! ## Parts of a program -/

namespace Stands

variable {is part xs ys : List Instruction} {ip : Nat} {x : Instruction}

theorem whole (is : List Instruction) : Stands is 0 is :=
  ⟨[], [], by simp, rfl⟩

theorem left (h : Stands is ip (xs ++ ys)) : Stands is ip xs := by
  obtain ⟨before, after, rfl, rfl⟩ := h
  exact ⟨before, ys ++ after, by simp, rfl⟩

theorem right (h : Stands is ip (xs ++ ys)) : Stands is (ip + xs.length) ys := by
  obtain ⟨before, after, rfl, rfl⟩ := h
  exact ⟨before ++ xs, after, by simp, by simp⟩

theorem head (h : Stands is ip (x :: xs)) : is[ip]? = some x := by
  obtain ⟨before, after, rfl, rfl⟩ := h
  simp

theorem tail (h : Stands is ip (x :: xs)) : Stands is (ip + 1) xs := by
  rw [← List.singleton_append] at h
  exact h.right

theorem matches_loop {body : List Instruction} (hb : Balanced body)
    (h : Stands is ip (.loopStart :: (body ++ .loopEnd :: xs))) :
    Matches is ip (ip + body.length + 1) := by
  obtain ⟨before, after, rfl, rfl⟩ := h
  have := Matches.of_balanced before (xs ++ after) hb
  rwa [show before ++ .loopStart :: (body ++ .loopEnd :: xs) ++ after =
    before ++ .loopStart :: (body ++ .loopEnd :: (xs ++ after)) by simp]

theorem behind_loop {body : List Instruction}
    (h : Stands is ip (.loopStart :: (body ++ .loopEnd :: xs))) :
    Stands is (ip + (body.length + 2)) xs := by
  have := h.tail.right.tail
  rwa [show ip + 1 + body.length + 1 = ip + (body.length + 2) by omega] at this

end Stands

/-! ## Balanced lists -/

namespace Balanced

theorem nil : Balanced [] :=
  ⟨fun k hk => by rw [Nat.le_zero.1 hk, depth_zero], rfl⟩

theorem append {xs ys : List Instruction} (hx : Balanced xs) (hy : Balanced ys) :
    Balanced (xs ++ ys) := by
  refine ⟨fun k hk => ?_, ?_⟩
  · by_cases hle : k ≤ xs.length
    · rw [depth_append_of_le ys hle]
      exact hx.1 k hle
    · obtain ⟨m, rfl⟩ := Nat.exists_eq_add_of_le (Nat.le_of_not_le hle)
      rw [List.length_append] at hk
      have := hy.1 m (by omega)
      rw [depth_append_add, hx.2]
      omega
  · rw [List.length_append, depth_append_add, hx.2, hy.2]
    rfl

theorem singleton {x : Instruction} (hx : x.rise = 0) : Balanced [x] := by
  have h1 : depth [x] 1 = 0 := by rw [depth_cons, depth_zero, hx, Int.add_zero]
  refine ⟨fun k hk => ?_, h1⟩
  rcases Nat.le_one_iff_eq_zero_or_eq_one.1 hk with rfl | rfl
  · exact Int.le_refl 0
  · exact Int.le_of_eq h1.symm

theorem enclosed {body : List Instruction} (hb : Balanced body) :
    Balanced (.loopStart :: (body ++ [.loopEnd])) := by
  have hend : depth (body ++ [.loopEnd]) (body.length + 1) = -1 := by
    rw [depth_append_add, hb.2]
    rfl
  have hup : Instruction.loopStart.rise = 1 := rfl
  refine ⟨fun k hk => ?_, ?_⟩
  · cases k with
    | zero => exact Int.le_refl 0
    | succ m =>
      rw [depth_cons, hup]
      simp only [List.length_cons, List.length_append, List.length_nil] at hk
      by_cases hm : m ≤ body.length
      · have := hb.1 m hm
        rw [depth_append_of_le _ hm]
        omega
      · rw [show m = body.length + 1 by omega, hend]
        omega
  · have hlen : (Instruction.loopStart :: (body ++ [.loopEnd])).length = body.length + 1 + 1 := by
      simp
    rw [hlen, depth_cons, hend]
    rfl

end Balanced

namespace Structured

theorem Primitive.rise_instruction (p : Primitive) : p.instruction.rise = 0 := by
  cases p <;> rfl

namespace Tree

theorem length_instructions_loop (body rest : Tree) :
    (loop body rest).instructions.length =
      body.instructions.length + 2 + rest.instructions.length := by
  simp only [instructions, List.length_cons, List.length_append]
  omega

theorem balanced_instructions (t : Tree) : Balanced t.instructions := by
  induction t with
  | done => exact Balanced.nil
  | step p rest ih => exact (Balanced.singleton p.rise_instruction).append ih
  | loop body rest ihBody ihRest =>
    have := ihBody.enclosed.append ihRest
    rwa [List.cons_append, List.append_assoc] at this

/-! ## Reading trees -/

/-- The trees of a stack written out, with the `]` between one and the next. -/
def writeOut : List Tree → List Instruction
  | [] => []
  | t :: ts => t.instructions ++ ts.flatMap fun u => .loopEnd :: u.instructions

theorem writeOut_push {i : Instruction} {ts us : List Tree} (hts : ts ≠ []) (h : push i ts = some us) :
    us ≠ [] ∧ writeOut us = i :: writeOut ts := by
  cases ts with
  | nil => exact absurd rfl hts
  | cons t ts =>
    cases i
    case loopStart =>
      cases ts with
      | nil => cases h
      | cons rest ts =>
        cases h
        exact ⟨List.cons_ne_nil _ _, by simp [writeOut, instructions]⟩
    all_goals
      cases h
      exact ⟨List.cons_ne_nil _ _, by simp [writeOut, instructions, Primitive.instruction]⟩

theorem writeOut_pushAll {is : List Instruction} {ts us : List Tree} (hts : ts ≠ [])
    (h : pushAll is ts = some us) : us ≠ [] ∧ writeOut us = is ++ writeOut ts := by
  induction is generalizing us with
  | nil =>
    cases h
    exact ⟨hts, rfl⟩
  | cons i is ih =>
    rw [pushAll_cons] at h
    obtain ⟨vs, hvs, hus⟩ := Option.bind_eq_some_iff.1 h
    obtain ⟨hne, heq⟩ := ih hvs
    obtain ⟨hne', heq'⟩ := writeOut_push hne hus
    exact ⟨hne', by rw [heq', heq, List.cons_append]⟩

theorem instructions_of_ofInstructions? {is : List Instruction} {t : Tree}
    (h : ofInstructions? is = some t) : t.instructions = is := by
  unfold ofInstructions? at h
  split at h
  · next u hu =>
    cases h
    have := (writeOut_pushAll (List.cons_ne_nil _ _) hu).2
    simpa [writeOut, instructions] using this
  · cases h

/-- While the scan has `us` open, what it has still to read is a stack of one tree more. -/
theorem exists_pushAll_of_scan {is : List Instruction} {ip : Nat} {us : List Nat} {t t' : JumpTable}
    (h : JumpTable.scan is ip us t = .ok t') :
    ∃ ts, pushAll is [done] = some ts ∧ ts.length = us.length + 1 := by
  induction is generalizing ip us t with
  | nil =>
    cases us with
    | nil => exact ⟨[done], rfl, rfl⟩
    | cons i us => cases h
  | cons i is ih =>
    cases i
    case loopStart =>
      obtain ⟨ts, hts, hlen⟩ := ih h
      obtain ⟨body, rest, ts, rfl⟩ : ∃ body rest ts', ts = body :: rest :: ts' := by
        rcases ts with _ | ⟨body, _ | ⟨rest, ts⟩⟩
        · simp at hlen
        · simp at hlen
        · exact ⟨body, rest, ts, rfl⟩
      refine ⟨loop body rest :: ts, by rw [pushAll_cons, hts]; rfl, ?_⟩
      simp only [List.length_cons] at hlen ⊢
      omega
    case loopEnd =>
      cases us with
      | nil => cases h
      | cons j us =>
        obtain ⟨ts, hts, hlen⟩ := ih h
        refine ⟨done :: ts, by rw [pushAll_cons, hts]; rfl, ?_⟩
        simp only [List.length_cons, hlen]
    all_goals
      obtain ⟨ts, hts, hlen⟩ := ih h
      obtain ⟨u, ts, rfl⟩ := List.exists_cons_of_ne_nil (List.ne_nil_of_length_eq_add_one hlen)
      refine ⟨_, by rw [pushAll_cons, hts]; rfl, ?_⟩
      exact hlen

theorem exists_tree_of_resolve {is : List Instruction} {t : JumpTable}
    (h : JumpTable.resolve is = .ok t) : ∃ tree, ofInstructions? is = some tree := by
  obtain ⟨ts, hts, hlen⟩ := exists_pushAll_of_scan h
  obtain ⟨tree, rfl⟩ := List.length_eq_one_iff.1 hlen
  exact ⟨tree, by simp only [ofInstructions?, hts]⟩

end Tree

end Structured

end Brainfuck
