import Brainfuck.Instruction
import Brainfuck.RunError

/-!
# Processes

A process does one instruction after the other until there is none left or one fails.  `runFor`
lets it do a given number at most; `run` does all there are, and has no answer if they never end;
`runWithin` stops at a limit.

Every answer of `run` is one of `runFor` (`run_eq_some_iff`), and `runFor` can be cut into pieces
anywhere (`runFor_add`).  `attempts` lists what `runFor` tries (`getElem?_attempts`).
-/

namespace Brainfuck

/-- How a run ended. -/
inductive Stop
  | finished
  | failed (e : RunError)
deriving DecidableEq

/-- The end of a run that was held to `limit`, which it reached if it did not stop by itself. -/
def Stop.atLimit (limit : Nat) : Option Stop → Stop
  | some stop => stop
  | none => failed (.outOfSteps limit)

structure Process (σ : Type) where
  /-- The instruction to be tried next, if there is one left. -/
  next? : σ → Option Instruction
  /-- Try an instruction. -/
  perform : Instruction → σ → Except RunError Unit × σ

namespace Process

variable {σ : Type}

/-- Do `n` instructions, or fewer if the process stops before.  If it does not stop, there are
instructions left. -/
def runFor (p : Process σ) : Nat → σ → Option Stop × σ
  | 0, s => (if (p.next? s).isSome then none else some .finished, s)
  | n + 1, s =>
    match p.next? s with
    | none => (some .finished, s)
    | some i =>
      match p.perform i s with
      | (.ok _, s) => p.runFor n s
      | (.error e, s) => (some (.failed e), s)

/-- Do instructions until the process stops.  A process that goes on for ever has no answer. -/
def run (p : Process σ) (s : σ) : Option (Stop × σ) :=
  match p.next? s with
  | none => some (.finished, s)
  | some i =>
    match p.perform i s with
    | (.ok _, s) => p |>.run s
    | (.error e, s) => some (.failed e, s)
partial_fixpoint

/-- Run until `limit` instructions have been done, of which `done` were done before. -/
def runWithin (p : Process σ) (limit : Option Nat) (done : Nat) (s : σ) : Option (Stop × σ) :=
  match limit with
  | none => p.run s
  | some limit =>
    match p.runFor (limit - done) s with
    | (stop, s) => some (.atLimit limit stop, s)

/-- The instructions that `runFor` tries, in order, each with the state it finds. -/
def attempts (p : Process σ) : Nat → σ → List (Instruction × σ)
  | 0, _ => []
  | n + 1, s =>
    match p.next? s with
    | none => []
    | some i =>
      match p.perform i s with
      | (.ok _, t) => (i, s) :: p.attempts n t
      | (.error _, _) => [(i, s)]

/-! ## Lemmas -/

section
variable {p : Process σ} {s t : σ} {i : Instruction} {e : RunError}

theorem runFor_of_over (n : Nat) (h : p.next? s = none) : p.runFor n s = (some .finished, s) := by
  cases n <;> simp [runFor, h]

theorem runFor_zero_of_next (h : p.next? s = some i) : p.runFor 0 s = (none, s) := by
  simp [runFor, h]

theorem runFor_zero_snd (p : Process σ) (s : σ) : (p.runFor 0 s).2 = s := by
  cases h : p.next? s with
  | none => rw [runFor_of_over 0 h]
  | some i => rw [runFor_zero_of_next h]

theorem runFor_succ_of_ok (n : Nat) (h : p.next? s = some i) (hp : p.perform i s = (.ok (), t)) :
    p.runFor (n + 1) s = p.runFor n t := by
  simp [runFor, h, hp]

theorem runFor_succ_of_error (n : Nat) (h : p.next? s = some i) (hp : p.perform i s = (.error e, t)) :
    p.runFor (n + 1) s = (some (.failed e), t) := by
  simp [runFor, h, hp]

/-- The first instruction of a run that has come to its end. -/
theorem runFor_eq_some_of_ok {n : Nat} {stop : Stop} {u : σ} (h : p.next? s = some i)
    (hp : p.perform i s = (.ok (), t)) (hr : p.runFor n s = (some stop, u)) :
    ∃ m, n = m + 1 ∧ p.runFor m t = (some stop, u) := by
  cases n with
  | zero =>
    rw [runFor_zero_of_next h] at hr
    cases hr
  | succ m => exact ⟨m, rfl, by rwa [runFor_succ_of_ok m h hp] at hr⟩

theorem runFor_eq_some_of_error {n : Nat} {stop : Stop} {u : σ} (h : p.next? s = some i)
    (hp : p.perform i s = (.error e, t)) (hr : p.runFor n s = (some stop, u)) :
    stop = .failed e ∧ u = t := by
  cases n with
  | zero =>
    rw [runFor_zero_of_next h] at hr
    cases hr
  | succ m =>
    rw [runFor_succ_of_error m h hp] at hr
    cases hr
    exact ⟨rfl, rfl⟩

theorem attempts_of_over (n : Nat) (h : p.next? s = none) : p.attempts n s = [] := by
  cases n <;> simp [attempts, h]

theorem attempts_succ_of_ok (n : Nat) (h : p.next? s = some i) (hp : p.perform i s = (.ok (), t)) :
    p.attempts (n + 1) s = (i, s) :: p.attempts n t := by
  simp [attempts, h, hp]

theorem attempts_succ_of_error (n : Nat) (h : p.next? s = some i)
    (hp : p.perform i s = (.error e, t)) : p.attempts (n + 1) s = [(i, s)] := by
  simp [attempts, h, hp]

theorem run_of_over (h : p.next? s = none) : p.run s = some (.finished, s) := by
  rw [run]
  simp only [h]

theorem run_of_ok (h : p.next? s = some i) (hp : p.perform i s = (.ok (), t)) :
    p.run s = p.run t := by
  rw [run]
  simp only [h, hp]

theorem run_of_error (h : p.next? s = some i) (hp : p.perform i s = (.error e, t)) :
    p.run s = some (.failed e, t) := by
  rw [run]
  simp only [h, hp]

end

/-- To do `m + n` instructions is to do `m` and, if that is not the end, `n` more. -/
theorem runFor_add (p : Process σ) (m n : Nat) (s : σ) :
    p.runFor (m + n) s =
      match p.runFor m s with
      | (none, t) => p.runFor n t
      | stopped => stopped := by
  induction m generalizing s with
  | zero =>
    rw [Nat.zero_add]
    cases h : p.next? s with
    | none => rw [runFor_of_over n h, runFor_of_over 0 h]
    | some i => rw [runFor_zero_of_next h]
  | succ m ih =>
    rw [Nat.add_right_comm]
    cases h : p.next? s with
    | none => rw [runFor_of_over _ h, runFor_of_over _ h]
    | some i =>
      rcases hp : p.perform i s with ⟨e | _, t⟩
      · rw [runFor_succ_of_error _ h hp, runFor_succ_of_error _ h hp]
      · rw [runFor_succ_of_ok _ h hp, runFor_succ_of_ok _ h hp]
        exact ih t

/-- A run that has come to its end went through every state that it was in before. -/
theorem runFor_after {p : Process σ} {s t u : σ} {k n : Nat} {stop : Stop}
    (hk : p.runFor k s = (none, t)) (hn : p.runFor n s = (some stop, u)) :
    ∃ m, n = k + m ∧ p.runFor m t = (some stop, u) := by
  rcases Nat.le_total k n with hle | hle
  · obtain ⟨m, rfl⟩ := Nat.exists_eq_add_of_le hle
    rw [runFor_add, hk] at hn
    exact ⟨m, rfl, hn⟩
  · obtain ⟨m, rfl⟩ := Nat.exists_eq_add_of_le hle
    rw [runFor_add, hn] at hk
    cases hk

theorem next?_of_runFor_finished {p : Process σ} {s t : σ} {n : Nat}
    (h : p.runFor n s = (some .finished, t)) : p.next? t = none := by
  induction n generalizing s with
  | zero =>
    cases hi : p.next? s with
    | none =>
      rw [runFor_of_over 0 hi] at h
      cases h
      exact hi
    | some i =>
      rw [runFor_zero_of_next hi] at h
      cases h
  | succ n ih =>
    cases hi : p.next? s with
    | none =>
      rw [runFor_of_over _ hi] at h
      cases h
      exact hi
    | some i =>
      rcases hp : p.perform i s with ⟨e | _, s'⟩
      · rw [runFor_succ_of_error n hi hp] at h
        cases h
      · rw [runFor_succ_of_ok n hi hp] at h
        exact ih h

theorem next?_of_runFor_none {p : Process σ} {s t : σ} {n : Nat} (h : p.runFor n s = (none, t)) :
    ∃ i, p.next? t = some i := by
  have ht : p.runFor 0 t = (none, t) := by
    have := runFor_add p n 0 s
    rw [Nat.add_zero, h] at this
    exact this.symm
  cases hi : p.next? t with
  | none =>
    rw [runFor_of_over 0 hi] at ht
    cases ht
  | some i => exact ⟨i, rfl⟩

/-- A run fails in the attempt at one of its instructions. -/
theorem exists_of_runFor_failed {p : Process σ} {s t : σ} {n : Nat} {e : RunError}
    (h : p.runFor n s = (some (.failed e), t)) :
    ∃ k u i, p.runFor k s = (none, u) ∧ p.next? u = some i ∧ p.perform i u = (.error e, t) := by
  induction n generalizing s with
  | zero =>
    cases hi : p.next? s with
    | none =>
      rw [runFor_of_over 0 hi] at h
      cases h
    | some i =>
      rw [runFor_zero_of_next hi] at h
      cases h
  | succ n ih =>
    cases hi : p.next? s with
    | none =>
      rw [runFor_of_over _ hi] at h
      cases h
    | some i =>
      rcases hp : p.perform i s with ⟨e' | _, s'⟩
      · rw [runFor_succ_of_error n hi hp] at h
        cases h
        exact ⟨0, s, i, runFor_zero_of_next hi, hi, hp⟩
      · rw [runFor_succ_of_ok n hi hp] at h
        obtain ⟨k, u, j, hk, hj, hu⟩ := ih h
        exact ⟨k + 1, u, j, by rw [runFor_succ_of_ok k hi hp, hk], hj, hu⟩

/-- An instruction is tried in the state that the instructions before it have led to. -/
theorem getElem?_attempts (p : Process σ) (n k : Nat) (s t : σ) (i : Instruction) :
    (p.attempts n s)[k]? = some (i, t) ↔
      k < n ∧ p.runFor k s = (none, t) ∧ p.next? t = some i := by
  induction n generalizing s k with
  | zero => simp [attempts]
  | succ n ih =>
    cases hi : p.next? s with
    | none => simp [attempts_of_over _ hi, runFor_of_over _ hi]
    | some j =>
      have hfirst : ∀ rest : List (Instruction × σ), ((j, s) :: rest)[0]? = some (i, t) ↔
          0 < n + 1 ∧ p.runFor 0 s = (none, t) ∧ p.next? t = some i := by
        intro rest
        rw [runFor_zero_of_next hi]
        simp only [List.getElem?_cons_zero, Option.some.injEq, Prod.mk.injEq, true_and]
        constructor
        · rintro ⟨rfl, rfl⟩
          exact ⟨Nat.succ_pos n, rfl, hi⟩
        · rintro ⟨-, rfl, hj⟩
          exact ⟨Option.some.inj (hi.symm.trans hj), rfl⟩
      rcases hp : p.perform j s with ⟨e | _, u⟩
      · rw [attempts_succ_of_error n hi hp]
        cases k with
        | zero => exact hfirst []
        | succ k => simp [runFor_succ_of_error k hi hp]
      · rw [attempts_succ_of_ok n hi hp]
        cases k with
        | zero => exact hfirst _
        | succ k =>
          rw [List.getElem?_cons_succ, ih, runFor_succ_of_ok k hi hp, Nat.succ_lt_succ_iff]

/-- What holds at the start and is kept by every attempt at an instruction holds at the end. -/
theorem runFor_invariant {p : Process σ} {I : σ → Prop}
    (hstep : ∀ s i, I s → p.next? s = some i → I (p.perform i s).2) (n : Nat) {s : σ} (hs : I s) :
    I (p.runFor n s).2 := by
  induction n generalizing s with
  | zero => exact hs
  | succ n ih =>
    cases hi : p.next? s with
    | none => rwa [runFor_of_over _ hi]
    | some i =>
      have ht := hstep s i hs hi
      rcases hp : p.perform i s with ⟨e | _, t⟩
      · rw [hp] at ht
        rwa [runFor_succ_of_error n hi hp]
      · rw [hp] at ht
        rw [runFor_succ_of_ok n hi hp]
        exact ih ht

/-- A run has an answer when some number of instructions is enough for it. -/
theorem run_eq_some_iff (p : Process σ) (s t : σ) (stop : Stop) :
    p.run s = some (stop, t) ↔ ∃ n, p.runFor n s = (some stop, t) := by
  constructor
  · intro h
    refine run.partial_correctness p (fun s r => ∃ n, p.runFor n s = (some r.1, r.2)) ?_ s _ h
    intro run ih s r hr
    cases h : p.next? s with
    | none =>
      simp only [h, Option.some.injEq] at hr
      subst hr
      exact ⟨0, runFor_of_over 0 h⟩
    | some i =>
      rcases hp : p.perform i s with ⟨e | _, t⟩
      · simp only [h, hp, Option.some.injEq] at hr
        subst hr
        exact ⟨1, runFor_succ_of_error 0 h hp⟩
      · simp only [h, hp] at hr
        obtain ⟨n, hn⟩ := ih t r hr
        exact ⟨n + 1, by rw [runFor_succ_of_ok n h hp, hn]⟩
  · rintro ⟨n, h⟩
    induction n generalizing s with
    | zero =>
      cases hs : p.next? s with
      | none =>
        rw [runFor_of_over 0 hs] at h
        cases h
        exact run_of_over hs
      | some i =>
        rw [runFor_zero_of_next hs] at h
        cases h
    | succ n ih =>
      cases hs : p.next? s with
      | none =>
        rw [runFor_of_over _ hs] at h
        cases h
        exact run_of_over hs
      | some i =>
        rcases hp : p.perform i s with ⟨e | _, s'⟩
        · rw [runFor_succ_of_error n hs hp] at h
          cases h
          exact run_of_error hs hp
        · rw [runFor_succ_of_ok n hs hp] at h
          rw [run_of_ok hs hp]
          exact ih s' h

/-- A run held to a limit stops by itself or at the limit. -/
theorem runWithin_cases {p : Process σ} {limit : Option Nat} {done : Nat} {s t : σ} {stop : Stop}
    (h : p.runWithin limit done s = some (stop, t)) :
    (∃ n, p.runFor n s = (some stop, t)) ∨
    ∃ l, limit = some l ∧ p.runFor (l - done) s = (none, t) ∧ stop = .failed (.outOfSteps l) := by
  cases limit with
  | none => exact Or.inl ((run_eq_some_iff p s t stop).1 h)
  | some l =>
    rcases hr : p.runFor (l - done) s with ⟨_ | stop', t'⟩
    · simp only [runWithin, hr, Option.some.injEq, Prod.mk.injEq] at h
      obtain ⟨rfl, rfl⟩ := h
      exact Or.inr ⟨l, rfl, hr, rfl⟩
    · simp only [runWithin, hr, Option.some.injEq, Prod.mk.injEq] at h
      obtain ⟨rfl, rfl⟩ := h
      exact Or.inl ⟨l - done, hr⟩

/-- A limit that is not reached is no limit. -/
theorem runWithin_of_limit {p : Process σ} {l done : Nat} {s t : σ} {stop : Stop}
    (h : p.runWithin (some l) done s = some (stop, t)) (hl : stop ≠ .failed (.outOfSteps l)) :
    p.runWithin none done s = some (stop, t) := by
  rcases runWithin_cases h with hn | ⟨_, ⟨⟩, -, hstop⟩
  · exact (run_eq_some_iff p s t stop).2 hn
  · exact absurd hstop hl

end Process

end Brainfuck
