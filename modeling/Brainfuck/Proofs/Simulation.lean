import Brainfuck.Proofs.Devices
import Brainfuck.Proofs.SessionSafety

/-!
# Processes side by side

`Simulates` compares two processes instruction by instruction: what the one does the other does
too, from related states to related states, but for failures that the other is spared (`lapse`).
Whole runs compare in the same way (`Simulates.runFor`); where nothing is spared, both come to the
same end or to none (`Simulates.runWithin`).  `SimulatesWhile` is for two processes that go the same way
only until something has been used up.

The failures of a `Steady` process leave its state as they found it, so its runs can be broken off
anywhere and taken up again (`Steady.runWithin_resume`).
-/

namespace Brainfuck

theorem exists_of_rel_some {α β : Type} {R : α → β → Prop} {a : α} {y : Option β}
    (h : Option.Rel R (some a) y) : ∃ b, y = some b ∧ R a b := by
  cases h with
  | some h => exact ⟨_, rfl, h⟩

theorem eq_none_of_rel_none {α β : Type} {R : α → β → Prop} {y : Option β}
    (h : Option.Rel R none y) : y = none := by
  cases h
  rfl

theorem rel_map {α β γ δ : Type} {f : α → γ} {g : β → δ} {R : α → β → Prop} {Q : γ → δ → Prop}
    {x : Option α} {y : Option β} (h : Option.Rel R x y) (hQ : ∀ a b, R a b → Q (f a) (g b)) :
    Option.Rel Q (x.map f) (y.map g) := by
  cases h with
  | none => exact .none
  | some h => exact .some (hQ _ _ h)

namespace Process

variable {σ τ : Type} {p : Process σ} {q : Process τ}

/-- `q` does what `p` does, but for the failures of `p` that are a `lapse`: when `p` is left in `s`
by such a failure `e`, and `q` has not tried its instruction in `t`, then `Spared e s t`. -/
structure Simulates (p : Process σ) (q : Process τ) (R : σ → τ → Prop) (lapse : RunError → Prop)
    (Spared : RunError → σ → τ → Prop) : Prop where
  next?_eq : ∀ {s t}, R s t → p.next? s = q.next? t
  perform : ∀ {s s' t i r}, R s t → p.next? s = some i → p.perform i s = (r, s') →
    (∃ t', q.perform i t = (r, t') ∧ R s' t' ∧ ∀ e, r = .error e → ¬ lapse e) ∨
    ∃ e, r = .error e ∧ lapse e ∧ Spared e s' t

/-- `q` does what `p` does while `p` keeps `Within` bounds; once out of them it never comes back. -/
structure SimulatesWhile (p : Process σ) (q : Process τ) (R : σ → τ → Prop) (Within : σ → Prop) :
    Prop where
  next?_eq : ∀ {s t}, R s t → p.next? s = q.next? t
  perform : ∀ {s s' t i r}, R s t → p.next? s = some i → p.perform i s = (r, s') → Within s' →
    ∃ t', q.perform i t = (r, t') ∧ R s' t'
  within_of_perform : ∀ {s i}, Within (p.perform i s).2 → Within s

/-- Where the failures of `p` leave its state as they found it; `I` is what its runs keep. -/
structure Steady (p : Process σ) (I : σ → Prop) : Prop where
  keeps : ∀ {s s' i}, I s → p.next? s = some i → p.perform i s = (.ok (), s') → I s'
  stays : ∀ {s s' i e}, I s → p.next? s = some i → p.perform i s = (.error e, s') → s' = s

/-! ## Runs of two processes -/

section
variable {R : σ → τ → Prop} {lapse : RunError → Prop} {Spared : RunError → σ → τ → Prop}
  {s s' : σ} {t : τ}

/-- A run is followed to its end, or to the instruction whose failure is spared. -/
theorem Simulates.runFor (h : p.Simulates q R lapse Spared) (n : Nat) {o : Option Stop} (hr : R s t)
    (hp : p.runFor n s = (o, s')) :
    (∃ t', q.runFor n t = (o, t') ∧ R s' t' ∧ ∀ e, o = some (.failed e) → ¬ lapse e) ∨
    ∃ e k t', o = some (.failed e) ∧ lapse e ∧ k < n ∧ q.runFor k t = (none, t') ∧ Spared e s' t' := by
  induction n generalizing s t with
  | zero =>
    cases hi : p.next? s with
    | none =>
      rw [runFor_of_over 0 hi] at hp
      cases hp
      exact Or.inl ⟨t, runFor_of_over 0 (h.next?_eq hr ▸ hi), hr, fun _ he => by cases he⟩
    | some i =>
      rw [runFor_zero_of_next hi] at hp
      cases hp
      exact Or.inl ⟨t, runFor_zero_of_next (h.next?_eq hr ▸ hi), hr, fun _ he => by cases he⟩
  | succ n ih =>
    cases hi : p.next? s with
    | none =>
      rw [runFor_of_over _ hi] at hp
      cases hp
      exact Or.inl ⟨t, runFor_of_over _ (h.next?_eq hr ▸ hi), hr, fun _ he => by cases he⟩
    | some i =>
      have hi' : q.next? t = some i := h.next?_eq hr ▸ hi
      rcases hstep : p.perform i s with ⟨e | _, u⟩
      · rw [runFor_succ_of_error n hi hstep] at hp
        cases hp
        rcases h.perform hr hi hstep with ⟨t', ht, hr', he⟩ | ⟨e', heq, he, hT⟩
        · refine Or.inl ⟨t', runFor_succ_of_error n hi' ht, hr', ?_⟩
          rintro e' heq
          cases heq
          exact he e rfl
        · cases heq
          exact Or.inr ⟨e, 0, t, rfl, he, Nat.succ_pos n, runFor_zero_of_next hi', hT⟩
      · rw [runFor_succ_of_ok n hi hstep] at hp
        rcases h.perform hr hi hstep with ⟨t₁, ht, hr', -⟩ | ⟨e, he, -⟩
        · rcases ih hr' hp with ⟨t', hrun, hR, ho⟩ | ⟨e, k, t', ho, he, hk, hrun, hT⟩
          · exact Or.inl ⟨t', by rw [runFor_succ_of_ok n hi' ht, hrun], hR, ho⟩
          · exact Or.inr ⟨e, k + 1, t', ho, he, Nat.succ_lt_succ hk,
              by rw [runFor_succ_of_ok k hi' ht, hrun], hT⟩
        · cases he

/-- A run within its limit is followed to its end, or to the instruction whose failure is spared. -/
theorem Simulates.exists_runWithin (h : p.Simulates q R lapse Spared) {limit : Option Nat}
    {done : Nat} {stop : Stop} (hlimit : ∀ l, ¬ lapse (.outOfSteps l)) (hr : R s t)
    (hp : p.runWithin limit done s = some (stop, s')) :
    (∃ t', q.runWithin limit done t = some (stop, t') ∧ R s' t' ∧
      ∀ e, stop = .failed e → ¬ lapse e) ∨
    ∃ e k t', stop = .failed e ∧ lapse e ∧ (∀ l, limit = some l → k < l - done) ∧
      q.runFor k t = (none, t') ∧ Spared e s' t' := by
  cases limit with
  | some l =>
    rcases hrun : p.runFor (l - done) s with ⟨o, u⟩
    simp only [Process.runWithin, hrun] at hp
    cases hp
    rcases h.runFor (l - done) hr hrun with ⟨t', ht, hR, ho⟩ | ⟨e, k, t', rfl, he, hk, ht, hT⟩
    · refine Or.inl ⟨t', by simp only [Process.runWithin, ht], hR, ?_⟩
      rintro e hstop
      cases o with
      | none =>
        cases hstop
        exact hlimit l
      | some stop => exact ho e (congrArg some hstop)
    · exact Or.inr ⟨e, k, t', rfl, he, by rintro _ ⟨⟩; exact hk, ht, hT⟩
  | none =>
    obtain ⟨n, hn⟩ := (run_eq_some_iff p s s' stop).1 hp
    rcases h.runFor n hr hn with ⟨t', ht, hR, ho⟩ | ⟨e, k, t', ho, he, -, ht, hT⟩
    · exact Or.inl ⟨t', (run_eq_some_iff q t t' stop).2 ⟨n, ht⟩, hR,
        fun e hstop => ho e (congrArg some hstop)⟩
    · exact Or.inr ⟨e, k, t', Option.some.inj ho, he, (fun _ h => by cases h), ht, hT⟩

/-- The same, where it is known of `q` that its run comes to an end. -/
theorem Simulates.exists_runWithin_left (h : p.Simulates q R lapse Spared) {limit : Option Nat}
    {done : Nat} {stop : Stop} {t' : τ} (hr : R s t) (hq : q.runWithin limit done t = some (stop, t')) :
    (∃ s', p.runWithin limit done s = some (stop, s') ∧ R s' t') ∨
    ∃ e k s' t'', p.runWithin limit done s = some (.failed e, s') ∧ lapse e ∧
      (∀ l, limit = some l → k < l - done) ∧ q.runFor k t = (none, t'') ∧ Spared e s' t'' := by
  cases limit with
  | some l =>
    rcases hrun : p.runFor (l - done) s with ⟨o, s'⟩
    rcases h.runFor (l - done) hr hrun with ⟨u, hu, hR, -⟩ | ⟨e, k, u, rfl, he, hk, hu, hT⟩
    · simp only [Process.runWithin, hu] at hq
      cases hq
      exact Or.inl ⟨s', by simp only [Process.runWithin, hrun], hR⟩
    · refine Or.inr ⟨e, k, s', u, by simp only [Process.runWithin, hrun]; rfl, he, ?_, hu, hT⟩
      rintro _ ⟨⟩
      exact hk
  | none =>
    obtain ⟨n, hn⟩ := (run_eq_some_iff q t t' stop).1 hq
    rcases hrun : p.runFor n s with ⟨o, s'⟩
    rcases h.runFor n hr hrun with ⟨u, hu, hR, -⟩ | ⟨e, k, u, rfl, he, -, hu, hT⟩
    · rw [hn] at hu
      cases hu
      exact Or.inl ⟨s', (run_eq_some_iff p s s' stop).2 ⟨n, hrun⟩, hR⟩
    · exact Or.inr ⟨e, k, s', u, (run_eq_some_iff p s s' _).2 ⟨n, hrun⟩, he, (fun _ h => by cases h), hu, hT⟩

/-- Two processes that come to the same stop in any number of instructions come to the same end, or to
none. -/
theorem rel_runWithin {limit : Option Nat} {done : Nat}
    (hrun : ∀ n, (∀ l, limit = some l → n ≤ l - done) →
      ∃ t', q.runFor n t = ((p.runFor n s).1, t') ∧ R (p.runFor n s).2 t') :
    Option.Rel (fun x y => x.1 = y.1 ∧ R x.2 y.2) (p.runWithin limit done s)
      (q.runWithin limit done t) := by
  cases limit with
  | some l =>
    obtain ⟨t', ht, hR⟩ := hrun (l - done) (by rintro _ ⟨⟩; exact Nat.le_refl _)
    simp only [Process.runWithin, ht]
    exact .some ⟨rfl, hR⟩
  | none =>
    show Option.Rel _ (p.run s) (q.run t)
    cases hp : p.run s with
    | some x =>
      obtain ⟨stop, s'⟩ := x
      obtain ⟨n, hn⟩ := (run_eq_some_iff p s s' stop).1 hp
      obtain ⟨t', ht, hR⟩ := hrun n (fun _ h => by cases h)
      rw [hn] at ht hR
      rw [(run_eq_some_iff q t t' stop).2 ⟨n, ht⟩]
      exact .some ⟨rfl, hR⟩
    | none =>
      cases hq : q.run t with
      | none => exact .none
      | some y =>
        obtain ⟨stop, t'⟩ := y
        obtain ⟨n, hn⟩ := (run_eq_some_iff q t t' stop).1 hq
        obtain ⟨t'', ht, -⟩ := hrun n (fun _ h => by cases h)
        have hstop : p.runFor n s = (some stop, (p.runFor n s).2) := by
          rw [hn] at ht
          exact Prod.ext (congrArg Prod.fst ht).symm rfl
        rw [(run_eq_some_iff p s _ stop).2 ⟨n, hstop⟩] at hp
        cases hp

/-- Where nothing is spared, both processes come to the same end, or to none. -/
theorem Simulates.runWithin (h : p.Simulates q R (fun _ => False) Spared) (limit : Option Nat)
    (done : Nat) (hr : R s t) :
    Option.Rel (fun x y => x.1 = y.1 ∧ R x.2 y.2) (p.runWithin limit done s)
      (q.runWithin limit done t) := by
  apply rel_runWithin
  intro n _
  rcases h.runFor n hr rfl with ⟨t', ht, hR, -⟩ | ⟨e, k, t', -, he, -⟩
  · exact ⟨t', ht, hR⟩
  · exact he.elim

namespace SimulatesWhile

variable {Within : σ → Prop}

theorem within_of_runFor (h : p.SimulatesWhile q R Within) (n : Nat) (hw : Within (p.runFor n s).2) :
    Within s := by
  apply Classical.byContradiction
  intro hout
  exact runFor_invariant (I := fun s => ¬ Within s) (fun u i hu _ hu' => hu (h.within_of_perform hu'))
    n hout hw

theorem within_of_le (h : p.SimulatesWhile q R Within) {m n : Nat} (hmn : m ≤ n)
    (hw : Within (p.runFor n s).2) : Within (p.runFor m s).2 := by
  obtain ⟨k, rfl⟩ := Nat.exists_eq_add_of_le hmn
  rw [runFor_add] at hw
  rcases hm : p.runFor m s with ⟨_ | stop, u⟩ <;> rw [hm] at hw
  · exact h.within_of_runFor k hw
  · exact hw

/-- A run that is within bounds at its end was so all the time. -/
theorem within_of_runWithin (h : p.SimulatesWhile q R Within) {limit : Option Nat} {done : Nat}
    {stop : Stop} (hr : p.runWithin limit done s = some (stop, s')) (hw : Within s') (n : Nat)
    (hn : ∀ l, limit = some l → n ≤ l - done) : Within (p.runFor n s).2 := by
  rcases runWithin_cases hr with ⟨m, hm⟩ | ⟨l, hl, hm, -⟩
  · rcases Nat.le_total n m with hle | hle
    · exact h.within_of_le hle (by rw [hm]; exact hw)
    · obtain ⟨k, rfl⟩ := Nat.exists_eq_add_of_le hle
      rw [runFor_add, hm]
      exact hw
  · exact h.within_of_le (hn l hl) (by rw [hm]; exact hw)

theorem runFor (h : p.SimulatesWhile q R Within) (n : Nat) (hr : R s t)
    (hw : Within (p.runFor n s).2) :
    ∃ t', q.runFor n t = ((p.runFor n s).1, t') ∧ R (p.runFor n s).2 t' := by
  induction n generalizing s t with
  | zero =>
    refine ⟨t, ?_, hr⟩
    simp only [Process.runFor, h.next?_eq hr]
  | succ n ih =>
    cases hi : p.next? s with
    | none =>
      rw [runFor_of_over _ hi]
      exact ⟨t, runFor_of_over _ (h.next?_eq hr ▸ hi), hr⟩
    | some i =>
      have hi' : q.next? t = some i := h.next?_eq hr ▸ hi
      rcases hp : p.perform i s with ⟨e | _, u⟩
      · rw [runFor_succ_of_error n hi hp] at hw ⊢
        obtain ⟨t', ht, hR⟩ := h.perform hr hi hp hw
        exact ⟨t', runFor_succ_of_error n hi' ht, hR⟩
      · rw [runFor_succ_of_ok n hi hp] at hw ⊢
        obtain ⟨t₁, ht, hR⟩ := h.perform hr hi hp (h.within_of_runFor n hw)
        obtain ⟨t', hrun, hR'⟩ := ih hR hw
        exact ⟨t', by rw [runFor_succ_of_ok n hi' ht, hrun], hR'⟩

/-- As long as the one run keeps within bounds, both come to the same end, or to none. -/
theorem runWithin (h : p.SimulatesWhile q R Within) {limit : Option Nat} {done : Nat} (hr : R s t)
    (hw : ∀ n, (∀ l, limit = some l → n ≤ l - done) → Within (p.runFor n s).2) :
    Option.Rel (fun x y => x.1 = y.1 ∧ R x.2 y.2) (p.runWithin limit done s)
      (q.runWithin limit done t) :=
  rel_runWithin fun n hn => h.runFor n hr (hw n hn)

end SimulatesWhile

end

/-! ## Runs in pieces -/

/-- A run that has come to its end stays there. -/
theorem runFor_of_le {s t : σ} {m n : Nat} {stop : Stop} (hmn : m ≤ n)
    (h : p.runFor m s = (some stop, t)) : p.runFor n s = (some stop, t) := by
  obtain ⟨k, rfl⟩ := Nat.exists_eq_add_of_le hmn
  rw [runFor_add, h]

namespace Steady

variable {I : σ → Prop} {exe : Executable} {view : σ → State} {x : σ}

theorem invariant (hs : p.Steady I) (n : Nat) (hx : I x) : I (p.runFor n x).2 := by
  refine runFor_invariant (fun s i hI hi => ?_) n hx
  rcases hp : p.perform i s with ⟨e | _, s'⟩
  · rw [hs.stays hI hi hp]
    exact hI
  · exact hs.keeps hI hi hp

/-- What is left of a run after its first `m` instructions, or after those that it could do. -/
theorem runFor_resume (hs : p.Steady I) (hf : p.Follows exe view) {m n : Nat} (hmn : m ≤ n)
    (hx : I x) :
    p.runFor n x = p.runFor (n - ((view (p.runFor m x).2).steps - (view x).steps)) (p.runFor m x).2 := by
  induction m generalizing n x with
  | zero =>
    show p.runFor n x = p.runFor (n - ((view x).steps - (view x).steps)) x
    rw [Nat.sub_self, Nat.sub_zero]
  | succ m ih =>
    cases hi : p.next? x with
    | none => rw [runFor_of_over _ hi, runFor_of_over _ hi, runFor_of_over _ hi]
    | some i =>
      rcases hp : p.perform i x with ⟨e | _, y⟩
      · rw [runFor_succ_of_error m hi hp, hs.stays hx hi hp, Nat.sub_self, Nat.sub_zero]
      · obtain ⟨n, rfl⟩ : ∃ k, n = k + 1 := ⟨n - 1, by omega⟩
        have hcount := (hf.ok hi hp).2.2
        have hle := hf.steps_le_runFor (x := y) m
        rw [runFor_succ_of_ok m hi hp, runFor_succ_of_ok n hi hp,
          ih (Nat.le_of_succ_le_succ hmn) (hs.keeps hx hi hp)]
        congr 1
        omega

/-- A run that was broken off goes on as if it had not been. -/
theorem exists_runFor (hs : p.Steady I) (hx : I x) (k m : Nat) :
    ∃ n, p.runFor n x = p.runFor m (p.runFor k x).2 := by
  rcases hk : p.runFor k x with ⟨_ | _ | e, y⟩
  · exact ⟨k + m, by rw [runFor_add, hk]⟩
  · exact ⟨k, by rw [hk, runFor_of_over m (next?_of_runFor_finished hk)]⟩
  · -- the failing instruction is tried again, or not even that
    obtain ⟨j, u, i, hj, hi, hp⟩ := exists_of_runFor_failed hk
    have hu : I u := by
      have := hs.invariant j hx
      rwa [hj] at this
    obtain rfl := hs.stays hu hi hp
    cases m with
    | zero => exact ⟨j, by rw [hj, runFor_zero_of_next hi]⟩
    | succ m => exact ⟨k, by rw [hk, runFor_succ_of_error m hi hp]⟩

/-- To run on from any place that a run within its limit comes to is to come to the same end. -/
theorem runWithin_resume (hs : p.Steady I) (hf : p.Follows exe view) {limit : Option Nat} {m : Nat}
    (hm : ∀ l, limit = some l → m ≤ l - (view x).steps) (hx : I x) :
    p.runWithin limit (view x).steps x =
      p.runWithin limit (view (p.runFor m x).2).steps (p.runFor m x).2 := by
  have hle := hf.steps_le_runFor (x := x) m
  cases limit with
  | some l =>
    have hleft : l - (view x).steps - ((view (p.runFor m x).2).steps - (view x).steps) =
        l - (view (p.runFor m x).2).steps := by omega
    have hrun := hs.runFor_resume hf (hm l rfl) hx
    rw [hleft] at hrun
    simp only [Process.runWithin, hrun]
  | none =>
    show p.run x = p.run (p.runFor m x).2
    refine Option.ext fun r => ?_
    obtain ⟨stop, t⟩ := r
    rw [run_eq_some_iff, run_eq_some_iff]
    constructor
    · rintro ⟨n, hn⟩
      have hlong := runFor_of_le (Nat.le_add_right n m) hn
      rw [hs.runFor_resume hf (Nat.le_add_left m n) hx] at hlong
      exact ⟨_, hlong⟩
    · rintro ⟨n, hn⟩
      refine ⟨n + m + ((view (p.runFor m x).2).steps - (view x).steps), ?_⟩
      have hmn : m ≤ n + m + ((view (p.runFor m x).2).steps - (view x).steps) := by omega
      rw [hs.runFor_resume hf hmn hx]
      exact runFor_of_le (by omega) hn

end Steady

end Process

/-! ## Machines -/

/-- Two machines with one program run side by side if they do so in the first half of every
instruction. -/
theorem Executable.simulates_of_attempt {exe : Executable} {R : State → State → Prop}
    {lapse : RunError → Prop} {Spared : RunError → State → State → Prop}
    (hpc : ∀ s t, R s t → s.pc = t.pc)
    (hadvance : ∀ s t next, R s t → R (s.advance next) (t.advance next))
    (hattempt : ∀ i s t, R s t →
      (∃ r s' t', exe.attempt i s = (r, s') ∧ exe.attempt i t = (r, t') ∧ R s' t' ∧
        ∀ e, r = .error e → ¬ lapse e) ∨
      ∃ e s', exe.attempt i s = (.error e, s') ∧ lapse e ∧ Spared e s' t) :
    exe.real.Simulates exe.real R lapse Spared where
  next?_eq h := congrArg exe.program.instruction? (hpc _ _ h)
  perform {s s' t i r} h hi hp := by
    change exe.perform i s = _ at hp
    rcases hattempt i s t h with ⟨e | next, u, v, hs, ht, h', he⟩ | ⟨e, u, hs, he, h'⟩
    · rw [perform_of_attempt_error hs] at hp
      cases hp
      refine Or.inl ⟨v, perform_of_attempt_error ht, h', ?_⟩
      rintro _ ⟨⟩
      exact he e rfl
    · rw [perform_of_attempt_ok hs] at hp
      cases hp
      exact Or.inl ⟨_, perform_of_attempt_ok ht, hadvance u v next h', fun _ he => by cases he⟩
    · rw [perform_of_attempt_error hs] at hp
      cases hp
      exact Or.inr ⟨e, rfl, he, h'⟩

/-- What holds of the ends of two runs, each flushed, holds of the two calls. -/
theorem Executable.rel_call_of_runWithin {exe : Executable} {s t : State} {limit : Option Nat}
    {R : State → State → Prop} {Q : Stop × State → Stop × State → Prop} (hsteps : s.steps = t.steps)
    (hrun : Option.Rel (fun x y => x.1 = y.1 ∧ R x.2 y.2) (exe.real.runWithin limit s.steps s)
      (exe.real.runWithin limit s.steps t))
    (hconclude : ∀ stop u v, R u v → Q (conclude stop u) (conclude stop v)) :
    Option.Rel (fun x y => Q (x.1.stop, x.2) (y.1.stop, y.2)) (exe.call ⟨.real, limit⟩ s)
      (exe.call ⟨.real, limit⟩ t) := by
  apply rel_call
  rw [execute_real, execute_real, ← hsteps]
  refine rel_map hrun ?_
  rintro ⟨stop, u⟩ ⟨_, v⟩ ⟨rfl, h⟩
  exact hconclude stop u v h

end Brainfuck
