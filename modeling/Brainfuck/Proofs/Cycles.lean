import Brainfuck.Proofs.StepLimits

/-!
# Runs that go round

A run that comes back to a program counter and a tape that it had before, and has read nothing on the
way, goes round for ever: under every limit it stops at the limit, in the place of the circle that it has
come to, and without a limit it has no answer (`repeated_configuration_runs_for_ever`).

What an instruction other than `,` does depends on the program counter and the tape only, as long as the
sink takes every byte.  So two machines that are there together stay together (`runFor_alongside`),
and a machine that has gone once round stands beside the one that began.  The number of rounds is that of
`limit - s.steps` in `m`, and what is left over of it leads from the beginning of the circle to the place
where the run is (`exists_runFor_mod`, by induction on the number of rounds).
-/

namespace Brainfuck

namespace State

/-- The same program counter and the same tape, with the pointer on the same cell. -/
structure SameConfiguration (s t : State) : Prop where
  pc_eq : s.pc = t.pc
  tape_eq : s.tape = t.tape

/-- Machines in the same configuration, both at sinks that take every byte. -/
structure Alongside (s t : State) : Prop extends s.SameConfiguration t where
  open_left : s.console.sink.Open
  open_right : t.console.sink.Open

namespace Alongside

variable {s t u : State}

theorem refl (h : s.console.sink.Open) : s.Alongside s := ⟨⟨rfl, rfl⟩, h, h⟩

theorem symm (h : s.Alongside t) : t.Alongside s :=
  ⟨⟨h.pc_eq.symm, h.tape_eq.symm⟩, h.open_right, h.open_left⟩

theorem trans (h : s.Alongside t) (h' : t.Alongside u) : s.Alongside u :=
  ⟨⟨h.pc_eq.trans h'.pc_eq, h.tape_eq.trans h'.tape_eq⟩, h.open_left, h'.open_right⟩

end Alongside

end State

namespace Console

/-- An open sink stays open. -/
theorem kept_open : Kept fun c => c.sink.Open where
  write b h := open_write h b
  flush {c} h := by
    rw [sink_flush]
    exact ⟨h.capacity_eq, h.refusals_eq⟩
  read {c} h := by
    rw [sink_read]
    exact h

end Console

namespace Process

variable {σ : Type} {p : Process σ} {s t : σ} {m n : Nat}

/-- A run that has not stopped had not stopped before. -/
theorem exists_runFor_of_le (hmn : m ≤ n) (h : p.runFor n s = (none, t)) :
    ∃ u, p.runFor m s = (none, u) := by
  obtain ⟨k, rfl⟩ := Nat.exists_eq_add_of_le hmn
  rcases hm : p.runFor m s with ⟨_ | stop, u⟩
  · exact ⟨u, rfl⟩
  · rw [runFor_add, hm] at h
    cases h

theorem mem_attempts_of_next (n : Nat) {i : Instruction} (h : p.next? s = some i) :
    (i, s) ∈ p.attempts (n + 1) s :=
  List.mem_of_getElem? ((p.getElem?_attempts (n + 1) 0 s s i).2
    ⟨Nat.succ_pos n, runFor_zero_of_next h, h⟩)

theorem mem_attempts_of_le {x : Instruction × σ} (hmn : m ≤ n) (hx : x ∈ p.attempts m s) :
    x ∈ p.attempts n s := by
  obtain ⟨k, hk⟩ := List.getElem?_of_mem hx
  obtain ⟨hlt, hrun, hnext⟩ := (p.getElem?_attempts m k s x.2 x.1).1 hk
  exact List.mem_of_getElem? ((p.getElem?_attempts n k s x.2 x.1).2 ⟨by omega, hrun, hnext⟩)

end Process

namespace Executable

variable {exe : Executable} {i : Instruction} {s t u : State} {m : Nat}

/-! ## Side by side -/

theorem attempt_alongside (exe : Executable) (hi : i ≠ .input) (h : s.Alongside t) :
    ∃ r s' t', exe.attempt i s = (r, s') ∧ exe.attempt i t = (r, t') ∧ s'.Alongside t' := by
  obtain ⟨tape, pc, steps, c⟩ := s
  obtain ⟨_, _, steps', d⟩ := t
  obtain ⟨⟨rfl, rfl⟩, hc, hd⟩ := h
  rcases exe.attempt_cases i with rfl | rfl | hplain
  · obtain ⟨c', hwrite⟩ : ∃ c', c.write tape.cell = (.ok (), c') :=
      ⟨_, Prod.ext (Console.write_of_open hc tape.cell) rfl⟩
    obtain ⟨d', hwrite'⟩ : ∃ d', d.write tape.cell = (.ok (), d') :=
      ⟨_, Prod.ext (Console.write_of_open hd tape.cell) rfl⟩
    have hc' := Console.open_write hc tape.cell
    have hd' := Console.open_write hd tape.cell
    rw [hwrite] at hc'
    rw [hwrite'] at hd'
    refine ⟨.ok (pc + 1), ⟨tape, pc, steps, c'⟩, ⟨tape, pc, steps', d'⟩, ?_, ?_, ⟨rfl, rfl⟩, hc', hd'⟩
    · simp only [attempt, emit, hwrite]
    · simp only [attempt, emit, hwrite']
  · exact absurd rfl hi
  · exact ⟨_, _, _, hplain _, hplain _, ⟨rfl, rfl⟩, hc, hd⟩

theorem perform_alongside (exe : Executable) (hi : i ≠ .input) (h : s.Alongside t) :
    ∃ r s' t', exe.perform i s = (r, s') ∧ exe.perform i t = (r, t') ∧ s'.Alongside t' := by
  obtain ⟨r, s', t', hs, ht, h'⟩ := exe.attempt_alongside hi h
  cases r with
  | error e =>
    exact ⟨.error e, s', t', perform_of_attempt_error hs, perform_of_attempt_error ht, h'⟩
  | ok next =>
    exact ⟨.ok (), s'.advance next, t'.advance next, perform_of_attempt_ok hs, perform_of_attempt_ok ht,
      ⟨rfl, h'.tape_eq⟩, h'.open_left, h'.open_right⟩

/-- Machines in the same configuration run side by side as long as nothing is read. -/
theorem runFor_alongside (n : Nat) (h : s.Alongside t)
    (hread : ∀ x ∈ exe.real.attempts n s, x.1 ≠ .input) :
    ∃ o s' t', exe.real.runFor n s = (o, s') ∧ exe.real.runFor n t = (o, t') ∧ s'.Alongside t' := by
  have hnext : ∀ {s t : State}, s.Alongside t → exe.real.next? t = exe.real.next? s :=
    fun h => congrArg exe.program.instruction? h.pc_eq.symm
  induction n generalizing s t with
  | zero =>
    cases hi : exe.real.next? s with
    | none =>
      exact ⟨_, s, t, Process.runFor_of_over 0 hi, Process.runFor_of_over 0 ((hnext h).trans hi), h⟩
    | some i =>
      exact ⟨_, s, t, Process.runFor_zero_of_next hi, Process.runFor_zero_of_next ((hnext h).trans hi), h⟩
  | succ n ih =>
    cases hi : exe.real.next? s with
    | none =>
      exact ⟨_, s, t, Process.runFor_of_over _ hi, Process.runFor_of_over _ ((hnext h).trans hi), h⟩
    | some i =>
      have hne : i ≠ .input := hread (i, s) (Process.mem_attempts_of_next n hi)
      obtain ⟨r, s', t', hs, ht, h'⟩ := exe.perform_alongside hne h
      cases r with
      | error e =>
        exact ⟨_, s', t', Process.runFor_succ_of_error n hi hs,
          Process.runFor_succ_of_error n ((hnext h).trans hi) ht, h'⟩
      | ok _ =>
        rw [Process.runFor_succ_of_ok n hi hs, Process.runFor_succ_of_ok n ((hnext h).trans hi) ht]
        refine ih h' fun x hx => hread x ?_
        rw [Process.attempts_succ_of_ok n hi hs]
        exact List.mem_cons_of_mem _ hx

/-! ## Round and round -/

/-- From a state of the circle, one time round and back to it. -/
theorem exists_runFor_round (hround : exe.real.runFor m s = (none, t)) (hsame : t.Alongside s)
    (hread : ∀ x ∈ exe.real.attempts m s, x.1 ≠ .input) (hu : s.Alongside u) :
    ∃ u', exe.real.runFor m u = (none, u') ∧ s.Alongside u' := by
  obtain ⟨o, s', u', hs, hu', h⟩ := runFor_alongside m hu hread
  rw [hround] at hs
  cases hs
  exact ⟨u', hu', hsame.symm.trans h⟩

/-- However far the run goes, it is in a place of the first round. -/
theorem exists_runFor_mod (hm : 0 < m) (hround : exe.real.runFor m s = (none, t)) (hsame : t.Alongside s)
    (hread : ∀ x ∈ exe.real.attempts m s, x.1 ≠ .input) (n : Nat) :
    ∃ u v, exe.real.runFor n s = (none, u) ∧ exe.real.runFor (n % m) s = (none, v) ∧ v.Alongside u := by
  have hlt : n % m < m := Nat.mod_lt n hm
  obtain ⟨v, hv⟩ := Process.exists_runFor_of_le (Nat.le_of_lt hlt) hround
  -- `q` times round and the rest of a round, from any state beside the first of the circle
  have hrounds : ∀ q u, s.Alongside u →
      ∃ u', exe.real.runFor (m * q + n % m) u = (none, u') ∧ v.Alongside u' := by
    intro q
    induction q with
    | zero =>
      intro u hu
      have hread' : ∀ x ∈ exe.real.attempts (n % m) s, x.1 ≠ .input :=
        fun x hx => hread x (Process.mem_attempts_of_le (Nat.le_of_lt hlt) hx)
      obtain ⟨o, s', u', hs, hu', h⟩ := runFor_alongside (n % m) hu hread'
      rw [hv] at hs
      cases hs
      rw [Nat.mul_zero, Nat.zero_add]
      exact ⟨u', hu', h⟩
    | succ q ih =>
      intro u hu
      obtain ⟨u₁, hu₁, h⟩ := exists_runFor_round hround hsame hread hu
      have hsum : m * (q + 1) + n % m = m + (m * q + n % m) := by
        rw [Nat.mul_succ]
        omega
      rw [hsum, Process.runFor_add, hu₁]
      exact ih u₁ h
  obtain ⟨u, hu, h⟩ := hrounds (n / m) s (.refl hsame.open_right)
  rw [Nat.div_add_mod] at hu
  exact ⟨u, v, hu, hv, h⟩

/-- A run with instructions left is stopped by its limit. -/
theorem call_of_runFor_none {limit : Nat} (hrun : exe.real.runFor (limit - s.steps) s = (none, u)) :
    ∃ r t, exe.call ⟨.real, some limit⟩ s = some (r, t) ∧ r.stop = .failed (.outOfSteps limit) ∧
      t.Agrees u := by
  have hexecute : exe.execute ⟨.real, some limit⟩ s = some (.failed (.outOfSteps limit), u, none) := by
    rw [execute_real_limit, hrun]
    rfl
  obtain ⟨r, hcall, hstop, -⟩ := call_of_execute hexecute
  rw [conclude_failed] at hstop
  exact ⟨r, _, hcall, hstop, agrees_conclude _ u⟩

end Executable

/-! ## Top theorem -/

/-- From any state; `s` is the first visit and `t` the second.  The sink takes every byte, though its
flushes may fail. -/
theorem repeated_configuration_runs_for_ever (exe : Executable) (start s t : State) (k m : Nat)
    (hsink : start.console.sink.Open) (hreached : exe.real.runFor k start = (none, s)) (hm : 0 < m)
    (hround : exe.real.runFor m s = (none, t)) (hread : ∀ x ∈ exe.real.attempts m s, x.1 ≠ .input)
    (hsame : t.SameConfiguration s) :
    s.steps = start.steps + k ∧
    (∀ limit, s.steps ≤ limit →
      ∃ r u v, exe.call ⟨.real, some limit⟩ start = some (r, u) ∧ r.stop = .failed (.outOfSteps limit) ∧
        u.steps = limit ∧ exe.real.runFor ((limit - s.steps) % m) s = (none, v) ∧
        u.SameConfiguration v) ∧
    exe.call {} start = none := by
  have hsteps : s.steps = start.steps + k := (follows_real exe).steps_of_none hreached
  have hopen : ∀ {n u v}, u.console.sink.Open → exe.real.runFor n u = (none, v) →
      v.console.sink.Open := by
    intro n u v hu hrun
    have hkept := Process.runFor_invariant (p := exe.real) (I := fun s => s.console.sink.Open)
      (fun s i hs _ => Console.kept_open.perform exe i hs) n hu
    rwa [hrun] at hkept
  have hs : s.console.sink.Open := hopen hsink hreached
  have halong : t.Alongside s := ⟨hsame, hopen hs hround, hs⟩
  have hgoes : ∀ n, ∃ u v, exe.real.runFor (k + n) start = (none, u) ∧
      exe.real.runFor (n % m) s = (none, v) ∧ v.Alongside u := by
    intro n
    obtain ⟨u, v, hu, hv, h⟩ := Executable.exists_runFor_mod hm hround halong hread n
    exact ⟨u, v, by rw [Process.runFor_add, hreached]; exact hu, hv, h⟩
  refine ⟨hsteps, fun limit hlimit => ?_, ?_⟩
  · obtain ⟨w, v, hw, hv, h⟩ := hgoes (limit - s.steps)
    have hleft : limit - start.steps = k + (limit - s.steps) := by omega
    rw [← hleft] at hw
    obtain ⟨r, u, hcall, hstop, hagrees⟩ := Executable.call_of_runFor_none hw
    have hcount : w.steps = start.steps + (limit - start.steps) := (follows_real exe).steps_of_none hw
    refine ⟨r, u, v, hcall, hstop, ?_, hv, ?_, ?_⟩
    · rw [hagrees.steps_eq]
      omega
    · rw [hagrees.pc_eq, h.pc_eq]
    · rw [hagrees.tape_eq, h.tape_eq]
  · have hendless : exe.real.run start = none := by
      cases hrun : exe.real.run start with
      | none => rfl
      | some x =>
        obtain ⟨stop, u⟩ := x
        obtain ⟨n, hn⟩ := (Process.run_eq_some_iff _ _ _ _).1 hrun
        obtain ⟨w, -, hw, -⟩ := hgoes (n + 1)
        obtain ⟨j, hj, -⟩ := Process.runFor_after hw hn
        omega
    rw [Executable.call_eq_none_iff]
    simp only [Executable.execute, Process.runWithin, hendless]

/-- A circle of ten instructions with a loop in it, entered after eight; a limit of 1000 stops the run
behind the second instruction of the hundredth round. -/
theorem repeated_configuration_runs_for_ever_nested :
    ∃ exe s t r u, (Program.parse "+[>[-]+<.]").link = .ok exe ∧
      exe.real.runFor 8 (.initial 2 { sink := { interruptedWrites := [1] } }) = (none, s) ∧
      exe.real.runFor 10 s = (none, t) ∧ t.SameConfiguration s ∧
      exe.call ⟨.real, some 1000⟩ (.initial 2 { sink := { interruptedWrites := [1] } }) = some (r, u) ∧
      r.stop = .failed (.outOfSteps 1000) ∧ u.steps = 1000 ∧ u.pc = 3 ∧ u.tape.pointer = 1 ∧
      u.tape.cells = #[1, 1] ∧
      exe.call {} (.initial 2 { sink := { interruptedWrites := [1] } }) = none := by
  let exe : Executable := ⟨.parse "+[>[-]+<.]",
    ⟨#[none, some 9, none, some 5, none, some 3, none, none, none, some 1], 2⟩, rfl⟩
  let start : State := .initial 2 { sink := { interruptedWrites := [1] } }
  let s : State := (exe.real.runFor 8 start).2
  let t : State := (exe.real.runFor 10 s).2
  have hlink : (Program.parse "+[>[-]+<.]").link = .ok exe := (Program.link_eq_ok_iff _ _).2 rfl
  have hreached : exe.real.runFor 8 start = (none, s) := rfl
  have hround : exe.real.runFor 10 s = (none, t) := rfl
  have hread : ∀ x ∈ exe.real.attempts 10 s, x.1 ≠ .input := by
    have hall : ((exe.real.attempts 10 s).map Prod.fst).all (· ≠ .input) = true := rfl
    simpa using hall
  have hsame : t.SameConfiguration s := ⟨rfl, rfl⟩
  obtain ⟨-, hlimits, hendless⟩ := repeated_configuration_runs_for_ever exe start s t 8 10
    ⟨rfl, List.forall_mem_nil _⟩ hreached (by decide) hround hread hsame
  obtain ⟨r, u, v, hcall, hstop, hsteps, hv, hplace⟩ := hlimits 1000 (by decide)
  have hvisit : s.steps = 8 := rfl
  rw [hvisit] at hv
  cases hv
  exact ⟨exe, s, t, r, u, hlink, hreached, hround, hsame, hcall, hstop, hsteps, hplace.pc_eq,
    congrArg Tape.pointer hplace.tape_eq, congrArg Tape.cells hplace.tape_eq, hendless⟩

end Brainfuck
