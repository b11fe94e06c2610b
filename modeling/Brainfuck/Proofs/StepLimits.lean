import Brainfuck.Proofs.Devices
import Brainfuck.Proofs.SessionSafety

/-!
# Limits are exact

A call with a limit does what it would do without one, but goes no further than the limit
(`limited_call_exact`).  Whether the limit is in the way is decided before each instruction, for the
number of instructions done in all calls together, and is not asked behind the last instruction.  So a
program may finish with exactly as many steps as the limit allows, while an instruction that fails has
to be tried before that.

`StopsWithin` says this of the run without a limit, and `stopsWithin_iff` of the run for so many
instructions as the limit leaves.
-/

namespace Brainfuck

namespace Executable

/-- Left alone, the machine stops before the limit can stop it. -/
inductive StopsWithin (exe : Executable) (limit : Nat) (s : State) : Prop
  | ended : exe.program.size ≤ s.pc → StopsWithin exe limit s
  | finished {t : State} :
      exe.real.run s = some (.finished, t) → t.steps ≤ limit → StopsWithin exe limit s
  /-- `t.steps` instructions had been done when the failing one was tried. -/
  | failed {t : State} {e : RunError} :
      exe.real.run s = some (.failed e, t) → t.steps < limit → StopsWithin exe limit s

variable {exe : Executable} {s t : State} {limit : Nat}

/-! ## Runs -/

theorem next?_eq_none_iff (exe : Executable) (s : State) :
    exe.real.next? s = none ↔ exe.program.size ≤ s.pc :=
  exe.program.instruction?_eq_none_iff s.pc

theorem steps_of_runFor {n : Nat} {o : Option Stop} (h : exe.real.runFor n s = (o, t)) :
    s.steps ≤ t.steps ∧ t.steps ≤ s.steps + n := by
  have hle : s.steps ≤ (exe.real.runFor n s).2.steps := (follows_real exe).steps_le_runFor n
  have hge : (exe.real.runFor n s).2.steps ≤ s.steps + n := (follows_real exe).steps_runFor_le n
  rw [h] at hle hge
  exact ⟨hle, hge⟩

/-- To finish with an instruction left is to do it. -/
theorem steps_lt_of_finished {i : Instruction} {n : Nat} (hi : exe.real.next? s = some i)
    (h : exe.real.runFor n s = (some .finished, t)) : s.steps < t.steps := by
  cases n with
  | zero =>
    rw [Process.runFor_zero_of_next hi] at h
    cases h
  | succ n =>
    rcases hp : exe.real.perform i s with ⟨e | _, u⟩
    · rw [Process.runFor_succ_of_error n hi hp] at h
      cases h
    · rw [Process.runFor_succ_of_ok n hi hp] at h
      have hstep : u.steps = s.steps + 1 := ((follows_real exe).ok hi hp).2.2
      have := (steps_of_runFor h).1
      omega

/-- A run that is not over when the limit is reached counts more steps when it finishes, and no fewer
when it fails. -/
theorem stopsWithin_iff (exe : Executable) (limit : Nat) (s : State) :
    exe.StopsWithin limit s ↔ ∃ stop t, exe.real.runFor (limit - s.steps) s = (some stop, t) := by
  constructor
  · intro h
    rcases hr : exe.real.runFor (limit - s.steps) s with ⟨_ | stop, u⟩
    · exfalso
      obtain ⟨i, hi⟩ := Process.next?_of_runFor_none hr
      have hu : u.steps = s.steps + (limit - s.steps) := (follows_real exe).steps_of_none hr
      cases h with
      | ended hended =>
        rw [Process.runFor_of_over _ ((exe.next?_eq_none_iff s).2 hended)] at hr
        cases hr
      | @finished t hrun hle =>
        obtain ⟨n, hn⟩ := (Process.run_eq_some_iff _ _ _ _).1 hrun
        obtain ⟨m, -, hm⟩ := Process.runFor_after hr hn
        have := steps_lt_of_finished hi hm
        omega
      | @failed t e hrun hlt =>
        obtain ⟨n, hn⟩ := (Process.run_eq_some_iff _ _ _ _).1 hrun
        obtain ⟨m, -, hm⟩ := Process.runFor_after hr hn
        have := (steps_of_runFor hm).1
        omega
    · exact ⟨stop, u, rfl⟩
  · rintro ⟨stop, t, h⟩
    have hrun := (Process.run_eq_some_iff _ _ _ _).2 ⟨_, h⟩
    obtain ⟨hle, hge⟩ := steps_of_runFor h
    cases stop with
    | failed e =>
      have hlt : t.steps < s.steps + (limit - s.steps) := (follows_real exe).steps_of_failed h
      exact .failed hrun (by omega)
    | finished =>
      cases hi : exe.real.next? s with
      | none => exact .ended ((exe.next?_eq_none_iff s).1 hi)
      | some i =>
        have hlt := steps_lt_of_finished hi h
        exact .finished hrun (by omega)

/-- Reaching a limit is not an error of any instruction. -/
theorem ne_outOfSteps_of_runFor {n : Nat} {stop : Stop} (h : exe.real.runFor n s = (some stop, t)) :
    stop ≠ .failed (.outOfSteps limit) := by
  rintro rfl
  obtain ⟨k, u, i, -, -, hp⟩ := Process.exists_of_runFor_failed h
  have hperform : (exe.perform i u).1 = .error (.outOfSteps limit) := congrArg Prod.fst hp
  unfold perform at hperform
  split at hperform
  · cases hperform
  · next e v ha =>
    cases hperform
    rcases exe.attempt_cases i with rfl | rfl | hplain
    · simp only [attempt, emit] at ha
      split at ha <;> cases ha
    · simp only [attempt, accept] at ha
      split at ha
      · cases ha
      · split at ha <;> cases ha
    · rw [hplain, rehearse_eq] at ha
      rcases (effect_eq_error (congrArg Prod.fst ha)).2 with ⟨edge, he⟩ | ⟨excess, he⟩ <;> cases he

/-! ## Calls -/

/-- The final flush fails in its own way. -/
theorem eq_outOfSteps_of_conclude {stop : Stop}
    (h : (conclude stop s).1 = .failed (.outOfSteps limit)) : stop = .failed (.outOfSteps limit) := by
  cases stop with
  | failed e => rwa [conclude_failed] at h
  | finished =>
    rw [conclude_eq] at h
    cases hflush : s.console.flush.1 <;> rw [hflush] at h <;> cases h

/-- Where the limit is not in the way, it makes no difference. -/
theorem call_of_stopsWithin (h : exe.StopsWithin limit s) :
    exe.call ⟨.real, some limit⟩ s = exe.call ⟨.real, none⟩ s := by
  obtain ⟨stop, t, hrun⟩ := (exe.stopsWithin_iff limit s).1 h
  have hexecute : exe.execute ⟨.real, some limit⟩ s = exe.execute ⟨.real, none⟩ s := by
    rw [execute_real_limit, execute_real, Process.runWithin,
      (Process.run_eq_some_iff _ _ _ _).2 ⟨_, hrun⟩, hrun]
    rfl
  unfold call
  rw [hexecute]

theorem steps_call_le {mode : Mode} {r : Report} (h : exe.call ⟨mode, some limit⟩ s = some (r, t)) :
    t.steps ≤ max s.steps limit := by
  obtain ⟨stop, u, he, hconclude⟩ := call_cases h
  have hagrees := agrees_conclude stop u
  rw [hconclude] at hagrees
  rw [hagrees.steps_eq]
  have hmax : s.steps + (limit - s.steps) = max s.steps limit := by omega
  rcases execute_cases he with ⟨-, -, hrun⟩ | ⟨room, v, -, -, hrun⟩
  · simp only [Process.runWithin, Option.some.injEq, Prod.mk.injEq] at hrun
    rw [← hrun.2, ← hmax]
    exact (follows_real exe).steps_runFor_le (limit - s.steps)
  · unfold traceWithin at hrun
    split at hrun
    · next w hw =>
      have hle := (follows_traced exe).steps_runFor_le (x := (s, w)) (limit - s.steps)
      simp only [Process.runWithin, Option.some.injEq, Prod.mk.injEq] at hrun
      rw [hrun.2] at hle
      rw [← hmax]
      exact hle
    · cases hrun
      exact Nat.le_max_left _ _

end Executable

/-! ## Top theorem -/

/-- From any state and at any console.  A call with a limit always ends. -/
theorem limited_call_exact (exe : Executable) (limit : Nat) (s : State) :
    (exe.StopsWithin limit s →
      ∃ r t, exe.call ⟨.real, some limit⟩ s = some (r, t) ∧ exe.call ⟨.real, none⟩ s = some (r, t) ∧
        r.stop ≠ .failed (.outOfSteps limit)) ∧
    (¬ exe.StopsWithin limit s →
      ∃ r t u, exe.call ⟨.real, some limit⟩ s = some (r, t) ∧ r.stop = .failed (.outOfSteps limit) ∧
        t.pc < exe.program.size ∧ t.steps = max s.steps limit ∧
        exe.real.runFor (limit - s.steps) s = (none, u) ∧ t.Agrees u ∧
        t.console.script = u.console.script ∧ t.console.sink.stored = u.console.sink.stored) ∧
    ∀ mode, ∃ r t, exe.call ⟨mode, some limit⟩ s = some (r, t) ∧ t.steps ≤ max s.steps limit ∧
      (∀ k u, exe.Passes ⟨mode, some limit⟩ s k u → k < limit - s.steps ∧ u.steps = s.steps + k) ∧
      (s.steps < UInt64.size → limit < UInt64.size → t.steps < UInt64.size ∧
        ∀ k u, exe.Passes ⟨mode, some limit⟩ s k u → u.steps + 1 < UInt64.size) := by
  refine ⟨fun h => ?_, fun h => ?_, fun mode => ?_⟩
  · obtain ⟨stop, u, hrun⟩ := (exe.stopsWithin_iff limit s).1 h
    have hexecute : exe.execute ⟨.real, some limit⟩ s = some (stop, u, none) := by
      rw [Executable.execute_real_limit, hrun]
      rfl
    obtain ⟨r, hcall, hstop, -⟩ := Executable.call_of_execute hexecute
    refine ⟨r, _, hcall, (Executable.call_of_stopsWithin h).symm.trans hcall, ?_⟩
    rw [hstop]
    intro hlimit
    exact Executable.ne_outOfSteps_of_runFor hrun (Executable.eq_outOfSteps_of_conclude hlimit)
  · rcases hrun : exe.real.runFor (limit - s.steps) s with ⟨_ | stop, u⟩
    · have hexecute : exe.execute ⟨.real, some limit⟩ s =
          some (.failed (.outOfSteps limit), u, none) := by
        rw [Executable.execute_real_limit, hrun]
        rfl
      obtain ⟨r, hcall, hstop, -⟩ := Executable.call_of_execute hexecute
      obtain ⟨i, hi⟩ := Process.next?_of_runFor_none hrun
      have hsteps : u.steps = s.steps + (limit - s.steps) := (follows_real exe).steps_of_none hrun
      rw [Executable.conclude_failed] at hstop
      rw [Executable.conclude_eq] at hcall
      refine ⟨r, _, u, hcall, hstop, ?_, ?_, rfl, ⟨rfl, rfl, rfl⟩, ?_, ?_⟩
      · exact Executable.lt_size_of_instruction? hi
      · show u.steps = max s.steps limit
        omega
      · exact Console.script_flush u.console
      · show u.console.flush.2.sink.stored = u.console.sink.stored
        rw [Console.sink_flush]
    · exact absurd ((exe.stopsWithin_iff limit s).2 ⟨stop, u, hrun⟩) h
  · obtain ⟨⟨r, t⟩, hcall⟩ := Option.isSome_iff_exists.1 (exe.isSome_call_of_limit mode limit s)
    have hle := Executable.steps_call_le hcall
    have hpasses : ∀ k u, exe.Passes ⟨mode, some limit⟩ s k u →
        k < limit - s.steps ∧ u.steps = s.steps + k := by
      intro k u hk
      have hlt := hk.1 limit rfl
      exact ⟨by omega, Executable.steps_of_passes hk⟩
    refine ⟨r, t, hcall, hle, hpasses, fun hs hlimit => ⟨by omega, ?_⟩⟩
    intro k u hk
    have := hpasses k u hk
    omega

/-- The second instruction fails when it is tried, for which a limit of 1 is too low. -/
theorem limited_call_exact_fault :
    ∃ exe r t r' t', (Program.parse "+<").link = .ok exe ∧
      exe.call ⟨.real, some 1⟩ (.initial 1 {}) = some (r, t) ∧ r.stop = .failed (.outOfSteps 1) ∧
      t.pc = 1 ∧ t.steps = 1 ∧
      exe.call ⟨.real, some 2⟩ (.initial 1 {}) = some (r', t') ∧
      exe.call ⟨.real, none⟩ (.initial 1 {}) = some (r', t') ∧
      r'.stop = .failed (.offTape 1 0 .underflow) ∧ t'.steps = 1 := by
  let exe : Executable := ⟨.parse "+<", ⟨#[none, none], 0⟩, rfl⟩
  have hlink : (Program.parse "+<").link = .ok exe := (Program.link_eq_ok_iff _ _).2 rfl
  have htoo_low : ¬ exe.StopsWithin 1 (.initial 1 {}) := by
    rw [exe.stopsWithin_iff]
    rintro ⟨stop, t, h⟩
    cases h
  have hreached : exe.StopsWithin 2 (.initial 1 {}) :=
    (exe.stopsWithin_iff 2 _).2 ⟨_, _, rfl⟩
  obtain ⟨-, hstopped, -⟩ := limited_call_exact exe 1 (.initial 1 {})
  obtain ⟨r, t, u, hcall, hstop, -, hsteps, hrun, hagrees, -, -⟩ := hstopped htoo_low
  obtain ⟨hfree, -, -⟩ := limited_call_exact exe 2 (.initial 1 {})
  obtain ⟨r', t', hcall', hunlimited, -⟩ := hfree hreached
  obtain ⟨hstop', hsteps'⟩ : r'.stop = .failed (.offTape 1 0 .underflow) ∧ t'.steps = 1 := by
    cases hcall'
    exact ⟨rfl, rfl⟩
  refine ⟨exe, r, t, r', t', hlink, hcall, hstop, ?_, hsteps, hcall', hunlimited, hstop', hsteps'⟩
  cases hrun
  exact hagrees.pc_eq

end Brainfuck
