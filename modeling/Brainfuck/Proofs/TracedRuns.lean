import Brainfuck.Proofs.Devices
import Brainfuck.Proofs.Simulation

/-!
# A traced run is a rehearsal

A traced call does what a real call would do at a console where there is nothing to be read and
everything can be written: it stops for the same reason, with the same tape, in the same place and
after as many steps.  Its own console sees nothing of it but the flush at the end
(`traced_call_rehearses_real_call`).
-/

namespace Brainfuck

open Trace

namespace Executable

variable {exe : Executable} {i : Instruction}

/-- At a quiet console nothing happens to the machine but the effect of the instruction. -/
theorem attempt_of_quiet (exe : Executable) (i : Instruction) {s : State} (h : s.console.Quiet) :
    exe.attempt i s =
      ((exe.effect i s.pc s.tape).1,
        ⟨(exe.effect i s.pc s.tape).2, s.pc, s.steps, (exe.attempt i s).2.console⟩) := by
  obtain ⟨tape, pc, steps, console⟩ := s
  cases i
  case output =>
    obtain ⟨d, hwrite⟩ : ∃ d, console.write tape.cell = (.ok (), d) :=
      ⟨_, Prod.ext (Console.write_of_open h.sink_open tape.cell) rfl⟩
    simp only [attempt, emit, effect, hwrite]
  case input =>
    obtain ⟨d, hflush⟩ : ∃ d, console.flush = (.ok (), d) := ⟨_, Prod.ext h.flush_fst_eq rfl⟩
    have hd : d.Quiet := by
      have := Console.kept_quiet.flush h
      rwa [hflush] at this
    obtain ⟨e, hread⟩ : ∃ e, d.read = (.ok none, e) := ⟨_, Prod.ext hd.read_fst_eq rfl⟩
    simp only [attempt, accept, effect, hflush, hread]
    rfl
  all_goals rfl

/-- A machine that writes rows into an endless transcript, and one at a quiet console. -/
structure Rehearses (c : Console) (x : State × Transcript) (s : State) : Prop where
  agrees : x.1.Agrees s
  room_eq : x.2.room = none
  console_eq : x.1.console = c
  quiet : s.console.Quiet

theorem simulates_traced_real (exe : Executable) (c : Console) :
    exe.traced.Simulates exe.real (Rehearses c) (fun _ => False) (fun _ _ _ => False) where
  next?_eq {x s} h := congrArg exe.program.instruction? h.agrees.pc_eq
  perform {x y s i r} h hi hp := by
    obtain ⟨⟨tape, pc, steps, console⟩, ⟨room, text⟩⟩ := x
    obtain ⟨⟨rfl, rfl, rfl⟩, rfl, rfl, hquiet⟩ := h
    have hattempt := attempt_of_quiet exe i hquiet
    have hquiet' := Console.kept_quiet.attempt exe i hquiet
    rcases record_cases hp with
      ⟨e, he, rfl, rfl⟩ | ⟨next, hnext, ⟨u, ha, rfl, rfl⟩ | ⟨cause, u, ha, -, -⟩⟩
    · rw [he, (effect_eq_error he).1] at hattempt
      exact Or.inl ⟨_, perform_of_attempt_error hattempt, ⟨⟨rfl, rfl, rfl⟩, rfl, rfl, hquiet'⟩,
        fun _ _ => id⟩
    · rw [hnext] at hattempt
      cases ha
      exact Or.inl ⟨_, perform_of_attempt_ok hattempt, ⟨⟨rfl, rfl, rfl⟩, rfl, rfl, hquiet'⟩,
        fun _ _ => id⟩
    · cases ha

/-- With an endless transcript an instruction fails at the ends of the tape only. -/
theorem error_of_record {s : State} {t : Transcript} {y : State × Transcript} {e : RunError}
    (hroom : t.room = none) (hi : exe.program.instruction? s.pc = some i)
    (h : exe.record i (s, t) = (.error e, y)) :
    y = (s, t) ∧ ∃ edge, e = .offTape s.pc s.tape.pointer edge := by
  rcases record_cases h with ⟨e', he, hr, rfl⟩ | ⟨next, -, ⟨u, -, hr, -⟩ | ⟨cause, u, ha, -, -⟩⟩
  · cases hr
    refine ⟨rfl, ?_⟩
    rcases (effect_eq_error he).2 with hedge | ⟨excess, rfl⟩
    · exact hedge
    · exact ((follows_traced exe).error (x := (s, t)) hi h).2.2.2 _ _ rfl |>.elim
  · cases hr
  · obtain ⟨room, text⟩ := t
    cases hroom
    cases ha

theorem steady_traced (exe : Executable) : exe.traced.Steady (fun x => x.2.room = none) where
  keeps {x y i} hroom hi hp := by
    obtain ⟨s, ⟨room, text⟩⟩ := x
    cases hroom
    rcases record_cases hp with ⟨e, -, hr, -⟩ | ⟨next, -, ⟨u, ha, -, rfl⟩ | ⟨cause, u, -, hr, -⟩⟩
    · cases hr
    · cases ha
      rfl
    · cases hr
  stays {x y i e} hroom hi hp := (error_of_record hroom hi hp).1

/-- How a traced run with an endless transcript can end. -/
theorem stop_of_traced {x y : State × Transcript} {limit : Option Nat} {done : Nat} {stop : Stop}
    (hroom : x.2.room = none) (h : exe.traced.runWithin limit done x = some (stop, y)) :
    stop = .finished ∨ (∃ ip pointer edge, stop = .failed (.offTape ip pointer edge)) ∨
    ∃ l, limit = some l ∧ stop = .failed (.outOfSteps l) := by
  rcases Process.runWithin_cases h with ⟨n, hn⟩ | ⟨l, hl, -, hstop⟩
  · cases stop with
    | finished => exact Or.inl rfl
    | failed e =>
      obtain ⟨k, z, i, hk, hi, hp⟩ := Process.exists_of_runFor_failed hn
      have hz := (steady_traced exe).invariant k hroom
      rw [hk] at hz
      obtain ⟨-, edge, rfl⟩ := error_of_record hz hi hp
      exact Or.inr (Or.inl ⟨_, _, edge, rfl⟩)
  · exact Or.inr (Or.inr ⟨l, hl, hstop⟩)

/-- The instructions of a traced call with an endless transcript. -/
theorem execute_traced (exe : Executable) (limit : Option Nat) (s : State) :
    exe.execute ⟨.traced none, limit⟩ s =
      (exe.traced.runWithin limit s.steps (s, ⟨none, header⟩)).map
        fun x => (x.1, x.2.1, some x.2.2.text) := by
  have hheader : (Transcript.empty none).append header = (.ok (), ⟨none, header⟩) := by
    simp [Transcript.empty, Transcript.append]
  simp only [execute, traceWithin, hheader]
  cases exe.traced.runWithin limit s.steps (s, ⟨none, header⟩) <;> rfl

/-- A traced run leaves the console alone. -/
theorem console_of_execute_traced {room limit : Option Nat} {s u : State} {stop : Stop}
    {trace : Option String} (h : exe.execute ⟨.traced room, limit⟩ s = some (stop, u, trace)) :
    u.console = s.console := by
  rcases execute_cases h with ⟨hmode, -⟩ | ⟨_, v, -, -, hrun⟩
  · cases hmode
  · unfold traceWithin at hrun
    split at hrun
    · refine Process.runWithin_invariant (I := fun x => x.1.console = s.console)
        (fun x i hx => ?_) rfl hrun
      show (exe.record i x).2.1.console = s.console
      rw [exe.console_record]
      exact hx
    · cases hrun
      rfl

theorem console_of_traced_call {room limit : Option Nat} {s t : State} {r : Report}
    (h : exe.call ⟨.traced room, limit⟩ s = some (r, t)) :
    t.console = s.console.flush.2 ∧
    r.events = s.console.flush.2.history.toList.drop s.console.history.size := by
  obtain ⟨stop, u, he, -⟩ := call_cases h
  obtain ⟨r', hcall, -, -, hevents⟩ := call_of_execute he
  have hconsole : (conclude stop u).2.console = s.console.flush.2 := by
    rw [conclude_eq, ← console_of_execute_traced he]
  rw [hcall] at h
  cases h
  rw [hevents, hconsole]
  exact ⟨rfl, rfl⟩

end Executable

/-! ## Top theorem -/

/-- The same stop in the same place, on the same tape, after as many steps. -/
theorem traced_call_rehearses_real_call (exe : Executable) (limit : Option Nat) (s : State)
    (hflush : s.console.flush.1 = .ok ()) (quiet : Console) (hquiet : quiet.Quiet) :
    Option.Rel (fun x y => x.1.stop = y.1.stop ∧ x.2.Agrees y.2)
      (exe.call ⟨.traced none, limit⟩ s) (exe.call ⟨.real, limit⟩ (s.on quiet)) ∧
    (limit.isSome → (exe.call ⟨.traced none, limit⟩ s).isSome) ∧
    ∀ r t, exe.call ⟨.traced none, limit⟩ s = some (r, t) →
      r.events = [.flushed] ∧ t.console.script = s.console.script ∧
      t.console.sink = { s.console.sink with flushes := s.console.sink.flushes + 1 } ∧
      (r.stop = .finished ∨ (∃ ip pointer edge, r.stop = .failed (.offTape ip pointer edge)) ∨
        ∃ l, limit = some l ∧ r.stop = .failed (.outOfSteps l)) := by
  have hstart : Executable.Rehearses s.console (s, ⟨none, header⟩) (s.on quiet) :=
    ⟨⟨rfl, rfl, rfl⟩, rfl, rfl, hquiet⟩
  have hrun := (Executable.simulates_traced_real exe s.console).runWithin limit s.steps hstart
  refine ⟨Executable.rel_call (Q := fun x y => x.1 = y.1 ∧ x.2.Agrees y.2) ?_, ?_, ?_⟩
  · rw [Executable.execute_traced, Executable.execute_real]
    refine rel_map hrun ?_
    rintro ⟨stop, x⟩ ⟨_, u⟩ ⟨rfl, h⟩
    rw [← h.console_eq] at hflush
    rw [Executable.conclude_of_flush_ok stop hflush,
      Executable.conclude_of_flush_ok stop h.quiet.flush_fst_eq]
    exact ⟨rfl, h.agrees.tape_eq, h.agrees.pc_eq, h.agrees.steps_eq⟩
  · intro hlimit
    obtain ⟨l, rfl⟩ := Option.isSome_iff_exists.1 hlimit
    exact exe.isSome_call_of_limit _ l s
  · intro r t hcall
    obtain ⟨hconsole, hevents⟩ := Executable.console_of_traced_call hcall
    obtain ⟨stop, u, he, hc⟩ := Executable.call_cases hcall
    have hstop : r.stop = stop := by
      rw [← Executable.console_of_execute_traced he] at hflush
      rw [Executable.conclude_of_flush_ok stop hflush] at hc
      exact (congrArg Prod.fst hc).symm
    have hlog : s.console.flush.2.history = s.console.history.push .flushed := by
      rw [Console.flush_eq, if_neg ((Console.flush_fst_eq_ok_iff _).1 hflush)]
    rw [Executable.execute_traced] at he
    obtain ⟨⟨_, x⟩, hx, heq⟩ := Option.map_eq_some_iff.1 he
    cases congrArg Prod.fst heq
    rw [hevents, hconsole, hstop, hlog]
    refine ⟨by simp, Console.script_flush _, Console.sink_flush _, ?_⟩
    exact Executable.stop_of_traced rfl hx

/-- A loop that reads, writes and leaves the tape, traced where nothing can be read or written. -/
theorem traced_call_rehearses_real_call_overflow :
    ∃ exe r t, (Program.parse "+[,.>+]").link = .ok exe ∧
      exe.call ⟨.traced none, some 100⟩
        (.initial 3 { script := [.failed "no input"], sink := { capacity := some 0 } }) = some (r, t) ∧
      r.stop = .failed (.offTape 4 2 .overflow) ∧ t.pc = 4 ∧ t.steps = 16 ∧ r.events = [.flushed] := by
  let exe : Executable :=
    ⟨.parse "+[,.>+]", ⟨#[none, some 6, none, none, none, none, some 1], 1⟩, rfl⟩
  let start : State := .initial 3 { script := [.failed "no input"], sink := { capacity := some 0 } }
  have hlink : (Program.parse "+[,.>+]").link = .ok exe := (Program.link_eq_ok_iff _ _).2 rfl
  have hquiet : Console.Quiet {} :=
    ⟨⟨⟨rfl, List.forall_mem_nil _⟩, List.forall_mem_nil _, List.forall_mem_nil _⟩, List.forall_mem_nil _⟩
  obtain ⟨hrel, -, hevents⟩ :=
    traced_call_rehearses_real_call exe (some 100) start rfl {} hquiet
  obtain ⟨r', t', hreal, hstop, hpc, hsteps⟩ : ∃ r t,
      exe.call ⟨.real, some 100⟩ (start.on {}) = some (r, t) ∧
      r.stop = .failed (.offTape 4 2 .overflow) ∧ t.pc = 4 ∧ t.steps = 16 :=
    ⟨_, _, rfl, rfl, rfl, rfl⟩
  rw [hreal] at hrel
  cases htraced : exe.call ⟨.traced none, some 100⟩ start with
  | none =>
    rw [htraced] at hrel
    cases hrel
  | some x =>
    rw [htraced, Option.rel_some_some] at hrel
    obtain ⟨r, t⟩ := x
    exact ⟨exe, r, t, hlink, htraced, hrel.1.trans hstop, hrel.2.pc_eq.trans hpc,
      hrel.2.steps_eq.trans hsteps, (hevents r t htraced).1⟩

end Brainfuck
