import Brainfuck.Proofs.TracedRuns

/-!
# Reports tell the truth

What a call says when it is over fits the machine that it leaves behind: the place that an error names
is where the machine stands, a fault of the pointer comes with the pointer at that end of the tape, and
a device is blamed only where it was used (`report_tells_truth`).

`Explains` says this of the run of a call, without its final flush.  The flush can only turn success
into failure, and never one failure into another.
-/

namespace Brainfuck

open Trace

/-! ## Transcripts -/

namespace Trace.Transcript

/-- What is written and what still fits make up the room that there was at first. -/
def Holds (room : Option Nat) (t : Transcript) : Prop :=
  t.room.map (t.text.length + ·) = room

theorem holds_empty (room : Option Nat) : (empty room).Holds room := by
  cases room with
  | none => rfl
  | some size => exact congrArg some (Nat.zero_add size)

theorem Holds.append {room : Option Nat} {t : Transcript} (h : t.Holds room) (piece : String) :
    (t.append piece).2.Holds room := by
  obtain ⟨_ | left, text⟩ := t
  · exact h
  · subst h
    simp only [Transcript.append]
    split
    · apply congrArg some
      show (text ++ piece).length + (left - piece.length) = text.length + left
      rw [String.length_append]
      omega
    · apply congrArg some
      show (text ++ String.ofList (piece.toList.take left)).length + 0 = text.length + left
      rw [String.length_append, String.length_ofList, List.length_take, String.length_toList]
      omega

/-- A transcript in which writing has failed is full. -/
theorem Holds.full {room : Option Nat} {t u : Transcript} {piece cause : String} (h : t.Holds room)
    (ha : t.append piece = (.error cause, u)) : room = some u.text.length ∧ cause = "trace full" := by
  have hu := h.append piece
  rw [ha] at hu
  obtain ⟨_ | left, text⟩ := t <;> simp only [Transcript.append] at ha
  · cases ha
  · split at ha <;> cases ha
    exact ⟨hu.symm, rfl⟩

end Trace.Transcript

namespace Executable

/-- What error `e` of the run of a call says about the state `t` that it has stopped in. -/
inductive Explains (exe : Executable) (c : Call) (trace : Option String) (t : State) : RunError → Prop
  | underflow : exe.program.instruction? t.pc = some .left → t.tape.pointer = 0 →
      Explains exe c trace t (.offTape t.pc t.tape.pointer .underflow)
  | overflow : exe.program.instruction? t.pc = some .right → t.tape.pointer + 1 = t.tape.length →
      Explains exe c trace t (.offTape t.pc t.tape.pointer .overflow)
  /-- A write, a read or the flush before a read has failed. -/
  | console {i : Instruction} {cause : String} : c.mode = .real →
      exe.program.instruction? t.pc = some i → i = .output ∨ i = .input →
      Explains exe c trace t (.device t.pc cause)
  /-- The transcript is full. -/
  | transcript {text : String} : c.mode = .traced (some text.length) → trace = some text →
      Explains exe c trace t (.device t.pc "trace full")
  | limit {l : Nat} : c.limit = some l → l ≤ t.steps → t.pc < exe.program.size →
      Explains exe c trace t (.outOfSteps l)

variable {exe : Executable} {i : Instruction} {c : Call} {s t : State} {e : RunError}
  {trace : Option String}

/-! ## Single instructions -/

/-- An effect that fails leaves the machine where it was. -/
theorem explains_of_effect (hi : exe.program.instruction? s.pc = some i)
    (h : (exe.effect i s.pc s.tape).1 = .error e) (hbalanced : ∀ ip excess, e ≠ .unbalanced ip excess) :
    exe.Explains c trace s e := by
  rcases (effect_error_cases h).2 with ⟨rfl, hleft, rfl⟩ | ⟨rfl, hright, rfl⟩ | ⟨excess, rfl⟩
  · exact .underflow hi hleft
  · exact .overflow hi hright
  · exact absurd rfl (hbalanced _ _)

theorem error_of_attempt {r : State} (h : exe.attempt i s = (.error e, r)) :
    (∃ cause, e = .device s.pc cause ∧ (i = .output ∨ i = .input)) ∨
    ((exe.effect i s.pc s.tape).1 = .error e ∧ r = s) := by
  rcases exe.attempt_cases i with rfl | rfl | hplain
  · simp only [attempt, emit] at h
    split at h <;> cases h
    exact Or.inl ⟨_, rfl, Or.inl rfl⟩
  · simp only [attempt, accept] at h
    split at h
    · cases h
      exact Or.inl ⟨_, rfl, Or.inr rfl⟩
    · split at h <;> cases h
      exact Or.inl ⟨_, rfl, Or.inr rfl⟩
  · rw [hplain, rehearse_eq] at h
    obtain ⟨heffect, rfl⟩ := Prod.mk.inj h
    refine Or.inr ⟨heffect, ?_⟩
    rw [(effect_eq_error heffect).1]

theorem explains_of_perform (hmode : c.mode = .real) (hi : exe.program.instruction? s.pc = some i)
    (h : exe.perform i s = (.error e, t)) : exe.Explains c trace t e := by
  obtain ⟨-, hpc, -, hbalanced⟩ := (follows_real exe).error hi h
  change t.pc = s.pc at hpc
  unfold perform at h
  split at h <;> cases h
  next ha =>
  rcases error_of_attempt ha with ⟨cause, rfl, hexchange⟩ | ⟨heffect, rfl⟩
  · rw [← hpc] at hi ⊢
    exact .console hmode hi hexchange
  · exact explains_of_effect hi heffect hbalanced

theorem explains_of_record {room : Option Nat} {v w : Transcript} (hmode : c.mode = .traced room)
    (hv : v.Holds room) (hi : exe.program.instruction? s.pc = some i)
    (h : exe.record i (s, v) = (.error e, t, w)) : exe.Explains c (some w.text) t e := by
  obtain ⟨-, -, -, hbalanced⟩ := (follows_traced exe).error (x := (s, v)) hi h
  rcases record_cases h with ⟨e', he, hr, hy⟩ | ⟨next, -, ⟨u, -, hr, -⟩ | ⟨cause, u, ha, hr, hy⟩⟩
  · cases hr
    cases hy
    exact explains_of_effect hi he hbalanced
  · cases hr
  · cases hr
    cases hy
    obtain ⟨rfl, rfl⟩ := hv.full ha
    exact .transcript (t := ⟨_, s.pc, s.steps, s.console⟩) hmode rfl

/-! ## Runs -/

theorem explains_of_limit {σ : Type} {p : Process σ} {view : σ → State} (hf : p.Follows exe view)
    {x y : σ} {l : Nat} (hl : c.limit = some l) (h : p.runFor (l - (view x).steps) x = (none, y))
    (hi : exe.program.instruction? (view y).pc = some i) :
    exe.Explains c trace (view y) (.outOfSteps l) := by
  have hsteps := hf.steps_of_none h
  exact .limit hl (by omega) (lt_size_of_instruction? hi)

theorem holds_record (i : Instruction) {room : Option Nat} {x : State × Transcript}
    (h : x.2.Holds room) : (exe.record i x).2.2.Holds room := by
  obtain ⟨s, v⟩ := x
  rcases hr : exe.record i (s, v) with ⟨r, y⟩
  rcases record_cases hr with ⟨e, -, -, rfl⟩ | ⟨next, -, ⟨u, ha, -, rfl⟩ | ⟨cause, u, ha, -, rfl⟩⟩
  · exact h
  · have := h.append (Row.text ⟨moment i s, next⟩)
    rwa [ha] at this
  · have := h.append (Row.text ⟨moment i s, next⟩)
    rwa [ha] at this

theorem explains_of_execute (h : exe.execute c s = some (.failed e, t, trace)) :
    exe.Explains c trace t e := by
  rcases execute_cases h with ⟨hmode, -, hrun⟩ | ⟨room, u, hmode, rfl, hrun⟩
  · rcases Process.runWithin_cases hrun with ⟨n, hn⟩ | ⟨l, hl, hn, hstop⟩
    · obtain ⟨k, v, i, -, hi, hp⟩ := Process.exists_of_runFor_failed hn
      exact explains_of_perform hmode hi hp
    · cases hstop
      obtain ⟨i, hi⟩ := Process.next?_of_runFor_none hn
      exact explains_of_limit (follows_real exe) hl hn hi
  · unfold traceWithin at hrun
    have hholds := (Transcript.holds_empty room).append header
    split at hrun
    · next v hv =>
      rw [hv] at hholds
      rcases Process.runWithin_cases hrun with ⟨n, hn⟩ | ⟨l, hl, hn, hstop⟩
      · obtain ⟨k, ⟨s', w⟩, i, hk, hi, hp⟩ := Process.exists_of_runFor_failed hn
        have hw := Process.runFor_invariant (p := exe.traced) (I := fun x => x.2.Holds room)
          (fun x i hx _ => holds_record i hx) k (s := (s, v)) hholds
        rw [hk] at hw
        exact explains_of_record hmode hw hi hp
      · cases hstop
        obtain ⟨i, hi⟩ := Process.next?_of_runFor_none hn
        exact explains_of_limit (x := (s, v)) (y := (t, u)) (follows_traced exe) hl hn hi
    · next cause v hv =>
      cases hrun
      obtain ⟨rfl, rfl⟩ := (Transcript.holds_empty room).full hv
      exact .transcript hmode rfl

theorem instruction?_of_finished (h : exe.execute c s = some (.finished, t, trace)) :
    exe.program.instruction? t.pc = none := by
  rcases execute_cases h with ⟨-, -, hrun⟩ | ⟨room, u, -, -, hrun⟩
  · rcases Process.runWithin_cases hrun with ⟨n, hn⟩ | ⟨l, -, -, hstop⟩
    · exact Process.next?_of_runFor_finished hn
    · cases hstop
  · unfold traceWithin at hrun
    split at hrun
    · rcases Process.runWithin_cases hrun with ⟨n, hn⟩ | ⟨l, -, -, hstop⟩
      · exact Process.next?_of_runFor_finished hn
      · cases hstop
    · cases hrun

/-- An error of a call is that of its run, or the run had finished and the final flush failed. -/
theorem error_of_conclude {stop : Stop} (h : (conclude stop s).1 = .failed e) :
    stop = .failed e ∨
    stop = .finished ∧ ∃ cause, e = .device s.pc cause ∧ s.console.flush.1 = .error cause := by
  cases stop with
  | failed e' =>
    rw [conclude_failed] at h
    exact Or.inl h
  | finished =>
    rw [conclude_eq] at h
    cases hflush : s.console.flush.1 with
    | ok _ =>
      rw [hflush] at h
      cases h
    | error cause =>
      rw [hflush] at h
      cases h
      exact Or.inr ⟨rfl, cause, rfl, rfl⟩

theorem flush_of_conclude_finished (h : (conclude .finished s).1 = .finished) :
    s.console.flush.1 = .ok () := by
  rw [conclude_eq] at h
  cases hflush : s.console.flush.1 with
  | ok _ => rfl
  | error cause =>
    rw [hflush] at h
    cases h

end Executable

/-! ## Top theorem -/

/-- For every error of every call.  `stop` is how the run ended, in state `u`, before the final flush. -/
theorem report_tells_truth (exe : Executable) (n : Nat) (console : Console) (s : State)
    (hs : exe.Reachable (.initial n console) s) (c : Call) (r : Report) (t : State)
    (h : exe.call c s = some (r, t)) :
    ∃ stop u, exe.execute c s = some (stop, u, r.trace) ∧ t = u.on u.console.flush.2 ∧
      (∀ e, stop = .failed e → r.stop = .failed e) ∧
      (r.stop = .finished → t.pc = exe.program.size ∧ u.console.flush.1 = .ok ()) ∧
      (∀ e ip, r.stop = .failed e → e.ip? = some ip → ip = t.pc) ∧
      (∀ ip pointer, r.stop = .failed (.offTape ip pointer .underflow) →
        exe.program.instruction? ip = some .left ∧ pointer = t.tape.pointer ∧ pointer = 0) ∧
      (∀ ip pointer, r.stop = .failed (.offTape ip pointer .overflow) →
        exe.program.instruction? ip = some .right ∧ pointer = t.tape.pointer ∧
        pointer = t.tape.length - 1) ∧
      (∀ limit, r.stop = .failed (.outOfSteps limit) →
        c.limit = some limit ∧ limit ≤ t.steps ∧ t.pc < exe.program.size) ∧
      ∀ ip cause, r.stop = .failed (.device ip cause) →
        (c.mode = .real →
          (ip < exe.program.size ∧ ∃ i, exe.program.instruction? ip = some i ∧
            (i = .output ∨ i = .input)) ∨
          (ip = exe.program.size ∧ stop = .finished ∧ u.console.flush.1 = .error cause)) ∧
        ∀ room, c.mode = .traced room → ip < exe.program.size →
          stop = r.stop ∧ u.console = s.console ∧ cause = "trace full" ∧
          ∃ text, r.trace = some text ∧ room = some text.length := by
  obtain ⟨stop, u, he, hconclude⟩ := Executable.call_cases h
  have hin := (Executable.execute_inBounds (Executable.inBounds_of_reachable hs) he).1
  have ht : t = u.on u.console.flush.2 := by
    rw [Executable.conclude_eq] at hconclude
    exact (Prod.mk.inj hconclude).2.symm
  have hstop : (Executable.conclude stop u).1 = r.stop := congrArg Prod.fst hconclude
  have hsize : stop = .finished → u.pc = exe.program.size := by
    rintro rfl
    have hle := (exe.program.instruction?_eq_none_iff u.pc).1 (Executable.instruction?_of_finished he)
    exact Nat.le_antisymm hin.pc_le hle
  have herror : ∀ e, r.stop = .failed e → stop = .failed e ∧ exe.Explains c r.trace u e ∨
      stop = .finished ∧ ∃ cause, e = .device u.pc cause ∧ u.console.flush.1 = .error cause := by
    intro e hr
    rcases Executable.error_of_conclude (hstop.trans hr) with rfl | hflush
    · exact Or.inl ⟨rfl, Executable.explains_of_execute he⟩
    · exact Or.inr hflush
  subst ht
  refine ⟨stop, u, he, rfl, ?_, ?_, ?_, ?_, ?_, ?_, ?_⟩
  · rintro e rfl
    rw [← hstop, Executable.conclude_failed]
  · intro hr
    obtain rfl := Executable.eq_finished_of_conclude (hstop.trans hr)
    exact ⟨hsize rfl, Executable.flush_of_conclude_finished (hstop.trans hr)⟩
  · intro e ip hr hip
    rcases herror e hr with ⟨-, hexplains⟩ | ⟨-, cause, rfl, -⟩
    · cases hexplains <;> cases hip <;> rfl
    · cases hip
      rfl
  · intro ip pointer hr
    rcases herror _ hr with ⟨-, hexplains⟩ | ⟨-, cause, heq, -⟩
    · cases hexplains with
      | underflow hi hzero => exact ⟨hi, rfl, hzero⟩
    · cases heq
  · intro ip pointer hr
    rcases herror _ hr with ⟨-, hexplains⟩ | ⟨-, cause, heq, -⟩
    · cases hexplains with
      | overflow hi hlast => exact ⟨hi, rfl, Nat.eq_sub_of_add_eq hlast⟩
    · cases heq
  · intro limit hr
    rcases herror _ hr with ⟨-, hexplains⟩ | ⟨-, cause, heq, -⟩
    · cases hexplains with
      | limit hl hle hlt => exact ⟨hl, hle, hlt⟩
    · cases heq
  · intro ip cause hr
    rcases herror _ hr with ⟨hfailed, hexplains⟩ | ⟨rfl, cause, heq, hflush⟩
    · refine ⟨fun hmode => ?_, fun room hmode hlt => ?_⟩
      · cases hexplains with
        | console _ hi hexchange =>
          exact Or.inl ⟨Executable.lt_size_of_instruction? hi, _, hi, hexchange⟩
        | transcript htraced => cases htraced.symm.trans hmode
      · obtain ⟨mode, limit⟩ := c
        obtain rfl : mode = .traced room := hmode
        refine ⟨hfailed.trans hr.symm, Executable.console_of_execute_traced he, ?_⟩
        cases hexplains with
        | console hreal => cases hreal
        | transcript htraced htrace =>
          cases htraced
          exact ⟨rfl, _, htrace, rfl⟩
    · cases heq
      refine ⟨fun _ => Or.inr ⟨hsize rfl, rfl, hflush⟩, fun room _ hlt => ?_⟩
      have := hsize rfl
      omega

/-- A read that fails, in the second instruction of the second call. -/
theorem report_tells_truth_no_input :
    ∃ exe s r t, (Program.parse ">,").link = .ok exe ∧
      exe.Reachable (.initial 2 { script := [.failed "no input"] }) s ∧
      exe.call ⟨.real, none⟩ s = some (r, t) ∧ r.stop = .failed (.device 1 "no input") ∧ t.pc = 1 ∧
      ∃ i, exe.program.instruction? 1 = some i ∧ (i = .output ∨ i = .input) := by
  let exe : Executable := ⟨.parse ">,", ⟨#[none, none], 0⟩, rfl⟩
  let start : State := .initial 2 { script := [.failed "no input"] }
  have hlink : (Program.parse ">,").link = .ok exe := (Program.link_eq_ok_iff _ _).2 rfl
  obtain ⟨r₁, s, hfirst, hlimited⟩ : ∃ r₁ s, exe.call ⟨.real, some 1⟩ start = some (r₁, s) ∧
      ∃ r t, exe.call ⟨.real, some 5⟩ s = some (r, t) ∧ r.stop = .failed (.device 1 "no input") :=
    ⟨_, _, rfl, _, _, rfl, rfl⟩
  obtain ⟨r, t, hcall, hstop⟩ := hlimited
  have hreach : exe.Reachable start s := .call .start hfirst
  have hne : r.stop ≠ .failed (.outOfSteps 5) := by
    rw [hstop]
    decide
  have hcall' := Executable.call_of_limit hcall hne
  obtain ⟨stop, u, -, -, -, -, hip, -, -, -, hdevice⟩ :=
    report_tells_truth exe 2 _ s hreach _ r t hcall'
  refine ⟨exe, s, r, t, hlink, hreach, hcall', hstop, (hip _ _ hstop rfl).symm, ?_⟩
  rcases (hdevice _ _ hstop).1 rfl with ⟨-, hexchange⟩ | ⟨hsize, -, -⟩
  · exact hexchange
  · cases hsize

end Brainfuck
