import Brainfuck.Proofs.TracedRuns
import Mathlib.Data.List.Basic

/-!
# Traces that break off

A transcript can be full in the middle of a row.  The instruction of that row has had its effect on
the tape but is not counted, so it is tried again by the next call (`Torn`).  For `.`, `,`, `[` and
`]` this makes no difference, and a header that is cut off makes none either.  For the other four
the effect comes twice.

So a session of traced calls stays on the way of one endless trace up to the first row of one of
these four that is torn (`torn_rows_alone_spoil`).
-/

namespace Brainfuck

open Trace

/-- The instructions that write a cell or move the pointer. -/
def Instruction.changesTape : Instruction → Bool
  | right | left | increment | decrement => true
  | output | input | loopStart | loopEnd => false

namespace Executable

variable {exe : Executable} {i : Instruction} {s t : State} {r : Report}

/-- `t` is `u` with instruction `i` done but not counted. -/
structure Torn (exe : Executable) (i : Instruction) (u t : State) : Prop where
  instruction?_eq : exe.program.instruction? u.pc = some i
  pc_eq : t.pc = u.pc
  steps_eq : t.steps = u.steps
  effect_eq : ∃ next, exe.effect i u.pc u.tape = (.ok next, t.tape)

/-- From the outside: the header was written but the row of an instruction that changes the tape
was not. -/
def spoils (exe : Executable) (x : Report × State) : Bool :=
  x.1.stop.isDevice && x.1.trace.any (header.length ≤ ·.length) &&
    (exe.program.instruction? x.2.pc).any (·.changesTape)

/-! ## Single instructions -/

theorem effect_snd_eq_iff {ip next : Nat} {tape : Tape} (h : (exe.effect i ip tape).1 = .ok next) :
    (exe.effect i ip tape).2 = tape ↔ i.changesTape = false := by
  have hwrite : ∀ b, b ≠ tape.cell → tape.write b ≠ tape := by
    intro b hb heq
    apply hb
    rw [← Tape.cell_write tape b, heq]
  have hmove : ∀ moved : Tape, moved.pointer ≠ tape.pointer → moved ≠ tape := by
    rintro moved hp rfl
    exact hp rfl
  cases i <;> simp only [effect, Instruction.changesTape] at h ⊢
  case right =>
    cases hr : tape.right? with
    | none =>
      rw [hr] at h
      cases h
    | some moved =>
      have := Tape.pointer_of_right? hr
      exact iff_of_false (hmove moved (by omega)) (by decide)
  case left =>
    cases hl : tape.left? with
    | none =>
      rw [hl] at h
      cases h
    | some moved =>
      have := Tape.pointer_of_left? hl
      exact iff_of_false (hmove moved (by omega)) (by decide)
  case increment => exact iff_of_false (hwrite _ (by grind)) (by decide)
  case decrement => exact iff_of_false (hwrite _ (by grind)) (by decide)
  case loopStart => split <;> simp

theorem Torn.tape_eq_iff {u : State} (h : exe.Torn i u t) : t.tape = u.tape ↔ i.changesTape = false := by
  obtain ⟨next, heffect⟩ := h.effect_eq
  rw [← effect_snd_eq_iff (congrArg Prod.fst heffect), heffect]

theorem Torn.of_agrees {u v : State} (h : exe.Torn i u v) (ht : t.Agrees v) : exe.Torn i u t :=
  ⟨h.instruction?_eq, ht.pc_eq.trans h.pc_eq, ht.steps_eq.trans h.steps_eq,
    ht.tape_eq ▸ h.effect_eq⟩

theorem Torn.agrees {u : State} (h : exe.Torn i u t) (hi : i.changesTape = false) : t.Agrees u :=
  ⟨h.tape_eq_iff.2 hi, h.pc_eq, h.steps_eq⟩

/-- `x` has written its header, and `y` is the same machine with an endless transcript. -/
structure Endless (x y : State × Transcript) : Prop where
  agrees : x.1.Agrees y.1
  length_le : header.length ≤ x.2.text.length
  room_eq : y.2.room = none

/-- Row for row, up to the first that is torn. -/
theorem simulates_endless (exe : Executable) :
    exe.traced.Simulates exe.traced Endless (fun e => e.isDevice)
      (fun _ x y => header.length ≤ x.2.text.length ∧ ∃ i, exe.Torn i y.1 x.1) where
  next?_eq h := congrArg exe.program.instruction? h.agrees.pc_eq
  perform {x x' y i r} h hi hp := by
    obtain ⟨⟨tape, pc, steps, c⟩, v⟩ := x
    obtain ⟨⟨_, _, _, d⟩, ⟨_, text⟩⟩ := y
    obtain ⟨⟨rfl, rfl, rfl⟩, hlen, rfl⟩ := h
    rcases record_cases hp with
      ⟨e, he, rfl, rfl⟩ | ⟨next, hnext, ⟨u, ha, rfl, rfl⟩ | ⟨cause, u, ha, rfl, rfl⟩⟩
    · refine Or.inl ⟨_, record_of_error (s := ⟨tape, pc, steps, d⟩) he _,
        ⟨⟨rfl, rfl, rfl⟩, hlen, rfl⟩, ?_⟩
      rintro _ ⟨⟩
      exact not_isDevice_of_effect he
    · refine Or.inl ⟨_, record_of_ok (s := ⟨tape, pc, steps, d⟩) hnext text,
        ⟨⟨rfl, rfl, rfl⟩, ?_, rfl⟩, fun _ he => by cases he⟩
      rw [Transcript.text_of_append_ok ha, String.length_append]
      exact hlen.trans (Nat.le_add_right _ _)
    · refine Or.inr ⟨_, rfl, rfl, hlen.trans (Transcript.length_text_of_append_error ha).1, i, ?_⟩
      exact ⟨hi, rfl, rfl, next, Prod.ext hnext rfl⟩

/-! ## Calls -/

/-- The endless trace from `x` passes through the state that a call has left, or through the one from
which the call did the instruction whose row it tore. -/
def Passed (exe : Executable) (x : State × Transcript) (y : Report × State) : Prop :=
  ∃ n o z, exe.traced.runFor n x = (o, z) ∧
    (exe.spoils y → o = none ∧ ∃ i, i.changesTape ∧ exe.Torn i z.1 y.2) ∧
    (¬ exe.spoils y → y.2.Agrees z.1) ∧ (y.1.stop = .finished → o = some .finished)

/-- A call writes its header and then some rows, or not even the header. -/
theorem execute_traced_cases {room limit : Option Nat} {u : State} {stop : Stop}
    {trace : Option String} (h : exe.execute ⟨.traced room, limit⟩ s = some (stop, u, trace)) :
    (∃ n o w v, exe.traced.runFor n (s, w) = (o, u, v) ∧ header.length ≤ w.text.length ∧
      trace = some v.text ∧ (o = some stop ∨ o = none ∧ ∃ l, stop = .failed (.outOfSteps l))) ∨
    ∃ cause text, stop = .failed (.device s.pc cause) ∧ u = s ∧ trace = some text ∧
      text.length < header.length := by
  rcases execute_cases h with ⟨hmode, -⟩ | ⟨room', v, -, rfl, hrun⟩
  · cases hmode
  unfold traceWithin at hrun
  split at hrun
  · next w hw =>
    have hlen : header.length ≤ w.text.length := by
      rw [Transcript.text_of_append_ok hw, String.length_append]
      exact Nat.le_add_left _ _
    rcases Process.runWithin_cases hrun with ⟨n, hn⟩ | ⟨l, -, hn, hstop⟩
    · exact Or.inl ⟨n, some stop, w, v, hn, hlen, rfl, Or.inl rfl⟩
    · exact Or.inl ⟨_, none, w, v, hn, hlen, rfl, Or.inr ⟨rfl, l, hstop⟩⟩
  · next cause w hw =>
    cases hrun
    have hshort := (Transcript.length_text_of_append_error hw).2
    change v.text.length < 0 + header.length at hshort
    rw [Nat.zero_add] at hshort
    exact Or.inr ⟨cause, v.text, rfl, rfl, rfl, hshort⟩

/-- Behind the last instruction there is no row to be torn. -/
theorem not_spoils_of_over (r : Report) (h : exe.program.instruction? t.pc = none) :
    ¬ exe.spoils (r, t) := by
  simp [spoils, h]

theorem not_spoils_of_not_isDevice (t : State) (h : ¬ r.stop.isDevice) : ¬ exe.spoils (r, t) := by
  simp [spoils, h]

/-- Where every row fitted, no device can have failed but the sink in the final flush. -/
theorem not_spoils_of_whole {n : Nat} {o : Option Stop} {stop : Stop} {u : State}
    {x : State × Transcript} {v : Transcript} (hrun : exe.traced.runFor n x = (o, u, v))
    (ho : o = some stop ∨ o = none ∧ ∃ l, stop = .failed (.outOfSteps l))
    (hwhole : ∀ e, o = some (.failed e) → ¬ e.isDevice) (hagrees : t.Agrees u)
    (hstop : (conclude stop u).1 = r.stop) : ¬ exe.spoils (r, t) := by
  rcases ho with rfl | ⟨-, l, rfl⟩
  · cases stop with
    | finished =>
      apply not_spoils_of_over r
      rw [hagrees.pc_eq]
      exact Process.next?_of_runFor_finished hrun
    | failed e =>
      apply not_spoils_of_not_isDevice
      rw [← hstop, conclude_failed]
      exact hwhole e rfl
  · apply not_spoils_of_not_isDevice
    rw [← hstop, conclude_failed]
    exact Bool.false_ne_true

theorem spoils_of_torn {u : State} {text : String} (h : exe.Torn i u t) (hr : r.stop.isDevice)
    (htrace : r.trace = some text) (hlen : header.length ≤ text.length) :
    exe.spoils (r, t) = i.changesTape := by
  simp [spoils, hr, htrace, hlen, h.pc_eq, h.instruction?_eq]

/-- Of one call, there are three cases: every row fitted, or a row was torn, or even the header was. -/
theorem passed_call {x : State × Transcript} {room limit : Option Nat} (h : s.Agrees x.1)
    (hroom : x.2.room = none) (hcall : exe.call ⟨.traced room, limit⟩ s = some (r, t)) :
    exe.Passed x (r, t) := by
  obtain ⟨stop, u, he, hconclude⟩ := call_cases hcall
  have hagrees : t.Agrees u := by
    have := agrees_conclude stop u
    rwa [hconclude] at this
  have hstop : (conclude stop u).1 = r.stop := by rw [hconclude]
  rcases execute_traced_cases he with
    ⟨n, o, w, v, hn, hlen, htrace, ho⟩ | ⟨cause, text, rfl, rfl, htrace, hshort⟩
  · rcases (simulates_endless exe).runFor n ⟨h, hlen, hroom⟩ hn with
      ⟨y, hy, hend, hlapse⟩ | ⟨e, k, y, rfl, hdevice, -, hy, hle, i, htorn⟩
    · have hclean := not_spoils_of_whole hn ho hlapse hagrees hstop
      refine ⟨n, o, y, hy, fun hs => absurd hs hclean, fun _ => hagrees.trans hend.agrees, ?_⟩
      intro hr
      have hfinished := eq_finished_of_conclude (hstop.trans hr)
      rcases ho with rfl | ⟨-, l, rfl⟩
      · rw [hfinished]
      · cases hfinished
    · obtain rfl : stop = .failed e := by
        rcases ho with heq | ⟨hnone, -⟩
        · exact (Option.some.inj heq).symm
        · cases hnone
      rw [conclude_failed] at hstop
      have htorn' := htorn.of_agrees hagrees
      have hspoils := spoils_of_torn (r := r) htorn' (hstop ▸ hdevice) htrace hle
      refine ⟨k, none, y, hy, ?_, ?_, ?_⟩
      · intro hs
        exact ⟨rfl, i, hspoils ▸ hs, htorn'⟩
      · intro hs
        rw [hspoils] at hs
        exact htorn'.agrees (by simpa using hs)
      · intro hr
        cases hstop.trans hr
  · rw [conclude_failed] at hstop
    have hclean : ¬ exe.spoils (r, t) := by
      simp [spoils, htrace]
      omega
    refine ⟨0, _, x, rfl, fun hs => absurd hs hclean, fun _ => hagrees.trans h, ?_⟩
    intro hr
    cases hstop.trans hr

/-- What an endless trace passes behind a place on its way it passes from its start. -/
theorem Passed.of_runFor {x : State × Transcript} {y : Report × State} {k : Nat}
    (hroom : x.2.room = none) (h : exe.Passed (exe.traced.runFor k x).2 y) : exe.Passed x y := by
  obtain ⟨n, o, z, hn, hy⟩ := h
  obtain ⟨m, hm⟩ := (steady_traced exe).exists_runFor hroom k n
  exact ⟨m, o, z, hm.trans hn, hy⟩

/-- Up to the first call that spoils it, a session stays on the way of one endless trace. -/
theorem passed_calls {x : State × Transcript} {cs : List Call} {before after : List (Report × State)}
    {y : Report × State} (hcs : ∀ c ∈ cs, c.mode ≠ .real) (h : s.Agrees x.1)
    (hroom : x.2.room = none) (hcalls : exe.calls cs s = before ++ y :: after)
    (hbefore : ∀ z ∈ before, ¬ exe.spoils z) : exe.Passed x y := by
  induction before generalizing cs s x with
  | nil =>
    obtain ⟨⟨mode, limit⟩, cs', rfl, hcall, -⟩ := calls_eq_cons hcalls
    cases mode with
    | real => exact absurd rfl (hcs _ List.mem_cons_self)
    | traced room => exact passed_call h hroom hcall
  | cons z before ih =>
    obtain ⟨⟨mode, limit⟩, cs', rfl, hcall, hrest⟩ := calls_eq_cons hcalls
    cases mode with
    | real => exact absurd rfl (hcs _ List.mem_cons_self)
    | traced room =>
      obtain ⟨k, o, w, hk, -, hagrees, -⟩ := passed_call h hroom hcall
      have hw := (steady_traced exe).invariant k hroom
      have hnext := ih (x := (exe.traced.runFor k x).2)
        (fun c hc => hcs c (List.mem_cons_of_mem _ hc))
        (by rw [hk]; exact hagrees (hbefore z List.mem_cons_self)) hw hrest
        (fun z hz => hbefore z (List.mem_cons_of_mem _ hz))
      exact hnext.of_runFor hroom

end Executable

/-- How a call stopped, and where it left the machine. -/
def ending (x : Report × State) : Stop × Array UInt8 × Nat × Nat :=
  (x.1.stop, x.2.tape.cells, x.2.pc, x.2.steps)

/-! ## Top theorem -/

/-- In a session of traced calls none of which has torn the row of `>`, `<`, `+` or `-`, the next call
leaves the machine in a state that one endless trace goes through as well, in its last state if
the call has finished.  If the next call tears such a row, it leaves the place and the count as
they were but another tape, on which the instruction will be done again. -/
theorem torn_rows_alone_spoil (exe : Executable) (s : State) (cs : List Call)
    (hcs : ∀ c ∈ cs, c.mode ≠ .real) (before after : List (Report × State)) (r : Report) (t : State)
    (hcalls : exe.calls cs s = before ++ (r, t) :: after) (hbefore : ∀ x ∈ before, ¬ exe.spoils x) :
    (∃ n o u v, exe.traced.runFor n (s, ⟨none, header⟩) = (o, u, v) ∧
      (¬ exe.spoils (r, t) → t.Agrees u) ∧
      (exe.spoils (r, t) → o = none ∧ t.pc = u.pc ∧ t.steps = u.steps ∧ t.tape ≠ u.tape ∧
        ∃ i next, exe.program.instruction? t.pc = some i ∧
          exe.effect i t.pc u.tape = (.ok next, t.tape))) ∧
    (r.stop = .finished → ∃ r' t', exe.call ⟨.traced none, none⟩ s = some (r', t') ∧ t.Agrees t' ∧
      (s.console.flush.1 = .ok () → r'.stop = .finished)) := by
  have hpassed : exe.Passed (s, ⟨none, header⟩) (r, t) :=
    Executable.passed_calls hcs ⟨rfl, rfl, rfl⟩ rfl hcalls hbefore
  obtain ⟨n, o, ⟨u, v⟩, hrun, htorn, hclean, hfinished⟩ := hpassed
  refine ⟨⟨n, o, u, v, hrun, hclean, fun hs => ?_⟩, fun hr => ?_⟩
  · obtain ⟨ho, i, hi, ht⟩ := htorn hs
    obtain ⟨next, heffect⟩ := ht.effect_eq
    refine ⟨ho, ht.pc_eq, ht.steps_eq, fun heq => ?_, i, next, ?_, ?_⟩
    · rw [ht.tape_eq_iff.1 heq] at hi
      cases hi
    · rw [ht.pc_eq]
      exact ht.instruction?_eq
    · rw [ht.pc_eq]
      exact heffect
  · have hsafe : ¬ exe.spoils (r, t) := by
      apply Executable.not_spoils_of_not_isDevice
      rw [hr]
      exact Bool.false_ne_true
    obtain rfl := hfinished hr
    have hexec : exe.execute ⟨.traced none, none⟩ s = some (.finished, u, some v.text) := by
      have := (Process.run_eq_some_iff exe.traced _ _ _).2 ⟨n, hrun⟩
      rw [Executable.execute_traced, Process.runWithin, this]
      rfl
    obtain ⟨r', hcall, hstop, -⟩ := Executable.call_of_execute hexec
    have hagrees := Executable.agrees_conclude .finished u
    refine ⟨r', _, hcall, (hclean hsafe).trans hagrees.symm, fun hflush => ?_⟩
    rw [← Executable.console_of_execute_traced hexec] at hflush
    rw [hstop, Executable.conclude_of_flush_ok _ hflush]

/-- The row of `,` is torn, and the cell is still incremented once. -/
theorem torn_rows_alone_spoil_input :
    ∃ exe r t, (Program.parse ",+").link = .ok exe ∧
      exe.call ⟨.traced none, none⟩ (.initial 1 {}) = some (r, t) ∧
      r.stop = .finished ∧ t.tape.cells = #[1] ∧ t.pc = 2 ∧ t.steps = 2 := by
  let exe : Executable := ⟨.parse ",+", ⟨#[none, none], 0⟩, rfl⟩
  let cs : List Call := [⟨.traced (some 130), some 5⟩, ⟨.traced none, some 5⟩]
  have hlink : (Program.parse ",+").link = .ok exe := (Program.link_eq_ok_iff _ _).2 rfl
  have hcs : ∀ c ∈ cs, c.mode ≠ .real := by decide
  have hends : (exe.calls cs (.initial 1 {})).map ending =
      [(.failed (.device 0 "trace full"), #[0], 0, 0), (.finished, #[1], 2, 2)] := by
    decide +kernel
  have hlen : (exe.calls cs (.initial 1 {})).length = 2 := by
    simpa using congrArg List.length hends
  obtain ⟨x, ⟨r, t⟩, hcalls⟩ := List.length_eq_two.1 hlen
  rw [hcalls] at hends
  simp only [ending, List.map_cons, List.map_nil, List.cons.injEq, Prod.mk.injEq, and_true] at hends
  obtain ⟨⟨-, -, hpc₁, -⟩, hstop, hcells, hpc, hsteps⟩ := hends
  have hbefore : ∀ y ∈ [x], ¬ exe.spoils y := by
    have hread : exe.program.instruction? 0 = some .input := rfl
    simp [Executable.spoils, hpc₁, hread, Instruction.changesTape]
  obtain ⟨-, hfinish⟩ :=
    torn_rows_alone_spoil exe (.initial 1 {}) cs hcs [x] [] r t hcalls hbefore
  obtain ⟨r', t', hcall, hagrees, hstop'⟩ := hfinish hstop
  refine ⟨exe, r', t', hlink, hcall, hstop' rfl, ?_, ?_, ?_⟩
  · rw [← hagrees.tape_eq, hcells]
  · rw [← hagrees.pc_eq, hpc]
  · rw [← hagrees.steps_eq, hsteps]

/-- The row of the only `+` is torn.  The cell is left incremented, and incremented once more by the
call that finishes, while an endless trace increments it once. -/
theorem increment_done_twice :
    ∃ exe, (Program.parse "+").link = .ok exe ∧
      (exe.calls [⟨.traced (some 130), none⟩, ⟨.traced none, none⟩] (.initial 1 {})).map ending =
        [(.failed (.device 0 "trace full"), #[1], 0, 0), (.finished, #[2], 1, 1)] ∧
      (exe.calls [⟨.traced none, none⟩] (.initial 1 {})).map ending = [(.finished, #[1], 1, 1)] := by
  let exe : Executable := ⟨.parse "+", ⟨#[none], 0⟩, rfl⟩
  have hlink : (Program.parse "+").link = .ok exe := (Program.link_eq_ok_iff _ _).2 rfl
  -- calls without a limit cannot be evaluated, but these do the same with one
  have hlimit : ∀ (modes : List Mode) ends,
      (exe.calls (modes.map (⟨·, some 5⟩)) (.initial 1 {})).map ending = ends →
      (∀ y ∈ ends, y.1 ≠ .failed (.outOfSteps 5)) → ends.length = modes.length →
      (exe.calls (modes.map (⟨·, none⟩)) (.initial 1 {})).map ending = ends := by
    rintro modes _ rfl hstops hlen
    have hstops' : ∀ x ∈ exe.calls (modes.map (⟨·, some 5⟩)) (.initial 1 {}),
        x.1.stop ≠ .failed (.outOfSteps 5) := fun x hx => hstops _ (List.mem_map_of_mem hx)
    rw [exe.calls_of_limit modes 5 _ hstops' (by simpa using hlen)]
  refine ⟨exe, hlink, ?_, ?_⟩
  · exact hlimit [.traced (some 130), .traced none] _ (by decide +kernel) (by decide) rfl
  · exact hlimit [.traced none] _ (by decide +kernel) (by decide) rfl

end Brainfuck
