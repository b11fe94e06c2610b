import Brainfuck.Proofs.Devices
import Brainfuck.Proofs.Simulation
import Mathlib.Data.ENat.Basic

/-!
# What a machine can see of its input

An interrupted read is tried again, and the sentinel is read like the end of input.  So of a script a
machine sees only its normal form, an endless sequence of answers, and of that no more than it has
asked for: two sessions whose inputs have the same normal form up to the reads that the first one does
end alike after every call (`sessions_agree_on_normal_input`).

`Resembles k` holds between consoles whose inputs agree as far as the `k`-th read of the first one's
life; behind that they may differ, so the machines are compared only while the first one has not read
more (`simulates_normal`).
-/

namespace Brainfuck

/-- An interruption is no answer. -/
def Reading.normal? : Reading → Option Reading
  | byte b => some (if b = Executable.sentinel then endOfInput else byte b)
  | endOfInput => some endOfInput
  | interrupted => none
  | failed cause => some (failed cause)

/-- The answers that a script gives to the machine, and behind them the end of input for ever. -/
def normalInput (script : List Reading) (n : Nat) : Reading :=
  (script.filterMap Reading.normal?)[n]?.getD .endOfInput

/-- What an answer is to the machine. -/
def Reading.ofAnswer : Except String (Option UInt8) → Reading
  | .ok (some b) => if b = Executable.sentinel then endOfInput else byte b
  | .ok none => endOfInput
  | .error cause => failed cause

theorem Reading.ofAnswer_ok_ne_failed (b : Option UInt8) (cause : String) :
    ofAnswer (.ok b) ≠ .failed cause := by
  intro h
  cases b with
  | none => cases h
  | some b =>
    simp only [ofAnswer] at h
    split at h <;> cases h

/-- A read that was not interrupted. -/
def Event.isAnswer : Event → Bool
  | read _ | readEnd | readFailed => true
  | _ => false

/-- The sink without its interruptions. -/
def Sink.uninterrupted (s : Sink) : Sink := { s with interruptedWrites := [], writes := 0 }

namespace Console

/-- How many reads have been answered. -/
def reads (c : Console) : Nat := c.history.toList.countP Event.isAnswer

/-- The inputs agree up to the read that is the `k`-th for `c`, and the sinks but for interruptions. -/
structure Resembles (k : ℕ∞) (c d : Console) : Prop where
  input_eq : ∀ n : ℕ, ((c.reads + n : ℕ) : ℕ∞) < k → normalInput c.script n = normalInput d.script n
  sink_eq : c.sink.uninterrupted = d.sink.uninterrupted

variable {k : ℕ∞} {c d : Console}

/-! ## Single operations -/

theorem reads_push (script : List Reading) (sink : Sink) (history : Array Event) (e : Event) :
    (⟨script, sink, history.push e⟩ : Console).reads =
      (⟨script, sink, history⟩ : Console).reads + if e.isAnswer then 1 else 0 := by
  simp only [reads, Array.toList_push, List.countP_append, List.countP_singleton]

/-- A read gives the next answer of the normal form. -/
theorem read_normal (c : Console) :
    ∃ answer d, c.read = (answer, d) ∧ Reading.ofAnswer answer = normalInput c.script 0 ∧
      (∀ n, normalInput d.script n = normalInput c.script (n + 1)) ∧ d.reads = c.reads + 1 ∧
      d.sink = c.sink := by
  obtain ⟨script, sink, history⟩ := c
  unfold read
  induction script generalizing history with
  | nil => exact ⟨_, _, rfl, rfl, fun n => rfl, reads_push _ _ _ _, rfl⟩
  | cons r rest ih =>
    cases r with
    | byte b => exact ⟨_, _, rfl, rfl, fun n => rfl, reads_push _ _ _ _, rfl⟩
    | endOfInput => exact ⟨_, _, rfl, rfl, fun n => rfl, reads_push _ _ _ _, rfl⟩
    | failed cause => exact ⟨_, _, rfl, rfl, fun n => rfl, reads_push _ _ _ _, rfl⟩
    | interrupted =>
      obtain ⟨answer, d, hread, hanswer, hinput, hreads, hsink⟩ := ih (history.push .readInterrupted)
      refine ⟨answer, d, hread, hanswer, hinput, ?_, hsink⟩
      rw [hreads, reads_push]
      rfl

@[simp] theorem reads_write (c : Console) (b : UInt8) : (c.write b).2.reads = c.reads := by
  obtain ⟨script, sink, history⟩ := c
  have hinterrupted : ∀ n sink, (⟨script, sink, history ++ Array.replicate n .writeInterrupted⟩ :
      Console).reads = (⟨script, sink, history⟩ : Console).reads := by
    intro n sink
    simp only [reads, Array.toList_append, Array.toList_replicate, List.countP_append,
      List.countP_replicate]
    rfl
  simp only [write]
  split <;> exact (reads_push _ _ _ _).trans (hinterrupted _ _)

@[simp] theorem reads_flush (c : Console) : c.flush.2.reads = c.reads := by
  rw [flush_eq]
  split <;> exact reads_push _ _ _ _

/-- All that writing and flushing depend on. -/
def outlet (c : Console) : Console := ⟨[], c.sink.uninterrupted, #[]⟩

theorem write_outlet (c : Console) (b : UInt8) :
    (c.write b).1 = (c.outlet.write b).1 ∧ (c.write b).2.outlet = (c.outlet.write b).2.outlet := by
  have hrefusal : c.outlet.sink.refusal? = c.sink.refusal? := rfl
  simp only [write, hrefusal]
  split <;> exact ⟨rfl, rfl⟩

theorem flush_outlet (c : Console) :
    c.flush.1 = c.outlet.flush.1 ∧ c.flush.2.outlet = c.outlet.flush.2.outlet := by
  rw [flush_eq, flush_eq]
  by_cases h : c.sink.flushes ∈ c.sink.failedFlushes
  · rw [if_pos h, if_pos (show c.outlet.sink.flushes ∈ c.outlet.sink.failedFlushes from h)]
    exact ⟨rfl, rfl⟩
  · rw [if_neg h, if_neg (show c.outlet.sink.flushes ∉ c.outlet.sink.failedFlushes from h)]
    exact ⟨rfl, rfl⟩

namespace Resembles

theorem outlet_eq (h : Resembles k c d) : c.outlet = d.outlet := by
  simp only [outlet, h.sink_eq]

theorem write (h : Resembles k c d) (b : UInt8) :
    (c.write b).1 = (d.write b).1 ∧ Resembles k (c.write b).2 (d.write b).2 := by
  obtain ⟨hanswer, houtlet⟩ := c.write_outlet b
  obtain ⟨hanswer', houtlet'⟩ := d.write_outlet b
  rw [h.outlet_eq] at hanswer houtlet
  refine ⟨hanswer.trans hanswer'.symm, fun n hn => ?_, ?_⟩
  · rw [script_write, script_write]
    exact h.input_eq n (by simpa using hn)
  · exact congrArg Console.sink (houtlet.trans houtlet'.symm)

theorem flush (h : Resembles k c d) :
    c.flush.1 = d.flush.1 ∧ Resembles k c.flush.2 d.flush.2 := by
  obtain ⟨hanswer, houtlet⟩ := c.flush_outlet
  obtain ⟨hanswer', houtlet'⟩ := d.flush_outlet
  rw [h.outlet_eq] at hanswer houtlet
  refine ⟨hanswer.trans hanswer'.symm, fun n hn => ?_, ?_⟩
  · rw [script_flush, script_flush]
    exact h.input_eq n (by simpa using hn)
  · exact congrArg Console.sink (houtlet.trans houtlet'.symm)

/-- A read that is not behind the `k`-th. -/
theorem read (h : Resembles k c d) (hk : (c.read.2.reads : ℕ∞) ≤ k) :
    Reading.ofAnswer c.read.1 = Reading.ofAnswer d.read.1 ∧ Resembles k c.read.2 d.read.2 := by
  obtain ⟨answer, c', hc, hanswer, hinput, hreads, hsink⟩ := c.read_normal
  obtain ⟨answer', d', hd, hanswer', hinput', -, hsink'⟩ := d.read_normal
  rw [hc] at hk ⊢
  rw [hd]
  have hlt : ∀ n : ℕ, ((c.reads + n : ℕ) : ℕ∞) < k → normalInput c.script n = normalInput d.script n :=
    h.input_eq
  refine ⟨?_, fun n hn => ?_, ?_⟩
  · rw [hanswer, hanswer']
    apply hlt 0
    have hnext : ((c.reads + 0 : ℕ) : ℕ∞) < (c'.reads : ℕ∞) := by
      rw [hreads]
      exact Nat.cast_lt.2 (Nat.lt_succ_self _)
    exact lt_of_lt_of_le hnext hk
  · rw [hinput, hinput']
    apply hlt
    rw [hreads, Nat.add_assoc, Nat.add_comm 1 n] at hn
    exact hn
  · rw [hsink, hsink']
    exact h.sink_eq

end Resembles

/-- Nothing is unread. -/
theorem kept_reads (m : Nat) : Kept fun c => m ≤ c.reads where
  write b h := by simpa using h
  flush h := by simpa using h
  read {c} h := by
    obtain ⟨answer, d, hread, -, -, hreads, -⟩ := c.read_normal
    rw [hread, hreads]
    exact Nat.le_succ_of_le h

end Console

/-! ## Single instructions -/

/-- Machines that agree, at consoles that resemble one another. -/
structure State.Resembles (k : ℕ∞) (s t : State) : Prop where
  agrees : s.Agrees t
  console : s.console.Resembles k t.console

namespace Executable

variable {exe : Executable} {i : Instruction} {s t : State} {k : ℕ∞}

/-- What an answer in normal form makes of the tape. -/
def absorb (tape : Tape) : Reading → Tape
  | .byte b => tape.write b
  | _ => tape

theorem receive_eq_absorb (tape : Tape) (b : Option UInt8) :
    receive tape b = absorb tape (.ofAnswer (.ok b)) := by
  cases b with
  | none => rfl
  | some b =>
    simp only [receive, Reading.ofAnswer]
    by_cases hb : b = sentinel
    · rw [if_pos hb, if_pos hb]
      rfl
    · rw [if_neg hb, if_neg hb]
      rfl

theorem attempt_normal (exe : Executable) (i : Instruction) (h : s.Resembles k t)
    (hk : ((exe.attempt i s).2.console.reads : ℕ∞) ≤ k) :
    (exe.attempt i s).1 = (exe.attempt i t).1 ∧ (exe.attempt i s).2.Resembles k (exe.attempt i t).2 := by
  obtain ⟨tape, pc, steps, c⟩ := s
  obtain ⟨_, _, _, d⟩ := t
  obtain ⟨⟨rfl, rfl, rfl⟩, h⟩ := h
  change c.Resembles k d at h
  rcases exe.attempt_cases i with rfl | rfl | hplain
  · obtain ⟨hanswer, hwrite⟩ := h.write tape.cell
    simp only [attempt, emit] at hk ⊢
    rcases hc : c.write tape.cell with ⟨cause | _, c'⟩ <;>
      rcases hd : d.write tape.cell with ⟨cause' | _, d'⟩ <;>
      rw [hc, hd] at hanswer hwrite <;> cases hanswer
    · exact ⟨rfl, ⟨rfl, rfl, rfl⟩, hwrite⟩
    · exact ⟨rfl, ⟨rfl, rfl, rfl⟩, hwrite⟩
  · obtain ⟨hflushed, hflush⟩ := h.flush
    simp only [attempt, accept] at hk ⊢
    rcases hc : c.flush with ⟨cause | _, c₁⟩ <;>
      rcases hd : d.flush with ⟨cause' | _, d₁⟩ <;>
      rw [hc, hd] at hflushed hflush <;> cases hflushed
    · exact ⟨rfl, ⟨rfl, rfl, rfl⟩, hflush⟩
    · change c₁.Resembles k d₁ at hflush
      have hread : (c₁.read.2.reads : ℕ∞) ≤ k := by
        simp only [hc] at hk
        rcases hr : c₁.read with ⟨_ | _, c₂⟩ <;> simp only [hr] at hk <;> exact hk
      obtain ⟨hanswer, hboth⟩ := hflush.read hread
      rcases hr : c₁.read with ⟨cause | b, c₂⟩ <;>
        rcases hr' : d₁.read with ⟨cause' | b', d₂⟩ <;>
        rw [hr, hr'] at hanswer hboth <;> simp only [hr, hr']
      · cases hanswer
        exact ⟨rfl, ⟨rfl, rfl, rfl⟩, hboth⟩
      · exact absurd hanswer.symm (Reading.ofAnswer_ok_ne_failed b' cause)
      · exact absurd hanswer (Reading.ofAnswer_ok_ne_failed b cause')
      · refine ⟨trivial, ⟨?_, rfl, rfl⟩, hboth⟩
        rw [receive_eq_absorb, receive_eq_absorb, hanswer]
  · rw [hplain, hplain, rehearse_eq, rehearse_eq]
    exact ⟨rfl, ⟨rfl, rfl, rfl⟩, h⟩

theorem simulates_normal (exe : Executable) (k : ℕ∞) :
    exe.real.SimulatesWhile exe.real (State.Resembles k) (fun s => (s.console.reads : ℕ∞) ≤ k) where
  next?_eq h := congrArg exe.program.instruction? h.agrees.pc_eq
  perform {s s' t i r} h hi hp hk := by
    change exe.perform i s = _ at hp
    have hstep := exe.attempt_normal i h
    rcases hs : exe.attempt i s with ⟨e | next, u⟩ <;> rcases ht : exe.attempt i t with ⟨e' | next', v⟩ <;>
      rw [hs, ht] at hstep
    · rw [perform_of_attempt_error hs] at hp
      cases hp
      obtain ⟨hanswer, h'⟩ := hstep hk
      cases hanswer
      exact ⟨v, perform_of_attempt_error ht, h'⟩
    · rw [perform_of_attempt_error hs] at hp
      cases hp
      cases (hstep hk).1
    · rw [perform_of_attempt_ok hs] at hp
      cases hp
      cases (hstep hk).1
    · rw [perform_of_attempt_ok hs] at hp
      cases hp
      obtain ⟨hanswer, h'⟩ := hstep hk
      cases hanswer
      exact ⟨_, perform_of_attempt_ok ht,
        ⟨h'.agrees.tape_eq, rfl, congrArg (· + 1) h'.agrees.steps_eq⟩, h'.console⟩
  within_of_perform {s i} hk := by
    have hle := (Console.kept_reads s.console.reads).perform exe i (Nat.le_refl _)
    exact le_trans (Nat.cast_le.2 hle) hk

/-! ## Calls -/

theorem conclude_normal (stop : Stop) (h : s.Resembles k t) :
    (conclude stop s).1 = (conclude stop t).1 ∧ (conclude stop s).2.Resembles k (conclude stop t).2 := by
  obtain ⟨tape, pc, steps, c⟩ := s
  obtain ⟨_, _, _, d⟩ := t
  obtain ⟨⟨rfl, rfl, rfl⟩, h⟩ := h
  obtain ⟨hanswer, hflush⟩ := Console.Resembles.flush h
  rw [conclude_eq, conclude_eq]
  refine ⟨?_, ⟨rfl, rfl, rfl⟩, hflush⟩
  simp only [hanswer]

theorem rel_call_normal (limit : Option Nat) (h : s.Resembles k t)
    (hk : ∀ n, (∀ l, limit = some l → n ≤ l - s.steps) →
      ((exe.real.runFor n s).2.console.reads : ℕ∞) ≤ k) :
    Option.Rel (fun x y => x.1.stop = y.1.stop ∧ x.2.Resembles k y.2)
      (exe.call ⟨.real, limit⟩ s) (exe.call ⟨.real, limit⟩ t) := by
  have hrun := (exe.simulates_normal k).runWithin h hk
  exact rel_call_of_runWithin (Q := fun x y => x.1 = y.1 ∧ x.2.Resembles k y.2) h.agrees.steps_eq hrun
    fun stop _ _ h' => conclude_normal stop h'

/-- A call that has not read more by its end has not done so on the way. -/
theorem reads_of_call {limit : Option Nat} {r : Report} {s' : State}
    (hcall : exe.call ⟨.real, limit⟩ s = some (r, s')) (hk : (s'.console.reads : ℕ∞) ≤ k) (n : Nat)
    (hn : ∀ l, limit = some l → n ≤ l - s.steps) :
    ((exe.real.runFor n s).2.console.reads : ℕ∞) ≤ k := by
  obtain ⟨stop, u, he, hconclude⟩ := call_cases hcall
  rcases execute_cases he with ⟨-, -, hrun⟩ | ⟨_, _, hmode, -⟩
  · refine (exe.simulates_normal k).within_of_runWithin hrun ?_ n hn
    have hreads : (conclude stop u).2.console.reads = u.console.reads := by
      rw [conclude_eq]
      exact Console.reads_flush u.console
    rw [hconclude] at hreads
    rwa [← hreads]
  · cases hmode

theorem call_normal {limit : Option Nat} {r : Report} {s' : State} (h : s.Resembles k t)
    (hcall : exe.call ⟨.real, limit⟩ s = some (r, s')) (hk : (s'.console.reads : ℕ∞) ≤ k) :
    ∃ r' t', exe.call ⟨.real, limit⟩ t = some (r', t') ∧ r'.stop = r.stop ∧ s'.Resembles k t' := by
  have hrel := rel_call_normal limit h fun n hn => reads_of_call hcall hk n hn
  rw [hcall] at hrel
  obtain ⟨⟨r', t'⟩, ht, hstop, h'⟩ := exists_of_rel_some hrel
  exact ⟨r', t', ht, hstop.symm, h'⟩

/-! ## Sessions -/

theorem calls_of_none {c : Call} {cs : List Call} (h : exe.call c s = none) :
    exe.calls (c :: cs) s = [] := by
  simp only [calls, h]

/-- Nothing is unread by later calls. -/
theorem reads_le_of_mem_calls {cs : List Call} {x : Report × State} (hx : x ∈ exe.calls cs s) :
    s.console.reads ≤ x.2.console.reads :=
  (Console.kept_reads s.console.reads).calls (Nat.le_refl _) x hx

theorem calls_normal {limits : List (Option Nat)} {j : Nat} {r : Report} {s' : State}
    (h : s.Resembles k t) (hj : (exe.calls (limits.map (⟨.real, ·⟩)) s)[j]? = some (r, s'))
    (hk : (s'.console.reads : ℕ∞) ≤ k) :
    ∃ r' t', (exe.calls (limits.map (⟨.real, ·⟩)) t)[j]? = some (r', t') ∧ r'.stop = r.stop ∧
      s'.Resembles k t' := by
  induction limits generalizing s t j with
  | nil => cases hj
  | cons limit limits ih =>
    rw [List.map_cons] at hj ⊢
    cases hcall : exe.call ⟨.real, limit⟩ s with
    | none =>
      rw [calls_of_none hcall] at hj
      cases hj
    | some x =>
      obtain ⟨r₁, s₁⟩ := x
      rw [calls_cons hcall] at hj
      cases j with
      | zero =>
        cases hj
        obtain ⟨r', t', ht, hstop, h'⟩ := call_normal h hcall hk
        rw [calls_cons ht]
        exact ⟨r', t', rfl, hstop, h'⟩
      | succ j =>
        rw [List.getElem?_cons_succ] at hj
        have hle : s₁.console.reads ≤ s'.console.reads :=
          reads_le_of_mem_calls (List.mem_of_getElem? hj)
        obtain ⟨r', t₁, ht, -, h'⟩ := call_normal h hcall (le_trans (Nat.cast_le.2 hle) hk)
        rw [calls_cons ht, List.getElem?_cons_succ]
        exact ih h' hj

/-- If the one session hangs in a call, without having read more, so does the other. -/
theorem length_calls_normal {limits : List (Option Nat)} (h : s.Resembles k t)
    (hhangs : (exe.calls (limits.map (⟨.real, ·⟩)) s).length < limits.length)
    (hk : ∀ n, ((exe.real.runFor n (((exe.calls (limits.map (⟨.real, ·⟩)) s).map Prod.snd).getLastD
      s)).2.console.reads : ℕ∞) ≤ k) :
    (exe.calls (limits.map (⟨.real, ·⟩)) t).length =
      (exe.calls (limits.map (⟨.real, ·⟩)) s).length := by
  induction limits generalizing s t with
  | nil => cases hhangs
  | cons limit limits ih =>
    rw [List.map_cons] at hhangs hk ⊢
    cases hcall : exe.call ⟨.real, limit⟩ s with
    | none =>
      rw [calls_of_none hcall] at hk ⊢
      have hrel := rel_call_normal limit h fun n _ => hk n
      rw [hcall] at hrel
      rw [calls_of_none (eq_none_of_rel_none hrel)]
    | some x =>
      obtain ⟨r₁, s₁⟩ := x
      rw [calls_cons hcall] at hhangs hk ⊢
      rw [List.map_cons, List.getLastD_cons] at hk
      have hle : s₁.console.reads ≤
          (((exe.calls (limits.map (⟨.real, ·⟩)) s₁).map Prod.snd).getLastD s₁).console.reads := by
        have hmem : ((exe.calls (limits.map (⟨.real, ·⟩)) s₁).map Prod.snd).getLastD s₁ ∈
            s₁ :: (exe.calls (limits.map (⟨.real, ·⟩)) s₁).map Prod.snd := List.getLastD_mem_cons
        rcases List.mem_cons.1 hmem with hlast | hlast
        · rw [hlast]
        · obtain ⟨x, hx, hlast⟩ := List.mem_map.1 hlast
          rw [← hlast]
          exact reads_le_of_mem_calls hx
      obtain ⟨r', t₁, ht, -, h'⟩ := call_normal h hcall (le_trans (Nat.cast_le.2 hle) (hk 0))
      rw [calls_cons ht, List.length_cons, List.length_cons, ih h' (Nat.lt_of_succ_lt_succ hhangs) hk]

end Executable

/-! ## Top theorem -/

/-- As long as the calls of the first session have read no more than `k` times, and for ever if there is
no bound. -/
theorem sessions_agree_on_normal_input (exe : Executable) (tapeLength : Nat)
    (limits : List (Option Nat)) (script script' : List Reading) (sink : Sink) (marks : List Nat)
    (k : ℕ∞) (hk : ∀ n : ℕ, (n : ℕ∞) < k → normalInput script n = normalInput script' n) :
    let start : State := .initial tapeLength { script := script, sink := sink }
    let start' : State := .initial tapeLength
      { script := script', sink := { sink with interruptedWrites := marks } }
    let answers := exe.calls (limits.map (⟨.real, ·⟩)) start
    let answers' := exe.calls (limits.map (⟨.real, ·⟩)) start'
    (∀ (j : Nat) (r : Report) (s : State), answers[j]? = some (r, s) →
      (s.console.reads : ℕ∞) ≤ k →
      ∃ r' s', answers'[j]? = some (r', s') ∧ r'.stop = r.stop ∧ s'.Agrees s ∧
        s'.console.sink.stored = s.console.sink.stored) ∧
    (answers.length < limits.length →
      (∀ n, ((exe.real.runFor n ((answers.map Prod.snd).getLastD start)).2.console.reads : ℕ∞) ≤ k) →
      answers'.length = answers.length) := by
  intro start start' answers answers'
  have hstart : start.Resembles k start' := by
    refine ⟨⟨rfl, rfl, rfl⟩, fun n hn => ?_, rfl⟩
    apply hk
    have hnone : start.console.reads = 0 := rfl
    rwa [hnone, Nat.zero_add] at hn
  refine ⟨fun j r s hj hs => ?_, fun hhangs hreads => ?_⟩
  · obtain ⟨r', s', hj', hstop, h⟩ := Executable.calls_normal hstart hj hs
    have hstored := congrArg Sink.stored h.console.sink_eq
    exact ⟨r', s', hj', hstop, h.agrees.symm, hstored.symm⟩
  · exact Executable.length_calls_normal hstart hhangs hreads

/-- A read of the sentinel against one at the end of input, with interruptions of both kinds; the third
answers differ, but nobody asks for them. -/
theorem sessions_agree_on_normal_input_copy :
    (∀ n : ℕ, (n : ℕ∞) < 2 →
      normalInput [.byte 7, .byte 26, .byte 1] n =
        normalInput [.interrupted, .byte 7, .endOfInput, .byte 9] n) ∧
    ∃ exe r s r' s', (Program.parse ",.,.").link = .ok exe ∧
      (exe.calls ([some 2, some 9].map (⟨.real, ·⟩))
        (.initial 1 ⟨[.byte 7, .byte 26, .byte 1], {}, #[]⟩))[1]? = some (r, s) ∧
      r.stop = .finished ∧ s.console.reads = 2 ∧
      (exe.calls ([some 2, some 9].map (⟨.real, ·⟩))
        (.initial 1 ⟨[.interrupted, .byte 7, .endOfInput, .byte 9], { interruptedWrites := [1] },
          #[]⟩))[1]? = some (r', s') ∧
      r'.stop = .finished ∧ s'.Agrees s ∧ s'.console.sink.stored = #[7, 7] := by
  have hnormal : ∀ n : ℕ, (n : ℕ∞) < 2 →
      normalInput [.byte 7, .byte 26, .byte 1] n =
        normalInput [.interrupted, .byte 7, .endOfInput, .byte 9] n := by
    intro n hn
    have hlt : n < 2 := Nat.cast_lt.1 hn
    obtain rfl | rfl : n = 0 ∨ n = 1 := by omega
    · rfl
    · rfl
  refine ⟨hnormal, ?_⟩
  let exe : Executable := ⟨.parse ",.,.", ⟨#[none, none, none, none], 0⟩, rfl⟩
  have hlink : (Program.parse ",.,.").link = .ok exe := (Program.link_eq_ok_iff _ _).2 rfl
  obtain ⟨r, s, hcalls, hstop, hreads, hstored⟩ : ∃ r s,
      (exe.calls ([some 2, some 9].map (⟨.real, ·⟩))
        (.initial 1 ⟨[.byte 7, .byte 26, .byte 1], {}, #[]⟩))[1]? = some (r, s) ∧
      r.stop = .finished ∧ s.console.reads = 2 ∧ s.console.sink.stored = #[7, 7] :=
    ⟨_, _, rfl, rfl, rfl, rfl⟩
  obtain ⟨hagree, -⟩ :=
    sessions_agree_on_normal_input exe 1 [some 2, some 9] _ _ {} [1] 2 hnormal
  have hwithin : (s.console.reads : ℕ∞) ≤ 2 := le_of_eq (congrArg Nat.cast hreads)
  obtain ⟨r', s', hcalls', hstop', hstate, hstored'⟩ := hagree 1 r s hcalls hwithin
  exact ⟨exe, r, s, r', s', hlink, hcalls, hstop, hreads, hcalls', hstop'.trans hstop, hstate,
    hstored'.trans hstored⟩

end Brainfuck
