import Brainfuck.Session

/-!
# Consoles under use

What each of the three operations on a console, `write`, `flush` and `read`, leaves of it.  What all
three keep every call keeps (`Console.Kept.call`).  On a `Reliable` console none of them fails.
-/

namespace Brainfuck

def RunError.isDevice : RunError → Bool
  | device .. => true
  | _ => false

/-- A device is to blame. -/
def Stop.isDevice : Stop → Bool
  | finished => false
  | failed e => e.isDevice

/-- A byte or the end of input.  The other answers to a read bring nothing. -/
def Reading.isDelivery : Reading → Bool
  | byte _ | endOfInput => true
  | interrupted | failed _ => false

def Reading.isFailure : Reading → Bool
  | failed _ => true
  | _ => false

theorem Reading.not_isFailure {r : Reading} (h : r.isDelivery) : ¬ r.isFailure := by
  cases r
  case failed => cases h
  all_goals exact Bool.false_ne_true

def Reading.byte? : Reading → Option UInt8
  | byte b => some b
  | _ => none

/-- Something was read or written.  All other events are about attempts that came to nothing, and
about flushes. -/
def Event.isDelivery : Event → Bool
  | read _ | readEnd | wrote _ => true
  | _ => false

def Event.ofRead : Option UInt8 → Event
  | some b => read b
  | none => readEnd

/-- The sink takes every byte, though perhaps not at the first attempt. -/
structure Sink.Open (s : Sink) : Prop where
  capacity_eq : s.capacity = none
  refusals_eq : ∀ r ∈ s.refusals, r = none

theorem Sink.Open.refusal?_eq_none {s : Sink} (h : s.Open) : s.refusal? = none := by
  unfold Sink.refusal?
  split
  · next refusal rest hr =>
    have := h.refusals_eq (some refusal) (by rw [hr]; exact List.mem_cons_self)
    cases this
  · simp [Sink.isFull, h.capacity_eq]

namespace Console

/-- What the coming reads will bring, interruptions and failures left out. -/
def arrivals (c : Console) : List Reading := c.script.filter Reading.isDelivery

/-- What was read and written so far. -/
def deliveries (c : Console) : List Event := c.history.toList.filter Event.isDelivery

/-- How many of the coming reads fail. -/
def failedReads (c : Console) : Nat := c.script.countP Reading.isFailure

/-- How many reads and flushes can still fail. -/
def faults (c : Console) : Nat := c.failedReads + c.sink.failedFlushes.countP (c.sink.flushes ≤ ·)

/-- No read, write or flush will ever fail; interruptions are no failures. -/
structure Reliable (c : Console) : Prop where
  sink_open : c.sink.Open
  reads : ∀ r ∈ c.script, ¬ r.isFailure
  flushes : ∀ n ∈ c.sink.failedFlushes, n < c.sink.flushes

/-- All three operations keep `P`. -/
structure Kept (P : Console → Prop) : Prop where
  write : ∀ {c} (b : UInt8), P c → P (c.write b).2
  flush : ∀ {c : Console}, P c → P c.flush.2
  read : ∀ {c : Console}, P c → P c.read.2

theorem deliveries_push (script : List Reading) (sink : Sink) (history : Array Event) (e : Event) :
    (⟨script, sink, history.push e⟩ : Console).deliveries =
      (⟨script, sink, history⟩ : Console).deliveries ++ [e].filter Event.isDelivery := by
  simp only [deliveries, Array.toList_push, List.filter_append]

theorem deliveries_push_of_not {e : Event} (he : e.isDelivery = false) (script : List Reading)
    (sink : Sink) (history : Array Event) :
    (⟨script, sink, history.push e⟩ : Console).deliveries =
      (⟨script, sink, history⟩ : Console).deliveries := by
  rw [deliveries_push, List.filter_cons_of_neg (by simp [he]), List.filter_nil, List.append_nil]

/-! ## Writing -/

@[simp] theorem script_write (c : Console) (b : UInt8) : (c.write b).2.script = c.script := by
  simp only [write]
  split <;> rfl

@[simp] theorem flushes_write (c : Console) (b : UInt8) :
    (c.write b).2.sink.flushes = c.sink.flushes := by
  simp only [write]
  split <;> rfl

@[simp] theorem failedFlushes_write (c : Console) (b : UInt8) :
    (c.write b).2.sink.failedFlushes = c.sink.failedFlushes := by
  simp only [write]
  split <;> rfl

theorem capacity_write (c : Console) (b : UInt8) :
    (c.write b).2.sink.capacity = c.sink.capacity := by
  simp only [write]
  split <;> rfl

theorem refusals_write (c : Console) (b : UInt8) :
    (c.write b).2.sink.refusals = c.sink.refusals.tail := by
  simp only [write]
  split <;> rfl

theorem stored_write_of_error {c : Console} {b : UInt8} {cause : String}
    (h : (c.write b).1 = .error cause) : (c.write b).2.sink.stored = c.sink.stored := by
  simp only [write] at h ⊢
  split at h <;> first | rfl | cases h

theorem stored_write_of_ok {c : Console} {b : UInt8} (h : (c.write b).1 = .ok ()) :
    (c.write b).2.sink.stored = c.sink.stored.push b := by
  simp only [write] at h ⊢
  split at h <;> first | rfl | cases h

theorem deliveries_write_of_ok {c : Console} {b : UInt8} (h : (c.write b).1 = .ok ()) :
    (c.write b).2.deliveries = c.deliveries ++ [.wrote b] := by
  simp only [write] at h
  split at h
  · cases h
  · cases h
  · next hr =>
    have hskip : ∀ n, (List.replicate n Event.writeInterrupted).filter Event.isDelivery = [] :=
      fun n => List.filter_replicate_of_neg Bool.false_ne_true
    simp only [write, hr, deliveries_push]
    simp only [deliveries, Array.toList_append, Array.toList_replicate, List.filter_append, hskip,
      List.append_nil]
    rfl

theorem write_of_open {c : Console} (h : c.sink.Open) (b : UInt8) : (c.write b).1 = .ok () := by
  simp only [write, h.refusal?_eq_none]

theorem open_write {c : Console} (h : c.sink.Open) (b : UInt8) : (c.write b).2.sink.Open where
  capacity_eq := (capacity_write c b).trans h.capacity_eq
  refusals_eq r hr := h.refusals_eq r (List.mem_of_mem_tail (refusals_write c b ▸ hr))

/-! ## Flushing -/

theorem flush_eq (c : Console) :
    c.flush =
      if c.sink.flushes ∈ c.sink.failedFlushes then
        (.error "flush failed", ⟨c.script, { c.sink with flushes := c.sink.flushes + 1 },
          c.history.push .flushFailed⟩)
      else
        (.ok (), ⟨c.script, { c.sink with flushes := c.sink.flushes + 1 },
          c.history.push .flushed⟩) := rfl

@[simp] theorem script_flush (c : Console) : c.flush.2.script = c.script := by
  rw [flush_eq]
  split <;> rfl

@[simp] theorem sink_flush (c : Console) :
    c.flush.2.sink = { c.sink with flushes := c.sink.flushes + 1 } := by
  rw [flush_eq]
  split <;> rfl

@[simp] theorem deliveries_flush (c : Console) : c.flush.2.deliveries = c.deliveries := by
  rw [flush_eq]
  split <;> exact deliveries_push_of_not rfl _ _ _

theorem flush_fst_eq_ok_iff (c : Console) :
    c.flush.1 = .ok () ↔ c.sink.flushes ∉ c.sink.failedFlushes := by
  rw [flush_eq]
  split <;> simp [*]

theorem countP_succ_le (l : List Nat) (n : Nat) :
    l.countP (n + 1 ≤ ·) + l.count n = l.countP (n ≤ ·) := by
  induction l with
  | nil => rfl
  | cons a l ih =>
    simp only [List.countP_cons, List.count_cons, decide_eq_true_eq, beq_iff_eq]
    split <;> split <;> split <;> omega

/-- A failing flush uses up a fault. -/
theorem faults_flush (c : Console) :
    c.flush.2.faults + c.sink.failedFlushes.count c.sink.flushes = c.faults := by
  have := countP_succ_le c.sink.failedFlushes c.sink.flushes
  simp only [faults, failedReads, script_flush, sink_flush]
  omega

/-! ## Reading -/

/-- Reading has brought `answer` and made `d` of `c`. -/
structure Brings (c : Console) (answer : Option UInt8) (d : Console) : Prop where
  answer_eq : answer = c.arrivals.head?.bind Reading.byte?
  arrivals_eq : d.arrivals = c.arrivals.tail
  deliveries_eq : d.deliveries = c.deliveries ++ [.ofRead answer]
  failedReads_eq : d.failedReads = c.failedReads

/-- Reading has brought nothing, and made `d` of `c`. -/
structure Fails (c d : Console) : Prop where
  arrivals_eq : d.arrivals = c.arrivals
  deliveries_eq : d.deliveries = c.deliveries
  failedReads_eq : d.failedReads + 1 = c.failedReads

theorem read_go_sound (script : List Reading) (sink : Sink) (history : Array Event) :
    (read.go script sink history).2.sink = sink ∧
    (read.go script sink history).2.script <:+ script ∧
    match read.go script sink history with
    | (.ok answer, d) => Brings ⟨script, sink, history⟩ answer d
    | (.error _, d) => Fails ⟨script, sink, history⟩ d := by
  induction script generalizing history with
  | nil =>
    exact ⟨rfl, List.suffix_rfl, rfl, rfl, deliveries_push _ _ _ _, rfl⟩
  | cons r rest ih =>
    have htail : rest <:+ r :: rest := List.suffix_cons r rest
    cases r with
    | byte b =>
      refine ⟨rfl, htail, rfl, rfl, deliveries_push _ _ _ _, ?_⟩
      simp [failedReads, Reading.isFailure]
    | endOfInput =>
      refine ⟨rfl, htail, rfl, rfl, deliveries_push _ _ _ _, ?_⟩
      simp [failedReads, Reading.isFailure]
    | failed cause =>
      refine ⟨rfl, htail, ?_, deliveries_push_of_not rfl _ _ _, ?_⟩
      · simp [arrivals, Reading.isDelivery]
      · exact (List.countP_cons_of_pos rfl).symm
    | interrupted =>
      -- an interruption is only noted, and the same read goes on
      obtain ⟨hsink, hscript, hread⟩ := ih (history.push .readInterrupted)
      have hdeliveries : (⟨rest, sink, history.push .readInterrupted⟩ : Console).deliveries =
          (⟨.interrupted :: rest, sink, history⟩ : Console).deliveries :=
        deliveries_push_of_not rfl _ _ _
      have hfailed : (⟨rest, sink, history.push .readInterrupted⟩ : Console).failedReads =
          (⟨.interrupted :: rest, sink, history⟩ : Console).failedReads := by
        simp [failedReads, Reading.isFailure]
      refine ⟨hsink, hscript.trans htail, ?_⟩
      show match read.go rest sink (history.push .readInterrupted) with
        | (.ok answer, d) => Brings _ answer d
        | (.error _, d) => Fails _ d
      split at hread
      · exact ⟨hread.answer_eq, hread.arrivals_eq, hdeliveries ▸ hread.deliveries_eq,
          hfailed ▸ hread.failedReads_eq⟩
      · exact ⟨hread.arrivals_eq, hdeliveries ▸ hread.deliveries_eq, hfailed ▸ hread.failedReads_eq⟩

@[simp] theorem sink_read (c : Console) : c.read.2.sink = c.sink :=
  (read_go_sound c.script c.sink c.history).1

theorem script_read_suffix (c : Console) : c.read.2.script <:+ c.script :=
  (read_go_sound c.script c.sink c.history).2.1

theorem read_sound (c : Console) :
    match c.read with
    | (.ok answer, d) => Brings c answer d
    | (.error _, d) => Fails c d :=
  (read_go_sound c.script c.sink c.history).2.2

/-! ## Reliable consoles -/

theorem Reliable.failedReads_eq {c : Console} (h : c.Reliable) : c.failedReads = 0 :=
  List.countP_eq_zero.2 h.reads

theorem Reliable.faults_eq {c : Console} (h : c.Reliable) : c.faults = 0 := by
  have hflushes : c.sink.failedFlushes.countP (c.sink.flushes ≤ ·) = 0 := by
    refine List.countP_eq_zero.2 fun n hn => ?_
    have := h.flushes n hn
    simpa using this
  rw [faults, h.failedReads_eq, hflushes]

theorem Reliable.flush_fst_eq {c : Console} (h : c.Reliable) : c.flush.1 = .ok () := by
  refine (flush_fst_eq_ok_iff c).2 fun hmem => ?_
  exact Nat.lt_irrefl _ (h.flushes _ hmem)

theorem Reliable.exists_read_eq {c : Console} (h : c.Reliable) :
    ∃ answer d, c.read = (.ok answer, d) ∧ Brings c answer d := by
  have hread := read_sound c
  split at hread
  · next answer d hr => exact ⟨answer, d, hr, hread⟩
  · next cause d hr =>
    have := hread.failedReads_eq
    have := h.failedReads_eq
    omega

theorem kept_reliable : Kept Reliable where
  write {c} b h :=
    ⟨open_write h.sink_open b, by simpa using h.reads, by simpa using h.flushes⟩
  flush {c} h := by
    refine ⟨?_, ?_, fun n hn => ?_⟩
    · rw [sink_flush]
      exact ⟨h.sink_open.capacity_eq, h.sink_open.refusals_eq⟩
    · simpa using h.reads
    · rw [sink_flush] at hn ⊢
      exact Nat.lt_succ_of_lt (h.flushes n hn)
  read {c} h := by
    refine ⟨?_, fun r hr => h.reads r ((script_read_suffix c).subset hr), ?_⟩
    · rw [sink_read]
      exact h.sink_open
    · rw [sink_read]
      exact h.flushes

/-- No operation will fail, and every read finds the end of input. -/
structure Quiet (c : Console) : Prop extends c.Reliable where
  atEnd : ∀ r ∈ c.script, r = .endOfInput

theorem quiet_default : Quiet {} where
  sink_open := ⟨rfl, List.forall_mem_nil _⟩
  reads := List.forall_mem_nil _
  flushes := List.forall_mem_nil _
  atEnd := List.forall_mem_nil _

theorem kept_quiet : Kept Quiet where
  write b h := ⟨kept_reliable.write b h.toReliable, by simpa using h.atEnd⟩
  flush h := ⟨kept_reliable.flush h.toReliable, by simpa using h.atEnd⟩
  read {c} h :=
    ⟨kept_reliable.read h.toReliable, fun r hr => h.atEnd r ((script_read_suffix c).subset hr)⟩

theorem Quiet.read_fst_eq {c : Console} (h : c.Quiet) : c.read.1 = .ok none := by
  obtain ⟨answer, d, hread, hbrings⟩ := h.exists_read_eq
  have hanswer : answer = none := by
    rw [hbrings.answer_eq]
    cases hs : c.arrivals with
    | nil => rfl
    | cons r rest =>
      have hr : r ∈ c.arrivals := by
        rw [hs]
        exact List.mem_cons_self
      rw [h.atEnd r (List.mem_filter.1 hr).1]
      rfl
  rw [hread, hanswer]

/-- Input is used up from the front, and output is added at the end. -/
def Later (c d : Console) : Prop :=
  d.script <:+ c.script ∧ c.sink.stored.toList <+: d.sink.stored.toList

theorem kept_later (c : Console) : Kept (Later c) where
  write {d} b h := by
    refine ⟨by simpa using h.1, h.2.trans ?_⟩
    rcases hw : (d.write b).1 with _ | _
    · exact stored_write_of_error hw ▸ List.prefix_rfl
    · rw [stored_write_of_ok hw, Array.toList_push]
      exact List.prefix_append _ _
  flush {d} h := by
    refine ⟨by simpa using h.1, ?_⟩
    rw [sink_flush]
    exact h.2
  read {d} h := by
    refine ⟨(script_read_suffix d).trans h.1, ?_⟩
    rw [sink_read]
    exact h.2

end Console

/-! ## Machines at a console -/

namespace State

/-- The same machine at another console. -/
def on (s : State) (c : Console) : State := ⟨s.tape, s.pc, s.steps, c⟩

/-- The same but for their consoles. -/
structure Agrees (s t : State) : Prop where
  tape_eq : s.tape = t.tape
  pc_eq : s.pc = t.pc
  steps_eq : s.steps = t.steps

theorem Agrees.trans {s t u : State} (h : s.Agrees t) (h' : t.Agrees u) : s.Agrees u :=
  ⟨h.tape_eq.trans h'.tape_eq, h.pc_eq.trans h'.pc_eq, h.steps_eq.trans h'.steps_eq⟩

theorem Agrees.symm {s t : State} (h : s.Agrees t) : t.Agrees s :=
  ⟨h.tape_eq.symm, h.pc_eq.symm, h.steps_eq.symm⟩

end State

namespace Executable

variable {exe : Executable} {i : Instruction}

theorem conclude_of_flush_ok (stop : Stop) {s : State} (h : s.console.flush.1 = .ok ()) :
    conclude stop s = (stop, s.on s.console.flush.2) := by
  rw [conclude_eq, h]
  rfl

theorem agrees_conclude (stop : Stop) (s : State) : (conclude stop s).2.Agrees s := by
  rw [conclude_eq]
  exact ⟨rfl, rfl, rfl⟩

/-- No device has to do with an effect. -/
theorem not_isDevice_of_effect {ip : Nat} {tape : Tape} {e : RunError}
    (h : (exe.effect i ip tape).1 = .error e) : ¬ e.isDevice := by
  rcases (effect_eq_error h).2 with ⟨edge, rfl⟩ | ⟨excess, rfl⟩
  · exact Bool.false_ne_true
  · exact Bool.false_ne_true

theorem execute_real (exe : Executable) (limit : Option Nat) (s : State) :
    exe.execute ⟨.real, limit⟩ s =
      (exe.real.runWithin limit s.steps s).map fun x => (x.1, x.2, none) := by
  simp only [execute]
  cases exe.real.runWithin limit s.steps s <;> rfl

theorem execute_real_limit (exe : Executable) (l : Nat) (s : State) :
    exe.execute ⟨.real, some l⟩ s =
      some (.atLimit l (exe.real.runFor (l - s.steps) s).1, (exe.real.runFor (l - s.steps) s).2, none) :=
  rfl

theorem isSome_call_of_limit (exe : Executable) (mode : Mode) (l : Nat) (s : State) :
    (exe.call ⟨mode, some l⟩ s).isSome := by
  rw [Option.isSome_iff_ne_none, Ne, call_eq_none_iff]
  cases mode with
  | real => exact Option.some_ne_none _
  | traced room =>
    simp only [execute, traceWithin]
    split
    · exact Option.some_ne_none _
    · next hnone =>
      split at hnone <;> cases hnone

end Executable

namespace Console.Kept

variable {P : Console → Prop}

theorem attempt (h : Kept P) (exe : Executable) (i : Instruction) {s : State} (hs : P s.console) :
    P (exe.attempt i s).2.console := by
  cases i
  case output =>
    have := h.write s.tape.cell hs
    simp only [Executable.attempt, Executable.emit]
    rcases hw : s.console.write s.tape.cell with ⟨_ | _, d⟩ <;> rwa [hw] at this
  case input =>
    have hf := h.flush hs
    have hr := h.read hf
    simp only [Executable.attempt, Executable.accept]
    rcases hflush : s.console.flush with ⟨_ | _, d⟩ <;> rw [hflush] at hf hr
    · exact hf
    · rcases hread : d.read with ⟨_ | _, e⟩ <;> rw [hread] at hr <;> simp only [hread] <;> exact hr
  all_goals exact hs

theorem perform (h : Kept P) (exe : Executable) (i : Instruction) {s : State} (hs : P s.console) :
    P (exe.perform i s).2.console := by
  have := h.attempt exe i hs
  unfold Executable.perform
  split <;> next ha => rwa [ha] at this

theorem conclude (h : Kept P) (stop : Stop) {s : State} (hs : P s.console) :
    P (Executable.conclude stop s).2.console := by
  rw [Executable.conclude_eq]
  exact h.flush hs

end Console.Kept

/-- A traced instruction leaves the console alone. -/
theorem Executable.console_record (exe : Executable) (i : Instruction) (x : State × Trace.Transcript) :
    (exe.record i x).2.1.console = x.1.console := by
  obtain ⟨s, t⟩ := x
  rcases h : exe.record i (s, t) with ⟨r, y⟩
  rcases record_cases h with ⟨e, -, -, rfl⟩ | ⟨next, -, ⟨u, -, -, rfl⟩ | ⟨cause, u, -, -, rfl⟩⟩ <;> rfl

/-- What the instructions of a process keep, its runs keep. -/
theorem Process.runWithin_invariant {σ : Type} {p : Process σ} {I : σ → Prop}
    (hstep : ∀ x i, I x → I (p.perform i x).2) {limit : Option Nat} {done : Nat} {x y : σ}
    {stop : Stop} (hx : I x) (h : p.runWithin limit done x = some (stop, y)) : I y := by
  have hrun : ∀ n, I (p.runFor n x).2 := fun n =>
    runFor_invariant (fun x i hI _ => hstep x i hI) n hx
  rcases runWithin_cases h with ⟨n, hn⟩ | ⟨l, -, hn, -⟩
  · have := hrun n
    rwa [hn] at this
  · have := hrun (l - done)
    rwa [hn] at this

/-- What writing, flushing and reading keep, every call keeps. -/
theorem Console.Kept.call {P : Console → Prop} (h : Kept P) {exe : Executable} {c : Call}
    {s t : State} {r : Report} (hs : P s.console) (hc : exe.call c s = some (r, t)) :
    P t.console := by
  obtain ⟨stop, u, he, hconclude⟩ := Executable.call_cases hc
  have hu : P u.console := by
    rcases Executable.execute_cases he with ⟨-, -, hrun⟩ | ⟨room, v, -, -, hrun⟩
    · exact Process.runWithin_invariant (I := fun s => P s.console) (fun s i => h.perform exe i) hs hrun
    · unfold Executable.traceWithin at hrun
      split at hrun
      · refine Process.runWithin_invariant (I := fun x => P x.1.console) (fun x i hx => ?_) hs hrun
        show P (exe.record i x).2.1.console
        rw [exe.console_record]
        exact hx
      · cases hrun
        exact hs
  have := h.conclude stop hu
  rwa [hconclude] at this

theorem Console.Kept.calls {P : Console → Prop} (h : Kept P) {exe : Executable} {cs : List Call}
    {s : State} (hs : P s.console) : ∀ x ∈ exe.calls cs s, P x.2.console := by
  induction cs generalizing s with
  | nil => exact List.forall_mem_nil _
  | cons c cs ih =>
    unfold Executable.calls
    split
    · next r t hcall =>
      have ht := h.call hs hcall
      intro x hx
      rcases List.mem_cons.1 hx with rfl | hx
      · exact ht
      · exact ih ht x hx
    · exact List.forall_mem_nil _

end Brainfuck
