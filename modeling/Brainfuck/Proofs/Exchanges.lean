import Brainfuck.Proofs.Devices
import Brainfuck.Proofs.SessionSafety

/-!
# What a call says to its console

Each `.` and each `,` that is tried is one exchange with the console: a short sequence of events, of a
form that depends on the instruction only (`Exchange`).  The events of a run are these exchanges one
after the other, in the order of the instructions, and an exchange that fails is the last one
(`Conversation`).  A call adds one flush, and nothing else touches the console
(`call_is_conversation`).

The history of a console is only a record.  `Became` says that it is a true one: the script, the stored
bytes and the numbers of attempts are what the recorded events make of them.
-/

namespace Brainfuck

def Instruction.isExchange : Instruction → Bool
  | output | input => true
  | right | left | increment | decrement | loopStart | loopEnd => false

namespace Event

/-- An attempt to read, whatever came of it. -/
def isRead : Event → Bool
  | read _ | readEnd | readInterrupted | readFailed => true
  | _ => false

def isWrite : Event → Bool
  | wrote _ | wroteNothing | writeInterrupted | writeFailed => true
  | _ => false

def isFlush : Event → Bool
  | flushed | flushFailed => true
  | _ => false

def arrived? : Event → Option UInt8
  | read b => some b
  | _ => none

def stored? : Event → Option UInt8
  | wrote b => some b
  | _ => none

end Event

/-- What may happen when `.` or `,` is tried on this cell, and whether it is done then. -/
inductive Exchange (cell : UInt8) : Instruction → List Event → Bool → Prop
  | wrote (n : Nat) :
      Exchange cell .output (List.replicate n .writeInterrupted ++ [.wrote cell]) true
  | writeFailed (n : Nat) :
      Exchange cell .output (List.replicate n .writeInterrupted ++ [.writeFailed]) false
  | wroteNothing (n : Nat) :
      Exchange cell .output (List.replicate n .writeInterrupted ++ [.wroteNothing]) false
  | read (n : Nat) (b : UInt8) :
      Exchange cell .input (.flushed :: List.replicate n .readInterrupted ++ [.read b]) true
  | readEnd (n : Nat) :
      Exchange cell .input (.flushed :: List.replicate n .readInterrupted ++ [.readEnd]) true
  | readFailed (n : Nat) :
      Exchange cell .input (.flushed :: List.replicate n .readInterrupted ++ [.readFailed]) false
  /-- Nothing is read then. -/
  | flushFailed : Exchange cell .input [.flushFailed] false

/-- One exchange for each of these instructions, which are given with the cells they find.  Behind an
exchange that fails there is no more. -/
inductive Conversation : List (Instruction × UInt8) → List Event → Prop
  | nil : Conversation [] []
  | failed {i : Instruction} {cell : UInt8} {es : List Event} :
      Exchange cell i es false → Conversation [(i, cell)] es
  | cons {i : Instruction} {cell : UInt8} {es rest : List Event} {xs : List (Instruction × UInt8)} :
      Exchange cell i es true → Conversation xs rest → Conversation ((i, cell) :: xs) (es ++ rest)

/-- Between an attempt to read and the last flush before it, there are only attempts to read that were
interrupted. -/
def FlushedBeforeReads (es : List Event) : Prop :=
  ∀ (k : Nat) (e : Event), es[k]? = some e → e.isRead → ∃ j < k, es[j]? = some .flushed ∧
    ∀ i, j < i → i < k → es[i]? = some .readInterrupted

/-- A `.` or `,` with the cell it finds. -/
def talk? (x : Instruction × State) : Option (Instruction × UInt8) :=
  if x.1.isExchange then some (x.1, x.2.tape.cell) else none

/-- The `.` and `,` that a run tries. -/
def Executable.talks (exe : Executable) (n : Nat) (s : State) : List (Instruction × UInt8) :=
  (exe.real.attempts n s).filterMap talk?

/-! ## The record is true -/

namespace Console

/-- The bytes that the coming reads will bring, whatever else they bring. -/
def incoming (c : Console) : List UInt8 := c.script.filterMap Reading.byte?

/-- `d` is what these events have made of `c`. -/
structure Became (c : Console) (es : List Event) (d : Console) : Prop where
  history_eq : d.history.toList = c.history.toList ++ es
  script_eq : d.script = c.script.drop (es.countP Event.isRead)
  incoming_eq : c.incoming = es.filterMap Event.arrived? ++ d.incoming
  stored_eq : d.sink.stored.toList = c.sink.stored.toList ++ es.filterMap Event.stored?
  writes_eq : d.sink.writes = c.sink.writes + es.countP Event.isWrite
  flushes_eq : d.sink.flushes = c.sink.flushes + es.countP Event.isFlush

variable {c d e : Console}

theorem Became.refl (c : Console) : Became c [] c :=
  ⟨(List.append_nil _).symm, rfl, rfl, (List.append_nil _).symm, rfl, rfl⟩

theorem Became.trans {es fs : List Event} (h : Became c es d) (h' : Became d fs e) :
    Became c (es ++ fs) e where
  history_eq := by rw [h'.history_eq, h.history_eq, List.append_assoc]
  script_eq := by rw [h'.script_eq, h.script_eq, List.drop_drop, List.countP_append]
  incoming_eq := by rw [h.incoming_eq, h'.incoming_eq, List.filterMap_append, List.append_assoc]
  stored_eq := by rw [h'.stored_eq, h.stored_eq, List.filterMap_append, List.append_assoc]
  writes_eq := by rw [h'.writes_eq, h.writes_eq, List.countP_append, Nat.add_assoc]
  flushes_eq := by rw [h'.flushes_eq, h.flushes_eq, List.countP_append, Nat.add_assoc]

theorem became_flush (c : Console) :
    (∃ d, c.flush = (.ok (), d) ∧ Became c [.flushed] d) ∨
    ∃ cause d, c.flush = (.error cause, d) ∧ Became c [.flushFailed] d := by
  rw [flush_eq]
  by_cases h : c.sink.flushes ∈ c.sink.failedFlushes
  · rw [if_pos h]
    exact Or.inr ⟨_, _, rfl, Array.toList_push, rfl, rfl, (List.append_nil _).symm, rfl, rfl⟩
  · rw [if_neg h]
    exact Or.inl ⟨_, rfl, Array.toList_push, rfl, rfl, (List.append_nil _).symm, rfl, rfl⟩

theorem became_interrupted (script : List Reading) (sink : Sink) (history : Array Event) (n : Nat) :
    Became ⟨script, sink, history⟩ (List.replicate n .writeInterrupted)
      ⟨script, { sink with writes := sink.writes + n },
        history ++ Array.replicate n .writeInterrupted⟩ where
  history_eq := by rw [Array.toList_append, Array.toList_replicate]
  script_eq := by rw [List.countP_replicate]; rfl
  incoming_eq := by rw [List.filterMap_replicate_of_none rfl]; rfl
  stored_eq := by rw [List.filterMap_replicate_of_none rfl, List.append_nil]
  writes_eq := by rw [List.countP_replicate]; rfl
  flushes_eq := by rw [List.countP_replicate]; rfl

theorem exchange_write (c : Console) (b : UInt8) :
    ∃ es, Became c es (c.write b).2 ∧ Exchange b .output es (c.write b).1.isOk := by
  obtain ⟨script, sink, history⟩ := c
  have hinterrupted := became_interrupted script sink history sink.interruptions
  simp only [write]
  split
  · refine ⟨_, hinterrupted.trans ?_, .writeFailed _⟩
    exact ⟨Array.toList_push, rfl, rfl, (List.append_nil _).symm, rfl, rfl⟩
  · refine ⟨_, hinterrupted.trans ?_, .wroteNothing _⟩
    exact ⟨Array.toList_push, rfl, rfl, (List.append_nil _).symm, rfl, rfl⟩
  · refine ⟨_, hinterrupted.trans ?_, .wrote _⟩
    exact ⟨Array.toList_push, rfl, rfl, Array.toList_push, rfl, rfl⟩

theorem became_read (c : Console) :
    ∃ n last answer d, c.read = (answer, d) ∧ Became c (List.replicate n .readInterrupted ++ [last]) d ∧
      ((∃ b, answer = .ok (some b) ∧ last = .read b) ∨ answer = .ok none ∧ last = .readEnd ∨
        ∃ cause, answer = .error cause ∧ last = .readFailed) := by
  obtain ⟨script, sink, history⟩ := c
  unfold read
  induction script generalizing history with
  | nil =>
    refine ⟨0, .readEnd, _, _, rfl, ?_, Or.inr (Or.inl ⟨rfl, rfl⟩)⟩
    exact ⟨Array.toList_push, rfl, rfl, (List.append_nil _).symm, rfl, rfl⟩
  | cons r rest ih =>
    cases r with
    | byte b =>
      refine ⟨0, .read b, _, _, rfl, ?_, Or.inl ⟨b, rfl, rfl⟩⟩
      exact ⟨Array.toList_push, rfl, rfl, (List.append_nil _).symm, rfl, rfl⟩
    | endOfInput =>
      refine ⟨0, .readEnd, _, _, rfl, ?_, Or.inr (Or.inl ⟨rfl, rfl⟩)⟩
      exact ⟨Array.toList_push, rfl, rfl, (List.append_nil _).symm, rfl, rfl⟩
    | failed cause =>
      refine ⟨0, .readFailed, _, _, rfl, ?_, Or.inr (Or.inr ⟨cause, rfl, rfl⟩)⟩
      exact ⟨Array.toList_push, rfl, rfl, (List.append_nil _).symm, rfl, rfl⟩
    | interrupted =>
      obtain ⟨n, last, answer, d, hread, hbecame, hlast⟩ := ih (history.push .readInterrupted)
      have hfirst : Became ⟨.interrupted :: rest, sink, history⟩ [.readInterrupted]
          ⟨rest, sink, history.push .readInterrupted⟩ :=
        ⟨Array.toList_push, rfl, rfl, (List.append_nil _).symm, rfl, rfl⟩
      exact ⟨n + 1, last, answer, d, hread, hfirst.trans hbecame, hlast⟩

end Console

/-! ## Single instructions -/

namespace Executable

variable {exe : Executable} {i : Instruction} {s : State}

theorem exchange_emit (s : State) :
    ∃ es, s.console.Became es (emit s).2.console ∧ Exchange s.tape.cell .output es (emit s).1.isOk := by
  obtain ⟨tape, pc, steps, c⟩ := s
  obtain ⟨es, hbecame, hexchange⟩ := c.exchange_write tape.cell
  refine ⟨es, ?_⟩
  simp only [emit]
  rcases hw : c.write tape.cell with ⟨_ | _, d⟩ <;> rw [hw] at hbecame hexchange
  · exact ⟨hbecame, hexchange⟩
  · exact ⟨hbecame, hexchange⟩

theorem exchange_accept (s : State) :
    ∃ es, s.console.Became es (accept s).2.console ∧
      Exchange s.tape.cell .input es (accept s).1.isOk := by
  obtain ⟨tape, pc, steps, c⟩ := s
  rcases c.became_flush with ⟨d, hflush, hflushed⟩ | ⟨cause, d, hflush, hfailed⟩
  · obtain ⟨n, last, answer, e, hread, hbecame, hlast⟩ := d.became_read
    have hboth := hflushed.trans hbecame
    simp only [accept, hflush, hread]
    rcases hlast with ⟨b, rfl, rfl⟩ | ⟨rfl, rfl⟩ | ⟨cause, rfl, rfl⟩
    · exact ⟨_, hboth, .read n b⟩
    · exact ⟨_, hboth, .readEnd n⟩
    · exact ⟨_, hboth, .readFailed n⟩
  · simp only [accept, hflush]
    exact ⟨_, hfailed, .flushFailed⟩

theorem exchange_perform (exe : Executable) (hi : i.isExchange) (s : State) :
    ∃ es, s.console.Became es (exe.perform i s).2.console ∧
      Exchange s.tape.cell i es (exe.perform i s).1.isOk := by
  have hattempt : ∃ es, s.console.Became es (exe.attempt i s).2.console ∧
      Exchange s.tape.cell i es (exe.attempt i s).1.isOk := by
    cases i
    case output => exact exchange_emit s
    case input => exact exchange_accept s
    all_goals cases hi
  obtain ⟨es, hbecame, hexchange⟩ := hattempt
  rcases ha : exe.attempt i s with ⟨e | next, t⟩ <;> rw [ha] at hbecame hexchange
  · rw [perform_of_attempt_error ha]
    exact ⟨es, hbecame, hexchange⟩
  · rw [perform_of_attempt_ok ha]
    exact ⟨es, hbecame, hexchange⟩

/-- All other instructions leave the console alone. -/
theorem console_perform (exe : Executable) (hi : i.isExchange = false) (s : State) :
    (exe.perform i s).2.console = s.console := by
  rcases exe.attempt_cases i with rfl | rfl | hplain
  · cases hi
  · cases hi
  · have hattempt := (hplain s).trans (exe.rehearse_eq i s)
    rcases he : (exe.effect i s.pc s.tape).1 with e | next <;> rw [he] at hattempt
    · rw [perform_of_attempt_error hattempt]
    · rw [perform_of_attempt_ok hattempt]
      rfl

end Executable

theorem Exchange.arrived {cell : UInt8} {i : Instruction} {es : List Event} {done : Bool}
    (h : Exchange cell i es done) :
    ∃ taken : Option UInt8, es.filterMap Event.arrived? = taken.toList ∧ (taken.isSome → i = .input) := by
  have hlast : ∀ (n : Nat) (e last : Event), e.arrived? = none →
      (List.replicate n e ++ [last]).filterMap Event.arrived? = last.arrived?.toList := by
    intro n e last he
    rw [List.filterMap_append, List.filterMap_replicate_of_none he]
    cases last <;> rfl
  cases h with
  | read n b => exact ⟨some b, hlast n _ _ rfl, fun _ => rfl⟩
  | readEnd n | readFailed n | wrote n | writeFailed n | wroteNothing n =>
    exact ⟨none, hlast n _ _ rfl, nofun⟩
  | flushFailed => exact ⟨none, rfl, nofun⟩

/-- An instruction takes at most one byte of input, and only `,` does. -/
theorem Executable.incoming_perform (exe : Executable) (i : Instruction) (s : State) :
    ∃ taken : Option UInt8,
      s.console.incoming = taken.toList ++ (exe.perform i s).2.console.incoming ∧
      (taken.isSome → i = .input) := by
  cases hi : i.isExchange with
  | false => exact ⟨none, by rw [exe.console_perform hi]; rfl, fun h => by cases h⟩
  | true =>
    obtain ⟨es, hbecame, hexchange⟩ := exe.exchange_perform hi s
    obtain ⟨taken, harrived, hinput⟩ := hexchange.arrived
    exact ⟨taken, harrived ▸ hbecame.incoming_eq, hinput⟩

/-! ## Runs -/

theorem FlushedBeforeReads.append {es fs : List Event} (h : FlushedBeforeReads es)
    (h' : FlushedBeforeReads fs) : FlushedBeforeReads (es ++ fs) := by
  intro k e he hread
  by_cases hk : k < es.length
  · rw [List.getElem?_append_left hk] at he
    obtain ⟨j, hj, hflushed, hbetween⟩ := h k e he hread
    refine ⟨j, hj, ?_, fun i hji hik => ?_⟩
    · rw [List.getElem?_append_left (by omega)]
      exact hflushed
    · rw [List.getElem?_append_left (by omega)]
      exact hbetween i hji hik
  · rw [List.getElem?_append_right (by omega)] at he
    obtain ⟨j, hj, hflushed, hbetween⟩ := h' _ e he hread
    refine ⟨es.length + j, by omega, ?_, fun i hji hik => ?_⟩
    · rw [List.getElem?_append_right (by omega), Nat.add_sub_cancel_left]
      exact hflushed
    · rw [List.getElem?_append_right (by omega)]
      exact hbetween _ (by omega) (by omega)

theorem flushedBeforeReads_of_none {es : List Event} (h : ∀ e ∈ es, e.isRead = false) :
    FlushedBeforeReads es := by
  intro k e he hread
  rw [h e (List.mem_of_getElem? he)] at hread
  cases hread

theorem flushedBeforeReads_read (n : Nat) (last : Event) :
    FlushedBeforeReads (.flushed :: List.replicate n .readInterrupted ++ [last]) := by
  intro k e he hread
  cases k with
  | zero =>
    cases he
    cases hread
  | succ k =>
    refine ⟨0, Nat.succ_pos k, rfl, fun i hi hik => ?_⟩
    obtain ⟨i, rfl⟩ := Nat.exists_eq_succ_of_ne_zero (by omega : i ≠ 0)
    have hlen := (List.getElem?_eq_some_iff.1 he).1
    simp only [List.length_append, List.length_cons, List.length_replicate, List.length_nil] at hlen
    rw [List.cons_append, List.getElem?_cons_succ, List.getElem?_append_left (by simp; omega),
      List.getElem?_replicate, if_pos (by omega)]

theorem Exchange.flushedBeforeReads {cell : UInt8} {i : Instruction} {es : List Event} {done : Bool}
    (h : Exchange cell i es done) : FlushedBeforeReads es := by
  have hwrite : ∀ (n : Nat) (last : Event), last.isRead = false →
      FlushedBeforeReads (List.replicate n .writeInterrupted ++ [last]) := by
    intro n last hlast
    apply flushedBeforeReads_of_none
    intro e he
    rcases List.mem_append.1 he with he | he
    · rw [List.eq_of_mem_replicate he]
      rfl
    · rw [List.mem_singleton.1 he]
      exact hlast
  cases h with
  | wrote n | writeFailed n | wroteNothing n => exact hwrite n _ rfl
  | flushFailed => exact hwrite 0 _ rfl
  | read n b => exact flushedBeforeReads_read n _
  | readEnd n => exact flushedBeforeReads_read n _
  | readFailed n => exact flushedBeforeReads_read n _

theorem Conversation.flushedBeforeReads {xs : List (Instruction × UInt8)} {es : List Event}
    (h : Conversation xs es) : FlushedBeforeReads es := by
  induction h with
  | nil => exact flushedBeforeReads_of_none (List.forall_mem_nil _)
  | failed h => exact h.flushedBeforeReads
  | cons h _ ih => exact h.flushedBeforeReads.append ih

namespace Executable

variable {exe : Executable} {s t : State} {i : Instruction}

/-- One step: an exchange, or nothing on either side. -/
theorem talk?_cases (exe : Executable) (i : Instruction) (s : State) :
    (talk? (i, s) = some (i, s.tape.cell) ∧
      ∃ es, s.console.Became es (exe.perform i s).2.console ∧
        Exchange s.tape.cell i es (exe.perform i s).1.isOk) ∨
    (talk? (i, s) = none ∧ (exe.perform i s).2.console = s.console) := by
  cases hi : i.isExchange with
  | true => exact Or.inl ⟨if_pos hi, exe.exchange_perform hi s⟩
  | false => exact Or.inr ⟨if_neg (by simp [hi]), exe.console_perform hi s⟩

theorem conversation_runFor (exe : Executable) (n : Nat) (s : State) :
    ∃ es, s.console.Became es (exe.real.runFor n s).2.console ∧ Conversation (exe.talks n s) es := by
  unfold talks
  induction n generalizing s with
  | zero => exact ⟨[], .refl _, .nil⟩
  | succ n ih =>
    cases hi : exe.real.next? s with
    | none =>
      rw [Process.runFor_of_over _ hi, Process.attempts_of_over _ hi]
      exact ⟨[], .refl _, .nil⟩
    | some i =>
      have hstep := exe.talk?_cases i s
      rcases hp : exe.real.perform i s with ⟨e | _, t⟩ <;> rw [show exe.perform i s = _ from hp] at hstep
      · rw [Process.runFor_succ_of_error n hi hp, Process.attempts_succ_of_error n hi hp]
        rcases hstep with ⟨htalk, es, hbecame, hexchange⟩ | ⟨htalk, hconsole⟩
        · rw [List.filterMap_cons_some htalk]
          exact ⟨es, hbecame, .failed hexchange⟩
        · rw [List.filterMap_cons_none htalk]
          exact ⟨[], hconsole ▸ .refl _, .nil⟩
      · rw [Process.runFor_succ_of_ok n hi hp, Process.attempts_succ_of_ok n hi hp]
        obtain ⟨rest, hrest, htalks⟩ := ih t
        rcases hstep with ⟨htalk, es, hbecame, hexchange⟩ | ⟨htalk, hconsole⟩
        · rw [List.filterMap_cons_some htalk]
          exact ⟨es ++ rest, hbecame.trans hrest, .cons hexchange htalks⟩
        · rw [List.filterMap_cons_none htalk]
          exact ⟨rest, hconsole ▸ hrest, htalks⟩

theorem became_conclude (stop : Stop) (s : State) :
    ∃ final, (final = .flushed ∨ final = .flushFailed) ∧
      s.console.Became [final] (conclude stop s).2.console := by
  rw [conclude_eq]
  rcases s.console.became_flush with ⟨d, hflush, hbecame⟩ | ⟨cause, d, hflush, hbecame⟩
  · rw [hflush]
    exact ⟨.flushed, Or.inl rfl, hbecame⟩
  · rw [hflush]
    exact ⟨.flushFailed, Or.inr rfl, hbecame⟩

/-- A call that comes to an end tries the instructions of one finite run. -/
theorem exists_attempts_of_execute {limit : Option Nat} {stop : Stop} {trace : Option String}
    (h : exe.execute ⟨.real, limit⟩ s = some (stop, t, trace)) :
    ∃ n, (exe.real.runFor n s).2 = t ∧ ∀ k i u, (exe.real.attempts n s)[k]? = some (i, u) ↔
      exe.Passes ⟨.real, limit⟩ s k u ∧ exe.program.instruction? u.pc = some i := by
  have hattempts : ∀ n, (∀ k u, (k < n ∧ exe.real.runFor k s = (none, u)) ↔
        exe.Passes ⟨.real, limit⟩ s k u) → ∀ k i u, (exe.real.attempts n s)[k]? = some (i, u) ↔
      exe.Passes ⟨.real, limit⟩ s k u ∧ exe.program.instruction? u.pc = some i := by
    intro n hn k i u
    rw [Process.getElem?_attempts, ← hn, and_assoc]
    rfl
  rcases execute_cases h with ⟨-, -, hrun⟩ | ⟨_, _, hmode, -⟩
  · cases limit with
    | none =>
      obtain ⟨n, hn⟩ := (Process.run_eq_some_iff _ _ _ _).1 hrun
      refine ⟨n, by rw [hn], hattempts n fun k u => ?_⟩
      constructor
      · rintro ⟨-, hk⟩
        exact ⟨nofun, hk⟩
      · rintro ⟨-, hk⟩
        refine ⟨?_, hk⟩
        -- a run that has stopped before does not pass
        apply Nat.lt_of_not_le
        intro hle
        obtain ⟨m, rfl⟩ := Nat.exists_eq_add_of_le hle
        change exe.real.runFor (n + m) s = _ at hk
        rw [Process.runFor_add, hn] at hk
        cases hk
    | some limit =>
      simp only [Process.runWithin, Option.some.injEq, Prod.mk.injEq] at hrun
      refine ⟨limit - s.steps, hrun.2, hattempts _ fun k u => ?_⟩
      constructor
      · rintro ⟨hlt, hk⟩
        refine ⟨?_, hk⟩
        rintro _ ⟨⟩
        omega
      · rintro ⟨hlt, hk⟩
        have := hlt limit rfl
        exact ⟨by omega, hk⟩
  · cases hmode

end Executable

/-! ## Top theorem -/

/-- However far a run has got, it has had one exchange for each `.` and `,` it tried.  What a call that
ends has tried is what it passes, and it adds one flush. -/
theorem call_is_conversation (exe : Executable) (limit : Option Nat) (s : State) :
    (∀ n, ∃ es, s.console.Became es (exe.real.runFor n s).2.console ∧
      Conversation (exe.talks n s) es ∧ FlushedBeforeReads es) ∧
    (∀ i u, (i.isExchange = false → (exe.perform i u).2.console = u.console) ∧
      ∃ taken : Option UInt8,
        u.console.incoming = taken.toList ++ (exe.perform i u).2.console.incoming ∧
        (taken.isSome → i = .input)) ∧
    ∀ r t, exe.call ⟨.real, limit⟩ s = some (r, t) →
      ∃ n es final, Conversation (exe.talks n s) es ∧ (final = .flushed ∨ final = .flushFailed) ∧
        r.events = es ++ [final] ∧ FlushedBeforeReads r.events ∧
        s.console.Became r.events t.console ∧
        ∀ k i u, (exe.real.attempts n s)[k]? = some (i, u) ↔
          exe.Passes ⟨.real, limit⟩ s k u ∧ exe.program.instruction? u.pc = some i := by
  refine ⟨fun n => ?_, fun i u => ?_, fun r t hcall => ?_⟩
  · obtain ⟨es, hbecame, htalk⟩ := exe.conversation_runFor n s
    exact ⟨es, hbecame, htalk, htalk.flushedBeforeReads⟩
  · exact ⟨fun hi => exe.console_perform hi u, exe.incoming_perform i u⟩
  · obtain ⟨stop, u, he, hconclude⟩ := Executable.call_cases hcall
    obtain ⟨n, rfl, hattempts⟩ := Executable.exists_attempts_of_execute he
    obtain ⟨es, hbecame, htalk⟩ := exe.conversation_runFor n s
    obtain ⟨final, hfinal, hflush⟩ := Executable.became_conclude stop (exe.real.runFor n s).2
    rw [hconclude] at hflush
    have hcame := hbecame.trans hflush
    have hevents : r.events = es ++ [final] := by
      obtain ⟨r', hcall', -, -, hevents⟩ := Executable.call_of_execute he
      rw [hcall', Option.some.injEq, Prod.mk.injEq] at hcall
      obtain ⟨rfl, rfl⟩ := hcall
      rw [hevents, hcame.history_eq, ← Array.length_toList, List.drop_left]
    refine ⟨n, es, final, htalk, hfinal, hevents, ?_, hevents ▸ hcame, hattempts⟩
    rw [hevents]
    apply htalk.flushedBeforeReads.append
    apply flushedBeforeReads_of_none
    intro e he
    rw [List.mem_singleton.1 he]
    rcases hfinal with rfl | rfl <;> rfl

/-- A byte is copied, with an interruption on its way in and one on its way out. -/
theorem call_is_conversation_copy :
    ∃ exe r t, (Program.parse ",+.").link = .ok exe ∧
      exe.call ⟨.real, some 3⟩
        (.initial 1 { script := [.interrupted, .byte 7], sink := { interruptedWrites := [0] } }) =
          some (r, t) ∧
      r.events = [.flushed, .readInterrupted, .read 7, .writeInterrupted, .wrote 8, .flushed] ∧
      FlushedBeforeReads r.events := by
  let exe : Executable := ⟨.parse ",+.", ⟨#[none, none, none], 0⟩, rfl⟩
  let start : State :=
    .initial 1 { script := [.interrupted, .byte 7], sink := { interruptedWrites := [0] } }
  have hlink : (Program.parse ",+.").link = .ok exe := (Program.link_eq_ok_iff _ _).2 rfl
  obtain ⟨r, t, hcall, hevents⟩ : ∃ r t, exe.call ⟨.real, some 3⟩ start = some (r, t) ∧
      r.events = [.flushed, .readInterrupted, .read 7, .writeInterrupted, .wrote 8, .flushed] :=
    ⟨_, _, rfl, rfl⟩
  obtain ⟨-, -, hends⟩ := call_is_conversation exe (some 3) start
  obtain ⟨n, es, final, -, -, -, hflushed, -, -⟩ := hends r t hcall
  exact ⟨exe, r, t, hlink, hcall, hevents, hflushed⟩

end Brainfuck
