import Brainfuck.Proofs.CommandRuns
import Brainfuck.Proofs.LoopSemantics
import Brainfuck.Proofs.NormalInput
import Mathlib.Data.List.TakeWhile

/-!
# Programs seen from their pointer

For proofs about single programs.  A `Scene` is all that such a program can see where no device fails: the
tape as cells on either side of the pointer, the input that is left, what has been written, and how often it
has read.  `Leads` says how a tree comes from one scene to another, with one rule for each instruction and
two for a loop; the rules are put together by transitivity.  `Fails` says where it stops on the way.

Of a tree that is a whole program this decides what a call does (`call_of_leads`, `call_of_fails`).
-/

namespace Brainfuck

open CommandLine

namespace Tape

/-- The tape with these cells left of the pointer (the nearest first), under it, and right of it. -/
def zipper (left : List UInt8) (cell : UInt8) (right : List UInt8) : Tape :=
  ⟨(left.reverse ++ cell :: right).toArray, left.length, by simp⟩

variable {left right : List UInt8} {c d : UInt8}

@[simp] theorem cell_zipper : (zipper left c right).cell = c := by
  simp [cell, zipper]

@[simp] theorem write_zipper : (zipper left c right).write d = zipper left d right := by
  simp [write, zipper]

theorem right?_zipper_cons : (zipper left c (d :: right)).right? = some (zipper (c :: left) d right) := by
  simp [right?, zipper]

theorem right?_zipper_nil : (zipper left c []).right? = none := by
  simp [right?, zipper]

theorem left?_zipper_cons : (zipper (d :: left) c right).left? = some (zipper left d (c :: right)) := by
  simp [left?, zipper]

theorem blank_eq_zipper (n : Nat) : blank n = zipper [] 0 (List.replicate (n - 1) 0) := by
  have hlength : max n 1 = n - 1 + 1 := by omega
  simp only [blank, zipper, hlength, List.reverse_nil, List.nil_append, List.length_nil,
    ← List.replicate_succ, List.toArray_replicate]

end Tape

namespace Executable

/-- The longest beginning of an input that has no zero and no sentinel in it. -/
def message (input : List UInt8) : List UInt8 := input.takeWhile fun b => b ≠ 0 ∧ b ≠ sentinel

theorem ne_zero_of_mem_message {input : List UInt8} {b : UInt8} (h : b ∈ message input) : b ≠ 0 := by
  have hb := List.mem_takeWhile_imp h
  exact (of_decide_eq_true hb).1

/-- What a zero cell holds behind a read. -/
def received : List UInt8 → UInt8
  | [] => 0
  | b :: _ => if b = sentinel then 0 else b

/-- Zero is received when the message is over, and only then. -/
theorem received_of_message_nil {input : List UInt8} (h : message input = []) : received input = 0 := by
  cases input with
  | nil => rfl
  | cons b rest =>
    show (if b = sentinel then 0 else b) = 0
    split
    · rfl
    · next hsentinel =>
      by_contra hzero
      rw [message, List.takeWhile_cons_of_pos (by simp [hzero, hsentinel])] at h
      cases h

theorem received_of_message_cons {input m : List UInt8} {b : UInt8} (h : message input = b :: m) :
    received input = b ∧ b ≠ 0 ∧ ∃ rest, input = b :: rest ∧ message rest = m := by
  cases input with
  | nil => cases h
  | cons b' rest =>
    by_cases hb : b' ≠ 0 ∧ b' ≠ sentinel
    · rw [message, List.takeWhile_cons_of_pos (by simp [hb])] at h
      cases h
      exact ⟨if_neg hb.2, hb.1, rest, rfl, rfl⟩
    · rw [message, List.takeWhile_cons_of_neg (by simpa using hb)] at h
      cases h

end Executable

namespace Structured

open Executable

structure Scene where
  /-- The cells left of the pointer, the nearest first. -/
  left : List UInt8
  cell : UInt8
  right : List UInt8
  unread : List UInt8
  written : List UInt8
  reads : Nat

/-- A world that looks like this, where no device fails. -/
structure World.Shows (w : World) (s : Scene) : Prop where
  tape_eq : w.tape = .zipper s.left s.cell s.right
  streams : Streams.ShownBy ⟨s.unread, s.written.toArray⟩ w.console
  reads_eq : w.console.reads = s.reads

/-- What is left of a program, where that stands, and what can be seen. -/
structure Place where
  rest : Tree
  ip : Nat
  scene : Scene

/-- To evaluate from `p` on is to evaluate from `q` on. -/
def Leads (p q : Place) : Prop :=
  ∀ w : World, w.Shows p.scene → ∃ w' : World, w'.Shows q.scene ∧
    ∀ o, Evaluation q.rest q.ip w' o → Evaluation p.rest p.ip w o

/-- To evaluate from `p` on is to fail, and to leave this scene. -/
def Fails (p : Place) (e : RunError) (s : Scene) : Prop :=
  ∀ w : World, w.Shows p.scene → ∃ w' : World, w'.Shows s ∧ Evaluation p.rest p.ip w (.failed e w')

namespace Leads

variable {p q r : Place}

theorem trans (h : Leads p q) (h' : Leads q r) : Leads p r := by
  intro w hw
  obtain ⟨w', hw', hq⟩ := h w hw
  obtain ⟨w'', hw'', hr⟩ := h' w' hw'
  exact ⟨w'', hw'', fun o ho => hq o (hr o ho)⟩

theorem fails {e : RunError} {s : Scene} (h : Leads p q) (h' : Fails q e s) : Fails p e s := by
  intro w hw
  obtain ⟨w', hw', hq⟩ := h w hw
  obtain ⟨w'', hw'', hfailed⟩ := h' w' hw'
  exact ⟨w'', hw'', hq _ hfailed⟩

end Leads

/-! ## Rules -/

section
variable {rest body : Tree} {ip n : Nat} {l r i o : List UInt8} {c d : UInt8}

/-- An instruction that does nothing but move or write. -/
theorem leads_of_moved {p : Primitive} {l' r' : List UInt8} {c' : UInt8}
    (h : ∀ w : World, w.tape = .zipper l c r → p.perform ip w = .finished (w.moved (.zipper l' c' r'))) :
    Leads ⟨.step p rest, ip, l, c, r, i, o, n⟩ ⟨rest, ip + 1, l', c', r', i, o, n⟩ := by
  intro w hw
  exact ⟨w.moved (.zipper l' c' r'), ⟨rfl, hw.streams, hw.reads_eq⟩, fun _ => .step (h w hw.tape_eq)⟩

theorem leads_right :
    Leads ⟨.step .right rest, ip, l, c, d :: r, i, o, n⟩ ⟨rest, ip + 1, c :: l, d, r, i, o, n⟩ := by
  apply leads_of_moved
  intro w hw
  simp only [Primitive.perform, hw, Tape.right?_zipper_cons]

theorem leads_left :
    Leads ⟨.step .left rest, ip, d :: l, c, r, i, o, n⟩ ⟨rest, ip + 1, l, d, c :: r, i, o, n⟩ := by
  apply leads_of_moved
  intro w hw
  simp only [Primitive.perform, hw, Tape.left?_zipper_cons]

theorem leads_decrement :
    Leads ⟨.step .decrement rest, ip, l, c, r, i, o, n⟩ ⟨rest, ip + 1, l, c - 1, r, i, o, n⟩ := by
  apply leads_of_moved
  intro w hw
  simp only [Primitive.perform, hw, Tape.cell_zipper, Tape.write_zipper]

theorem leads_output :
    Leads ⟨.step .output rest, ip, l, c, r, i, o, n⟩ ⟨rest, ip + 1, l, c, r, i, o ++ [c], n⟩ := by
  intro w hw
  obtain ⟨d, hwrite, hd⟩ := hw.streams.write c
  have hreads := w.console.reads_write c
  rw [hwrite] at hreads
  have hperform : Primitive.output.perform ip w = .finished ⟨w.tape, w.steps + 1, d⟩ := by
    simp only [Primitive.perform, Structured.write, hw.tape_eq, Tape.cell_zipper, hwrite]
  refine ⟨⟨w.tape, w.steps + 1, d⟩, ⟨hw.tape_eq, ?_, hreads.trans hw.reads_eq⟩, fun _ => .step hperform⟩
  simpa [Streams.print] using hd

theorem leads_input :
    Leads ⟨.step .input rest, ip, l, 0, r, i, o, n⟩
      ⟨rest, ip + 1, l, received i, r, i.tail, o, n + 1⟩ := by
  intro w hw
  obtain ⟨d, hflush, hd⟩ := hw.streams.flush
  obtain ⟨e, hread, he⟩ := hd.read
  have hreads : e.reads = w.console.reads + 1 := by
    obtain ⟨answer, e', hanswer, -, -, hcount, -⟩ := d.read_normal
    obtain ⟨-, rfl⟩ := Prod.mk.inj (hread.symm.trans hanswer)
    rw [hcount, ← w.console.reads_flush, hflush]
  have hperform : Primitive.input.perform ip w =
      .finished ⟨.zipper l (received i) r, w.steps + 1, e⟩ := by
    simp only [Primitive.perform, Structured.read, hflush, hread, hw.tape_eq]
    cases i with
    | nil => rfl
    | cons b i =>
      show Outcome.finished ⟨if b = sentinel then _ else _, w.steps + 1, e⟩ =
        .finished ⟨.zipper l (if b = sentinel then 0 else b) r, w.steps + 1, e⟩
      -- the cell was zero, so a sentinel that changes nothing leaves a zero
      by_cases hb : b = sentinel
      · rw [if_pos hb, if_pos hb]
      · rw [if_neg hb, if_neg hb, Tape.write_zipper]
  refine ⟨_, ⟨rfl, ?_, hreads.trans (congrArg (· + 1) hw.reads_eq)⟩, fun _ => .step hperform⟩
  cases i with
  | nil => exact he
  | cons b i => exact he

theorem leads_out (hc : c = 0) :
    Leads ⟨.loop body rest, ip, l, c, r, i, o, n⟩
      ⟨rest, ip + body.instructions.length + 2, l, c, r, i, o, n⟩ := by
  intro w hw
  have hcell : w.tape.cell = 0 := by rw [hw.tape_eq, Tape.cell_zipper, hc]
  exact ⟨w.tick, ⟨hw.tape_eq, hw.streams, hw.reads_eq⟩, fun _ => .leave hcell⟩

/-- Once through the body of a loop. -/
theorem leads_again {s s' : Scene} {ip' : Nat} (hs : s.cell ≠ 0)
    (h : Leads ⟨body, ip + 1, s⟩ ⟨.done, ip', s'⟩) :
    Leads ⟨.loop body rest, ip, s⟩ ⟨.loop body rest, ip, s'⟩ := by
  intro w hw
  have hcell : w.tape.cell ≠ 0 := by rwa [hw.tape_eq, Tape.cell_zipper]
  obtain ⟨w', hw', hbody⟩ := h w.tick ⟨hw.tape_eq, hw.streams, hw.reads_eq⟩
  exact ⟨w'.tick, ⟨hw'.tape_eq, hw'.streams, hw'.reads_eq⟩, fun _ => .again hcell (hbody _ .done)⟩

theorem fails_right :
    Fails ⟨.step .right rest, ip, l, c, [], i, o, n⟩ (.offTape ip l.length .overflow)
      ⟨l, c, [], i, o, n⟩ := by
  intro w hw
  refine ⟨w, hw, .stepFailed ?_⟩
  simp only [Primitive.perform, hw.tape_eq, Tape.right?_zipper_nil]
  rfl

/-- In the body of a loop. -/
theorem fails_inside {s s' : Scene} {e : RunError} (hs : s.cell ≠ 0) (h : Fails ⟨body, ip + 1, s⟩ e s') :
    Fails ⟨.loop body rest, ip, s⟩ e s' := by
  intro w hw
  have hcell : w.tape.cell ≠ 0 := by rwa [hw.tape_eq, Tape.cell_zipper]
  obtain ⟨w', hw', hbody⟩ := h w.tick ⟨hw.tape_eq, hw.streams, hw.reads_eq⟩
  exact ⟨w', hw', .bodyFailed hcell hbody⟩

end

/-! ## Whole programs -/

/-- What there is to be seen when a program begins. -/
def Scene.start (tapeLength : Nat) (input : List UInt8) (written : Array UInt8) : Scene :=
  ⟨[], 0, .replicate (tapeLength - 1) 0, input, written.toList, 0⟩

section
variable {p : Program} {t : Tree} {tapeLength : Nat} {input : List UInt8} {sink : Sink} {s : Scene}

theorem shows_start (hsink : ({ sink := sink } : Console).Reliable) (tapeLength : Nat)
    (input : List UInt8) :
    World.Shows ⟨.blank tapeLength, 0, { script := input.map .byte, sink := sink }⟩
      (.start tapeLength input sink.stored) where
  tape_eq := Tape.blank_eq_zipper tapeLength
  streams := by
    refine ⟨rfl, rfl, hsink.sink_open, ?_, hsink.flushes⟩
    rw [List.forall_mem_map]
    exact fun _ _ => Bool.false_ne_true
  reads_eq := rfl

/-- A program with a tree can be linked. -/
theorem exists_link (ht : t.instructions = p.instructions) : ∃ exe, p.link = .ok exe ∧ exe.program = p := by
  have hbalanced : Balanced p.instructions := by
    rw [← ht]
    exact t.balanced_instructions
  obtain ⟨jumps, hjumps⟩ := (exists_resolve_eq_ok_iff p.instructions).2 hbalanced
  exact ⟨⟨p, jumps, hjumps⟩, (p.link_eq_ok_iff _).2 rfl, rfl⟩

/-- The final flush is not to be seen. -/
theorem exists_call_of_run {exe : Executable} {start : State} {stop : Stop} {w : World} {pc : Nat}
    (hrun : exe.real.run start = some (stop, w.withPc pc)) (hw : w.Shows s) :
    ∃ r u, exe.call {} start = some (r, u) ∧ r.stop = stop ∧ u.world.Shows s := by
  obtain ⟨d, hflush, hd⟩ := hw.streams.flush
  have hreads : d.reads = s.reads := by
    rw [← hw.reads_eq, ← w.console.reads_flush, hflush]
  have hconclude : Executable.conclude stop (w.withPc pc) = (stop, (w.withPc pc).on d) := by
    have hok : (w.withPc pc).console.flush.1 = .ok () := congrArg Prod.fst hflush
    rw [Executable.conclude_of_flush_ok stop hok]
    exact congrArg (fun c => (stop, (w.withPc pc).on c)) (congrArg Prod.snd hflush)
  have hexecute := (exe.execute_unlimited start (w.withPc pc) stop).2 hrun
  obtain ⟨r, hcall, hstop, -⟩ := Executable.call_of_execute hexecute
  rw [hconclude] at hcall hstop
  exact ⟨r, _, hcall, hstop, hw.tape_eq, hd, hreads⟩

theorem call_of_leads (ht : t.instructions = p.instructions) {ip : Nat}
    (hsink : ({ sink := sink } : Console).Reliable)
    (h : Leads ⟨t, 0, .start tapeLength input sink.stored⟩ ⟨.done, ip, s⟩) :
    ∃ exe r u, p.link = .ok exe ∧
      exe.call {} (.initial tapeLength { script := input.map .byte, sink := sink }) = some (r, u) ∧
      r.stop = .finished ∧ u.world.Shows s := by
  obtain ⟨exe, hlink, rfl⟩ := exists_link ht
  obtain ⟨w, hw, hev⟩ := h _ (shows_start hsink tapeLength input)
  have hrun := (run_eq_finished_iff ht _ (w.withPc exe.program.size)).2 ⟨rfl, hev _ .done⟩
  obtain ⟨r, u, hcall⟩ := exists_call_of_run hrun hw
  exact ⟨exe, r, u, hlink, hcall⟩

theorem call_of_fails (ht : t.instructions = p.instructions) {e : RunError} {ip : Nat}
    (hsink : ({ sink := sink } : Console).Reliable) (hip : e.ip? = some ip)
    (h : Fails ⟨t, 0, .start tapeLength input sink.stored⟩ e s) :
    ∃ exe r u, p.link = .ok exe ∧
      exe.call {} (.initial tapeLength { script := input.map .byte, sink := sink }) = some (r, u) ∧
      r.stop = .failed e ∧ u.world.Shows s := by
  obtain ⟨exe, hlink, rfl⟩ := exists_link ht
  obtain ⟨w, hw, hev⟩ := h _ (shows_start hsink tapeLength input)
  have hrun := (run_eq_failed_iff ht _ (w.withPc ip) e).2 ⟨hip, hev⟩
  obtain ⟨r, u, hcall⟩ := exists_call_of_run hrun hw
  exact ⟨exe, r, u, hlink, hcall⟩

end

end Structured

end Brainfuck
