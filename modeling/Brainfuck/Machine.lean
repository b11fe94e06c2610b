import Brainfuck.JumpTable
import Brainfuck.Tape
import Brainfuck.Console
import Brainfuck.Process

/-!
# The machine

An `Executable` is a program with its brackets resolved; a `State` is all that changes while it
runs.  An instruction is done in two halves: its effect on tape and console, which may fail
(`attempt`), and then `State.advance`, which counts it and moves on.  So an instruction that
fails is not counted, and is the next one to be tried.
-/

namespace Brainfuck

structure Executable where
  program : Program
  jumps : JumpTable
  resolved : JumpTable.resolve program.instructions = .ok jumps

def Program.link (p : Program) : Except RunError Executable :=
  match h : JumpTable.resolve p.instructions with
  | .ok jumps => .ok ⟨p, jumps, h⟩
  | .error e => .error e

structure State where
  tape : Tape
  /-- The instruction to be tried next; the size of the program when there is none left. -/
  pc : Nat
  /-- How many instructions have been done. -/
  steps : Nat
  console : Console

namespace State

def initial (tapeLength : Nat) (console : Console) : State :=
  ⟨.blank tapeLength, 0, 0, console⟩

def advance : State → Nat → State
  | ⟨tape, _, steps, console⟩, next => ⟨tape, next, steps + 1, console⟩

end State

namespace Executable

/-- The input byte that is read like the end of input. -/
def sentinel : UInt8 := 26

/-- The partner of the bracket at `ip`; without one, that bracket is the excess. -/
def partner (exe : Executable) (ip : Nat) (excess : Excess) : Except RunError Nat :=
  match exe.jumps.partner? ip with
  | some j => .ok j
  | none => .error (.unbalanced ip excess)

/-- Where the instruction at `ip` leads and what it makes of the tape, with all input and output
left out.  `[` on a zero cell goes behind its partner; `]` goes to its partner, which tests again. -/
def effect (exe : Executable) (i : Instruction) (ip : Nat) (t : Tape) : Except RunError Nat × Tape :=
  match i with
  | .right =>
    match t.right? with
    | some moved => (.ok (ip + 1), moved)
    | none => (.error (.offTape ip t.pointer .overflow), t)
  | .left =>
    match t.left? with
    | some moved => (.ok (ip + 1), moved)
    | none => (.error (.offTape ip t.pointer .underflow), t)
  | .increment => (.ok (ip + 1), t.write (t.cell + 1))
  | .decrement => (.ok (ip + 1), t.write (t.cell - 1))
  | .output => (.ok (ip + 1), t)
  | .input => (.ok (ip + 1), t)
  | .loopStart =>
    if t.cell = 0 then ((exe.partner ip .opening).map (· + 1), t) else (.ok (ip + 1), t)
  | .loopEnd => (exe.partner ip .closing, t)

/-- The first half of an instruction that leaves the console alone. -/
def rehearse (exe : Executable) (i : Instruction) : State → Except RunError Nat × State
  | ⟨tape, pc, steps, console⟩ =>
    match exe.effect i pc tape with
    | (target, tape) => (target, ⟨tape, pc, steps, console⟩)

/-- The first half of `.`. -/
def emit : State → Except RunError Nat × State
  | ⟨tape, pc, steps, console⟩ =>
    match console.write tape.cell with
    | (.ok _, console) => (.ok (pc + 1), ⟨tape, pc, steps, console⟩)
    | (.error cause, console) => (.error (.device pc cause), ⟨tape, pc, steps, console⟩)

/-- What reading makes of the tape: the end of input and the sentinel leave it alone. -/
def receive (t : Tape) : Option UInt8 → Tape
  | none => t
  | some b => if b = sentinel then t else t.write b

/-- The first half of `,`: what has been written is flushed before anything is read. -/
def accept : State → Except RunError Nat × State
  | ⟨tape, pc, steps, console⟩ =>
    match console.flush with
    | (.error cause, console) => (.error (.device pc cause), ⟨tape, pc, steps, console⟩)
    | (.ok _, console) =>
      match console.read with
      | (.error cause, console) => (.error (.device pc cause), ⟨tape, pc, steps, console⟩)
      | (.ok b, console) => (.ok (pc + 1), ⟨receive tape b, pc, steps, console⟩)

/-- The first half of an instruction: where it leads, or why it fails. -/
def attempt (exe : Executable) (i : Instruction) (s : State) : Except RunError Nat × State :=
  match i with
  | .output => emit s
  | .input => accept s
  | i => exe.rehearse i s

/-- Both halves of an instruction. -/
def perform (exe : Executable) (i : Instruction) (s : State) : Except RunError Unit × State :=
  match exe.attempt i s with
  | (.ok next, s) => (.ok (), s.advance next)
  | (.error e, s) => (.error e, s)

/-- The machine at work. -/
def real (exe : Executable) : Process State :=
  ⟨fun s => exe.program.instruction? s.pc, exe.perform⟩

/-! ## Lemmas -/

theorem rehearse_eq (exe : Executable) (i : Instruction) (s : State) :
    exe.rehearse i s =
      ((exe.effect i s.pc s.tape).1, ⟨(exe.effect i s.pc s.tape).2, s.pc, s.steps, s.console⟩) := rfl

/-- Only `.` and `,` have to do with the console. -/
theorem attempt_cases (exe : Executable) (i : Instruction) :
    i = .output ∨ i = .input ∨ ∀ s, exe.attempt i s = exe.rehearse i s := by
  cases i
  case output => exact Or.inl rfl
  case input => exact Or.inr (Or.inl rfl)
  all_goals exact Or.inr (Or.inr fun _ => rfl)

theorem perform_of_attempt_ok {exe : Executable} {i : Instruction} {s t : State} {next : Nat}
    (h : exe.attempt i s = (.ok next, t)) :
    exe.perform i s = (.ok (), t.advance next) := by
  simp only [perform, h]

theorem perform_of_attempt_error {exe : Executable} {i : Instruction} {s t : State} {e : RunError}
    (h : exe.attempt i s = (.error e, t)) :
    exe.perform i s = (.error e, t) := by
  simp only [perform, h]

theorem partner_eq_ok {exe : Executable} {ip j : Nat} {excess : Excess}
    (h : exe.partner ip excess = .ok j) : exe.jumps.partner? ip = some j := by
  unfold partner at h
  split at h <;> cases h
  assumption

theorem partner_eq_error {exe : Executable} {ip : Nat} {excess : Excess} {e : RunError}
    (h : exe.partner ip excess = .error e) : e = .unbalanced ip excess := by
  unfold partner at h
  split at h <;> cases h
  rfl

/-- Only the ends of the tape and a missing partner stand in the way of an effect. -/
theorem effect_error_cases {exe : Executable} {i : Instruction} {ip : Nat} {t : Tape} {e : RunError}
    (h : (exe.effect i ip t).1 = .error e) :
    (exe.effect i ip t).2 = t ∧
      ((i = .left ∧ t.pointer = 0 ∧ e = .offTape ip t.pointer .underflow) ∨
       (i = .right ∧ t.pointer + 1 = t.length ∧ e = .offTape ip t.pointer .overflow) ∨
       ∃ excess, e = .unbalanced ip excess) := by
  cases i <;> simp only [effect] at h ⊢
  case right =>
    split at h <;> cases h
    next hright => exact ⟨rfl, Or.inr (Or.inl ⟨trivial, Tape.right?_eq_none hright, rfl⟩)⟩
  case left =>
    split at h <;> cases h
    next hleft => exact ⟨rfl, Or.inl ⟨trivial, Tape.left?_eq_none hleft, rfl⟩⟩
  case loopStart =>
    by_cases hz : t.cell = 0
    · rw [if_pos hz] at h ⊢
      cases hp : exe.partner ip .opening with
      | error e' =>
        rw [hp] at h
        cases h
        exact ⟨rfl, Or.inr (Or.inr ⟨.opening, partner_eq_error hp⟩)⟩
      | ok j =>
        rw [hp] at h
        cases h
    · rw [if_neg hz] at h
      cases h
  case loopEnd => exact ⟨trivial, Or.inr (Or.inr ⟨.closing, partner_eq_error h⟩)⟩
  all_goals cases h

theorem effect_eq_error {exe : Executable} {i : Instruction} {ip : Nat} {t : Tape} {e : RunError}
    (h : (exe.effect i ip t).1 = .error e) :
    (exe.effect i ip t).2 = t ∧
      ((∃ edge, e = .offTape ip t.pointer edge) ∨ ∃ excess, e = .unbalanced ip excess) := by
  obtain ⟨htape, ⟨-, -, rfl⟩ | ⟨-, -, rfl⟩ | hbracket⟩ := effect_error_cases h
  · exact ⟨htape, Or.inl ⟨.underflow, rfl⟩⟩
  · exact ⟨htape, Or.inl ⟨.overflow, rfl⟩⟩
  · exact ⟨htape, Or.inr hbracket⟩

end Executable

/-- A program has one executable at most. -/
theorem Program.link_eq_ok_iff (p : Program) (exe : Executable) : p.link = .ok exe ↔ exe.program = p := by
  constructor
  · intro h
    unfold link at h
    split at h <;> cases h
    rfl
  · rintro rfl
    obtain ⟨p, jumps, hp⟩ := exe
    unfold link
    split
    · next jumps' hp' =>
      have : jumps = jumps' := Except.ok.inj (hp.symm.trans hp')
      subst this
      rfl
    · next e he => cases hp.symm.trans he

end Brainfuck
