import Brainfuck.Machine
import Brainfuck.Trace.Row
import Brainfuck.Trace.Transcript

/-!
# Traced runs

A traced run leaves the console alone: `.` writes nothing and `,` finds no input.  Instead each
instruction leaves a row in a transcript, after its effect on the tape but before it is counted;
so when the row cannot be written, the effect stays and the instruction is tried again later
(`record_cases`).
-/

namespace Brainfuck.Executable

open Trace

/-- Instruction `i` about to be done in state `s`. -/
def moment (i : Instruction) (s : State) : Moment :=
  ⟨s.steps, s.pc, s.tape.pointer, s.tape.cell, i⟩

/-- An instruction that leaves the console alone, with its row. -/
def record (exe : Executable) (i : Instruction) :
    State × Transcript → Except RunError Unit × State × Transcript
  | (s, t) =>
    let now := moment i s
    match exe.rehearse i s with
    | (.error e, s) => (.error e, s, t)
    | (.ok next, s) =>
      match t.append (Row.text ⟨now, next⟩) with
      | (.ok _, t) => (.ok (), s.advance next, t)
      | (.error cause, t) => (.error (.device s.pc cause), s, t)

/-- The machine writing rows. -/
def traced (exe : Executable) : Process (State × Transcript) :=
  ⟨fun (s, _) => exe.program.instruction? s.pc, exe.record⟩

/-- A traced run under a header.  If that cannot be written, nothing is run. -/
def traceWithin (exe : Executable) (limit : Option Nat) (s : State) (t : Transcript) :
    Option (Stop × State × Transcript) :=
  match t.append header with
  | (.ok _, t) => exe.traced.runWithin limit s.steps (s, t)
  | (.error cause, t) => some (.failed (.device s.pc cause), s, t)

/-! ## Lemmas -/

/-- An instruction fails without an effect; or it has its effect, and its row is written and it is
counted, or neither. -/
theorem record_cases {exe : Executable} {i : Instruction} {s : State} {t : Transcript}
    {r : Except RunError Unit} {y : State × Transcript} (h : exe.record i (s, t) = (r, y)) :
    (∃ e, (exe.effect i s.pc s.tape).1 = .error e ∧ r = .error e ∧ y = (s, t)) ∨
    ∃ next, (exe.effect i s.pc s.tape).1 = .ok next ∧
      ((∃ u, t.append (Row.text ⟨moment i s, next⟩) = (.ok (), u) ∧ r = .ok () ∧
          y = (⟨(exe.effect i s.pc s.tape).2, next, s.steps + 1, s.console⟩, u)) ∨
       ∃ cause u, t.append (Row.text ⟨moment i s, next⟩) = (.error cause, u) ∧
          r = .error (.device s.pc cause) ∧
          y = (⟨(exe.effect i s.pc s.tape).2, s.pc, s.steps, s.console⟩, u)) := by
  simp only [record, rehearse_eq] at h
  split at h
  · next e s' he =>
    cases h
    obtain ⟨hfst, hsnd⟩ := Prod.mk.inj he
    refine Or.inl ⟨e, hfst, rfl, ?_⟩
    rw [← hsnd, (effect_eq_error hfst).1]
  · next next s' he =>
    obtain ⟨hfst, rfl⟩ := Prod.mk.inj he
    refine Or.inr ⟨next, hfst, ?_⟩
    split at h
    · next u ha =>
      cases h
      exact Or.inl ⟨u, ha, rfl, rfl⟩
    · next cause u ha =>
      cases h
      exact Or.inr ⟨cause, u, ha, rfl, rfl⟩

theorem record_of_error {exe : Executable} {i : Instruction} {s : State} {e : RunError}
    (h : (exe.effect i s.pc s.tape).1 = .error e) (t : Transcript) :
    exe.record i (s, t) = (.error e, s, t) := by
  simp only [record, rehearse_eq, h, (effect_eq_error h).1]

/-- An endless transcript takes every row. -/
theorem record_of_ok {exe : Executable} {i : Instruction} {s : State} {next : Nat}
    (h : (exe.effect i s.pc s.tape).1 = .ok next) (text : String) :
    exe.record i (s, ⟨none, text⟩) =
      (.ok (), ⟨(exe.effect i s.pc s.tape).2, next, s.steps + 1, s.console⟩,
        ⟨none, text ++ Row.text ⟨moment i s, next⟩⟩) := by
  simp only [record, rehearse_eq, h]
  rfl

end Brainfuck.Executable
