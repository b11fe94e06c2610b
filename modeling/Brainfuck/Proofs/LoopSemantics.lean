import Brainfuck.Session
import Brainfuck.Structured.Evaluation
import Brainfuck.Proofs.LoopTrees

/-!
# Jumps mean loops

The machine finds its way by a program counter and a jump table; `Evaluation` follows the loops of
a tree.  Both come to the same end, or to none (`execute_iff_evaluation`).

* What a tree evaluates to is what a run does from its first instruction on
  (`continues_of_evaluation`, by induction on the evaluation).
* A run that ends passes behind the tree or fails inside it, as the tree evaluates
  (`evaluation_of_runFor`, by induction on the length of the run).
-/

namespace Brainfuck

open Structured

/-- What a tree can see of a state. -/
def State.world (s : State) : World := ⟨s.tape, s.steps, s.console⟩

namespace Structured

/-- The machine in this world, about to do the instruction at `ip`. -/
def World.withPc (w : World) (ip : Nat) : State := ⟨w.tape, ip, w.steps, w.console⟩

/-- To run from `s` on comes to this outcome, with the next instruction at `next` if it is no
failure. -/
def Outcome.Continues (exe : Executable) (s : State) (next : Nat) : Outcome → Prop
  | .finished w => exe.real.run s = exe.real.run (w.withPc next)
  | .failed e w => ∃ ip, e.ip? = some ip ∧ exe.real.run s = some (.failed e, w.withPc ip)

/-! ## Single instructions -/

theorem perform_primitive (exe : Executable) (p : Primitive) (ip : Nat) (w : World) :
    exe.perform p.instruction (w.withPc ip) =
      match p.perform ip w with
      | .finished w' => (.ok (), w'.withPc (ip + 1))
      | .failed e w' => (.error e, w'.withPc ip) := by
  obtain ⟨tape, steps, console⟩ := w
  cases p
  case right =>
    simp only [Primitive.instruction, Executable.perform, Executable.attempt, Executable.rehearse_eq,
      Executable.effect, Primitive.perform, World.withPc]
    cases tape.right? <;> rfl
  case left =>
    simp only [Primitive.instruction, Executable.perform, Executable.attempt, Executable.rehearse_eq,
      Executable.effect, Primitive.perform, World.withPc]
    cases tape.left? <;> rfl
  case increment => rfl
  case decrement => rfl
  case output =>
    simp only [Primitive.instruction, Executable.perform, Executable.attempt, Executable.emit,
      Primitive.perform, write, World.withPc]
    rcases console.write tape.cell with ⟨_ | _, _⟩ <;> rfl
  case input =>
    simp only [Primitive.instruction, Executable.perform, Executable.attempt, Executable.accept,
      Primitive.perform, Structured.read, World.withPc]
    rcases console.flush with ⟨_ | _, flushed⟩
    · rfl
    · rcases h : flushed.read with ⟨_ | _ | b, _⟩ <;> simp only [h] <;> rfl

/-- A primitive instruction that fails is itself to blame. -/
theorem ip?_of_perform_failed {p : Primitive} {ip : Nat} {w w' : World} {e : RunError}
    (h : p.perform ip w = .failed e w') : e.ip? = some ip := by
  cases p <;> simp only [Primitive.perform, write, Structured.read] at h
  case increment => cases h
  case decrement => cases h
  all_goals
    repeat' split at h
    all_goals
      cases h
      try rfl

section
variable {exe : Executable} {i j ip : Nat}

theorem next?_of_stands {x : Instruction} {xs : List Instruction}
    (h : Stands exe.program.instructions ip (x :: xs)) (w : World) :
    exe.real.next? (w.withPc ip) = some x := by
  show exe.program.instruction? ip = some x
  rw [Program.instruction?_eq]
  exact h.head

theorem partner?_of_matches (h : Matches exe.program.instructions i j) :
    exe.jumps.partner? i = some j ∧ exe.jumps.partner? j = some i :=
  ⟨(partner?_eq_some_iff exe.resolved i j).2 (Or.inl h),
    (partner?_eq_some_iff exe.resolved j i).2 (Or.inr h)⟩

/-- `[` on a zero cell is one step to the place behind the loop. -/
theorem perform_loopStart_zero (h : Matches exe.program.instructions i j) {w : World}
    (hw : w.tape.cell = 0) :
    exe.perform .loopStart (w.withPc i) = (.ok (), w.tick.withPc (j + 1)) := by
  simp only [Executable.perform, Executable.attempt, Executable.rehearse_eq, Executable.effect,
    World.withPc, hw, if_true, Executable.partner, (partner?_of_matches h).1]
  rfl

/-- `[` on any other cell is one step into the loop. -/
theorem perform_loopStart_nonzero {w : World} (hw : w.tape.cell ≠ 0) :
    exe.perform .loopStart (w.withPc i) = (.ok (), w.tick.withPc (i + 1)) := by
  simp only [Executable.perform, Executable.attempt, Executable.rehearse_eq, Executable.effect,
    World.withPc, hw, if_false]
  rfl

/-- `]` is one step back to the test. -/
theorem perform_loopEnd (h : Matches exe.program.instructions i j) (w : World) :
    exe.perform .loopEnd (w.withPc j) = (.ok (), w.tick.withPc i) := by
  simp only [Executable.perform, Executable.attempt, Executable.rehearse_eq, Executable.effect,
    World.withPc, Executable.partner, (partner?_of_matches h).2]
  rfl

end

/-! ## From a tree to a run -/

theorem Outcome.Continues.of_run_eq {exe : Executable} {s t : State} {next : Nat} {o : Outcome}
    (hrun : exe.real.run s = exe.real.run t) (h : o.Continues exe t next) : o.Continues exe s next := by
  cases o with
  | finished w => exact hrun.trans h
  | failed e w =>
    obtain ⟨ip, hip, ht⟩ := h
    exact ⟨ip, hip, hrun.trans ht⟩

theorem continues_of_evaluation {exe : Executable} {t : Tree} {ip : Nat} {w : World} {o : Outcome}
    (h : Evaluation t ip w o) (hs : Stands exe.program.instructions ip t.instructions) :
    o.Continues exe (w.withPc ip) (ip + t.instructions.length) := by
  induction h with
  | done => rfl
  | @step p rest ip w w' o hp _ ih =>
    have hnext := next?_of_stands hs w
    have hperform := perform_primitive exe p ip w
    rw [hp] at hperform
    have := ih hs.tail
    rw [Nat.add_right_comm] at this
    exact this.of_run_eq (Process.run_of_ok hnext hperform)
  | @stepFailed p rest ip w w' e hp =>
    have hnext := next?_of_stands hs w
    have hperform := perform_primitive exe p ip w
    rw [hp] at hperform
    exact ⟨ip, ip?_of_perform_failed hp, Process.run_of_error hnext hperform⟩
  | @leave body rest ip w o hw _ ih =>
    have hm := hs.matches_loop body.balanced_instructions
    have := ih hs.behind_loop
    rw [Tree.length_instructions_loop, ← Nat.add_assoc]
    exact this.of_run_eq (Process.run_of_ok (next?_of_stands hs w) (perform_loopStart_zero hm hw))
  | @again body rest ip w w' o hw _ _ ihBody ihLoop =>
    have hm := hs.matches_loop body.balanced_instructions
    have hbody := hs.tail.left
    have hend := hs.tail.right
    refine (ihLoop hs).of_run_eq ?_
    calc exe.real.run (w.withPc ip)
        = exe.real.run (w.tick.withPc (ip + 1)) :=
          Process.run_of_ok (next?_of_stands hs w) (perform_loopStart_nonzero hw)
      _ = exe.real.run (w'.withPc (ip + 1 + body.instructions.length)) := ihBody hbody
      _ = exe.real.run (w'.tick.withPc ip) := by
          refine Process.run_of_ok (next?_of_stands hend w') ?_
          rw [Nat.add_right_comm]
          exact perform_loopEnd hm w'
  | @bodyFailed body rest ip w w' e hw _ ih =>
    obtain ⟨ip', hip, hrun⟩ := ih hs.tail.left
    exact ⟨ip', hip, (Process.run_of_ok (next?_of_stands hs w) (perform_loopStart_nonzero hw)).trans hrun⟩

/-! ## From a run to a tree -/

/-- A run of at most `n` instructions that ended with `stop` in `s` has either passed the tree and
gone on behind it, or failed in it; in each case as the tree evaluates. -/
def Explained (exe : Executable) (t : Tree) (ip n : Nat) (w : World) (stop : Stop) (s : State) : Prop :=
  (∃ m w', m ≤ n ∧ Evaluation t ip w (.finished w') ∧
    exe.real.runFor m (w'.withPc (ip + t.instructions.length)) = (some stop, s)) ∨
  (∃ e w' ip', Evaluation t ip w (.failed e w') ∧ RunError.ip? e = some ip' ∧
    stop = .failed e ∧ s = w'.withPc ip')

/-- What is explained of the rest of a tree is explained of the tree. -/
theorem Explained.of_rest {exe : Executable} {t t' : Tree} {ip ip' m n : Nat} {w w₁ : World}
    {stop : Stop} {s : State} (h : Explained exe t' ip' m w₁ stop s) (hmn : m ≤ n)
    (hbehind : ip' + t'.instructions.length = ip + t.instructions.length)
    (hev : ∀ o, Evaluation t' ip' w₁ o → Evaluation t ip w o) : Explained exe t ip n w stop s := by
  rcases h with ⟨k, w', hk, hfinished, hrest⟩ | ⟨e, w', ip', hfailed, hend⟩
  · rw [hbehind] at hrest
    exact Or.inl ⟨k, w', hk.trans hmn, hev _ hfinished, hrest⟩
  · exact Or.inr ⟨e, w', ip', hev _ hfailed, hend⟩

theorem evaluation_of_runFor {exe : Executable} (n : Nat) :
    ∀ {t : Tree} {ip : Nat} {w : World} {stop : Stop} {s : State},
      Stands exe.program.instructions ip t.instructions →
      exe.real.runFor n (w.withPc ip) = (some stop, s) → Explained exe t ip n w stop s := by
  induction n using Nat.strong_induction_on with
  | _ n ih =>
    intro t ip w stop s hs hrun
    cases t with
    | done => exact Or.inl ⟨n, w, Nat.le_refl n, .done, hrun⟩
    | step p rest =>
      have hnext := next?_of_stands hs w
      have hperform := perform_primitive exe p ip w
      cases hp : p.perform ip w with
      | finished w₁ =>
        rw [hp] at hperform
        obtain ⟨m, rfl, hrun'⟩ := Process.runFor_eq_some_of_ok hnext hperform hrun
        exact (ih m (by omega) hs.tail hrun').of_rest (by omega) (Nat.add_right_comm ip 1 _)
          fun o => .step hp
      | failed e w₁ =>
        rw [hp] at hperform
        obtain ⟨rfl, rfl⟩ := Process.runFor_eq_some_of_error hnext hperform hrun
        exact Or.inr ⟨e, w₁, ip, .stepFailed hp, ip?_of_perform_failed hp, rfl, rfl⟩
    | loop body rest =>
      have hnext := next?_of_stands hs w
      have hm := hs.matches_loop body.balanced_instructions
      by_cases hw : w.tape.cell = 0
      · obtain ⟨m, rfl, hrun'⟩ :=
          Process.runFor_eq_some_of_ok hnext (perform_loopStart_zero hm hw) hrun
        refine (ih m (by omega) hs.behind_loop hrun').of_rest (by omega) ?_ fun o => .leave hw
        rw [Tree.length_instructions_loop]
        omega
      · obtain ⟨m, rfl, hrun'⟩ :=
          Process.runFor_eq_some_of_ok hnext (perform_loopStart_nonzero hw) hrun
        rcases ih m (by omega) hs.tail.left hrun' with
          ⟨k, w₁, hk, hev, hrest⟩ | ⟨e, w', ip', hev, hend⟩
        · -- the body has ended, so its `]` is next and leads back to the loop, with fewer
          -- instructions left
          have hend := next?_of_stands hs.tail.right w₁
          have hback := perform_loopEnd hm w₁
          rw [Nat.add_right_comm] at hback
          obtain ⟨k, rfl, hrest'⟩ := Process.runFor_eq_some_of_ok hend hback hrest
          exact (ih k (by omega) hs hrest').of_rest (by omega) rfl fun o => .again hw hev
        · exact Or.inr ⟨e, w', ip', .bodyFailed hw hev, hend⟩

/-! ## Whole programs -/

section
variable {exe : Executable} {t : Tree}

theorem stands_of_instructions_eq (ht : t.instructions = exe.program.instructions) :
    Stands exe.program.instructions 0 t.instructions ∧ 0 + t.instructions.length = exe.program.size := by
  rw [ht, Program.length_instructions, Nat.zero_add]
  exact ⟨Stands.whole _, rfl⟩

/-- Behind the last instruction there is nothing to be done. -/
theorem next?_withPc_size (exe : Executable) (w : World) :
    exe.real.next? (w.withPc exe.program.size) = none :=
  (exe.program.instruction?_eq_none_iff _).2 (Nat.le_refl _)

theorem run_eq_finished_iff (ht : t.instructions = exe.program.instructions) (w : World) (s : State) :
    exe.real.run (w.withPc 0) = some (.finished, s) ↔
      s.pc = exe.program.size ∧ Evaluation t 0 w (.finished s.world) := by
  obtain ⟨hs, hsize⟩ := stands_of_instructions_eq ht
  constructor
  · intro hrun
    obtain ⟨n, hrun⟩ := (Process.run_eq_some_iff _ _ _ _).1 hrun
    rcases evaluation_of_runFor n hs hrun with ⟨m, w', -, hev, hrest⟩ | ⟨e, w', ip', -, -, hstop, -⟩
    · rw [hsize, Process.runFor_of_over m (next?_withPc_size exe w')] at hrest
      cases hrest
      exact ⟨rfl, hev⟩
    · cases hstop
  · rintro ⟨hpc, hev⟩
    have hstate : s.world.withPc exe.program.size = s := by
      rw [← hpc]
      rfl
    have hrun : exe.real.run (w.withPc 0) = exe.real.run (s.world.withPc _) :=
      continues_of_evaluation hev hs
    rw [hrun, hsize, Process.run_of_over (next?_withPc_size exe s.world), hstate]

theorem run_eq_failed_iff (ht : t.instructions = exe.program.instructions) (w : World) (s : State)
    (e : RunError) :
    exe.real.run (w.withPc 0) = some (.failed e, s) ↔
      e.ip? = some s.pc ∧ Evaluation t 0 w (.failed e s.world) := by
  obtain ⟨hs, hsize⟩ := stands_of_instructions_eq ht
  constructor
  · intro hrun
    obtain ⟨n, hrun⟩ := (Process.run_eq_some_iff _ _ _ _).1 hrun
    rcases evaluation_of_runFor n hs hrun with ⟨m, w', -, -, hrest⟩ | ⟨e, w', ip', hev, hip, hstop, hs'⟩
    · rw [hsize, Process.runFor_of_over m (next?_withPc_size exe w')] at hrest
      cases hrest
    · cases hstop
      subst hs'
      exact ⟨hip, hev⟩
  · rintro ⟨hpc, hev⟩
    obtain ⟨ip, hip, hrun⟩ := continues_of_evaluation hev hs
    rw [hpc] at hip
    cases hip
    exact hrun

theorem exists_ip?_of_evaluation_failed (ht : t.instructions = exe.program.instructions)
    {w w' : World} {e : RunError} (hev : Evaluation t 0 w (.failed e w')) : ∃ ip, e.ip? = some ip := by
  obtain ⟨ip, hip, -⟩ := continues_of_evaluation hev (stands_of_instructions_eq ht).1
  exact ⟨ip, hip⟩

end

end Structured

/-! ## Top theorem -/

theorem Executable.execute_unlimited (exe : Executable) (s t : State) (stop : Stop) :
    exe.execute {} s = some (stop, t, none) ↔ exe.real.run s = some (stop, t) := by
  simp only [execute, Process.runWithin]
  cases exe.real.run s with
  | none => simp
  | some r => simp [Prod.ext_iff]

/-- A program ends, and ends so, when its tree evaluates so. -/
theorem execute_iff_evaluation (source : String) (exe : Executable)
    (h : (Program.parse source).link = .ok exe) (n : Nat) (console : Console) :
    ∃ t, Tree.ofInstructions? (Program.parse source).instructions = some t ∧
      (∀ s, exe.execute {} (.initial n console) = some (.finished, s, none) ↔
        s.pc = exe.program.size ∧ Evaluation t 0 ⟨.blank n, 0, console⟩ (.finished s.world)) ∧
      (∀ e s, exe.execute {} (.initial n console) = some (.failed e, s, none) ↔
        e.ip? = some s.pc ∧ Evaluation t 0 ⟨.blank n, 0, console⟩ (.failed e s.world)) ∧
      ∀ e w, Evaluation t 0 ⟨.blank n, 0, console⟩ (.failed e w) → ∃ ip, e.ip? = some ip := by
  have hp := ((Program.parse source).link_eq_ok_iff exe).1 h
  rw [← hp]
  obtain ⟨t, ht⟩ := Tree.exists_tree_of_resolve exe.resolved
  have hinst := Tree.instructions_of_ofInstructions? ht
  have hstart : State.initial n console = World.withPc ⟨.blank n, 0, console⟩ 0 := rfl
  refine ⟨t, ht, fun s => ?_, fun e s => ?_, fun e w => exists_ip?_of_evaluation_failed hinst⟩
  · rw [Executable.execute_unlimited, hstart]
    exact run_eq_finished_iff hinst _ s
  · rw [Executable.execute_unlimited, hstart]
    exact run_eq_failed_iff hinst _ s e

/-- A loop that writes its counter down and then leaves the tape. -/
theorem execute_iff_evaluation_countdown :
    ∃ exe t s, (Program.parse ",[.-]<").link = .ok exe ∧
      Tree.ofInstructions? (Program.parse ",[.-]<").instructions = some t ∧
      exe.execute {} (.initial 1 { script := [.byte 2] }) = some (.failed (.offTape 5 0 .underflow), s, none) ∧
      Evaluation t 0 ⟨.blank 1, 0, { script := [.byte 2] }⟩
        (.failed (.offTape 5 0 .underflow) s.world) := by
  let exe : Executable := ⟨.parse ",[.-]<", ⟨#[none, some 4, none, none, some 1, none], 1⟩, rfl⟩
  have hlink : (Program.parse ",[.-]<").link = .ok exe := (Program.link_eq_ok_iff _ _).2 rfl
  obtain ⟨t, ht, -, hfailed, -⟩ := execute_iff_evaluation ",[.-]<" exe hlink 1 { script := [.byte 2] }
  have hrun : exe.execute {} (.initial 1 { script := [.byte 2] }) =
      some (.failed (.offTape 5 0 .underflow), (exe.real.runFor 12 (.initial 1 { script := [.byte 2] })).2, none) := by
    rw [Executable.execute_unlimited, Process.run_eq_some_iff]
    exact ⟨12, rfl⟩
  exact ⟨exe, t, _, hlink, ht, hrun, ((hfailed _ _).1 hrun).2⟩

end Brainfuck
