import Brainfuck.Proofs.Devices
import Brainfuck.Proofs.Simulation

/-!
# Tapes of two lengths

The length of the tape shows in one way only: the pointer cannot leave by its end.  A run that does not
try to is the same on every longer tape, and one that does is the same up to there
(`longer_tape_runs_alike`).

`Padded zeros` holds between a tape and the same tape with so many blank cells behind it.  The pointer
is the same on both, so it is never on a cell that only the longer one has, and these stay blank
(`Tape.Padded.write`, `Executable.effect_padded`).
-/

namespace Brainfuck

/-- The pointer was about to leave the tape by its end. -/
def RunError.isOverflow : RunError → Bool
  | offTape _ _ .overflow => true
  | _ => false

def Stop.isOverflow : Stop → Bool
  | finished => false
  | failed e => e.isOverflow

/-! ## Tapes -/

namespace Tape

/-- The second tape is the first one with `zeros` blank cells behind it. -/
structure Padded (zeros : Nat) (t u : Tape) : Prop where
  cells_eq : u.cells = t.cells ++ Array.replicate zeros 0
  pointer_eq : u.pointer = t.pointer

variable {zeros : Nat} {t u : Tape}

theorem padded_blank {m n : Nat} (hm : 1 ≤ m) (hmn : m ≤ n) : (blank m).Padded (n - m) (blank n) where
  cells_eq := by
    show Array.replicate (max n 1) 0 = Array.replicate (max m 1) 0 ++ Array.replicate (n - m) 0
    rw [Array.replicate_append_replicate]
    congr 1
    omega
  pointer_eq := rfl

namespace Padded

theorem length_eq (h : t.Padded zeros u) : u.length = t.length + zeros := by
  unfold length
  rw [h.cells_eq, Array.size_append, Array.size_replicate]

theorem exists_eq (h : t.Padded zeros u) :
    ∃ hlt, u = ⟨t.cells ++ Array.replicate zeros 0, t.pointer, hlt⟩ := by
  obtain ⟨cells, pointer, hlt⟩ := u
  obtain ⟨hcells, hpointer⟩ := h
  change cells = _ at hcells
  change pointer = _ at hpointer
  subst cells pointer
  exact ⟨hlt, rfl⟩

theorem cell_eq (h : t.Padded zeros u) : u.cell = t.cell := by
  obtain ⟨hlt, rfl⟩ := h.exists_eq
  exact Array.getElem_append_left t.pointer_lt

theorem write (h : t.Padded zeros u) (b : UInt8) : (t.write b).Padded zeros (u.write b) := by
  obtain ⟨hlt, rfl⟩ := h.exists_eq
  exact ⟨Array.set_append_left t.pointer_lt, rfl⟩

/-- A move that the shorter tape allows. -/
theorem right? (h : t.Padded zeros u) {t' : Tape} (ht : t.right? = some t') :
    ∃ u', u.right? = some u' ∧ t'.Padded zeros u' := by
  have hlength := h.length_eq
  obtain ⟨hlt, rfl⟩ := h.exists_eq
  unfold Tape.right? at ht
  split at ht <;> cases ht
  next hmove =>
  have hmove' : t.pointer + 1 < (t.cells ++ Array.replicate zeros 0).size := by
    change (t.cells ++ Array.replicate zeros 0).size = t.cells.size + zeros at hlength
    omega
  exact ⟨_, dif_pos hmove', rfl, rfl⟩

theorem left? (h : t.Padded zeros u) : Option.Rel (Padded zeros) t.left? u.left? := by
  obtain ⟨hlt, rfl⟩ := h.exists_eq
  unfold Tape.left?
  by_cases hzero : t.pointer = 0
  · rw [if_pos hzero, if_pos hzero]
    exact .none
  · rw [if_neg hzero, if_neg hzero]
    exact .some ⟨rfl, rfl⟩

end Padded

end Tape

/-! ## Single instructions -/

/-- The same machine with another tape. -/
structure State.Padded (zeros : Nat) (s t : State) : Prop where
  tape : s.tape.Padded zeros t.tape
  pc_eq : s.pc = t.pc
  steps_eq : s.steps = t.steps
  console_eq : s.console = t.console

namespace Executable

variable {exe : Executable} {i : Instruction} {zeros : Nat} {s t : State}

theorem receive_padded {t u : Tape} (h : t.Padded zeros u) (b : Option UInt8) :
    (receive t b).Padded zeros (receive u b) := by
  cases b with
  | none => exact h
  | some b =>
    simp only [receive]
    by_cases hb : b = sentinel
    · rw [if_pos hb, if_pos hb]
      exact h
    · rw [if_neg hb, if_neg hb]
      exact h.write b

theorem not_isOverflow_of_partner {ip : Nat} {excess : Excess} {e : RunError}
    (h : exe.partner ip excess = .error e) : ¬ e.isOverflow := by
  rw [partner_eq_error h]
  exact Bool.false_ne_true

theorem not_isOverflow_of_ok {next : Nat} (e : RunError)
    (h : (.ok next : Except RunError Nat) = .error e) : ¬ e.isOverflow := by
  cases h

theorem not_isOverflow_of_device {ip : Nat} {cause : String} (e : RunError)
    (h : (.error (.device ip cause) : Except RunError Nat) = .error e) : ¬ e.isOverflow := by
  cases h
  exact Bool.false_ne_true

/-- The same effect, unless the shorter tape ends here. -/
theorem effect_padded (exe : Executable) (i : Instruction) (ip : Nat) {t u : Tape}
    (h : t.Padded zeros u) :
    ((exe.effect i ip t).1 = (exe.effect i ip u).1 ∧
      (exe.effect i ip t).2.Padded zeros (exe.effect i ip u).2 ∧
      ∀ e, (exe.effect i ip t).1 = .error e → ¬ e.isOverflow) ∨
    exe.effect i ip t = (.error (.offTape ip t.pointer .overflow), t) ∧ t.pointer + 1 = t.length := by
  cases i <;> simp only [effect, h.cell_eq]
  case right =>
    cases ht : t.right? with
    | none => exact Or.inr ⟨rfl, Tape.right?_eq_none ht⟩
    | some t' =>
      obtain ⟨u', hu, h'⟩ := h.right? ht
      rw [hu]
      exact Or.inl ⟨rfl, h', not_isOverflow_of_ok⟩
  case left =>
    have hmoved := h.left?
    generalize t.left? = moved at hmoved ⊢
    generalize u.left? = moved' at hmoved ⊢
    cases hmoved with
    | none =>
      rw [h.pointer_eq]
      refine Or.inl ⟨rfl, h, ?_⟩
      rintro _ ⟨⟩
      exact Bool.false_ne_true
    | some h' => exact Or.inl ⟨rfl, h', not_isOverflow_of_ok⟩
  case increment => exact Or.inl ⟨trivial, h.write _, not_isOverflow_of_ok⟩
  case decrement => exact Or.inl ⟨trivial, h.write _, not_isOverflow_of_ok⟩
  case loopStart =>
    by_cases hz : t.cell = 0
    · rw [if_pos hz, if_pos hz]
      refine Or.inl ⟨rfl, h, fun e he => ?_⟩
      cases hp : exe.partner ip .opening with
      | error e' =>
        rw [hp] at he
        cases he
        exact not_isOverflow_of_partner hp
      | ok j =>
        rw [hp] at he
        cases he
    · rw [if_neg hz, if_neg hz]
      exact Or.inl ⟨rfl, h, not_isOverflow_of_ok⟩
  case loopEnd => exact Or.inl ⟨trivial, h, fun e => not_isOverflow_of_partner⟩
  all_goals exact Or.inl ⟨trivial, h, not_isOverflow_of_ok⟩

/-- The overflow leaves the machine as it was. -/
theorem attempt_padded (exe : Executable) (i : Instruction) (h : s.Padded zeros t) :
    (∃ r s' t', exe.attempt i s = (r, s') ∧ exe.attempt i t = (r, t') ∧ s'.Padded zeros t' ∧
      ∀ e, r = .error e → ¬ e.isOverflow) ∨
    ∃ e s', exe.attempt i s = (.error e, s') ∧ e.isOverflow ∧ s'.Padded zeros t ∧
      s'.tape.pointer + 1 = s'.tape.length := by
  obtain ⟨tape, pc, steps, console⟩ := s
  obtain ⟨tape', _, _, _⟩ := t
  obtain ⟨h, rfl, rfl, rfl⟩ := h
  change tape.Padded zeros tape' at h
  rcases exe.attempt_cases i with rfl | rfl | hplain
  · simp only [attempt, emit, h.cell_eq]
    rcases console.write tape.cell with ⟨cause | _, console₁⟩
    · exact Or.inl ⟨_, _, _, rfl, rfl, ⟨h, rfl, rfl, rfl⟩, not_isOverflow_of_device⟩
    · exact Or.inl ⟨_, _, _, rfl, rfl, ⟨h, rfl, rfl, rfl⟩, not_isOverflow_of_ok⟩
  · simp only [attempt, accept]
    rcases console.flush with ⟨cause | _, console₁⟩
    · exact Or.inl ⟨_, _, _, rfl, rfl, ⟨h, rfl, rfl, rfl⟩, not_isOverflow_of_device⟩
    · rcases hread : console₁.read with ⟨cause | b, console₂⟩ <;> simp only [hread]
      · exact Or.inl ⟨_, _, _, rfl, rfl, ⟨h, rfl, rfl, rfl⟩, not_isOverflow_of_device⟩
      · exact Or.inl ⟨_, _, _, rfl, rfl, ⟨receive_padded h b, rfl, rfl, rfl⟩, not_isOverflow_of_ok⟩
  · rw [hplain, hplain, rehearse_eq, rehearse_eq]
    rcases exe.effect_padded i pc h with ⟨hanswer, h', he⟩ | ⟨heffect, hend⟩
    · exact Or.inl ⟨_, _, _, rfl, Prod.ext hanswer.symm rfl, ⟨h', rfl, rfl, rfl⟩, he⟩
    · simp only [heffect]
      exact Or.inr ⟨_, _, rfl, rfl, ⟨h, rfl, rfl, rfl⟩, hend⟩

theorem simulates_padded (exe : Executable) (zeros : Nat) :
    exe.real.Simulates exe.real (State.Padded zeros) (fun e => e.isOverflow)
      (fun _ s t => s.Padded zeros t ∧ s.tape.pointer + 1 = s.tape.length) :=
  simulates_of_attempt (fun _ _ h => h.pc_eq)
    (fun _ _ _ h => ⟨h.tape, rfl, congrArg (· + 1) h.steps_eq, h.console_eq⟩)
    (fun i _ _ h => exe.attempt_padded i h)

/-! ## Calls -/

theorem isOverflow_conclude (stop : Stop) (s : State) :
    (conclude stop s).1.isOverflow = stop.isOverflow := by
  cases stop with
  | finished =>
    rw [conclude_eq]
    cases s.console.flush.1 <;> rfl
  | failed e => rw [conclude_failed]

theorem conclude_padded (stop : Stop) (h : s.Padded zeros t) :
    (conclude stop t).1 = (conclude stop s).1 ∧
      (conclude stop s).2.Padded zeros (conclude stop t).2 := by
  rw [conclude_eq, conclude_eq, ← h.console_eq, ← h.pc_eq]
  exact ⟨rfl, h.tape, rfl, h.steps_eq, rfl⟩

/-- Where the shorter tape is left by its end, the call on the longer one goes on; on the shorter one
there is only the final flush to come. -/
theorem call_padded {limit : Option Nat} {r : Report} {s' : State} (h : s.Padded zeros t)
    (hcall : exe.call ⟨.real, limit⟩ s = some (r, s')) :
    (¬ r.stop.isOverflow ∧ ∃ r' t', exe.call ⟨.real, limit⟩ t = some (r', t') ∧ r'.stop = r.stop ∧
      s'.Padded zeros t') ∨
    (r.stop.isOverflow ∧ s'.tape.pointer + 1 = s'.tape.length ∧ ∃ u k t',
      s'.Agrees u ∧ s'.console = u.console.flush.2 ∧ u.Padded zeros t' ∧
      exe.Passes ⟨.real, limit⟩ t k t') := by
  obtain ⟨stop, u, he, hconclude⟩ := call_cases hcall
  have hoverflow := isOverflow_conclude stop u
  have hagrees := agrees_conclude stop u
  have hconsole : (conclude stop u).2.console = u.console.flush.2 := by rw [conclude_eq]
  rw [hconclude] at hoverflow hagrees hconsole
  change r.stop.isOverflow = stop.isOverflow at hoverflow
  rw [hoverflow]
  rcases execute_cases he with ⟨-, -, hrun⟩ | ⟨_, _, hmode, -⟩
  · rcases (exe.simulates_padded zeros).exists_runWithin (fun _ => Bool.false_ne_true) h hrun with
      ⟨t', ht, h', hstop⟩ | ⟨e, k, t', rfl, he, hk, ht, h', hend⟩
    · obtain ⟨hanswer, h''⟩ := conclude_padded stop h'
      have het : exe.execute ⟨.real, limit⟩ t = some (stop, t', none) := by
        rw [execute_real, ← h.steps_eq, ht]
        rfl
      obtain ⟨r', hcall', hr', -⟩ := call_of_execute het
      rw [hconclude] at hanswer h''
      refine Or.inl ⟨?_, r', _, hcall', hr'.trans hanswer, h''⟩
      cases stop with
      | finished => exact Bool.false_ne_true
      | failed e => exact hstop e rfl
    · refine Or.inr ⟨he, ?_, u, k, t', hagrees, hconsole, h', fun l hl => ?_, ht⟩
      · rw [hagrees.tape_eq]
        exact hend
      · have hlt := hk l hl
        rw [← h.steps_eq]
        omega
  · cases hmode

end Executable

/-! ## Top theorem -/

/-- With all cells behind those of the shorter tape blank, also where that one is left. -/
theorem longer_tape_runs_alike (exe : Executable) (console : Console) (limit : Option Nat) (m n : Nat)
    (hm : 1 ≤ m) (hmn : m ≤ n) (r : Report) (s : State)
    (hcall : exe.call ⟨.real, limit⟩ (.initial m console) = some (r, s)) :
    s.tape.length = m ∧
    (¬ r.stop.isOverflow → ∃ r' t, exe.call ⟨.real, limit⟩ (.initial n console) = some (r', t) ∧
      r'.stop = r.stop ∧ t.tape.pointer = s.tape.pointer ∧ t.pc = s.pc ∧ t.steps = s.steps ∧
      t.console = s.console ∧ t.tape.cells = s.tape.cells ++ Array.replicate (n - m) 0) ∧
    (r.stop.isOverflow → s.tape.pointer = m - 1 ∧
      ∃ t, exe.Passes ⟨.real, limit⟩ (.initial n console) s.steps t ∧
        t.tape.pointer = s.tape.pointer ∧ t.pc = s.pc ∧ t.console.script = s.console.script ∧
        t.console.sink.stored = s.console.sink.stored ∧
        t.tape.cells = s.tape.cells ++ Array.replicate (n - m) 0) := by
  have hlength : s.tape.length = m := by
    have hb := (Executable.call_inBounds (exe.inBounds_initial m console) hcall).1.length_eq
    rw [hb]
    omega
  have hstart : (State.initial m console).Padded (n - m) (.initial n console) :=
    ⟨Tape.padded_blank hm hmn, rfl, rfl, rfl⟩
  refine ⟨hlength, fun hno => ?_, fun hoverflow => ?_⟩
  · rcases Executable.call_padded hstart hcall with
      ⟨-, r', t, ht, hstop, h⟩ | ⟨hoverflow, -⟩
    · exact ⟨r', t, ht, hstop, h.tape.pointer_eq, h.pc_eq.symm, h.steps_eq.symm, h.console_eq.symm,
        h.tape.cells_eq⟩
    · exact absurd hoverflow hno
  · rcases Executable.call_padded hstart hcall with
      ⟨hno, -⟩ | ⟨-, hend, u, k, t, hagrees, hconsole, h, hpasses⟩
    · exact absurd hoverflow hno
    · have hk : s.steps = k := by
        have hsteps := Executable.steps_of_passes hpasses
        have hzero : (State.initial n console).steps = 0 := rfl
        rw [hagrees.steps_eq, h.steps_eq]
        omega
      have hscript := u.console.script_flush
      have hsink := u.console.sink_flush
      rw [← hconsole] at hscript hsink
      refine ⟨by omega, t, by rw [hk]; exact hpasses, ?_, ?_, ?_, ?_, ?_⟩
      · rw [h.tape.pointer_eq, hagrees.tape_eq]
      · rw [hagrees.pc_eq, h.pc_eq]
      · rw [← h.console_eq, hscript]
      · rw [← h.console_eq, hsink]
      · rw [h.tape.cells_eq, hagrees.tape_eq]

/-- A program that leaves a tape of two cells by its end, and the same cut short before it does. -/
theorem longer_tape_runs_alike_cut :
    ∃ exe, (Program.parse "+>,>.").link = .ok exe ∧
      (∃ r s r' t, exe.call ⟨.real, some 3⟩ (.initial 2 ⟨[.byte 5], {}, #[]⟩) = some (r, s) ∧
        exe.call ⟨.real, some 3⟩ (.initial 4 ⟨[.byte 5], {}, #[]⟩) = some (r', t) ∧
        r.stop = .failed (.outOfSteps 3) ∧ r'.stop = r.stop ∧ t.tape.cells = #[1, 5, 0, 0]) ∧
      ∃ r s t, exe.call ⟨.real, some 9⟩ (.initial 2 ⟨[.byte 5], {}, #[]⟩) = some (r, s) ∧
        r.stop = .failed (.offTape 3 1 .overflow) ∧
        exe.Passes ⟨.real, some 9⟩ (.initial 4 ⟨[.byte 5], {}, #[]⟩) 3 t ∧
        t.tape.pointer = 1 ∧ t.pc = 3 ∧ t.tape.cells = #[1, 5, 0, 0] := by
  let exe : Executable := ⟨.parse "+>,>.", ⟨#[none, none, none, none, none], 0⟩, rfl⟩
  let console : Console := ⟨[.byte 5], {}, #[]⟩
  have hlink : (Program.parse "+>,>.").link = .ok exe := (Program.link_eq_ok_iff _ _).2 rfl
  obtain ⟨r, s, hcut, hstop, hcells⟩ : ∃ r s,
      exe.call ⟨.real, some 3⟩ (.initial 2 console) = some (r, s) ∧
      r.stop = .failed (.outOfSteps 3) ∧ s.tape.cells = #[1, 5] := ⟨_, _, rfl, rfl, rfl⟩
  obtain ⟨r₁, s₁, hcall, hstop₁, hsteps, hpointer, hpc, hcells₁⟩ : ∃ r s,
      exe.call ⟨.real, some 9⟩ (.initial 2 console) = some (r, s) ∧
      r.stop = .failed (.offTape 3 1 .overflow) ∧ s.steps = 3 ∧ s.tape.pointer = 1 ∧ s.pc = 3 ∧
      s.tape.cells = #[1, 5] := ⟨_, _, rfl, rfl, rfl, rfl, rfl, rfl⟩
  obtain ⟨-, hends, -⟩ :=
    longer_tape_runs_alike exe console (some 3) 2 4 (by decide) (by decide) r s hcut
  obtain ⟨-, -, hleaves⟩ :=
    longer_tape_runs_alike exe console (some 9) 2 4 (by decide) (by decide) r₁ s₁ hcall
  obtain ⟨r', t, hlong, hstop', -, -, -, -, hlonger⟩ := hends (by rw [hstop]; exact Bool.false_ne_true)
  obtain ⟨-, u, hpasses, hpointer', hpc', -, -, hlonger'⟩ := hleaves (by rw [hstop₁]; rfl)
  rw [hsteps] at hpasses
  rw [hcells] at hlonger
  rw [hcells₁] at hlonger'
  exact ⟨exe, hlink, ⟨r, s, r', t, hcut, hlong, hstop, hstop', hlonger⟩, r₁, s₁, u, hcall, hstop₁,
    hpasses, hpointer'.trans hpointer, hpc'.trans hpc, hlonger'⟩

end Brainfuck
