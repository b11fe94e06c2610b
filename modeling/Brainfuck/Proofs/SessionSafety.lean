import Brainfuck.Session
import Brainfuck.Proofs.Resolution

/-!
# Sessions stay in bounds

Whatever calls are made on a machine, real or traced, held to a limit or not, and whatever its
console and transcripts do: the tape keeps its length, the pointer stays on it, the counter stays in
the program, and no bracket is ever found without its partner (`reachable_inBounds`).

A step keeps all this by `Half`, which is about the first half of an instruction.  The real and the
traced machine both make their steps of such halves (`follows_real`, `follows_traced`), and what
holds of a run of one holds of a run of the other (`Follows`).
-/

namespace Brainfuck

/-- The pointer is on a tape of this length, and the counter in the program or just behind it. -/
structure State.InBounds (exe : Executable) (length : Nat) (s : State) : Prop where
  length_eq : s.tape.length = length
  pointer_lt : s.tape.pointer < length
  pc_le : s.pc ≤ exe.program.size

/-- The call that was begun in `s` has done `k` instructions and is about to do one more, in `t`. -/
def Executable.Passes (exe : Executable) (c : Call) (s : State) (k : Nat) (t : State) : Prop :=
  (∀ limit, c.limit = some limit → s.steps + k < limit) ∧
  match c.mode with
  | .real => exe.real.runFor k s = (none, t)
  | .traced room => ∃ u v, (Trace.Transcript.empty room).append Trace.header = (.ok (), u) ∧
      exe.traced.runFor k (s, u) = (none, t, v)

/-! ## Single instructions -/

namespace Executable

variable {exe : Executable} {i : Instruction} {ip : Nat}

theorem lt_size_of_instruction? (h : exe.program.instruction? ip = some i) : ip < exe.program.size := by
  apply Nat.lt_of_not_le
  intro hle
  rw [(exe.program.instruction?_eq_none_iff ip).2 hle] at h
  cases h

/-- There is a place behind every instruction. -/
theorem next_le_of_instruction? (h : exe.program.instruction? ip = some i) (next : Nat)
    (hnext : (.ok (ip + 1) : Except RunError Nat) = .ok next) : next ≤ exe.program.size := by
  cases hnext
  exact lt_size_of_instruction? h

theorem exists_partner?
    (h : exe.program.instruction? ip = some .loopStart ∨ exe.program.instruction? ip = some .loopEnd) :
    ∃ j, exe.jumps.partner? ip = some j ∧ j < exe.program.size := by
  have hb := (resolve_eq_ok exe.resolved).1
  rw [exe.program.instruction?_eq] at h
  rw [← exe.program.length_instructions]
  rcases h with h | h
  · obtain ⟨j, hm⟩ := hb.exists_closing h
    exact ⟨j, (partner?_eq_some_iff exe.resolved ip j).2 (Or.inl hm), hm.lt_length⟩
  · obtain ⟨j, hm⟩ := hb.exists_opening h
    exact ⟨j, (partner?_eq_some_iff exe.resolved ip j).2 (Or.inr hm), hm.lt.trans hm.lt_length⟩

/-- What the first half of an instruction keeps, and where it can lead. -/
structure Half (exe : Executable) (s : State) (target : Except RunError Nat) (t : State) : Prop where
  length_eq : t.tape.length = s.tape.length
  pc_eq : t.pc = s.pc
  steps_eq : t.steps = s.steps
  next_le : ∀ next, target = .ok next → next ≤ exe.program.size
  balanced : ∀ ip excess, target ≠ .error (.unbalanced ip excess)

theorem half_rehearse {s : State} (hi : exe.program.instruction? s.pc = some i) :
    exe.Half s (exe.rehearse i s).1 (exe.rehearse i s).2 := by
  have hnext := next_le_of_instruction? hi
  rw [rehearse_eq]
  cases i
  case right =>
    simp only [effect]
    cases hr : s.tape.right? with
    | none => exact ⟨rfl, rfl, rfl, by rintro _ ⟨⟩, by rintro _ _ ⟨⟩⟩
    | some moved => exact ⟨congrArg Array.size (Tape.cells_of_right? hr), rfl, rfl, hnext, by rintro _ _ ⟨⟩⟩
  case left =>
    simp only [effect]
    cases hl : s.tape.left? with
    | none => exact ⟨rfl, rfl, rfl, by rintro _ ⟨⟩, by rintro _ _ ⟨⟩⟩
    | some moved => exact ⟨congrArg Array.size (Tape.cells_of_left? hl), rfl, rfl, hnext, by rintro _ _ ⟨⟩⟩
  case increment => exact ⟨Tape.length_write _ _, rfl, rfl, hnext, by rintro _ _ ⟨⟩⟩
  case decrement => exact ⟨Tape.length_write _ _, rfl, rfl, hnext, by rintro _ _ ⟨⟩⟩
  case output => exact ⟨rfl, rfl, rfl, hnext, by rintro _ _ ⟨⟩⟩
  case input => exact ⟨rfl, rfl, rfl, hnext, by rintro _ _ ⟨⟩⟩
  case loopStart =>
    obtain ⟨j, hj, hlt'⟩ := exists_partner? (Or.inl hi)
    simp only [effect, partner, hj]
    split
    · refine ⟨rfl, rfl, rfl, fun next h => ?_, by rintro _ _ ⟨⟩⟩
      cases h
      exact hlt'
    · exact ⟨rfl, rfl, rfl, hnext, by rintro _ _ ⟨⟩⟩
  case loopEnd =>
    obtain ⟨j, hj, hlt'⟩ := exists_partner? (Or.inr hi)
    simp only [effect, partner, hj]
    refine ⟨rfl, rfl, rfl, fun next h => ?_, by rintro _ _ ⟨⟩⟩
    cases h
    exact Nat.le_of_lt hlt'

theorem length_receive (t : Tape) (b : Option UInt8) : (receive t b).length = t.length := by
  cases b with
  | none => rfl
  | some b =>
    show (if b = sentinel then t else t.write b).length = t.length
    split
    · rfl
    · exact Tape.length_write t b

theorem half_attempt {s : State} (hi : exe.program.instruction? s.pc = some i) :
    exe.Half s (exe.attempt i s).1 (exe.attempt i s).2 := by
  have hnext := next_le_of_instruction? hi
  cases i
  case output =>
    simp only [attempt, emit]
    rcases s.console.write s.tape.cell with ⟨_ | _, _⟩
    · exact ⟨rfl, rfl, rfl, by rintro _ ⟨⟩, by rintro _ _ ⟨⟩⟩
    · exact ⟨rfl, rfl, rfl, hnext, by rintro _ _ ⟨⟩⟩
  case input =>
    simp only [attempt, accept]
    rcases s.console.flush with ⟨_ | _, flushed⟩
    · exact ⟨rfl, rfl, rfl, by rintro _ ⟨⟩, by rintro _ _ ⟨⟩⟩
    · rcases h : flushed.read with ⟨_ | b, _⟩ <;> simp only [h]
      · exact ⟨rfl, rfl, rfl, by rintro _ ⟨⟩, by rintro _ _ ⟨⟩⟩
      · exact ⟨length_receive s.tape b, rfl, rfl, hnext, by rintro _ _ ⟨⟩⟩
  all_goals exact half_rehearse hi

end Executable

/-! ## Runs -/

/-- A process that does the instructions of `exe`, one step of the machine each; `view` is what it
has of the machine's state. -/
structure Process.Follows {σ : Type} (p : Process σ) (exe : Executable) (view : σ → State) : Prop where
  ok : ∀ {x y : σ} {i : Instruction}, p.next? x = some i → p.perform i x = (.ok (), y) →
    (view y).tape.length = (view x).tape.length ∧ (view y).pc ≤ exe.program.size ∧
    (view y).steps = (view x).steps + 1
  error : ∀ {x y : σ} {i : Instruction} {e : RunError},
    p.next? x = some i → p.perform i x = (.error e, y) →
    (view y).tape.length = (view x).tape.length ∧ (view y).pc = (view x).pc ∧
    (view y).steps = (view x).steps ∧ ∀ ip excess, e ≠ .unbalanced ip excess

theorem follows_real (exe : Executable) : exe.real.Follows exe id where
  ok {s t i} hi hp := by
    have half := Executable.half_attempt hi
    change exe.perform i s = _ at hp
    unfold Executable.perform at hp
    split at hp <;> cases hp
    next next u ha =>
      rw [ha] at half
      exact ⟨half.length_eq, half.next_le next rfl, congrArg (· + 1) half.steps_eq⟩
  error {s t i e} hi hp := by
    have half := Executable.half_attempt hi
    change exe.perform i s = _ at hp
    unfold Executable.perform at hp
    split at hp <;> cases hp
    next ha =>
      rw [ha] at half
      refine ⟨half.length_eq, half.pc_eq, half.steps_eq, ?_⟩
      rintro ip excess rfl
      exact half.balanced ip excess rfl

theorem follows_traced (exe : Executable) : exe.traced.Follows exe Prod.fst where
  ok {x y i} hi hp := by
    obtain ⟨s, t⟩ := x
    have half := Executable.half_rehearse (s := s) hi
    change exe.record i (s, t) = _ at hp
    simp only [Executable.record] at hp
    split at hp
    · cases hp
    · next next u ha =>
      rw [ha] at half
      split at hp <;> cases hp
      exact ⟨half.length_eq, half.next_le next rfl, congrArg (· + 1) half.steps_eq⟩
  error {x y i e} hi hp := by
    obtain ⟨s, t⟩ := x
    have half := Executable.half_rehearse (s := s) hi
    change exe.record i (s, t) = _ at hp
    simp only [Executable.record] at hp
    split at hp
    · next ha =>
      cases hp
      rw [ha] at half
      refine ⟨half.length_eq, half.pc_eq, half.steps_eq, ?_⟩
      rintro ip excess rfl
      exact half.balanced ip excess rfl
    · next next u ha =>
      rw [ha] at half
      split at hp <;> cases hp
      exact ⟨half.length_eq, half.pc_eq, half.steps_eq, by rintro _ _ ⟨⟩⟩

namespace Process.Follows

variable {σ : Type} {p : Process σ} {exe : Executable} {view : σ → State} {length : Nat} {x y : σ}

theorem inBounds_runFor (hf : p.Follows exe view) (n : Nat) (hx : (view x).InBounds exe length) :
    (view (p.runFor n x).2).InBounds exe length := by
  refine runFor_invariant (I := fun x => (view x).InBounds exe length) (fun x i hx hi => ?_) n hx
  rcases hp : p.perform i x with ⟨e | _, y⟩
  · obtain ⟨hlen, hpc, -, -⟩ := hf.error hi hp
    have heq : (view y).tape.length = length := hlen.trans hx.length_eq
    exact ⟨heq, by rw [← heq]; exact (view y).tape.pointer_lt, by rw [hpc]; exact hx.pc_le⟩
  · obtain ⟨hlen, hpc, -⟩ := hf.ok hi hp
    have heq : (view y).tape.length = length := hlen.trans hx.length_eq
    exact ⟨heq, by rw [← heq]; exact (view y).tape.pointer_lt, hpc⟩

theorem steps_le_runFor (hf : p.Follows exe view) (n : Nat) :
    (view x).steps ≤ (view (p.runFor n x).2).steps := by
  refine runFor_invariant (I := fun y => (view x).steps ≤ (view y).steps) (fun y i hy hi => ?_) n
    (Nat.le_refl _)
  rcases hp : p.perform i y with ⟨e | _, z⟩
  · have := (hf.error hi hp).2.2.1
    show (view x).steps ≤ (view z).steps
    omega
  · have := (hf.ok hi hp).2.2
    show (view x).steps ≤ (view z).steps
    omega

/-- A run counts no more instructions than it may do. -/
theorem steps_runFor_le (hf : p.Follows exe view) (n : Nat) :
    (view (p.runFor n x).2).steps ≤ (view x).steps + n := by
  induction n generalizing x with
  | zero => exact Nat.le_refl _
  | succ n ih =>
    cases hi : p.next? x with
    | none =>
      rw [runFor_of_over _ hi]
      exact Nat.le_add_right _ _
    | some i =>
      rcases hp : p.perform i x with ⟨e | _, y⟩
      · rw [runFor_succ_of_error n hi hp]
        have := (hf.error hi hp).2.2.1
        show (view y).steps ≤ (view x).steps + (n + 1)
        omega
      · rw [runFor_succ_of_ok n hi hp]
        have := (hf.ok hi hp).2.2
        have := ih (x := y)
        omega

/-- As long as nothing stops it, a run counts every instruction. -/
theorem steps_of_none (hf : p.Follows exe view) {n : Nat} (h : p.runFor n x = (none, y)) :
    (view y).steps = (view x).steps + n := by
  induction n generalizing x with
  | zero =>
    have hxy : x = y := congrArg Prod.snd h
    rw [hxy, Nat.add_zero]
  | succ n ih =>
    cases hi : p.next? x with
    | none =>
      rw [runFor_of_over _ hi] at h
      cases h
    | some i =>
      rcases hp : p.perform i x with ⟨e | _, z⟩
      · rw [runFor_succ_of_error n hi hp] at h
        cases h
      · rw [runFor_succ_of_ok n hi hp] at h
        have := ih h
        have := (hf.ok hi hp).2.2
        omega

/-- The instruction that a run fails in is not counted. -/
theorem steps_of_failed (hf : p.Follows exe view) {n : Nat} {e : RunError}
    (h : p.runFor n x = (some (.failed e), y)) : (view y).steps < (view x).steps + n := by
  obtain ⟨k, u, i, hk, hi, hp⟩ := exists_of_runFor_failed h
  have hu := hf.steps_of_none hk
  have hy := (hf.error hi hp).2.2.1
  have hlt : k < n := by
    apply Nat.lt_of_not_le
    intro hle
    obtain ⟨m, rfl⟩ := Nat.exists_eq_add_of_le hle
    rw [runFor_add, h] at hk
    cases hk
  omega

theorem balanced_runFor (hf : p.Follows exe view) {n : Nat} {stop : Stop}
    (h : p.runFor n x = (some stop, y)) (ip : Nat) (excess : Excess) :
    stop ≠ .failed (.unbalanced ip excess) := by
  rintro rfl
  obtain ⟨k, u, i, -, hi, hp⟩ := exists_of_runFor_failed h
  exact (hf.error hi hp).2.2.2 ip excess rfl

/-- What a call keeps, up to its final flush. -/
theorem runWithin (hf : p.Follows exe view) {limit : Option Nat} {stop : Stop}
    (hx : (view x).InBounds exe length) (h : p.runWithin limit (view x).steps x = some (stop, y)) :
    (view y).InBounds exe length ∧ (view x).steps ≤ (view y).steps ∧
    (∀ k z, (∀ l, limit = some l → (view x).steps + k < l) → p.runFor k x = (none, z) →
      (view z).steps ≤ (view y).steps) ∧
    ∀ ip excess, stop ≠ .failed (.unbalanced ip excess) := by
  rcases runWithin_cases h with ⟨n, hn⟩ | ⟨l, hl, hn, rfl⟩
  · have hb := hf.inBounds_runFor n hx
    have hle := hf.steps_le_runFor (x := x) n
    rw [hn] at hb hle
    refine ⟨hb, hle, fun k z _ hk => ?_, hf.balanced_runFor hn⟩
    obtain ⟨m, -, hm⟩ := runFor_after hk hn
    have := hf.steps_le_runFor (x := z) m
    rwa [hm] at this
  · have hb := hf.inBounds_runFor (l - (view x).steps) hx
    rw [hn] at hb
    have hsteps := hf.steps_of_none hn
    refine ⟨hb, by omega, fun k z hlim hk => ?_, nofun⟩
    have := hf.steps_of_none hk
    have := hlim l hl
    omega

end Process.Follows

/-! ## Calls -/

namespace Executable

variable {exe : Executable} {c : Call} {s t : State} {length : Nat}

theorem steps_of_passes {k : Nat} (h : exe.Passes c s k t) : t.steps = s.steps + k := by
  obtain ⟨-, h⟩ := h
  split at h
  · exact (follows_real exe).steps_of_none h
  · obtain ⟨u, v, -, h⟩ := h
    exact (follows_traced exe).steps_of_none h

theorem passes_inBounds {k : Nat} (hs : s.InBounds exe length) (h : exe.Passes c s k t) :
    t.InBounds exe length ∧ t.steps = s.steps + k ∧ ∃ i, exe.program.instruction? t.pc = some i := by
  have hsteps := steps_of_passes h
  obtain ⟨-, h⟩ := h
  split at h
  · have hb := (follows_real exe).inBounds_runFor k hs
    rw [h] at hb
    exact ⟨hb, hsteps, Process.next?_of_runFor_none h⟩
  · obtain ⟨u, v, -, h⟩ := h
    have hb := (follows_traced exe).inBounds_runFor (x := (s, u)) k hs
    rw [h] at hb
    exact ⟨hb, hsteps, Process.next?_of_runFor_none h⟩

theorem execute_inBounds {stop : Stop} {trace : Option String} (hs : s.InBounds exe length)
    (h : exe.execute c s = some (stop, t, trace)) :
    t.InBounds exe length ∧ s.steps ≤ t.steps ∧ (∀ k u, exe.Passes c s k u → u.steps ≤ t.steps) ∧
    ∀ ip excess, stop ≠ .failed (.unbalanced ip excess) := by
  rcases execute_cases h with ⟨hmode, -, hrun⟩ | ⟨room, u, hmode, -, hrun⟩
  · obtain ⟨hb, hle, hpass, hbal⟩ := (follows_real exe).runWithin hs hrun
    refine ⟨hb, hle, ?_, hbal⟩
    rintro k u ⟨hlim, hk⟩
    rw [hmode] at hk
    exact hpass k u hlim hk
  · unfold traceWithin at hrun
    split at hrun
    · next v hv =>
      obtain ⟨hb, hle, hpass, hbal⟩ := (follows_traced exe).runWithin (x := (s, v)) hs hrun
      refine ⟨hb, hle, ?_, hbal⟩
      rintro k u' ⟨hlim, hk⟩
      rw [hmode] at hk
      obtain ⟨v', w, hv', hk⟩ := hk
      rw [hv] at hv'
      cases hv'
      exact hpass k (u', w) hlim hk
    · next cause v hv =>
      cases hrun
      refine ⟨hs, Nat.le_refl _, ?_, nofun⟩
      rintro k u' ⟨-, hk⟩
      rw [hmode] at hk
      obtain ⟨v', w, hv', -⟩ := hk
      rw [hv] at hv'
      cases hv'

theorem call_inBounds {r : Report} (hs : s.InBounds exe length) (h : exe.call c s = some (r, t)) :
    t.InBounds exe length ∧ s.steps ≤ t.steps ∧ (∀ k u, exe.Passes c s k u → u.steps ≤ t.steps) ∧
    ∀ ip excess, r.stop ≠ .failed (.unbalanced ip excess) := by
  obtain ⟨stop, u, he, hc⟩ := call_cases h
  obtain ⟨hb, hle, hpass, hbal⟩ := execute_inBounds hs he
  rw [conclude_eq, Prod.mk.injEq] at hc
  obtain ⟨hstop, rfl⟩ := hc
  refine ⟨⟨hb.length_eq, hb.pointer_lt, hb.pc_le⟩, hle, hpass, fun ip excess => ?_⟩
  rw [← hstop]
  split
  · nofun
  · exact hbal ip excess

theorem inBounds_initial (exe : Executable) (n : Nat) (console : Console) :
    (State.initial n console).InBounds exe (max n 1) := by
  have hlen : (State.initial n console).tape.length = max n 1 := Tape.length_blank n
  exact ⟨hlen, by rw [← hlen]; exact (State.initial n console).tape.pointer_lt, Nat.zero_le _⟩

theorem inBounds_of_reachable {n : Nat} {console : Console}
    (h : exe.Reachable (.initial n console) s) : s.InBounds exe (max n 1) := by
  induction h with
  | start => exact inBounds_initial exe n console
  | call _ hc ih => exact (call_inBounds ih hc).1

end Executable

/-! ## Top theorem -/

/-- Between calls, before every instruction of a call and behind every call. -/
theorem reachable_inBounds (p : Program) (exe : Executable) (h : p.link = .ok exe) (n : Nat)
    (console : Console) (s : State) (hs : exe.Reachable (.initial n console) s) :
    exe.program = p ∧ JumpTable.resolve p.instructions = .ok exe.jumps ∧
    s.InBounds exe (max n 1) ∧
    ∀ c : Call,
      (∀ k t, exe.Passes c s k t → t.InBounds exe (max n 1) ∧ t.steps = s.steps + k ∧
        ∃ i, exe.program.instruction? t.pc = some i ∧
          (i = .loopStart ∨ i = .loopEnd →
            ∃ j, exe.jumps.partner? t.pc = some j ∧ j < exe.program.size)) ∧
      ∀ r t, exe.call c s = some (r, t) → t.InBounds exe (max n 1) ∧ s.steps ≤ t.steps ∧
        (∀ k u, exe.Passes c s k u → u.steps ≤ t.steps) ∧
        ∀ ip excess, r.stop ≠ .failed (.unbalanced ip excess) := by
  have hp := (p.link_eq_ok_iff exe).1 h
  have hb := Executable.inBounds_of_reachable hs
  refine ⟨hp, by rw [← hp]; exact exe.resolved, hb, fun c => ⟨fun k t hk => ?_, fun r t hc => ?_⟩⟩
  · obtain ⟨hb', hsteps, i, hi⟩ := Executable.passes_inBounds hb hk
    refine ⟨hb', hsteps, i, hi, fun hbracket => Executable.exists_partner? ?_⟩
    rw [hi]
    rcases hbracket with rfl | rfl
    · exact Or.inl rfl
    · exact Or.inr rfl
  · exact Executable.call_inBounds hb hc

/-- A call that was stopped in a loop by its limit, on a tape that was asked to have no cells. -/
theorem reachable_inBounds_stopped :
    ∃ exe s, (Program.parse "+[.]").link = .ok exe ∧ exe.Reachable (.initial 0 {}) s ∧
      s.pc = 3 ∧ s.InBounds exe 1 := by
  let exe : Executable := ⟨.parse "+[.]", ⟨#[none, some 3, none, some 1], 1⟩, rfl⟩
  have hlink : (Program.parse "+[.]").link = .ok exe := (Program.link_eq_ok_iff _ _).2 rfl
  obtain ⟨r, s, hc, hpc⟩ : ∃ r s, exe.call ⟨.real, some 3⟩ (.initial 0 {}) = some (r, s) ∧ s.pc = 3 :=
    ⟨_, _, rfl, rfl⟩
  have hs : exe.Reachable (.initial 0 {}) s := .call .start hc
  exact ⟨exe, s, hlink, hs, hpc, (reachable_inBounds _ exe hlink 0 {} s hs).2.2.1⟩

end Brainfuck
