import Brainfuck.Proofs.Devices
import Brainfuck.Proofs.Simulation

/-!
# Failed calls can be made again

Where reads and flushes fail now and then, the same call is made again and again until no device
fails in it.  This ends as one call would at the mended console, on which nothing fails
(`retried_call_ends_as_mended`).

`Mends n` holds between a console with `n` faults at most and one that does the same without
them.  An instruction that is done keeps it; one that a device lets down does not touch the
machine and uses up a fault (`attempt_mends`).  So runs on the two consoles need not be in step,
but after each failed call the mended machine has passed through the state in which the other one
is left.
-/

namespace Brainfuck

namespace Console

/-- The console without its interruptions and without its failing reads and flushes. -/
def mended (c : Console) : Console :=
  ⟨c.arrivals, { c.sink with interruptedWrites := [], failedFlushes := [] }, c.history⟩

/-- `d` does what `c` does once its faults are over, of which there are `n` at most. -/
structure Mends (n : Nat) (c d : Console) : Prop where
  sink_open : c.sink.Open
  faults_le : c.faults ≤ n
  reliable : d.Reliable
  arrivals_eq : d.arrivals = c.arrivals
  stored_eq : d.sink.stored = c.sink.stored
  deliveries_eq : d.deliveries = c.deliveries

theorem mends_mended {c : Console} (h : c.sink.Open) : Mends c.faults c c.mended where
  sink_open := h
  faults_le := Nat.le_refl _
  reliable :=
    ⟨⟨h.capacity_eq, h.refusals_eq⟩, fun _ hr => Reading.not_isFailure (List.mem_filter.1 hr).2,
      List.forall_mem_nil _⟩
  arrivals_eq := List.filter_eq_self.2 fun _ hr => (List.mem_filter.1 hr).2
  stored_eq := rfl
  deliveries_eq := rfl

namespace Mends

variable {m n : Nat} {c d : Console}

theorem mono (h : Mends m c d) (hmn : m ≤ n) : Mends n c d :=
  { h with faults_le := h.faults_le.trans hmn }

theorem write (h : Mends n c d) (b : UInt8) :
    ∃ c' d', c.write b = (.ok (), c') ∧ d.write b = (.ok (), d') ∧ Mends n c' d' := by
  have hc := write_of_open h.sink_open b
  have hd := write_of_open h.reliable.sink_open b
  refine ⟨_, _, Prod.ext hc rfl, Prod.ext hd rfl, open_write h.sink_open b, ?_,
    kept_reliable.write b h.reliable, ?_, ?_, ?_⟩
  · simpa [faults, failedReads] using h.faults_le
  · simpa [arrivals] using h.arrivals_eq
  · rw [stored_write_of_ok hc, stored_write_of_ok hd, h.stored_eq]
  · rw [deliveries_write_of_ok hc, deliveries_write_of_ok hd, h.deliveries_eq]

/-- A failing flush is a fault less. -/
theorem flush_left (h : Mends n c d) :
    Mends n c.flush.2 d ∧ ∀ cause, c.flush.1 = .error cause → ∃ m < n, Mends m c.flush.2 d := by
  have hfaults := faults_flush c
  have hle := h.faults_le
  have hflushed : Mends c.flush.2.faults c.flush.2 d := by
    refine ⟨?_, Nat.le_refl _, h.reliable, ?_, ?_, ?_⟩
    · rw [sink_flush]
      exact ⟨h.sink_open.capacity_eq, h.sink_open.refusals_eq⟩
    · simpa [arrivals] using h.arrivals_eq
    · rw [sink_flush]
      exact h.stored_eq
    · rw [deliveries_flush]
      exact h.deliveries_eq
  refine ⟨hflushed.mono (by omega), fun cause hcause => ⟨_, ?_, hflushed⟩⟩
  have hmem : c.sink.flushes ∈ c.sink.failedFlushes := by
    refine Decidable.byContradiction fun hmem => ?_
    rw [(flush_fst_eq_ok_iff c).2 hmem] at hcause
    cases hcause
  have := List.count_pos_iff.2 hmem
  omega

theorem flush_right (h : Mends n c d) : Mends n c d.flush.2 where
  sink_open := h.sink_open
  faults_le := h.faults_le
  reliable := kept_reliable.flush h.reliable
  arrivals_eq := by simpa [arrivals] using h.arrivals_eq
  stored_eq := by
    rw [sink_flush]
    exact h.stored_eq
  deliveries_eq := (deliveries_flush d).trans h.deliveries_eq

/-- A failing read is a fault less; any other brings the same on both consoles. -/
theorem read (h : Mends n c d) :
    (∃ answer c' d', c.read = (.ok answer, c') ∧ d.read = (.ok answer, d') ∧ Mends n c' d') ∨
    ∃ cause c', c.read = (.error cause, c') ∧ ∃ m < n, Mends m c' d := by
  have hsink := sink_read c
  have hle := h.faults_le
  have hread := read_sound c
  split at hread
  · next answer c' hc =>
    rw [hc] at hsink
    obtain ⟨answer', d', hd, hbrings⟩ := h.reliable.exists_read_eq
    have hanswer : answer' = answer := by
      rw [hbrings.answer_eq, hread.answer_eq, h.arrivals_eq]
    have hsink' := sink_read d
    have hreliable := kept_reliable.read h.reliable
    rw [hd] at hsink' hreliable
    subst hanswer
    refine Or.inl ⟨answer', c', d', hc, hd, ?_, ?_, hreliable, ?_, ?_, ?_⟩
    · rw [hsink]
      exact h.sink_open
    · rw [faults, hread.failedReads_eq, hsink]
      exact hle
    · rw [hbrings.arrivals_eq, hread.arrivals_eq, h.arrivals_eq]
    · rw [hsink, hsink', h.stored_eq]
    · rw [hbrings.deliveries_eq, hread.deliveries_eq, h.deliveries_eq]
  · next cause c' hc =>
    rw [hc] at hsink
    change c'.sink = c.sink at hsink
    have hfewer : c'.faults < n := by
      have hfailed := hread.failedReads_eq
      simp only [faults, hsink] at hle ⊢
      omega
    refine Or.inr ⟨cause, c', hc, c'.faults, hfewer, ?_, Nat.le_refl _, h.reliable, ?_, ?_, ?_⟩
    · rw [hsink]
      exact h.sink_open
    · rw [hread.arrivals_eq, h.arrivals_eq]
    · rw [hsink, h.stored_eq]
    · rw [hread.deliveries_eq, h.deliveries_eq]

end Mends

end Console

/-! ## Single instructions -/

/-- Machines that agree, at consoles of which one mends the other. -/
structure State.Mends (n : Nat) (s t : State) : Prop where
  agrees : s.Agrees t
  console : Console.Mends n s.console t.console

theorem State.Mends.mono {m n : Nat} {s t : State} (h : s.Mends m t) (hmn : m ≤ n) : s.Mends n t :=
  ⟨h.agrees, h.console.mono hmn⟩

namespace Executable

variable {exe : Executable} {i : Instruction} {s t : State} {n : Nat}

/-- Both machines do the instruction, or it fails on both for the same reason; unless a device
fails on the one, which leaves that machine as it was. -/
theorem attempt_mends (exe : Executable) (i : Instruction) (h : s.Mends n t) :
    (∃ r s' t', exe.attempt i s = (r, s') ∧ exe.attempt i t = (r, t') ∧ s'.Mends n t' ∧
      ∀ e, r = .error e → ¬ e.isDevice) ∨
    ∃ e s', exe.attempt i s = (.error e, s') ∧ e.isDevice ∧ ∃ m < n, s'.Mends m t := by
  obtain ⟨tape, pc, steps, c⟩ := s
  obtain ⟨_, _, _, d⟩ := t
  obtain ⟨⟨rfl, rfl, rfl⟩, h⟩ := h
  change Console.Mends n c d at h
  rcases exe.attempt_cases i with rfl | rfl | hplain
  · obtain ⟨c', d', hc, hd, h'⟩ := h.write tape.cell
    simp only [attempt, emit, hc, hd]
    exact Or.inl ⟨_, _, _, rfl, rfl, ⟨⟨rfl, rfl, rfl⟩, h'⟩, fun _ he => by cases he⟩
  · obtain ⟨hflush, hless⟩ := h.flush_left
    have hd := h.reliable.flush_fst_eq
    have hboth := hflush.flush_right
    simp only [attempt, accept]
    rcases hc : c.flush with ⟨cause | _, c₁⟩ <;> rw [hc] at hflush hless hboth
    · exact Or.inr ⟨_, _, rfl, rfl, (hless cause rfl).imp fun m hm => ⟨hm.1, ⟨rfl, rfl, rfl⟩, hm.2⟩⟩
    · rcases hflush.read with ⟨answer, c', -, hread, -, -⟩ | ⟨cause, c', hread, m, hm, h'⟩
      · rcases hd' : d.flush with ⟨_ | _, d₁⟩ <;> rw [hd'] at hd hboth
        · cases hd
        · rcases hboth.read with ⟨answer', c'', d', hread', hd'', h'⟩ | ⟨cause, c'', hread', -⟩
          · simp only [hread', hd'']
            exact Or.inl ⟨_, _, _, rfl, rfl, ⟨⟨rfl, rfl, rfl⟩, h'⟩, fun _ he => by cases he⟩
          · cases hread.symm.trans hread'
      · -- the mended machine has not even flushed for this instruction
        simp only [hread]
        exact Or.inr ⟨_, _, rfl, rfl, m, hm, ⟨rfl, rfl, rfl⟩, h'⟩
  · rw [hplain, hplain, rehearse_eq, rehearse_eq]
    exact Or.inl ⟨_, _, _, rfl, rfl, ⟨⟨rfl, rfl, rfl⟩, h⟩, fun _ => not_isDevice_of_effect⟩

theorem simulates_mended (exe : Executable) (n : Nat) :
    exe.real.Simulates exe.real (State.Mends n) (fun e => e.isDevice)
      (fun _ s t => ∃ m < n, s.Mends m t) :=
  simulates_of_attempt (fun _ _ h => h.agrees.pc_eq)
    (fun _ _ _ h => ⟨⟨h.agrees.tape_eq, rfl, congrArg (· + 1) h.agrees.steps_eq⟩, h.console⟩)
    (fun i _ _ h => exe.attempt_mends i h)

/-- On a reliable console a failing instruction leaves everything as it was. -/
theorem steady_real (exe : Executable) : exe.real.Steady (fun s => s.console.Reliable) where
  keeps {s s' i} hs hi hp := by
    have := Console.kept_reliable.perform exe i hs
    rwa [show exe.perform i s = _ from hp] at this
  stays {s s' i e} hs hi hp := by
    change exe.perform i s = _ at hp
    obtain ⟨tape, pc, steps, c⟩ := s
    rcases exe.attempt_cases i with rfl | rfl | hplain
    · have hwrite := Console.write_of_open hs.sink_open tape.cell
      simp only [perform, attempt, emit] at hp
      rcases hc : c.write tape.cell with ⟨_ | _, d⟩ <;> rw [hc] at hwrite hp
      · cases hwrite
      · cases hp
    · have hflush : c.flush.1 = .ok () := hs.flush_fst_eq
      obtain ⟨answer, d, hread, -⟩ := (Console.kept_reliable.flush hs).exists_read_eq
      simp only [perform, attempt, accept] at hp
      rcases hc : c.flush with ⟨_ | _, c'⟩ <;> rw [hc] at hflush
      · cases hflush
      · change (c.flush.2).read = _ at hread
        rw [hc] at hread
        simp only [hc, hread] at hp
        cases hp
    · rw [perform, hplain, rehearse_eq] at hp
      cases he : (exe.effect i pc tape).1 with
      | ok next =>
        simp only [he] at hp
        cases hp
      | error e' =>
        simp only [he, (effect_eq_error he).1] at hp
        cases hp
        rfl

/-- To go on from anywhere on the way is to come to the same end. -/
theorem execute_resume {exe : Executable} {t : State} {limit : Option Nat} {m : Nat}
    (ht : t.console.Reliable) (hm : ∀ l, limit = some l → m ≤ l - t.steps) :
    exe.execute ⟨.real, limit⟩ (exe.real.runFor m t).2 = exe.execute ⟨.real, limit⟩ t := by
  rw [execute_real, execute_real]
  congr 1
  exact ((steady_real exe).runWithin_resume (follows_real exe) hm ht).symm

end Executable

/-! ## Calls -/

namespace Executable

variable {exe : Executable} {s t : State} {n : Nat} {c : Call}

theorem call_of_execute_eq {u : State} {r : Report} (he : exe.execute c s = exe.execute c t)
    (h : exe.call c s = some (r, u)) : ∃ r', exe.call c t = some (r', u) ∧ r'.stop = r.stop := by
  obtain ⟨stop, v, hexec, hconclude⟩ := call_cases h
  obtain ⟨r', hcall, hstop, -⟩ := call_of_execute (he ▸ hexec)
  rw [hconclude] at hcall hstop
  exact ⟨r', hcall, hstop⟩

/-- The final flush may fail, which is a fault less, and an error only if there was none before. -/
theorem conclude_mends_left (stop : Stop) (h : s.Mends n t) :
    (conclude stop s).2.Mends n t ∧
    ((conclude stop s).1 = stop ∨
      stop = .finished ∧ (conclude stop s).1.isDevice ∧ ∃ m < n, (conclude stop s).2.Mends m t) := by
  obtain ⟨hflush, hless⟩ := h.console.flush_left
  have hagrees : ∀ c, (s.on c).Agrees t := fun _ =>
    ⟨h.agrees.tape_eq, h.agrees.pc_eq, h.agrees.steps_eq⟩
  rw [conclude_eq]
  refine ⟨⟨hagrees _, hflush⟩, ?_⟩
  rcases hf : s.console.flush.1 with cause | _
  · cases stop with
    | finished =>
      obtain ⟨m, hm, hconsole⟩ := hless cause hf
      exact Or.inr ⟨rfl, rfl, m, hm, hagrees _, hconsole⟩
    | failed e => exact Or.inl rfl
  · exact Or.inl rfl

theorem conclude_mends_right (stop : Stop) (h : s.Mends n t) :
    (conclude stop t).1 = stop ∧ s.Mends n (conclude stop t).2 := by
  rw [conclude_of_flush_ok stop h.console.reliable.flush_fst_eq]
  exact ⟨rfl, ⟨h.agrees.tape_eq, h.agrees.pc_eq, h.agrees.steps_eq⟩, h.console.flush_right⟩

/-- A call that a device let down has used up a fault, and the mended machine has been where it is
left; any other call has come to the mended end. -/
theorem call_mends {L : Nat} {r : Report} {s' : State} (h : s.Mends n t)
    (hcall : exe.call ⟨.real, some L⟩ s = some (r, s')) :
    (r.stop.isDevice ∧ ∃ m < n, ∃ t', s'.Mends m t' ∧
      exe.execute ⟨.real, some L⟩ t' = exe.execute ⟨.real, some L⟩ t) ∨
    (¬ r.stop.isDevice ∧ ∃ r' t', exe.call ⟨.real, some L⟩ t = some (r', t') ∧
      r'.stop = r.stop ∧ s'.Mends n t') := by
  obtain ⟨stop, u, he, hconclude⟩ := call_cases hcall
  have hsteps := h.agrees.steps_eq
  have hresume : ∀ m ≤ L - t.steps, exe.execute ⟨.real, some L⟩ (exe.real.runFor m t).2 =
      exe.execute ⟨.real, some L⟩ t := fun m hm =>
    execute_resume h.console.reliable (by rintro _ ⟨⟩; exact hm)
  rw [execute_real_limit] at he
  rcases hrun : exe.real.runFor (L - s.steps) s with ⟨o, v⟩
  rw [hrun] at he
  simp only [Option.some.injEq, Prod.mk.injEq] at he
  obtain ⟨rfl, rfl, -⟩ := he
  rcases (simulates_mended exe n).runFor (L - s.steps) h hrun with
    ⟨t', ht, hmends, ho⟩ | ⟨e, k, t', rfl, hdevice, hk, ht, m, hm, hmends⟩
  · rw [hsteps] at ht
    have hleft := conclude_mends_left (Stop.atLimit L o) hmends
    rw [hconclude] at hleft
    obtain ⟨hs', hstop | ⟨-, hdevice, m, hm, hless⟩⟩ := hleft
    · obtain ⟨hfst, hmends'⟩ := conclude_mends_right (Stop.atLimit L o) hs'
      have het : exe.execute ⟨.real, some L⟩ t = some (Stop.atLimit L o, t', none) := by
        rw [execute_real_limit, ht]
      obtain ⟨r', hcall', hr', -⟩ := call_of_execute het
      refine Or.inr ⟨?_, r', _, hcall', hr'.trans (hfst.trans hstop.symm), hmends'⟩
      rw [show r.stop = Stop.atLimit L o from hstop]
      rcases o with _ | _ | e
      · exact Bool.false_ne_true
      · exact Bool.false_ne_true
      · exact ho e rfl
    · have := hresume (L - t.steps) (Nat.le_refl _)
      rw [ht] at this
      exact Or.inl ⟨hdevice, m, hm, t', hless, this⟩
  · have hleft := conclude_mends_left (Stop.atLimit L (some (.failed e))) hmends
    rw [hconclude] at hleft
    obtain ⟨hs', hstop | ⟨hfinished, -⟩⟩ := hleft
    · have := hresume k (by omega)
      rw [ht] at this
      refine Or.inl ⟨?_, m, hm, t', hs', this⟩
      rw [show r.stop = .failed e from hstop]
      exact hdevice
    · cases hfinished

/-- As many calls as there are faults, and one more, are enough. -/
theorem calls_mends (exe : Executable) (L : Nat) (h : s.Mends n t) :
    ∃ failed r s' r' t', failed.length ≤ n ∧
      exe.calls (List.replicate (failed.length + 1) ⟨.real, some L⟩) s = failed ++ [(r, s')] ∧
      (∀ x ∈ failed, x.1.stop.isDevice) ∧ ¬ r.stop.isDevice ∧
      exe.call ⟨.real, some L⟩ t = some (r', t') ∧ r.stop = r'.stop ∧ s'.Mends n t' := by
  induction n using Nat.strong_induction_on generalizing s t with
  | _ n ih =>
    obtain ⟨⟨r, s'⟩, hcall⟩ := Option.isSome_iff_exists.1 (exe.isSome_call_of_limit .real L s)
    rcases call_mends h hcall with ⟨hdevice, m, hm, t', h', he⟩ | ⟨hdone, r', t', hcall', hr, h'⟩
    · obtain ⟨failed, r₁, s₁, r', t₁, hlen, hcalls, hfailed, hdone, hmended, hr, hend⟩ := ih m hm h'
      obtain ⟨r'', hmended', hr'⟩ := call_of_execute_eq he hmended
      refine ⟨(r, s') :: failed, r₁, s₁, r'', t₁, ?_, ?_, ?_, hdone, hmended', hr.trans hr'.symm,
        hend.mono hm.le⟩
      · exact Nat.succ_le_of_lt (Nat.lt_of_le_of_lt hlen hm)
      · rw [List.length_cons, List.replicate_succ, calls_cons hcall, hcalls, List.cons_append]
      · intro x hx
        rcases List.mem_cons.1 hx with rfl | hx
        · exact hdevice
        · exact hfailed x hx
    · refine ⟨[], r, s', r', t', Nat.zero_le n, ?_, List.forall_mem_nil _, hdone, hcall', hr.symm, h'⟩
      rw [List.length_nil, List.replicate_one, calls_singleton hcall, List.nil_append]

end Executable

/-! ## Top theorem -/

/-- From any state, at any console whose sink takes every byte in the end: nothing that was read or
written is lost or comes twice. -/
theorem retried_call_ends_as_mended (exe : Executable) (L : Nat) (s : State)
    (hs : s.console.sink.Open) :
    ∃ failed r t r' t',
      exe.calls (List.replicate (failed.length + 1) ⟨.real, some L⟩) s = failed ++ [(r, t)] ∧
      failed.length ≤ s.console.faults ∧ (∀ x ∈ failed, x.1.stop.isDevice) ∧ ¬ r.stop.isDevice ∧
      exe.call ⟨.real, some L⟩ (s.on s.console.mended) = some (r', t') ∧
      r.stop = r'.stop ∧ t.Agrees t' ∧ t.console.sink.stored = t'.console.sink.stored ∧
      t.console.arrivals = t'.console.arrivals ∧ t.console.deliveries = t'.console.deliveries := by
  have hmends : s.Mends s.console.faults (s.on s.console.mended) :=
    ⟨⟨rfl, rfl, rfl⟩, Console.mends_mended hs⟩
  obtain ⟨failed, r, t, r', t', hlen, hcalls, hfailed, hdone, hcall, hr, h⟩ :=
    exe.calls_mends L hmends
  exact ⟨failed, r, t, r', t', hcalls, hlen, hfailed, hdone, hcall, hr, h.agrees,
    h.console.stored_eq.symm, h.console.arrivals_eq.symm, h.console.deliveries_eq.symm⟩

/-- Two bytes are copied although two reads and two flushes fail on the way. -/
theorem retried_call_ends_as_mended_copy :
    ∃ exe failed r t, (Program.parse ",.,.").link = .ok exe ∧
      exe.calls (List.replicate (failed.length + 1) ⟨.real, some 10⟩)
        (.initial 1
          { script := [.failed "busy", .interrupted, .byte 7, .failed "busy", .byte 8]
            sink := { interruptedWrites := [0], failedFlushes := [1, 4] } }) = failed ++ [(r, t)] ∧
      failed.length ≤ 4 ∧ r.stop = .finished ∧ t.steps = 4 ∧ t.console.sink.stored = #[7, 8] := by
  let exe : Executable := ⟨.parse ",.,.", ⟨#[none, none, none, none], 0⟩, rfl⟩
  let start : State := .initial 1
    { script := [.failed "busy", .interrupted, .byte 7, .failed "busy", .byte 8]
      sink := { interruptedWrites := [0], failedFlushes := [1, 4] } }
  have hlink : (Program.parse ",.,.").link = .ok exe := (Program.link_eq_ok_iff _ _).2 rfl
  obtain ⟨r₀, t₀, hcall₀, hstop₀, hsteps₀, hstored₀⟩ : ∃ r t,
      exe.call ⟨.real, some 10⟩ (start.on start.console.mended) = some (r, t) ∧
      r.stop = .finished ∧ t.steps = 4 ∧ t.console.sink.stored = #[7, 8] :=
    ⟨_, _, rfl, rfl, rfl, rfl⟩
  obtain ⟨failed, r, t, r', t', hcalls, hlen, -, -, hcall, hr, hagrees, hstored, -, -⟩ :=
    retried_call_ends_as_mended exe 10 start ⟨rfl, List.forall_mem_nil _⟩
  rw [hcall₀, Option.some.injEq, Prod.mk.injEq] at hcall
  obtain ⟨rfl, rfl⟩ := hcall
  refine ⟨exe, failed, r, t, hlink, hcalls, hlen, ?_, ?_, ?_⟩
  · rw [hr, hstop₀]
  · rw [hagrees.steps_eq, hsteps₀]
  · rw [hstored, hstored₀]

end Brainfuck
