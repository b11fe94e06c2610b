import Brainfuck.Proofs.TraceReading
import Brainfuck.Proofs.TracedRuns

/-!
# The trace is a log

A traced run writes one row for each instruction that it counts (`Logged`), and each row read back
(`readLine?`) gives the state in which the machine does that instruction where there is nothing
to be read, and what the instruction does there (`Shows`).  So a row says where the next one
begins.

What a transcript already holds makes no difference to what is written behind it
(`simulates_behind`).  So the rows of a call cut into slices are the rows of the whole call.
-/

namespace Brainfuck

open Trace

namespace Trace.Action

/-- Where the machine is behind an action, from where it was before. -/
def leadsTo (ip pointer : Nat) : Action → Nat × Nat
  | moved target => (ip + 1, target)
  | skipped partner => (partner + 1, pointer)
  | returned partner => (partner, pointer)
  | _ => (ip + 1, pointer)

end Trace.Action

namespace Executable

/-- What instruction `i` did between `u` and `v`, with all input and output left out. -/
inductive Shows (exe : Executable) (u v : State) : Instruction → Action → Prop
  | right : v.tape.pointer = u.tape.pointer + 1 → Shows exe u v .right (.moved v.tape.pointer)
  | left : v.tape.pointer + 1 = u.tape.pointer → Shows exe u v .left (.moved v.tape.pointer)
  | increment : v.tape.pointer = u.tape.pointer →
      v.tape.cell.toNat = (u.tape.cell.toNat + 1) % 256 →
      Shows exe u v .increment (.incremented u.tape.pointer u.tape.cell v.tape.cell)
  | decrement : v.tape.pointer = u.tape.pointer →
      v.tape.cell.toNat = (u.tape.cell.toNat + 255) % 256 →
      Shows exe u v .decrement (.decremented u.tape.pointer u.tape.cell v.tape.cell)
  | output : v.tape = u.tape → Shows exe u v .output (.suppressed u.tape.cell)
  | input : v.tape = u.tape → Shows exe u v .input .endOfInput
  | entered : v.tape = u.tape → u.tape.cell ≠ 0 → Shows exe u v .loopStart .entered
  | skipped {partner : Nat} : v.tape = u.tape → u.tape.cell = 0 →
      Matches exe.program.instructions u.pc partner → Shows exe u v .loopStart (.skipped partner)
  | returned {partner : Nat} : v.tape = u.tape →
      Matches exe.program.instructions partner u.pc → Shows exe u v .loopEnd (.returned partner)

/-- From `s` to `t` by the instructions of `rows`, with all input and output left out. -/
inductive Logged (exe : Executable) : State → List Row → State → Prop
  | nil (s : State) : Logged exe s [] s
  | cons {s t : State} {i : Instruction} {next : Nat} {tape : Tape} {rows : List Row} :
      exe.program.instruction? s.pc = some i → exe.effect i s.pc s.tape = (.ok next, tape) →
      Logged exe ⟨tape, next, s.steps + 1, s.console⟩ rows t →
      Logged exe s (⟨moment i s, next⟩ :: rows) t

variable {exe : Executable} {i : Instruction} {s t u v : State} {rows : List Row}

/-! ## Single rows -/

theorem matches_of_partner_opening {ip j : Nat} {excess : Excess}
    (hi : exe.program.instruction? ip = some .loopStart) (h : exe.partner ip excess = .ok j) :
    Matches exe.program.instructions ip j := by
  rcases (partner?_eq_some_iff exe.resolved ip j).1 (partner_eq_ok h) with hm | hm
  · exact hm
  · have hclosing := hm.closing
    rw [← Program.instruction?_eq, hi] at hclosing
    cases hclosing

theorem matches_of_partner_closing {ip j : Nat} {excess : Excess}
    (hi : exe.program.instruction? ip = some .loopEnd) (h : exe.partner ip excess = .ok j) :
    Matches exe.program.instructions j ip := by
  rcases (partner?_eq_some_iff exe.resolved ip j).1 (partner_eq_ok h) with hm | hm
  · have hopening := hm.opening
    rw [← Program.instruction?_eq, hi] at hopening
    cases hopening
  · exact hm

/-- A row shows what its instruction has done, and where it has led. -/
theorem shows_of_effect (hi : exe.program.instruction? u.pc = some i)
    (h : exe.effect i u.pc u.tape = (.ok v.pc, v.tape)) :
    exe.Shows u v i (.ofInstruction i u.tape.pointer u.tape.cell v.pc) ∧
    (v.pc, v.tape.pointer) =
      (Action.ofInstruction i u.tape.pointer u.tape.cell v.pc).leadsTo u.pc u.tape.pointer := by
  cases i <;> simp only [effect] at h
  case right =>
    split at h <;> simp only [Prod.mk.injEq, Except.ok.injEq, reduceCtorEq, false_and] at h
    next moved hmoved =>
      obtain ⟨hpc, rfl⟩ := h
      have hpointer := Tape.pointer_of_right? hmoved
      rw [← hpc, Action.ofInstruction, ← hpointer]
      exact ⟨.right hpointer, rfl⟩
  case left =>
    split at h <;> simp only [Prod.mk.injEq, Except.ok.injEq, reduceCtorEq, false_and] at h
    next moved hmoved =>
      obtain ⟨hpc, rfl⟩ := h
      have hpointer := Tape.pointer_of_left? hmoved
      have hpred : v.tape.pointer = u.tape.pointer - 1 := by omega
      rw [← hpc, Action.ofInstruction, ← hpred]
      exact ⟨.left hpointer, rfl⟩
  case increment =>
    simp only [Prod.mk.injEq, Except.ok.injEq] at h
    obtain ⟨hpc, htape⟩ := h
    have hcell : v.tape.cell = u.tape.cell + 1 := by rw [← htape, Tape.cell_write]
    have hpointer : v.tape.pointer = u.tape.pointer := by rw [← htape, Tape.pointer_write]
    rw [← hpc, Action.ofInstruction, ← hcell, hpointer]
    refine ⟨.increment hpointer ?_, rfl⟩
    rw [hcell, UInt8.toNat_add]
    rfl
  case decrement =>
    simp only [Prod.mk.injEq, Except.ok.injEq] at h
    obtain ⟨hpc, htape⟩ := h
    have hcell : v.tape.cell = u.tape.cell - 1 := by rw [← htape, Tape.cell_write]
    have hpointer : v.tape.pointer = u.tape.pointer := by rw [← htape, Tape.pointer_write]
    rw [← hpc, Action.ofInstruction, ← hcell, hpointer]
    refine ⟨.decrement hpointer ?_, rfl⟩
    rw [hcell, UInt8.toNat_sub, Nat.add_comm]
    rfl
  case output =>
    simp only [Prod.mk.injEq, Except.ok.injEq] at h
    obtain ⟨hpc, htape⟩ := h
    rw [← hpc, ← htape]
    exact ⟨.output htape.symm, rfl⟩
  case input =>
    simp only [Prod.mk.injEq, Except.ok.injEq] at h
    obtain ⟨hpc, htape⟩ := h
    rw [← hpc, ← htape]
    exact ⟨.input htape.symm, rfl⟩
  case loopStart =>
    rw [Action.ofInstruction]
    by_cases hz : u.tape.cell = 0
    · rw [if_pos hz] at h ⊢
      cases hp : exe.partner u.pc .opening with
      | error e =>
        rw [hp] at h
        cases congrArg Prod.fst h
      | ok j =>
        rw [hp] at h
        simp only [Except.map, Prod.mk.injEq, Except.ok.injEq] at h
        obtain ⟨hpc, htape⟩ := h
        rw [← hpc, ← htape, Nat.add_sub_cancel]
        exact ⟨.skipped htape.symm hz (matches_of_partner_opening hi hp), rfl⟩
    · rw [if_neg hz] at h ⊢
      simp only [Prod.mk.injEq, Except.ok.injEq] at h
      obtain ⟨hpc, htape⟩ := h
      rw [← hpc, ← htape]
      exact ⟨.entered htape.symm hz, rfl⟩
  case loopEnd =>
    obtain ⟨hp, htape⟩ := Prod.mk.inj h
    rw [← htape]
    exact ⟨.returned htape.symm (matches_of_partner_closing hi hp), rfl⟩

/-! ## Runs and their rows -/

/-- At a quiet console the machine does an instruction as if the console were not there. -/
theorem perform_of_quiet {s' : State} {next : Nat} {tape : Tape} (hagrees : s'.Agrees s)
    (hquiet : s'.console.Quiet) (h : exe.effect i s.pc s.tape = (.ok next, tape)) :
    ∃ v, exe.perform i s' = (.ok (), v) ∧ v.Agrees ⟨tape, next, s.steps + 1, s.console⟩ ∧
      v.console.Quiet := by
  have hattempt := attempt_of_quiet exe i hquiet
  rw [hagrees.pc_eq, hagrees.tape_eq, hagrees.steps_eq, h] at hattempt
  exact ⟨_, perform_of_attempt_ok hattempt, ⟨rfl, rfl, rfl⟩, Console.kept_quiet.attempt exe i hquiet⟩

/-- An endless transcript gets a row for each instruction that is counted, and nothing else. -/
theorem logged_of_runFor {n : Nat} {text : String} {o : Option Stop} {w : Transcript}
    (h : exe.traced.runFor n (s, ⟨none, text⟩) = (o, t, w)) :
    ∃ rows, exe.Logged s rows t ∧ w = ⟨none, text ++ String.join (rows.map Row.text)⟩ := by
  have hstop : ∀ (s : State) (text : String), ∃ rows, exe.Logged s rows s ∧
      (⟨none, text⟩ : Transcript) = ⟨none, text ++ String.join (rows.map Row.text)⟩ := fun s text =>
    ⟨[], .nil s, by rw [List.map_nil, String.join_nil, String.append_empty]⟩
  induction n generalizing s text with
  | zero =>
    cases h
    exact hstop _ _
  | succ n ih =>
    cases hi : exe.traced.next? (s, ⟨none, text⟩) with
    | none =>
      rw [Process.runFor_of_over _ hi] at h
      cases h
      exact hstop _ _
    | some i =>
      rcases heffect : exe.effect i s.pc s.tape with ⟨e | next, tape⟩
      · rw [Process.runFor_succ_of_error n hi (record_of_error (congrArg Prod.fst heffect) _)] at h
        cases h
        exact hstop _ _
      · have hrecord := record_of_ok (congrArg Prod.fst heffect) text
        rw [heffect] at hrecord
        rw [Process.runFor_succ_of_ok n hi hrecord] at h
        obtain ⟨rows, hlogged, hw⟩ := ih h
        refine ⟨⟨moment i s, next⟩ :: rows, .cons hi heffect hlogged, ?_⟩
        rw [hw, List.map_cons, String.join_cons, String.append_assoc]

theorem logged_of_runWithin {limit : Option Nat} {done : Nat} {text : String} {stop : Stop}
    {w : Transcript} (h : exe.traced.runWithin limit done (s, ⟨none, text⟩) = some (stop, t, w)) :
    ∃ rows, exe.Logged s rows t ∧ w = ⟨none, text ++ String.join (rows.map Row.text)⟩ := by
  rcases Process.runWithin_cases h with ⟨n, hn⟩ | ⟨l, -, hn, -⟩
  · exact logged_of_runFor hn
  · exact logged_of_runFor hn

namespace Logged

theorem steps_eq (h : exe.Logged s rows t) : t.steps = s.steps + rows.length := by
  induction h with
  | nil => rfl
  | cons _ _ _ ih =>
    rw [ih, List.length_cons, Nat.add_assoc, Nat.add_comm 1]

/-- Each row was written in the state that the machine comes to with nothing to be read. -/
theorem getElem? (h : exe.Logged s rows t) {s' : State} (hagrees : s'.Agrees s)
    (hquiet : s'.console.Quiet) {k : Nat} {r : Row} (hk : rows[k]? = some r) :
    ∃ i u v, exe.real.runFor k s' = (none, u) ∧ exe.program.instruction? u.pc = some i ∧
      exe.perform i u = (.ok (), v) ∧ exe.effect i u.pc u.tape = (.ok v.pc, v.tape) ∧
      r = ⟨moment i u, v.pc⟩ := by
  induction h generalizing s' k with
  | nil => cases hk
  | @cons s t i next tape rows hi heffect _ ih =>
    obtain ⟨v, hperform, hv, hquiet'⟩ := perform_of_quiet hagrees hquiet heffect
    rw [← hagrees.pc_eq] at hi
    cases k with
    | zero =>
      cases hk
      refine ⟨i, s', v, Process.runFor_zero_of_next hi, hi, hperform, ?_, ?_⟩
      · rw [hagrees.pc_eq, hagrees.tape_eq, heffect, hv.pc_eq, hv.tape_eq]
      · rw [hv.pc_eq, moment, moment, hagrees.pc_eq, hagrees.tape_eq, hagrees.steps_eq]
    | succ k =>
      obtain ⟨j, u, w, hrun, hu⟩ := ih hv hquiet' hk
      exact ⟨j, u, w, by rw [Process.runFor_succ_of_ok k hi hperform, hrun], hu⟩

theorem agrees (h : exe.Logged s rows t) {s' : State} (hagrees : s'.Agrees s)
    (hquiet : s'.console.Quiet) : (exe.real.runFor rows.length s').2.Agrees t := by
  induction h generalizing s' with
  | nil => exact hagrees
  | @cons s t i next tape rows hi heffect _ ih =>
    obtain ⟨v, hperform, hv, hquiet'⟩ := perform_of_quiet hagrees hquiet heffect
    rw [← hagrees.pc_eq] at hi
    rw [List.length_cons, Process.runFor_succ_of_ok _ hi hperform]
    exact ih hv hquiet'

/-- A row says where the next one begins. -/
theorem leadsTo_next (h : exe.Logged s rows t) {k : Nat} {r r' : Row} (hk : rows[k]? = some r)
    (hk' : rows[k + 1]? = some r') : (r'.ip, r'.pointer) = r.action.leadsTo r.ip r.pointer := by
  induction h generalizing k with
  | nil => cases hk
  | @cons s t i next tape rows hi heffect hrest ih =>
    cases k with
    | succ k => exact ih hk hk'
    | zero =>
      cases hk
      have hleads := (shows_of_effect (v := ⟨tape, next, s.steps + 1, s.console⟩) hi heffect).2
      cases hrest with
      | nil => cases hk'
      | cons _ _ _ =>
        cases hk'
        exact hleads

end Logged

/-! ## Slices -/

/-- The same machine, writing the same behind two texts. -/
structure Behind (a b : String) (x y : State × Transcript) : Prop where
  agrees : x.1.Agrees y.1
  written : ∃ text, x.2 = ⟨none, a ++ text⟩ ∧ y.2 = ⟨none, b ++ text⟩

theorem simulates_behind (exe : Executable) (a b : String) :
    exe.traced.Simulates exe.traced (Behind a b) (fun _ => False) (fun _ _ _ => False) where
  next?_eq h := congrArg exe.program.instruction? h.agrees.pc_eq
  perform {x x' y i r} h hi hp := by
    obtain ⟨⟨tape, pc, steps, c⟩, _⟩ := x
    obtain ⟨⟨_, _, _, d⟩, _⟩ := y
    obtain ⟨⟨rfl, rfl, rfl⟩, text, rfl, rfl⟩ := h
    rcases heffect : exe.effect i pc tape with ⟨e | next, tape'⟩
    · have hx := record_of_error (s := ⟨tape, pc, steps, c⟩) (congrArg Prod.fst heffect) ⟨none, a ++ text⟩
      have hy := record_of_error (s := ⟨tape, pc, steps, d⟩) (congrArg Prod.fst heffect) ⟨none, b ++ text⟩
      cases hx.symm.trans hp
      exact Or.inl ⟨_, hy, ⟨⟨rfl, rfl, rfl⟩, text, rfl, rfl⟩, fun _ _ => id⟩
    · have hx := record_of_ok (s := ⟨tape, pc, steps, c⟩) (congrArg Prod.fst heffect) (a ++ text)
      have hy := record_of_ok (s := ⟨tape, pc, steps, d⟩) (congrArg Prod.fst heffect) (b ++ text)
      cases hx.symm.trans hp
      refine Or.inl ⟨_, hy, ⟨⟨rfl, rfl, rfl⟩,
        text ++ Row.text ⟨moment i ⟨tape, pc, steps, c⟩, next⟩, ?_, ?_⟩, fun _ _ => id⟩
      · rw [String.append_assoc]
      · rw [String.append_assoc]
        rfl

/-- A call with the rows of `before` already written leaves the same behind, and goes on with the same
rows, as one that has still to write them. -/
def Resumes (before : String) : Option (Report × State) → Option (Report × State) → Prop :=
  Option.Rel fun x y => x.2.Agrees y.2 ∧
    ∃ text, x.1.trace = some (header ++ text) ∧ y.1.trace = some (header ++ (before ++ text))

variable {r : Report} {limit : Option Nat}

theorem Resumes.trans {before before' : String} {x y z : Option (Report × State)}
    (h : Resumes before x y) (h' : Resumes before' y z) : Resumes (before' ++ before) x z := by
  cases h with
  | none =>
    cases h'
    exact .none
  | some h =>
    cases h' with
    | some h' =>
      obtain ⟨hagrees, text, hx, hy⟩ := h
      obtain ⟨hagrees', text', hy', hz⟩ := h'
      have htext : text' = before ++ text := by
        have heq := Option.some.inj (hy'.symm.trans hy)
        exact String.append_right_inj header |>.1 heq
      refine .some ⟨hagrees.trans hagrees', text, hx, ?_⟩
      rw [hz, htext, String.append_assoc]

/-- The trace of a call is the header and the rows of its instructions. -/
theorem logged_of_call (h : exe.call ⟨.traced none, limit⟩ s = some (r, t)) :
    ∃ rows u, exe.Logged s rows u ∧ t.Agrees u ∧
      r.trace = some (header ++ String.join (rows.map Row.text)) := by
  obtain ⟨stop, u, he, hconclude⟩ := call_cases h
  have hagrees : t.Agrees u := by
    have := agrees_conclude stop u
    rwa [hconclude] at this
  rw [execute_traced] at he
  obtain ⟨⟨_, u', w⟩, hrun, heq⟩ := Option.map_eq_some_iff.1 he
  simp only [Prod.mk.injEq] at heq
  obtain ⟨rfl, rfl, htrace⟩ := heq
  obtain ⟨rows, hrows, rfl⟩ := logged_of_runWithin hrun
  exact ⟨rows, u', hrows, hagrees, htrace.symm⟩

/-- Behind a slice a call goes on with the rows that the whole call has behind those of the slice. -/
theorem resumes_slice {l : Nat} {s' : State} (hl : ∀ L, limit = some L → l ≤ L)
    (h : exe.call ⟨.traced none, some l⟩ s = some (r, s')) :
    ∃ text, r.trace = some (header ++ text) ∧
      Resumes text (exe.call ⟨.traced none, limit⟩ s') (exe.call ⟨.traced none, limit⟩ s) := by
  rcases hrun : exe.traced.runFor (l - s.steps) (s, ⟨none, header⟩) with ⟨o, u, w⟩
  obtain ⟨rows, -, rfl⟩ := logged_of_runFor hrun
  generalize String.join (rows.map Row.text) = text at hrun
  have hexecute : exe.execute ⟨.traced none, some l⟩ s =
      some (.atLimit l o, u, some (header ++ text)) := by
    rw [execute_traced, Process.runWithin, hrun]
    rfl
  obtain ⟨r', hcall, -, htrace, -⟩ := call_of_execute hexecute
  have hagrees := agrees_conclude (.atLimit l o) u
  cases hcall.symm.trans h
  refine ⟨text, htrace, rel_call_of_execute (Q := fun x trace y trace' => x.2.Agrees y.2 ∧ ∃ more,
    trace = some (header ++ more) ∧ trace' = some (header ++ (text ++ more))) ?_⟩
  have hresume := (steady_traced exe).runWithin_resume (follows_traced exe) (x := (s, ⟨none, header⟩))
    (fun L hL => Nat.sub_le_sub_right (hl L hL) s.steps) rfl
  rw [hrun] at hresume
  have hbehind : Behind header (header ++ text)
      ((conclude (.atLimit l o) u).2, ⟨none, header⟩) (u, ⟨none, header ++ text⟩) :=
    ⟨hagrees, "", by rw [String.append_empty], by rw [String.append_empty]⟩
  have hrel := (simulates_behind exe header (header ++ text)).runWithin limit u.steps hbehind
  rw [execute_traced, execute_traced, hresume, hagrees.steps_eq]
  refine rel_map hrel ?_
  rintro ⟨stop, x⟩ ⟨_, y⟩ ⟨rfl, h⟩
  obtain ⟨more, hx, hy⟩ := h.written
  refine ⟨((agrees_conclude stop _).trans h.agrees).trans (agrees_conclude stop _).symm, more, ?_, ?_⟩
  · rw [hx]
  · rw [hy, String.append_assoc]

theorem resumes_self (exe : Executable) (limit : Option Nat) (s : State) :
    Resumes "" (exe.call ⟨.traced none, limit⟩ s) (exe.call ⟨.traced none, limit⟩ s) := by
  cases h : exe.call ⟨.traced none, limit⟩ s with
  | none => exact .none
  | some x =>
    obtain ⟨r, t⟩ := x
    obtain ⟨rows, -, -, -, htrace⟩ := logged_of_call h
    exact .some ⟨⟨rfl, rfl, rfl⟩, _, htrace, by rw [htrace, String.empty_append]⟩

theorem exists_calls_traced_slices (exe : Executable) {ls : List Nat}
    (hls : ∀ L, limit = some L → ∀ l ∈ ls, l ≤ L) :
    ∃ slices u texts, slices.length = ls.length ∧
      (∀ cs, exe.calls (ls.map (⟨.traced none, some ·⟩) ++ cs) s = slices ++ exe.calls cs u) ∧
      slices.map (·.1.trace) = texts.map (some <| header ++ ·) ∧
      Resumes (String.join texts) (exe.call ⟨.traced none, limit⟩ u)
        (exe.call ⟨.traced none, limit⟩ s) := by
  induction ls generalizing s with
  | nil => exact ⟨[], s, [], rfl, fun cs => rfl, rfl, resumes_self exe limit s⟩
  | cons l ls ih =>
    obtain ⟨⟨r, s'⟩, hcall⟩ := Option.isSome_iff_exists.1 (exe.isSome_call_of_limit (.traced none) l s)
    obtain ⟨text, htrace, hresumes⟩ := resumes_slice (fun L hL => hls L hL l List.mem_cons_self) hcall
    obtain ⟨slices, u, texts, hlen, hcalls, htraces, hresumes'⟩ :=
      ih (s := s') fun L hL l hl => hls L hL l (List.mem_cons_of_mem _ hl)
    refine ⟨(r, s') :: slices, u, text :: texts, congrArg (· + 1) hlen, fun cs => ?_, ?_, ?_⟩
    · rw [List.map_cons, List.cons_append, calls_cons hcall, hcalls, List.cons_append]
    · rw [List.map_cons, List.map_cons, htrace, htraces]
    · rw [String.join_cons]
      exact hresumes'.trans hresumes

end Executable

/-! ## Top theorem -/

/-- The trace of a call is two header lines and a line for each instruction that it counts.  Read
back, a line gives the state in which the machine does that instruction, were there nothing to be
read, and what is done in it; so it gives the place and the pointer of the next line.  Cut into
slices, the call writes the same lines. -/
theorem trace_logs_execution (exe : Executable) (s : State) (ls : List Nat) (limit : Option Nat)
    (hls : ∀ L, limit = some L → ∀ l ∈ ls, l ≤ L) (r : Report) (t : State)
    (hcall : exe.call ⟨.traced none, limit⟩ s = some (r, t)) :
    (∃ lines : List String,
      r.trace = some (header ++ String.join (lines.map (· ++ "\n"))) ∧
      (∀ line ∈ lines, '\n' ∉ line.toList) ∧ t.steps = s.steps + lines.length ∧
      (exe.real.runFor lines.length (s.on {})).2.Agrees t ∧
      (∀ k line, lines[k]? = some line → ∃ i u v action,
        exe.real.runFor k (s.on {}) = (none, u) ∧ exe.program.instruction? u.pc = some i ∧
        exe.perform i u = (.ok (), v) ∧
        readLine? line = some (⟨s.steps + k, u.pc, u.tape.pointer, u.tape.cell, i⟩, action) ∧
        exe.Shows u v i action) ∧
      ∀ k line line' now now' action action', lines[k]? = some line → lines[k + 1]? = some line' →
        readLine? line = some (now, action) → readLine? line' = some (now', action') →
        (now'.ip, now'.pointer) = action.leadsTo now.ip now.pointer) ∧
    ∃ slices r' t' texts,
      exe.calls (ls.map (⟨.traced none, some ·⟩) ++ [⟨.traced none, limit⟩]) s = slices ++ [(r', t')] ∧
      slices.length = ls.length ∧ t'.Agrees t ∧
      (slices ++ [(r', t')]).map (·.1.trace) = texts.map (some <| header ++ ·) ∧
      r.trace = some (header ++ String.join texts) := by
  constructor
  · obtain ⟨rows, u, hlogged, hagrees, htrace⟩ := Executable.logged_of_call hcall
    have hlines : rows.map Row.text = (rows.map Row.line).map (· ++ "\n") := by
      rw [List.map_map]
      exact List.map_congr_left fun r _ => r.text_eq_line
    have hstart : (s.on {}).Agrees s := ⟨rfl, rfl, rfl⟩
    refine ⟨rows.map Row.line, ?_, ?_, ?_, ?_, ?_, ?_⟩
    · rw [htrace, hlines]
    · exact List.forall_mem_map.2 fun r _ => newline_not_mem_line r
    · rw [hagrees.steps_eq, hlogged.steps_eq, List.length_map]
    · rw [List.length_map]
      exact (hlogged.agrees hstart Console.quiet_default).trans hagrees.symm
    · intro k line hk
      rw [List.getElem?_map] at hk
      obtain ⟨row, hrow, rfl⟩ := Option.map_eq_some_iff.1 hk
      obtain ⟨i, u, v, hrun, hi, hperform, heffect, rfl⟩ := hlogged.getElem? hstart Console.quiet_default hrow
      have hsteps : u.steps = (s.on {}).steps + k := (follows_real exe).steps_of_none hrun
      have hmoment : Executable.moment i u = ⟨s.steps + k, u.pc, u.tape.pointer, u.tape.cell, i⟩ := by
        rw [Executable.moment, hsteps]
        rfl
      refine ⟨i, u, v, _, hrun, hi, hperform, ?_, (Executable.shows_of_effect hi heffect).1⟩
      rw [readLine?_line, hmoment]
      rfl
    · intro k line line' now now' action action' hk hk' hread hread'
      rw [List.getElem?_map] at hk hk'
      obtain ⟨row, hrow, rfl⟩ := Option.map_eq_some_iff.1 hk
      obtain ⟨row', hrow', rfl⟩ := Option.map_eq_some_iff.1 hk'
      rw [readLine?_line] at hread hread'
      cases hread
      cases hread'
      exact hlogged.leadsTo_next hrow hrow'
  · obtain ⟨slices, u, texts, hlen, hcalls, htraces, hresumes⟩ := exe.exists_calls_traced_slices hls
    rw [hcall] at hresumes
    cases hlast : exe.call ⟨.traced none, limit⟩ u with
    | none =>
      rw [hlast] at hresumes
      cases hresumes
    | some x =>
      obtain ⟨r', t'⟩ := x
      rw [hlast] at hresumes
      cases hresumes with
      | some h =>
        obtain ⟨hagrees, text, htrace', htrace⟩ := h
        refine ⟨slices, r', t', texts ++ [text], ?_, hlen, hagrees, ?_, ?_⟩
        · rw [hcalls, Executable.calls_singleton hlast]
        · rw [List.map_append, List.map_append, htraces, List.map_singleton, List.map_singleton, htrace']
        · rw [htrace, String.join_append, String.join_cons, String.join_nil, String.append_empty]

/-- A loop that is done once, and its trace cut inside the loop. -/
theorem trace_logs_execution_loop :
    ∃ (exe : Executable) (r : Report) (t : State) (lines texts : List String)
      (slices : List (Report × State)), (Program.parse "+[-]").link = .ok exe ∧
      exe.call ⟨.traced none, some 9⟩ (.initial 1 {}) = some (r, t) ∧
      r.trace = some (header ++ String.join (lines.map (· ++ "\n"))) ∧ lines.length = 5 ∧
      exe.calls [⟨.traced none, some 3⟩, ⟨.traced none, some 1⟩, ⟨.traced none, some 9⟩]
        (.initial 1 {}) = slices ∧
      slices.map (·.1.trace) = texts.map (some <| header ++ ·) ∧
      r.trace = some (header ++ String.join texts) := by
  let exe : Executable := ⟨.parse "+[-]", ⟨#[none, some 3, none, some 1], 1⟩, rfl⟩
  have hlink : (Program.parse "+[-]").link = .ok exe := (Program.link_eq_ok_iff _ _).2 rfl
  obtain ⟨r, t, hcall, hsteps⟩ : ∃ r t,
      exe.call ⟨.traced none, some 9⟩ (.initial 1 {}) = some (r, t) ∧ t.steps = 5 := ⟨_, _, rfl, rfl⟩
  have hlimits : ∀ L, some 9 = some L → ∀ l ∈ [3, 1], l ≤ L := by
    rintro _ ⟨⟩
    decide
  obtain ⟨⟨lines, htrace, -, hlen, -⟩, slices, r', t', texts, hcalls, -, -, htraces, hjoin⟩ :=
    trace_logs_execution exe (.initial 1 {}) [3, 1] (some 9) hlimits r t hcall
  have hlines : lines.length = 5 := by
    rw [hsteps] at hlen
    exact (hlen.trans (Nat.zero_add _)).symm
  exact ⟨exe, r, t, lines, texts, _, hlink, hcall, htrace, hlines, hcalls, htraces, hjoin⟩

end Brainfuck
