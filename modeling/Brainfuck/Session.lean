import Brainfuck.Trace.Run
import Brainfuck.Notice

/-!
# Sessions

A session is a machine on which calls are made one after the other.  Each call goes on where the
last one stopped, may bound the number of instructions ever done (`limit`), and ends with one
flush of the sink, whatever happened in it.  A call without a limit may never end.
-/

namespace Brainfuck

inductive Mode
  | real
  /-- Into a transcript that has room for so many characters. -/
  | traced (room : Option Nat)
deriving DecidableEq

structure Call where
  mode : Mode := .real
  /-- The call may go on while fewer instructions than this have been done in all calls together. -/
  limit : Option Nat := none
deriving DecidableEq

/-- What a call says when it is over. -/
structure Report where
  stop : Stop
  /-- The text of a traced call. -/
  trace : Option String
  /-- What happened on the console. -/
  events : List Event
  notice : Notice
deriving DecidableEq

namespace Executable

/-- End a call with a flush.  If that fails, a run that had finished fails instead, behind its
last instruction; a run that had failed keeps its own error. -/
def conclude (stop : Stop) : State → Stop × State
  | ⟨tape, pc, steps, console⟩ =>
    match console.flush with
    | (.ok _, console) => (stop, ⟨tape, pc, steps, console⟩)
    | (.error cause, console) =>
      (match stop with
        | .finished => .failed (.device pc cause)
        | stop => stop,
       ⟨tape, pc, steps, console⟩)

/-- The instructions of a call, without the final flush. -/
def execute (exe : Executable) (c : Call) (s : State) : Option (Stop × State × Option String) :=
  match c.mode with
  | .real =>
    match exe.real.runWithin c.limit s.steps s with
    | some (stop, s) => some (stop, s, none)
    | none => none
  | .traced room =>
    match exe.traceWithin c.limit s (.empty room) with
    | some (stop, s, t) => some (stop, s, some t.text)
    | none => none

def call (exe : Executable) (c : Call) (s : State) : Option (Report × State) :=
  let past := s.console.history.size
  match exe.execute c s with
  | some (stop, s, trace) =>
    match conclude stop s with
    | (answer, s) =>
      some (⟨answer, trace, s.console.history.toList.drop past,
        .runFinished s.steps s.tape.pointer (stop = .finished)⟩, s)
  | none => none

/-- Make calls one after the other; each report comes with the state that its call left.  Behind a
call that never ends there are no more. -/
def calls (exe : Executable) : List Call → State → List (Report × State)
  | [], _ => []
  | c :: rest, s =>
    match exe.call c s with
    | some (report, s) => (report, s) :: exe.calls rest s
    | none => []

/-- The states that a session can be in between its calls. -/
inductive Reachable (exe : Executable) (start : State) : State → Prop
  | start : Reachable exe start start
  | call {c : Call} {s t : State} {r : Report} :
      Reachable exe start s → exe.call c s = some (r, t) → Reachable exe start t

/-! ## Lemmas -/

theorem conclude_eq (stop : Stop) (s : State) :
    conclude stop s =
      (match s.console.flush.1, stop with
        | .error cause, .finished => .failed (.device s.pc cause)
        | _, stop => stop,
       ⟨s.tape, s.pc, s.steps, s.console.flush.2⟩) := by
  obtain ⟨tape, pc, steps, console⟩ := s
  simp only [conclude]
  rcases console.flush with ⟨cause | _, _⟩ <;> cases stop <;> rfl

theorem call_cases {exe : Executable} {c : Call} {s t : State} {r : Report}
    (h : exe.call c s = some (r, t)) :
    ∃ stop u, exe.execute c s = some (stop, u, r.trace) ∧ conclude stop u = (r.stop, t) := by
  unfold call at h
  split at h
  · next stop u trace he =>
    cases h
    exact ⟨stop, u, he, rfl⟩
  · cases h

theorem call_of_execute {exe : Executable} {c : Call} {s u : State} {stop : Stop}
    {trace : Option String} (h : exe.execute c s = some (stop, u, trace)) :
    ∃ r, exe.call c s = some (r, (conclude stop u).2) ∧ r.stop = (conclude stop u).1 ∧
      r.trace = trace ∧
      r.events = (conclude stop u).2.console.history.toList.drop s.console.history.size := by
  simp only [call, h]
  exact ⟨_, rfl, rfl, rfl, rfl⟩

theorem call_eq_none_iff {exe : Executable} {c : Call} {s : State} :
    exe.call c s = none ↔ exe.execute c s = none := by
  unfold call
  cases exe.execute c s <;> simp

/-- What holds of the ends of two executions, each flushed, and of their traces holds of the two
calls. -/
theorem rel_call_of_execute {exe : Executable} {c c' : Call} {s s' : State}
    {Q : Stop × State → Option String → Stop × State → Option String → Prop}
    (h : Option.Rel (fun x y => Q (conclude x.1 x.2.1) x.2.2 (conclude y.1 y.2.1) y.2.2)
      (exe.execute c s) (exe.execute c' s')) :
    Option.Rel (fun x y => Q (x.1.stop, x.2) x.1.trace (y.1.stop, y.2) y.1.trace)
      (exe.call c s) (exe.call c' s') := by
  unfold call
  generalize exe.execute c s = x at h ⊢
  generalize exe.execute c' s' = y at h ⊢
  cases h with
  | none => exact .none
  | some h => exact .some h

/-- What holds of the end of an execution, flushed, and of something else holds of the call. -/
theorem rel_call_left {exe : Executable} {c : Call} {s : State} {β : Type} {y : Option β}
    {Q : Stop × State → Option String → β → Prop}
    (h : Option.Rel (fun x b => Q (conclude x.1 x.2.1) x.2.2 b) (exe.execute c s) y) :
    Option.Rel (fun x b => Q (x.1.stop, x.2) x.1.trace b) (exe.call c s) y := by
  unfold call
  generalize exe.execute c s = x at h ⊢
  cases h with
  | none => exact .none
  | some h => exact .some h

theorem rel_call {exe : Executable} {c c' : Call} {s s' : State}
    {Q : Stop × State → Stop × State → Prop}
    (h : Option.Rel (fun x y => Q (conclude x.1 x.2.1) (conclude y.1 y.2.1))
      (exe.execute c s) (exe.execute c' s')) :
    Option.Rel (fun x y => Q (x.1.stop, x.2) (y.1.stop, y.2)) (exe.call c s) (exe.call c' s') :=
  rel_call_of_execute (Q := fun x _ y _ => Q x y) h

theorem execute_cases {exe : Executable} {c : Call} {s t : State} {stop : Stop} {trace : Option String}
    (h : exe.execute c s = some (stop, t, trace)) :
    (c.mode = .real ∧ trace = none ∧ exe.real.runWithin c.limit s.steps s = some (stop, t)) ∨
    ∃ room u, c.mode = .traced room ∧ trace = some u.text ∧
      exe.traceWithin c.limit s (.empty room) = some (stop, t, u) := by
  unfold execute at h
  split at h
  · next hm =>
    split at h
    · next hr =>
      cases h
      exact Or.inl ⟨hm, rfl, hr⟩
    · cases h
  · next room hm =>
    split at h
    · next u hr =>
      cases h
      exact Or.inr ⟨room, u, hm, rfl, hr⟩
    · cases h

/-- A call keeps the error of its run. -/
theorem conclude_failed (e : RunError) (s : State) : (conclude (.failed e) s).1 = .failed e := by
  rw [conclude_eq]
  cases s.console.flush.1 <;> rfl

theorem eq_finished_of_conclude {stop : Stop} {s : State} (h : (conclude stop s).1 = .finished) :
    stop = .finished := by
  cases stop with
  | finished => rfl
  | failed e =>
    rw [conclude_failed] at h
    cases h

theorem execute_of_limit {exe : Executable} {mode : Mode} {l : Nat} {s t : State} {stop : Stop}
    {trace : Option String} (h : exe.execute ⟨mode, some l⟩ s = some (stop, t, trace))
    (hl : stop ≠ .failed (.outOfSteps l)) : exe.execute ⟨mode, none⟩ s = some (stop, t, trace) := by
  rcases execute_cases h with ⟨rfl, rfl, hrun⟩ | ⟨room, u, rfl, rfl, hrun⟩
  · simp only [execute, Process.runWithin_of_limit hrun hl]
  · unfold traceWithin at hrun
    split at hrun
    · next v hv => simp only [execute, traceWithin, hv, Process.runWithin_of_limit hrun hl]
    · next cause v hv =>
      cases hrun
      simp only [execute, traceWithin, hv]

/-- A call that does not come to its limit does the same without one. -/
theorem call_of_limit {exe : Executable} {mode : Mode} {l : Nat} {s t : State} {r : Report}
    (h : exe.call ⟨mode, some l⟩ s = some (r, t)) (hl : r.stop ≠ .failed (.outOfSteps l)) :
    exe.call ⟨mode, none⟩ s = some (r, t) := by
  obtain ⟨stop, u, he, hconclude⟩ := call_cases h
  have hstop : stop ≠ .failed (.outOfSteps l) := by
    rintro rfl
    have := conclude_failed (.outOfSteps l) u
    rw [hconclude] at this
    exact hl this
  unfold call at h ⊢
  rwa [execute_of_limit he hstop, ← he]

theorem calls_cons {exe : Executable} {c : Call} {cs : List Call} {s t : State} {r : Report}
    (h : exe.call c s = some (r, t)) : exe.calls (c :: cs) s = (r, t) :: exe.calls cs t := by
  simp only [calls, h]

theorem calls_singleton {exe : Executable} {c : Call} {s t : State} {r : Report}
    (h : exe.call c s = some (r, t)) : exe.calls [c] s = [(r, t)] := by
  simp only [calls, h]

theorem calls_eq_cons {exe : Executable} {cs : List Call} {s : State} {x : Report × State}
    {rest : List (Report × State)} (h : exe.calls cs s = x :: rest) :
    ∃ c cs', cs = c :: cs' ∧ exe.call c s = some x ∧ exe.calls cs' x.2 = rest := by
  cases cs with
  | nil => cases h
  | cons c cs' =>
    unfold calls at h
    split at h
    · next r t hcall =>
      cases h
      exact ⟨c, cs', rfl, hcall, rfl⟩
    · cases h

/-- Where no call comes to its limit, none needs one. -/
theorem calls_of_limit (exe : Executable) (modes : List Mode) (l : Nat) (s : State)
    (h : ∀ x ∈ exe.calls (modes.map (⟨·, some l⟩)) s, x.1.stop ≠ .failed (.outOfSteps l))
    (hends : (exe.calls (modes.map (⟨·, some l⟩)) s).length = modes.length) :
    exe.calls (modes.map (⟨·, none⟩)) s = exe.calls (modes.map (⟨·, some l⟩)) s := by
  induction modes generalizing s with
  | nil => rfl
  | cons mode modes ih =>
    rw [List.map_cons] at h hends ⊢
    cases hcall : exe.call ⟨mode, some l⟩ s with
    | none =>
      simp only [calls, hcall, List.length_nil, List.length_cons] at hends
      cases hends
    | some x =>
      obtain ⟨r, t⟩ := x
      rw [calls_cons hcall, List.length_cons, List.length_cons] at hends
      rw [calls_cons hcall] at h
      have hr := h _ List.mem_cons_self
      rw [List.map_cons, calls_cons (call_of_limit hcall hr), calls_cons hcall,
        ih t (fun x hx => h x (List.mem_cons_of_mem _ hx)) (Nat.succ.inj hends)]

/-- The states behind the calls of a session can be reached. -/
theorem reachable_of_mem_calls {exe : Executable} {cs : List Call} {start s t : State} {r : Report}
    (hs : exe.Reachable start s) (h : (r, t) ∈ exe.calls cs s) : exe.Reachable start t := by
  induction cs generalizing s with
  | nil => cases h
  | cons c cs ih =>
    unfold calls at h
    split at h
    · next r' s' hc =>
      rcases List.mem_cons.1 h with heq | h
      · cases heq
        exact .call hs hc
      · exact ih (.call hs hc) h
    · cases h

end Executable

/-- What a text writes when it is run on a tape of the default length, with all of `input` to be
read; no answer if it runs for ever. -/
def run (source : String) (input : List UInt8) : Option (Except RunError (Array UInt8)) :=
  match (Program.parse source).link with
  | .error e => some (.error e)
  | .ok exe =>
    match exe.call {} (.initial Tape.defaultLength { script := input.map .byte }) with
    | some (⟨.finished, _, _, _⟩, s) => some (.ok s.console.sink.stored)
    | some (⟨.failed e, _, _, _⟩, _) => some (.error e)
    | none => none

end Brainfuck
