import Brainfuck.CommandLine.Runner
import Brainfuck.Proofs.LossyDecoding
import Brainfuck.Proofs.TracedRuns

/-!
# The command and the session

The command runs its program on streams, byte by byte, and its output is what has been written when the
run is over.  A session has all of its input before it begins, and a sink that keeps what is written.
Both come to the same end: the same status, output and report, and as much of the input used
(`command_agrees_with_session`).

A console `Shows` streams when its script is their input and its sink has stored their output.  Every
instruction keeps this (`simulates_streamed`), and so does the writing of rows for traced runs
(`simulates_recorded`).
-/

namespace Brainfuck

open Text Text.Utf8 Trace

namespace CommandLine

/-! ## Consoles that show streams -/

/-- A console where nothing fails, with the input of the streams to be read and their output stored. -/
structure Streams.ShownBy (io : Streams) (c : Console) : Prop where
  script_eq : c.script = io.input.map .byte
  stored_eq : c.sink.stored = io.output
  reliable : c.Reliable

namespace Streams.ShownBy

variable {io : Streams} {c : Console}

theorem start (input : List UInt8) : Streams.ShownBy { input := input } { script := input.map .byte } where
  script_eq := rfl
  stored_eq := rfl
  reliable := by
    refine ⟨⟨rfl, List.forall_mem_nil _⟩, ?_, List.forall_mem_nil _⟩
    rw [List.forall_mem_map]
    exact fun _ _ => Bool.false_ne_true

theorem write (h : io.ShownBy c) (b : UInt8) :
    ∃ d, c.write b = (.ok (), d) ∧ (io.print #[b]).ShownBy d := by
  have hok := Console.write_of_open h.reliable.sink_open b
  refine ⟨_, Prod.ext hok rfl, ?_, ?_, Console.kept_reliable.write b h.reliable⟩
  · rw [Console.script_write, h.script_eq]
    rfl
  · rw [Console.stored_write_of_ok hok, h.stored_eq]
    rfl

theorem flush (h : io.ShownBy c) : ∃ d, c.flush = (.ok (), d) ∧ io.ShownBy d := by
  refine ⟨_, Prod.ext h.reliable.flush_fst_eq rfl, ?_, ?_, Console.kept_reliable.flush h.reliable⟩
  · rw [Console.script_flush, h.script_eq]
  · rw [Console.sink_flush]
    exact h.stored_eq

theorem read (h : io.ShownBy c) :
    ∃ d, c.read = (.ok (io.supply .input).1, d) ∧ (io.supply .input).2.ShownBy d := by
  have hkept := Console.kept_reliable.read h.reliable
  obtain ⟨script, sink, history⟩ := c
  obtain ⟨input, output⟩ := io
  obtain ⟨rfl, hstored, -⟩ := h
  cases input with
  | nil => exact ⟨_, rfl, rfl, hstored, hkept⟩
  | cons b rest => exact ⟨_, rfl, rfl, hstored, hkept⟩

end Streams.ShownBy

variable {exe : Executable} {i : Instruction} {s : State} {x : State × Streams}

/-! ## Single instructions -/

/-- The same machine, in a session whose console shows the streams. -/
structure Together (s : State) (x : State × Streams) : Prop where
  agrees : s.Agrees x.1
  shown : x.2.ShownBy s.console

theorem perform_output (h : Together s x) :
    ∃ s' x', exe.perform .output s = (.ok (), s') ∧ performAt exe .output x = (.ok (), x') ∧
      Together s' x' := by
  obtain ⟨tape, pc, steps, console⟩ := s
  obtain ⟨⟨_, _, _, old⟩, io⟩ := x
  obtain ⟨⟨rfl, rfl, rfl⟩, hshown⟩ := h
  obtain ⟨d, hwrite, hd⟩ := hshown.write tape.cell
  have hattempt : exe.attempt .output ⟨tape, pc, steps, console⟩ =
      (.ok (pc + 1), ⟨tape, pc, steps, d⟩) := by
    simp only [Executable.attempt, Executable.emit, hwrite]
  exact ⟨_, _, Executable.perform_of_attempt_ok hattempt, rfl, ⟨rfl, rfl, rfl⟩, hd⟩

theorem perform_input (h : Together s x) :
    ∃ s' x', exe.perform .input s = (.ok (), s') ∧ performAt exe .input x = (.ok (), x') ∧
      Together s' x' := by
  obtain ⟨tape, pc, steps, console⟩ := s
  obtain ⟨⟨_, _, _, old⟩, io⟩ := x
  obtain ⟨⟨rfl, rfl, rfl⟩, hshown⟩ := h
  obtain ⟨c, hflush, hc⟩ := hshown.flush
  obtain ⟨d, hread, hd⟩ := hc.read
  have hattempt : exe.attempt .input ⟨tape, pc, steps, console⟩ =
      (.ok (pc + 1), ⟨Executable.receive tape (io.supply .input).1, pc, steps, d⟩) := by
    simp only [Executable.attempt, Executable.accept, hflush, hread]
  have hat : performAt exe .input (⟨tape, pc, steps, old⟩, io) =
      (.ok (), ⟨Executable.receive tape (io.supply .input).1, pc + 1, steps + 1, {}⟩,
        (io.supply .input).2) := by
    rw [← Streams.print_empty (io.supply .input).2]
    obtain ⟨_ | ⟨b, rest⟩, output⟩ := io <;> rfl
  exact ⟨_, _, Executable.perform_of_attempt_ok hattempt, hat, ⟨rfl, rfl, rfl⟩, hd⟩

/-- What the other instructions do has nothing to do with the console. -/
theorem exists_perform_eq (hplain : ∀ s, exe.attempt i s = exe.rehearse i s) (tape : Tape) (pc steps : Nat) :
    ∃ r tape' pc' steps', ∀ c, exe.perform i ⟨tape, pc, steps, c⟩ = (r, ⟨tape', pc', steps', c⟩) := by
  have hattempt : ∀ c, exe.attempt i ⟨tape, pc, steps, c⟩ =
      ((exe.effect i pc tape).1, ⟨(exe.effect i pc tape).2, pc, steps, c⟩) := fun c => hplain _
  rcases heffect : (exe.effect i pc tape).1 with e | next
  · rw [heffect] at hattempt
    exact ⟨.error e, _, pc, steps, fun c => Executable.perform_of_attempt_error (hattempt c)⟩
  · rw [heffect] at hattempt
    exact ⟨.ok (), _, next, steps + 1, fun c => Executable.perform_of_attempt_ok (hattempt c)⟩

theorem perform_plain (hplain : ∀ s, exe.attempt i s = exe.rehearse i s)
    (hsupply : ∀ io : Streams, io.supply i = (none, io)) (h : Together s x) :
    ∃ r s' x', exe.perform i s = (r, s') ∧ performAt exe i x = (r, x') ∧ Together s' x' := by
  obtain ⟨tape, pc, steps, console⟩ := s
  obtain ⟨⟨_, _, _, old⟩, io⟩ := x
  obtain ⟨⟨rfl, rfl, rfl⟩, hshown⟩ := h
  obtain ⟨r, tape', pc', steps', hperform⟩ := exists_perform_eq hplain tape pc steps
  have hat : performAt exe i (⟨tape, pc, steps, old⟩, io) = (r, ⟨tape', pc', steps', {}⟩, io) := by
    simp only [performAt, hsupply, hperform, Streams.print_empty]
  exact ⟨r, _, _, hperform console, hat, ⟨rfl, rfl, rfl⟩, hshown⟩

/-- Instruction for instruction. -/
theorem simulates_streamed (exe : Executable) :
    exe.real.Simulates (streamed exe) Together (fun _ => False) (fun _ _ _ => False) where
  next?_eq h := congrArg exe.program.instruction? h.agrees.pc_eq
  perform {s s' x i r} h hi hp := by
    change exe.perform i s = _ at hp
    obtain ⟨r', s'', x', hs, hx, h'⟩ : ∃ r s' x', exe.perform i s = (r, s') ∧
        performAt exe i x = (r, x') ∧ Together s' x' := by
      cases i
      case output => exact ⟨_, perform_output h⟩
      case input => exact ⟨_, perform_input h⟩
      all_goals exact perform_plain (fun _ => rfl) (fun _ => rfl) h
    cases hs.symm.trans hp
    exact Or.inl ⟨x', hx, h', fun _ _ => id⟩

/-- The same machine, with its trace in an endless transcript and with the trace on the output.  No input is
used. -/
structure Copied (input : List UInt8) (x : State × Transcript) (y : State × Streams) : Prop where
  agrees : x.1.Agrees y.1
  room_eq : x.2.room = none
  output_eq : y.2.output.toList = encode x.2.text
  input_eq : y.2.input = input
  shown : Streams.ShownBy { input := input } x.1.console

theorem Copied.print {input : List UInt8} {s s' t t' : State} {text : String} {io : Streams}
    (h : Copied input (s, ⟨none, text⟩) (t, io)) (piece : String) (hagrees : s'.Agrees t')
    (hconsole : s'.console = s.console) :
    Copied input (s', ⟨none, text ++ piece⟩) (t', io.print (encode piece).toArray) where
  agrees := hagrees
  room_eq := rfl
  output_eq := by
    show (io.output ++ (encode piece).toArray).toList = encode (text ++ piece)
    rw [Array.toList_append, h.output_eq, encode_append]
  input_eq := h.input_eq
  shown := by
    show Streams.ShownBy _ s'.console
    rw [hconsole]
    exact h.shown

/-- Row for row. -/
theorem simulates_recorded (exe : Executable) (input : List UInt8) :
    exe.traced.Simulates (recorded exe) (Copied input) (fun _ => False) (fun _ _ _ => False) where
  next?_eq h := congrArg exe.program.instruction? h.agrees.pc_eq
  perform {x x' y i r} h hi hp := by
    obtain ⟨⟨tape, pc, steps, c⟩, ⟨_, text⟩⟩ := x
    obtain ⟨⟨_, _, _, d⟩, io⟩ := y
    obtain ⟨rfl, rfl, rfl⟩ := h.agrees
    obtain rfl := h.room_eq
    rcases Executable.record_cases hp with
      ⟨e, he, rfl, rfl⟩ | ⟨next, hnext, ⟨u, ha, rfl, rfl⟩ | ⟨cause, u, ha, -, -⟩⟩
    · have hrecord := Executable.record_of_error (s := ⟨tape, pc, steps, d⟩) he (.empty none)
      have hat : recordAt exe i (⟨tape, pc, steps, d⟩, io) =
          (.error e, ⟨tape, pc, steps, d⟩, io.print (encode "").toArray) := by
        rw [recordAt_eq, hrecord]
        rfl
      have hprint := h.print "" h.agrees rfl
      rw [String.append_empty] at hprint
      exact Or.inl ⟨_, hat, hprint, fun _ _ => id⟩
    · have hrecord := Executable.record_of_ok (s := ⟨tape, pc, steps, d⟩) hnext ""
      have hat := congrArg (fun y => (y.1, y.2.1, io.print (encode y.2.2.text).toArray)) hrecord
      rw [String.empty_append] at hat
      cases ha
      exact Or.inl ⟨_, hat, h.print _ ⟨rfl, rfl, rfl⟩ rfl, fun _ _ => id⟩
    · cases ha

/-! ## Runs -/

/-- The call of a session that the settings ask for. -/
def callOf (s : Settings) : Call :=
  ⟨if s.debug then .traced none else .real, s.maxSteps⟩

/-- What the end of a run at streams (`y`) has to do with that of a call: `z` is where it stopped, with the
trace that it has written. -/
structure RunAgrees (debug : Bool) (z : Stop × State) (trace : Option String) (y : Stop × Streams) :
    Prop where
  stop_eq : y.1 = z.1
  stored_eq : debug = false → y.2.output = z.2.console.sink.stored
  trace_eq : debug = true → ∃ text, trace = some text ∧ y.2.output.toList = encode text
  script_eq : z.2.console.script = y.2.input.map .byte

/-- A run at streams comes to the end that the call of a session comes to, or to none. -/
theorem rel_runAt (exe : Executable) (s : Settings) (input : List UInt8) :
    Option.Rel (fun x y => RunAgrees s.debug (x.1.stop, x.2) x.1.trace y)
      (exe.call (callOf s) (.initial s.tapeLength { script := input.map .byte }))
      (runAt exe s { input := input }) := by
  have hshown := Streams.ShownBy.start input
  refine Executable.rel_call_left (Q := RunAgrees s.debug) ?_
  cases hdebug : s.debug with
  | false =>
    have hstart : Together (.initial s.tapeLength { script := input.map .byte })
        (.initial s.tapeLength {}, { input := input }) := ⟨⟨rfl, rfl, rfl⟩, hshown⟩
    have hcall : callOf s = ⟨.real, s.maxSteps⟩ := by
      rw [callOf, hdebug]
      rfl
    rw [hcall, runAt_real exe hdebug, Executable.execute_real]
    refine rel_map ((simulates_streamed exe).runWithin s.maxSteps 0 hstart) ?_
    rintro ⟨stop, u⟩ ⟨_, v, io⟩ ⟨rfl, h⟩
    obtain ⟨d, hflush, hd⟩ := h.shown.flush
    rw [Executable.conclude_of_flush_ok stop (congrArg Prod.fst hflush), hflush]
    exact ⟨rfl, fun _ => hd.stored_eq.symm, (fun h => by cases h), hd.script_eq⟩
  | true =>
    have hstart : Copied input (.initial s.tapeLength { script := input.map .byte }, ⟨none, header⟩)
        (.initial s.tapeLength {}, Streams.print { input := input } (encode header).toArray) :=
      ⟨⟨rfl, rfl, rfl⟩, rfl, by simp [Streams.print], rfl, hshown⟩
    have hcall : callOf s = ⟨.traced none, s.maxSteps⟩ := by
      rw [callOf, hdebug]
      rfl
    rw [hcall, runAt_traced exe hdebug, Executable.execute_traced]
    refine rel_map ((simulates_recorded exe input).runWithin s.maxSteps 0 hstart) ?_
    rintro ⟨stop, u, w⟩ ⟨_, v, io⟩ ⟨rfl, h⟩
    obtain ⟨d, hflush, hd⟩ := h.shown.flush
    rw [Executable.conclude_of_flush_ok stop (congrArg Prod.fst hflush), hflush]
    refine ⟨rfl, (fun h => by cases h), fun _ => ⟨_, rfl, h.output_eq⟩, ?_⟩
    rw [h.input_eq]
    exact hd.script_eq

/-- What the end of a command says (`y`, with the input that is left), when the call of the session has
ended so (`x`). -/
structure Tells (command source : String) (debug : Bool) (x : Report × State) (y : Exit × List UInt8) :
    Prop where
  code_eq : y.1.code = if x.1.stop = .finished then 0 else 1
  stored_eq : debug = false → y.1.output = x.2.console.sink.stored.toList
  trace_eq : debug = true → ∃ text, x.1.trace = some text ∧ y.1.output = encode text
  silent : x.1.stop = .finished → y.1.diagnostics = ""
  blames : ∀ e, x.1.stop = .failed e →
    y.1.diagnostics = Diagnostic.render (some command) source (Program.parse source) e none
  unread_eq : x.2.console.script = y.2.map .byte

theorem tells_concluded (command source : String) {debug : Bool} {r : Report} {t : State} {stop : Stop}
    {io : Streams} (h : RunAgrees debug (r.stop, t) r.trace (stop, io)) :
    Tells command source debug (r, t) (concluded command source io.output.toList stop, io.input) := by
  obtain ⟨rfl, hstored, htrace, hscript⟩ := h
  have houtput : (concluded command source io.output.toList r.stop).output = io.output.toList := by
    cases r.stop <;> rfl
  refine ⟨?_, fun hdebug => ?_, fun hdebug => ?_, fun hfinished => ?_, fun e hfailed => ?_, hscript⟩
  · cases r.stop <;> rfl
  · rw [houtput]
    exact congrArg Array.toList (hstored hdebug)
  · rw [houtput]
    exact htrace hdebug
  · rw [hfinished]
    rfl
  · rw [hfailed]
    rfl

/-- A command whose arguments name a file that can be read runs that file. -/
theorem executeOn_eq_runFile {command : String} {arguments : List Argument} {file : Argument}
    {read : Argument → Except String (List UInt8)} {content : List UInt8} (s : Settings) (input : List UInt8)
    (hrequest : Request.ofArguments arguments = .ok (.run file)) (hread : read file = .ok content) :
    executeOn command arguments read s input = runFile command s content input := by
  simp only [executeOn, plan, hrequest, hread]

end CommandLine

open CommandLine

/-! ## Top theorem -/

/-- The command runs the program of a file as a session of one call does, whatever bytes the file and the
input are made of; `source` is the text that the file decodes to.  It ends if the call ends.  If the brackets
do not match, it ends with nothing written and nothing read. -/
theorem command_agrees_with_session (command : String) (arguments : List Argument)
    (read : Argument → Except String (List UInt8)) (settings : Settings) (input : List UInt8)
    (file : Argument) (content : List UInt8) (source : String)
    (hrequest : Request.ofArguments arguments = .ok (.run file)) (hread : read file = .ok content)
    (hsource : Decodes content source.toList) :
    (∀ e, (Program.parse source).link = .error e →
      executeOn command arguments read settings input =
        some (⟨1, [], Diagnostic.render (some command) source (Program.parse source) e none⟩, input)) ∧
    ∀ exe, (Program.parse source).link = .ok exe →
      Option.Rel (Tells command source settings.debug)
        (exe.call ⟨if settings.debug then .traced none else .real, settings.maxSteps⟩
          (.initial settings.tapeLength { script := input.map .byte }))
        (executeOn command arguments read settings input) := by
  have htext : String.ofList (decode content) = source := by
    rw [← decodes_iff_eq_decode.1 hsource, String.ofList_toList]
  rw [executeOn_eq_runFile settings input hrequest hread]
  constructor
  · intro e he
    simp only [runFile, htext, he]
    rfl
  · intro exe hexe
    have hrun := rel_runAt exe settings input
    simp only [runFile, htext, hexe]
    show Option.Rel _ (exe.call (callOf settings) _) _
    generalize exe.call (callOf settings) _ = x at hrun ⊢
    generalize runAt exe settings { input := input } = y at hrun ⊢
    cases hrun with
    | none => exact .none
    | some h => exact .some (tells_concluded command source h)

/-- A byte has been written before the program leaves the tape, and one that is no text stands behind it. -/
theorem command_agrees_with_session_underflow :
    ∃ exe exit unread, (Program.parse "+.<\uFFFD").link = .ok exe ∧
      executeOn "brainfry" [[112]] (fun _ => .ok [43, 46, 60, 255]) { tapeLength := 2, maxSteps := some 9 }
        [65, 66] = some (exit, unread) ∧
      exit.code = 1 ∧ exit.output = [1] ∧ unread = [65, 66] ∧
      exit.diagnostics = Diagnostic.render (some "brainfry") "+.<\uFFFD" (Program.parse "+.<\uFFFD")
        (.offTape 2 0 .underflow) none := by
  let exe : Executable := ⟨.parse "+.<\uFFFD", ⟨#[none, none, none], 0⟩, rfl⟩
  let start : State := .initial 2 { script := [65, 66].map .byte }
  have hlink : (Program.parse "+.<\uFFFD").link = .ok exe := (Program.link_eq_ok_iff _ _).2 rfl
  obtain ⟨⟨r, t⟩, hcall⟩ := Option.isSome_iff_exists.1 (exe.isSome_call_of_limit .real 9 start)
  have hrel := (command_agrees_with_session "brainfry" [[112]] (fun _ => .ok [43, 46, 60, 255])
    { tapeLength := 2, maxSteps := some 9 } [65, 66] [112] [43, 46, 60, 255] "+.<\uFFFD" rfl rfl
    (decodes_iff_eq_decode.2 (by decide))).2 exe hlink
  have hend : (exe.call ⟨.real, some 9⟩ start).map
      (fun x => (x.1.stop, x.2.console.sink.stored, x.2.console.script)) =
      some (.failed (.offTape 2 0 .underflow), #[1], [.byte 65, .byte 66]) := by
    decide +kernel
  rw [hcall, Option.map_some, Option.some_inj, Prod.mk.injEq, Prod.mk.injEq] at hend
  obtain ⟨hstop, hstored, hscript⟩ := hend
  obtain ⟨⟨exit, unread⟩, hexit, htells⟩ := exists_of_rel_some (hcall ▸ hrel)
  have hunread : unread.map Reading.byte = [65, 66].map Reading.byte := by
    rw [← htells.unread_eq, hscript]
    rfl
  refine ⟨exe, exit, unread, hlink, hexit, ?_, ?_, ?_, htells.blames _ hstop⟩
  · rw [htells.code_eq, hstop]
    rfl
  · rw [htells.stored_eq rfl, hstored]
  · exact List.map_injective_iff.2 (fun _ _ h => Reading.byte.inj h) hunread

end Brainfuck
