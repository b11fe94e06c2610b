import Brainfuck.Proofs.CharacterForms
import Brainfuck.Proofs.TraceTable
import Brainfuck.Proofs.TrueReports

/-!
# Traces with too little room

A traced call whose transcript has room for `c` bytes stores the first `c` bytes of the trace that it
would write into an endless one.  If that is all of it, nothing is different.  If not, byte `c` of the
endless trace tells where the call fails: in the header before anything is done, or in some row, at
the instruction of that row (`trace_cut_at_capacity`).

The two runs go side by side up to the row that does not fit (`simulates_cut`).  The endless one goes
on from there, so what it writes in the end begins with that row (`exists_covers`).  All the characters of
a trace are of one byte, so bytes can be counted as characters.
-/

namespace Brainfuck

open Trace Text Text.Utf8

/-! ## Texts that are cut off -/

namespace Text

/-- The first `c` characters of a text, or all of it. -/
def cutAt (c : Nat) (text : String) : String := String.ofList (text.toList.take c)

variable {a b text : String} {c : Nat}

theorem cutAt_append_of_le (h : c ≤ a.length) : cutAt c (a ++ b) = cutAt c a := by
  rw [cutAt, cutAt, String.toList_append, List.take_append_of_le_length (by rwa [String.length_toList])]

theorem cutAt_append_of_length_le (h : a.length ≤ c) :
    cutAt c (a ++ b) = a ++ cutAt (c - a.length) b := by
  rw [cutAt, String.toList_append, List.take_append, String.length_toList,
    List.take_of_length_le (by rwa [String.length_toList]), String.ofList_append, String.ofList_toList]
  rfl

theorem encode_cutAt (h : isPlain text = true) (c : Nat) : encode (cutAt c text) = (encode text).take c := by
  have hcut : isPlain (cutAt c text) = true := by
    rw [isPlain, cutAt, String.toList_ofList]
    exact List.all_eq_true.2 fun ch hch => List.all_eq_true.1 h ch (List.mem_of_mem_take hch)
  rw [encode_of_isPlain h, encode_of_isPlain hcut, cutAt, String.toList_ofList, List.map_take]

end Text

/-! ## Transcripts -/

namespace Trace.Transcript

theorem append_bounded (room : Nat) (text piece : String) :
    append piece ⟨some room, text⟩ =
      if piece.length ≤ room then (.ok (), ⟨some (room - piece.length), text ++ piece⟩)
      else (.error "trace full", ⟨some 0, text ++ cutAt room piece⟩) := rfl

/-- Write pieces one after the other, up to the first that does not fit. -/
def appendAll : List String → Transcript → Except String Unit × Transcript
  | [], t => (.ok (), t)
  | piece :: rest, t =>
    match t.append piece with
    | (.ok _, t) => t.appendAll rest
    | (.error cause, t) => (.error cause, t)

/-- Into which pieces a text is broken makes no difference, so a row counts as one. -/
theorem appendAll_eq (pieces : List String) (t : Transcript) :
    t.appendAll pieces = t.append (String.join pieces) := by
  induction pieces generalizing t with
  | nil =>
    obtain ⟨_ | room, text⟩ := t
    · simp [appendAll, append]
    · simp [appendAll, append]
  | cons piece rest ih =>
    rw [String.join_cons]
    obtain ⟨_ | room, text⟩ := t
    · simp only [appendAll, append, ih, String.append_assoc]
    · have hlen := String.length_append piece (String.join rest)
      by_cases hfits : piece.length ≤ room
      · simp only [appendAll, append_bounded, if_pos hfits, ih]
        by_cases hrest : (String.join rest).length ≤ room - piece.length
        · rw [if_pos hrest, if_pos (by omega), hlen, Nat.sub_sub, String.append_assoc]
        · rw [if_neg hrest, if_neg (by omega), cutAt_append_of_length_le hfits, String.append_assoc]
      · simp only [appendAll, append_bounded, if_neg hfits]
        rw [if_neg (by omega), cutAt_append_of_le (by omega)]

theorem Holds.length_le {c : Nat} {t : Transcript} (h : t.Holds (some c)) : t.text.length ≤ c := by
  obtain ⟨_ | room, text⟩ := t
  · cases h
  · have hroom : text.length + room = c := Option.some.inj h
    show text.length ≤ c
    omega

/-- What does not fit is cut off behind the first `c` characters of all. -/
theorem Holds.of_append_error {c : Nat} {t u : Transcript} {piece cause : String} (h : t.Holds (some c))
    (ha : t.append piece = (.error cause, u)) :
    cause = "trace full" ∧ c < (t.text ++ piece).length ∧ u.text = cutAt c (t.text ++ piece) := by
  obtain ⟨_ | room, text⟩ := t
  · cases h
  · have hroom : text.length + room = c := Option.some.inj h
    have hlen := String.length_append text piece
    rw [append_bounded] at ha
    by_cases hfits : piece.length ≤ room
    · rw [if_pos hfits] at ha
      cases ha
    · rw [if_neg hfits] at ha
      cases ha
      refine ⟨rfl, ?_, ?_⟩
      · show c < (text ++ piece).length
        omega
      · show text ++ cutAt room piece = cutAt c (text ++ piece)
        rw [cutAt_append_of_length_le (by omega), ← hroom, Nat.add_sub_cancel_left]

end Trace.Transcript

/-! ## Bytes of traces -/

namespace Trace

@[simp] theorem isPlain_repr (n : Nat) : isPlain n.repr = true := by
  refine List.all_eq_true.2 fun c hc => decide_eq_true ?_
  have hdigit := Text.isDigit_of_mem_repr hc
  have hle : c.toNat ≤ 57 := by
    simp only [Char.isDigit, Bool.and_eq_true, decide_eq_true_eq] at hdigit
    exact hdigit.2
  omega

@[simp] theorem isPlain_column (width n : Nat) : isPlain (column width n) = true := by
  have hblanks : isPlain (String.ofList (List.replicate (width - n.repr.length) ' ')) = true := by
    rw [isPlain, String.toList_ofList]
    refine List.all_eq_true.2 fun c hc => ?_
    rw [List.eq_of_mem_replicate hc]
    rfl
  rw [column, isPlain_append, isPlain_repr, hblanks]
  rfl

@[simp] theorem Action.isPlain_text (a : Action) : isPlain a.text = true := by
  rw [Action.text_eq]
  cases a <;> simp only [isPlain_append, isPlain_repr, Bool.and_true] <;> decide

@[simp] theorem Row.isPlain_text (r : Row) : isPlain r.text = true := by
  have hsymbol : isPlain (String.singleton r.instruction.symbol) = true := by
    cases r.instruction <;> decide
  rw [Row.text_eq]
  simp only [isPlain_append, isPlain_column, Action.isPlain_text, hsymbol, Bool.and_true]
  decide

theorem isPlain_header : isPlain header = true := by decide +kernel

theorem length_encode_header : (encode header).length = header.length :=
  length_encode_of_isPlain isPlain_header

/-- The text of a trace with these rows. -/
def table (rows : List Row) : String := header ++ String.join (rows.map Row.text)

theorem table_append (rows rows' : List Row) :
    table (rows ++ rows') = table rows ++ String.join (rows'.map Row.text) := by
  rw [table, table, List.map_append, String.join_append, String.append_assoc]

theorem table_append_singleton (rows : List Row) (row : Row) :
    table (rows ++ [row]) = table rows ++ row.text := by
  rw [table_append, List.map_singleton, String.join_cons, String.join_nil, String.append_empty]

theorem header_le_table (rows : List Row) : header.length ≤ (table rows).length := by
  rw [table, String.length_append]
  omega

theorem isPlain_table (rows : List Row) : isPlain (table rows) = true := by
  have hrows : isPlain (String.join (rows.map Row.text)) = true := by
    induction rows with
    | nil => rfl
    | cons r rows ih => rw [List.map_cons, String.join_cons, isPlain_append, r.isPlain_text, ih]; rfl
  rw [table, isPlain_append, isPlain_header, hrows]
  rfl

theorem length_encode_table (rows : List Row) : (encode (table rows)).length = (table rows).length :=
  length_encode_of_isPlain (isPlain_table rows)

/-- Every row has a character at least. -/
theorem length_le_length_table (rows : List Row) : rows.length ≤ (table rows).length := by
  have hrows : rows.length ≤ (String.join (rows.map Row.text)).length := by
    induction rows with
    | nil => exact Nat.zero_le _
    | cons r rows ih =>
      have hrow : r.text.length = r.line.length + 1 := by
        rw [r.text_eq_line, String.length_append]
        rfl
      rw [List.map_cons, String.join_cons, String.length_append, List.length_cons]
      omega
  rw [table, String.length_append]
  omega

end Trace

namespace Executable

variable {exe : Executable} {s t : State} {r : Report} {limit : Option Nat} {c : Nat}

/-! ## Runs -/

/-- A machine whose transcript has room for `c` characters, all of which have fitted so far, and the same
machine with an endless one. -/
structure KeepsUp (c : Nat) (x y : State × Transcript) : Prop where
  state_eq : x.1 = y.1
  text_eq : x.2.text = y.2.text
  holds : x.2.Holds (some c)
  room_eq : y.2.room = none

/-- The next instruction of `y` has `row`, which does not fit in `c` characters, and `x` is what is left
when it has been cut. -/
structure Cuts (exe : Executable) (c : Nat) (row : Row) (x y : State × Transcript) : Prop where
  instruction?_eq : exe.program.instruction? y.1.pc = some row.instruction
  moment_eq : row.toMoment = moment row.instruction y.1
  effect_eq : (exe.effect row.instruction y.1.pc y.1.tape).1 = .ok row.next
  pc_eq : x.1.pc = y.1.pc
  steps_eq : x.1.steps = y.1.steps
  text_eq : x.2.text = cutAt c (y.2.text ++ row.text)
  start_le : y.2.text.length ≤ c
  lt_stop : c < (y.2.text ++ row.text).length

/-- Row for row, up to the first that is cut. -/
theorem simulates_cut (exe : Executable) (c : Nat) :
    exe.traced.Simulates exe.traced (KeepsUp c) (fun e => e.isDevice)
      (fun e x y => e = .device y.1.pc "trace full" ∧ ∃ row, exe.Cuts c row x y) where
  next?_eq h := congrArg (fun s : State => exe.program.instruction? s.pc) h.state_eq
  perform {x x' y i r} h hi hp := by
    obtain ⟨s, v⟩ := x
    obtain ⟨_, ⟨_, text⟩⟩ := y
    obtain ⟨rfl, htext, hholds, rfl⟩ := h
    change v.text = text at htext
    rcases record_cases hp with
      ⟨e, he, rfl, rfl⟩ | ⟨next, hnext, ⟨u, ha, rfl, rfl⟩ | ⟨cause, u, ha, rfl, rfl⟩⟩
    · refine Or.inl ⟨_, record_of_error he _, ⟨rfl, htext, hholds, rfl⟩, ?_⟩
      rintro _ ⟨⟩
      exact not_isDevice_of_effect he
    · refine Or.inl ⟨_, record_of_ok hnext text, ⟨rfl, ?_, ?_, rfl⟩, fun _ he => by cases he⟩
      · rw [Transcript.text_of_append_ok ha, htext]
      · have hholds' := hholds.append (Row.text ⟨moment i s, next⟩)
        rwa [ha] at hholds'
    · obtain ⟨rfl, hlt, hcut⟩ := hholds.of_append_error ha
      have hle := hholds.length_le
      rw [htext] at hlt hcut hle
      exact Or.inr ⟨_, rfl, rfl, rfl, ⟨moment i s, next⟩, hi, rfl, hnext, rfl, rfl, hcut, hle, hlt⟩

/-- Byte `c` of the trace that a call from `s` writes into an endless transcript is one of `row`, behind
the rows `before`; the instruction of the row is the next one in state `u`. -/
structure Covers (exe : Executable) (s : State) (full : String) (c : Nat) (before : List Row)
    (row : Row) (u : State) : Prop where
  full_eq : ∃ after, full = table (before ++ row :: after)
  start_le : (encode (table before)).length ≤ c
  lt_stop : c < (encode (table (before ++ [row]))).length
  runFor_eq : exe.traced.runFor before.length (s, ⟨none, header⟩) = (none, u, ⟨none, table before⟩)
  instruction?_eq : exe.program.instruction? u.pc = some row.instruction
  moment_eq : row.toMoment = moment row.instruction u

/-- An endless run that has come to a row goes on with it. -/
theorem exists_covers {stop : Stop} {w : State × Transcript} {row : Row} {k : Nat}
    {x y : State × Transcript}
    (hrun : exe.traced.runWithin limit s.steps (s, ⟨none, header⟩) = some (stop, w))
    (hk : ∀ l, limit = some l → k < l - s.steps)
    (hy : exe.traced.runFor k (s, ⟨none, header⟩) = (none, y)) (hcut : exe.Cuts c row x y) :
    ∃ before, exe.Covers s w.2.text c before row y.1 ∧ y.2.text = table before := by
  obtain ⟨u, v⟩ := y
  obtain ⟨before, hbefore, rfl⟩ := logged_of_runFor hy
  have hlen : before.length = k := by
    have h := (follows_traced exe).steps_of_none hy
    have := hbefore.steps_eq
    change u.steps = s.steps + k at h
    omega
  -- one instruction further, the row is written
  have hnext : (exe.traced.runFor (k + 1) (s, ⟨none, header⟩)).2 =
      (⟨(exe.effect row.instruction u.pc u.tape).2, row.next, u.steps + 1, u.console⟩,
        ⟨none, table before ++ row.text⟩) := by
    have hrecord := record_of_ok hcut.effect_eq (table before)
    rw [Process.runFor_add, hy]
    show (exe.traced.runFor 1 _).2 = _
    rw [Process.runFor_succ_of_ok 0 hcut.instruction?_eq hrecord, ← hcut.moment_eq,
      Process.runFor_zero_snd]
  have hresume := (steady_traced exe).runWithin_resume (follows_traced exe)
    (x := (s, ⟨none, header⟩)) (m := k + 1) hk rfl
  rw [hnext, hrun] at hresume
  obtain ⟨after, -, hw⟩ := logged_of_runWithin hresume.symm
  refine ⟨before, ⟨⟨after, ?_⟩, ?_, ?_, ?_, hcut.instruction?_eq, hcut.moment_eq⟩, rfl⟩
  · rw [hw, List.append_cons, table_append, table_append_singleton]
  · rw [length_encode_table]
    exact hcut.start_le
  · rw [length_encode_table, table_append_singleton]
    exact hcut.lt_stop
  · rw [hlen]
    exact hy

/-- The rows before the one that is cut are written whole. -/
theorem Covers.whole {full : String} {before : List Row} {row : Row} {u : State}
    (h : exe.Covers s full c before row u) : ∃ cut, cutAt c full = table before ++ cut := by
  obtain ⟨after, rfl⟩ := h.full_eq
  have hle := h.start_le
  rw [length_encode_table] at hle
  rw [table_append, cutAt_append_of_length_le hle]
  exact ⟨_, rfl⟩

/-! ## Calls -/

theorem execute_traced_of_lt (h : c < header.length) :
    exe.execute ⟨.traced (some c), limit⟩ s =
      some (.failed (.device s.pc "trace full"), s, some (cutAt c header)) := by
  have hheader : (Transcript.empty (some c)).append header =
      (.error "trace full", ⟨some 0, cutAt c header⟩) := by
    rw [Transcript.empty, Transcript.append_bounded, if_neg (by omega), String.empty_append]
  simp only [execute, traceWithin, hheader]

theorem execute_traced_of_le (h : header.length ≤ c) :
    exe.execute ⟨.traced (some c), limit⟩ s =
      (exe.traced.runWithin limit s.steps (s, ⟨some (c - header.length), header⟩)).map
        fun x => (x.1, x.2.1, some x.2.2.text) := by
  have hheader : (Transcript.empty (some c)).append header =
      (.ok (), ⟨some (c - header.length), header⟩) := by
    rw [Transcript.empty, Transcript.append_bounded, if_pos h, String.empty_append]
  simp only [execute, traceWithin, hheader]
  cases exe.traced.runWithin limit s.steps (s, ⟨some (c - header.length), header⟩) <;> rfl

/-- There is room for all of the trace, or the call fails in the header or in some row. -/
theorem execute_cut {stop : Stop} {u : State} {full : String}
    (he : exe.execute ⟨.traced none, limit⟩ s = some (stop, u, some full)) (c : Nat) :
    (full.length ≤ c ∧ exe.execute ⟨.traced (some c), limit⟩ s = some (stop, u, some full)) ∨
    c < full.length ∧ ∃ ip v,
      exe.execute ⟨.traced (some c), limit⟩ s =
        some (.failed (.device ip "trace full"), v, some (cutAt c full)) ∧
      (c < header.length ∧ ip = s.pc ∧ v = s ∨
       ∃ before row w, exe.Covers s full c before row w ∧ ip = w.pc ∧ v.pc = w.pc ∧
        v.steps = w.steps) := by
  rw [execute_traced] at he
  obtain ⟨⟨_, _, w⟩, hrun, heq⟩ := Option.map_eq_some_iff.1 he
  simp only [Prod.mk.injEq, Option.some.injEq] at heq
  obtain ⟨rfl, rfl, rfl⟩ := heq
  by_cases hheader : c < header.length
  · obtain ⟨rows, -, rfl⟩ := logged_of_runWithin hrun
    have hlong : c < (table rows).length := Nat.lt_of_lt_of_le hheader (header_le_table rows)
    refine Or.inr ⟨hlong, s.pc, s, ?_, Or.inl ⟨hheader, rfl, rfl⟩⟩
    rw [execute_traced_of_lt hheader, cutAt_append_of_le hheader.le]
  · rw [execute_traced_of_le (by omega)]
    have hstart : KeepsUp c (s, ⟨some (c - header.length), header⟩) (s, ⟨none, header⟩) :=
      ⟨rfl, rfl, congrArg some (by show header.length + (c - header.length) = c; omega), rfl⟩
    rcases (simulates_cut exe c).exists_runWithin_left hstart hrun with
      ⟨⟨v, w'⟩, hv, hkeeps⟩ | ⟨e, k, x, y, hx, -, hk, hy, rfl, row, hcut⟩
    · obtain ⟨rfl, htext, hholds, -⟩ := hkeeps
      change w'.text = w.text at htext
      refine Or.inl ⟨htext ▸ hholds.length_le, ?_⟩
      rw [hv, ← htext]
      rfl
    · obtain ⟨before, hcovers, htext⟩ := exists_covers hrun hk hy hcut
      obtain ⟨after, hfull⟩ := hcovers.full_eq
      rw [List.append_cons, table_append, table_append_singleton, ← htext] at hfull
      have hlt := hcut.lt_stop
      have hlong : c < w.text.length := by
        rw [hfull, String.length_append]
        omega
      refine Or.inr ⟨hlong, y.1.pc, x.1, ?_, Or.inr
        ⟨before, row, y.1, hcovers, rfl, hcut.pc_eq, hcut.steps_eq⟩⟩
      rw [hx, hfull, cutAt_append_of_le hlt.le, ← hcut.text_eq]
      rfl

/-- A call without a limit that never ends writes more than any room. -/
theorem exists_limit_of_call_eq_none (h : exe.call ⟨.traced none, limit⟩ s = none) (c : Nat) :
    ∃ l r t, ∃ rows : List Row, limit = none ∧ exe.call ⟨.traced none, some l⟩ s = some (r, t) ∧
      r.trace = some (table rows) ∧ c < (table rows).length := by
  have hlimit : limit = none := by
    cases limit with
    | none => rfl
    | some l =>
      have hsome := exe.isSome_call_of_limit (.traced none) l s
      rw [h] at hsome
      cases hsome
  subst hlimit
  obtain ⟨⟨r, t⟩, hcall⟩ :=
    Option.isSome_iff_exists.1 (exe.isSome_call_of_limit (.traced none) (s.steps + c + 1) s)
  obtain ⟨rows, u, hrows, hagrees, htrace⟩ := logged_of_call hcall
  have hstop : r.stop = .failed (.outOfSteps (s.steps + c + 1)) := by
    apply Classical.byContradiction
    intro hne
    rw [call_of_limit hcall hne] at h
    cases h
  have hsteps : s.steps + c + 1 ≤ u.steps := by
    obtain ⟨stop, v, he, hconclude⟩ := call_cases hcall
    have hv := agrees_conclude stop v
    rw [hconclude] at hv
    rcases error_of_conclude ((congrArg Prod.fst hconclude).trans hstop) with rfl | ⟨-, cause, he, -⟩
    · cases explains_of_execute he with
      | limit hl hle =>
        cases hl
        rwa [← hagrees.steps_eq, hv.steps_eq]
    · cases he
  have hlen := length_le_length_table rows
  have hcount := hrows.steps_eq
  exact ⟨_, r, t, rows, rfl, hcall, htrace, by omega⟩

/-- What a call from `s` that has room for `c` bytes (`y`) has to do with the same call (`x`) when it has room
for all of its trace, `full`. -/
structure CutShort (exe : Executable) (s : State) (c : Nat) (full : String) (x y : Report × State) :
    Prop where
  trace_eq : ∃ text, y.1.trace = some text ∧ encode text = (encode full).take c
  eq_of_le : (encode full).length ≤ c → y = x
  /-- Byte `c` is in the header: nothing is done. -/
  in_header : c < (encode header).length →
    y.1.stop = .failed (.device s.pc "trace full") ∧ y.2 = s.on s.console.flush.2
  /-- Byte `c` is in a row: the call fails at the instruction of the row, which is not counted. -/
  in_row : (encode header).length ≤ c → c < (encode full).length →
    ∃ before row u cut, exe.Covers s full c before row u ∧
      y.1.stop = .failed (.device row.ip "trace full") ∧ y.2.pc = row.ip ∧ u.pc = row.ip ∧
      y.2.steps = u.steps ∧ y.1.trace = some (table before ++ cut)

theorem exists_call_cutShort (hcall : exe.call ⟨.traced none, limit⟩ s = some (r, t)) (c : Nat) :
    ∃ full y, r.trace = some full ∧ exe.call ⟨.traced (some c), limit⟩ s = some y ∧
      exe.CutShort s c full (r, t) y := by
  obtain ⟨rows, -, -, -, htrace⟩ := logged_of_call hcall
  obtain ⟨stop, u, he, hconclude⟩ := call_cases hcall
  have hheader := length_encode_header
  have hle := header_le_table rows
  have hplain := isPlain_table rows
  have hlen := length_encode_table rows
  rw [htrace] at he
  change r.trace = some (table rows) at htrace
  change exe.execute _ s = some (stop, u, some (table rows)) at he
  generalize table rows = full at htrace he hle hplain hlen
  rcases execute_cut he c with ⟨hfits, he'⟩ | ⟨hlt, ip, v, he', hplace⟩
  · have hsame : exe.call ⟨.traced (some c), limit⟩ s = some (r, t) := by
      rw [← hcall, call, call, he, he']
    refine ⟨full, (r, t), htrace, hsame, ⟨full, htrace, ?_⟩, fun _ => rfl, fun hlt => ?_, fun _ hlt => ?_⟩
    · rw [List.take_of_length_le (by omega)]
    · omega
    · omega
  · obtain ⟨r', hcall', hstop, htrace', -⟩ := call_of_execute he'
    rw [conclude_failed] at hstop
    refine ⟨full, _, htrace, hcall', ⟨_, htrace', encode_cutAt hplain c⟩, fun hfits => ?_,
      fun hin => ?_, fun hbehind _ => ?_⟩
    · omega
    · rcases hplace with ⟨-, rfl, rfl⟩ | ⟨before, row, w, hcovers, -⟩
      · refine ⟨hstop, ?_⟩
        rw [conclude_eq]
        rfl
      · have hstart := hcovers.start_le
        rw [length_encode_table] at hstart
        have := header_le_table before
        omega
    · rcases hplace with ⟨hin, -⟩ | ⟨before, row, w, hcovers, rfl, hpc, hsteps⟩
      · omega
      · have hagrees := agrees_conclude (.failed (.device w.pc "trace full")) v
        have hip : row.ip = w.pc := congrArg Moment.ip hcovers.moment_eq
        obtain ⟨cut, hcut⟩ := hcovers.whole
        rw [hcut] at htrace'
        refine ⟨before, row, w, cut, hcovers, ?_, ?_, hip.symm, hagrees.steps_eq.trans hsteps, htrace'⟩
        · rw [hip]
          exact hstop
        · rw [hip]
          exact hagrees.pc_eq.trans hpc

end Executable

/-! ## Top theorem -/

/-- A call whose trace has room for `c` bytes stores the first `c` bytes of the trace that the same call
writes into an endless transcript, and fails in the row in which that is cut off, if it is.  A call that
never ends writes more than `c` bytes within some limit, and with so little room it ends as it does
within that limit. -/
theorem trace_cut_at_capacity (exe : Executable) (s : State) (limit : Option Nat) (c : Nat) :
    (∀ r t, exe.call ⟨.traced none, limit⟩ s = some (r, t) →
      ∃ full y, r.trace = some full ∧ exe.call ⟨.traced (some c), limit⟩ s = some y ∧
        exe.CutShort s c full (r, t) y) ∧
    (exe.call ⟨.traced none, limit⟩ s = none →
      ∃ l r t full y, exe.call ⟨.traced none, some l⟩ s = some (r, t) ∧ r.trace = some full ∧
        c < (encode full).length ∧ exe.call ⟨.traced (some c), limit⟩ s = some y ∧
        exe.CutShort s c full (r, t) y) := by
  constructor
  · intro r t hcall
    exact Executable.exists_call_cutShort hcall c
  · intro hnone
    obtain ⟨l, r, t, rows, rfl, hcall, htrace, hlt⟩ := Executable.exists_limit_of_call_eq_none hnone c
    rw [← length_encode_table] at hlt
    obtain ⟨full, ⟨r', t'⟩, hfull, hcall', hshort⟩ := Executable.exists_call_cutShort hcall c
    obtain rfl := Option.some.inj (htrace.symm.trans hfull)
    have hne : r'.stop ≠ .failed (.outOfSteps l) := by
      by_cases hin : c < (encode header).length
      · rw [(hshort.in_header hin).1]
        exact fun h => by cases h
      · obtain ⟨before, row, u, cut, -, hstop, -⟩ := hshort.in_row (Nat.le_of_not_lt hin) hlt
        rw [hstop]
        exact fun h => by cases h
    exact ⟨l, r, t, _, _, hcall, htrace, hlt, Executable.call_of_limit hcall' hne, hshort⟩

/-- The trace of a loop, cut in the row of its second instruction. -/
theorem trace_cut_at_capacity_row :
    ∃ exe r t full y before row u, (Program.parse "+[-]").link = .ok exe ∧
      exe.call ⟨.traced none, some 9⟩ (.initial 1 {}) = some (r, t) ∧ r.trace = some full ∧
      exe.call ⟨.traced (some 200), some 9⟩ (.initial 1 {}) = some y ∧
      200 < (encode full).length ∧ exe.Covers (.initial 1 {}) full 200 before row u ∧
      y.1.stop = .failed (.device 1 "trace full") ∧ y.2.pc = 1 ∧ y.2.steps = 1 := by
  let exe : Executable := ⟨.parse "+[-]", ⟨#[none, some 3, none, some 1], 1⟩, rfl⟩
  have hlink : (Program.parse "+[-]").link = .ok exe := (Program.link_eq_ok_iff _ _).2 rfl
  obtain ⟨⟨r, t⟩, hcall⟩ :=
    Option.isSome_iff_exists.1 (exe.isSome_call_of_limit (.traced none) 9 (.initial 1 {}))
  obtain ⟨full, y, hfull, hcut, hshort⟩ :=
    (trace_cut_at_capacity exe (.initial 1 {}) (some 9) 200).1 r t hcall
  have hstops : (exe.call ⟨.traced (some 200), some 9⟩ (.initial 1 {})).map
      (fun y => (y.1.stop, y.2.pc, y.2.steps)) = some (.failed (.device 1 "trace full"), 1, 1) := by
    decide +kernel
  have hfinished : (exe.call ⟨.traced none, some 9⟩ (.initial 1 {})).map (·.1.stop) = some .finished := by
    decide +kernel
  rw [hcut, Option.map_some, Option.some_inj, Prod.mk.injEq, Prod.mk.injEq] at hstops
  rw [hcall, Option.map_some, Option.some_inj] at hfinished
  have hlong : 200 < (encode full).length := by
    refine Nat.lt_of_not_le fun hfits => ?_
    have hstop := hstops.1
    rw [hshort.eq_of_le hfits, hfinished] at hstop
    cases hstop
  have hheader : (encode header).length ≤ 200 := by
    refine Nat.le_of_not_lt fun hin => ?_
    have hstop := (hshort.in_header hin).1
    rw [hstops.1] at hstop
    cases hstop
  obtain ⟨before, row, u, cut, hcovers, -⟩ := hshort.in_row hheader hlong
  exact ⟨exe, r, t, full, y, before, row, u, hlink, hcall, hfull, hcut, hlong, hcovers, hstops⟩

end Brainfuck
