import Brainfuck.Diagnostic
import Mathlib.Data.List.TakeWhile

/-!
# Source windows and the caret

A window shows what is on the line of a place and near enough to it, all of that and nothing else
(`Window.Frames`, `Window.exists_frames_around`).  So where an error is blamed on an instruction, the
report shows the line of that instruction, with the caret below its symbol
(`caret_points_at_instruction`).
-/

namespace Brainfuck

namespace Window

theorem shown_symbol (i : Instruction) : shown i.symbol = i.symbol := by
  cases i <;> rfl

/-- The part of a text that goes on without `p` failing, but for `n` characters at most. -/
theorem take_takeWhile (p : Char → Bool) (n : Nat) (source : List Char) :
    ∃ m, (source.takeWhile p).take n = source.take m ∧ m ≤ n ∧ m ≤ source.length ∧
      (m = source.length ∨ (∃ c, source[m]? = some c ∧ p c = false) ∨ m = n) := by
  induction source generalizing n with
  | nil => exact ⟨0, by simp, Nat.zero_le n, Nat.le_refl 0, Or.inl rfl⟩
  | cons c source ih =>
    cases n with
    | zero => exact ⟨0, rfl, Nat.le_refl 0, Nat.zero_le _, Or.inr (Or.inr rfl)⟩
    | succ n =>
      cases hc : p c with
      | false =>
        refine ⟨0, ?_, Nat.zero_le _, Nat.zero_le _, Or.inr (Or.inl ⟨c, rfl, hc⟩)⟩
        rw [List.takeWhile_cons_of_neg (by simp [hc])]
        rfl
      | true =>
        obtain ⟨m, htake, hn, hlen, hend⟩ := ih n
        refine ⟨m + 1, ?_, Nat.succ_le_succ hn, Nat.succ_le_succ hlen, ?_⟩
        · rw [List.takeWhile_cons_of_pos hc, List.take_succ_cons, List.take_succ_cons, htake]
        · rcases hend with rfl | hstop | rfl
          · exact Or.inl rfl
          · exact Or.inr (Or.inl hstop)
          · exact Or.inr (Or.inr rfl)

/-- The window shows the characters from `start` to `stop`: those on the line of `place` that are
within reach of it, and all of them. -/
structure Frames (source : List Char) (place start stop : Nat) (w : Window) : Prop where
  start_le : start ≤ place
  le_stop : place ≤ stop
  stop_le : stop ≤ source.length
  left_le : place ≤ start + reach
  right_le : stop ≤ place + (reach + 1)
  text_eq : w.text = ((source.take stop).drop start).map shown
  column_eq : start + w.column = place
  newline_notMem : '\n' ∉ (source.take stop).drop start
  left_end : start = 0 ∨ source[start - 1]? = some '\n' ∨ place = start + reach
  right_end : stop = source.length ∨ source[stop]? = some '\n' ∨ stop = place + (reach + 1)

theorem exists_leftOf {source : List Char} {place : Nat} (h : place ≤ source.length) :
    ∃ start ≤ place, place ≤ start + reach ∧
      (leftOf source place).reverse = (source.take place).drop start ∧
      (start = 0 ∨ source[start - 1]? = some '\n' ∨ place = start + reach) := by
  obtain ⟨m, htake, hreach, hlen, hend⟩ :=
    take_takeWhile (· ≠ '\n') reach (source.take place).reverse
  rw [List.length_reverse, List.length_take, Nat.min_eq_left h] at hlen hend
  refine ⟨place - m, Nat.sub_le _ _, by omega, ?_, ?_⟩
  · rw [leftOf, htake, List.reverse_take, List.length_reverse, List.reverse_reverse, List.length_take,
      Nat.min_eq_left h]
  · rcases hend with rfl | ⟨c, hc, hstop⟩ | rfl
    · exact Or.inl (Nat.sub_self _)
    · -- the character that ended the search stands before the window
      refine Or.inr (Or.inl ?_)
      have hm : m < (source.take place).length := by
        have := (List.getElem?_eq_some_iff.1 hc).1
        rwa [List.length_reverse] at this
      rw [List.getElem?_reverse hm] at hc
      rw [List.length_take, Nat.min_eq_left h] at hm hc
      rw [List.getElem?_take_of_lt (by omega)] at hc
      have heq : place - m - 1 = place - 1 - m := by omega
      rw [heq, hc]
      simpa using hstop
    · omega

theorem exists_rightFrom {source : List Char} {place : Nat} (h : place ≤ source.length) :
    ∃ stop, place ≤ stop ∧ stop ≤ source.length ∧ stop ≤ place + (reach + 1) ∧
      rightFrom source place = (source.take stop).drop place ∧
      (stop = source.length ∨ source[stop]? = some '\n' ∨ stop = place + (reach + 1)) := by
  obtain ⟨m, htake, hreach, hlen, hend⟩ := take_takeWhile (· ≠ '\n') (reach + 1) (source.drop place)
  rw [List.length_drop] at hlen hend
  refine ⟨place + m, Nat.le_add_right _ _, by omega, by omega, ?_, ?_⟩
  · rw [rightFrom, htake, List.drop_take, Nat.add_sub_cancel_left]
  · rcases hend with rfl | ⟨c, hc, hstop⟩ | rfl
    · exact Or.inl (by omega)
    · refine Or.inr (Or.inl ?_)
      rw [← List.getElem?_drop, hc]
      simpa using hstop
    · exact Or.inr (Or.inr rfl)

theorem newline_notMem_leftOf (source : List Char) (place : Nat) : '\n' ∉ leftOf source place := by
  intro h
  have := List.mem_takeWhile_imp (List.mem_of_mem_take h)
  simp at this

theorem newline_notMem_rightFrom (source : List Char) (place : Nat) :
    '\n' ∉ rightFrom source place := by
  intro h
  have := List.mem_takeWhile_imp (List.mem_of_mem_take h)
  simp at this

theorem drop_take_eq_append {source : List Char} {start place stop : Nat} (hstart : start ≤ place)
    (hstop : place ≤ stop) (hplace : place ≤ source.length) :
    (source.take stop).drop start = (source.take place).drop start ++ (source.take stop).drop place := by
  have htake := List.take_append_drop place (source.take stop)
  rw [List.take_take, Nat.min_eq_left hstop] at htake
  have hlength : start ≤ (source.take place).length := by rwa [List.length_take_of_le hplace]
  rw [← List.drop_append_of_le_length hlength, htake]

/-- A window frames the place that it is around, or, behind the text, the last place of it. -/
theorem exists_frames_around (source : List Char) (position : Nat) :
    ∃ start stop, Frames source (clamp source position) start stop (around source position) := by
  have hplace : clamp source position ≤ source.length := by
    unfold clamp
    omega
  obtain ⟨start, hstart, hleft, hleftOf, hleft_end⟩ := exists_leftOf hplace
  obtain ⟨stop, hstop, hlen, hright, hrightFrom, hright_end⟩ := exists_rightFrom hplace
  have hshown : (leftOf source (clamp source position)).reverse ++
      rightFrom source (clamp source position) = (source.take stop).drop start := by
    rw [hleftOf, hrightFrom, drop_take_eq_append hstart hstop hplace]
  refine ⟨start, stop, ⟨hstart, hstop, hlen, hleft, hright, ?_, ?_, ?_, hleft_end, hright_end⟩⟩
  · show ((leftOf source (clamp source position)).reverse ++
        rightFrom source (clamp source position)).map shown = _
    rw [hshown]
  · show start + (leftOf source (clamp source position)).length = clamp source position
    rw [← List.length_reverse, hleftOf, List.length_drop, List.length_take, Nat.min_eq_left hplace]
    omega
  · rw [← hshown, List.mem_append, List.mem_reverse]
    exact not_or.2 ⟨newline_notMem_leftOf _ _, newline_notMem_rightFrom _ _⟩

namespace Frames

variable {source : List Char} {place start stop : Nat} {w : Window}

theorem length_text (h : Frames source place start stop w) : w.text.length = stop - start := by
  rw [h.text_eq, List.length_map, List.length_drop, List.length_take, Nat.min_eq_left h.stop_le]

theorem newline_notMem_text (h : Frames source place start stop w) : '\n' ∉ w.text := by
  rw [h.text_eq, List.mem_map]
  rintro ⟨c, hc, hshown⟩
  unfold shown at hshown
  split at hshown
  · cases hshown
  · subst hshown
    exact h.newline_notMem hc

theorem tab_notMem_text (h : Frames source place start stop w) : '\t' ∉ w.text := by
  rw [h.text_eq, List.mem_map]
  rintro ⟨c, -, hshown⟩
  unfold shown at hshown
  split at hshown
  · cases hshown
  · next hc => exact hc hshown

theorem eq_blank_or_mem_of_mem_text {c : Char} (h : Frames source place start stop w) (hc : c ∈ w.text) :
    c = ' ' ∨ c ∈ source := by
  rw [h.text_eq, List.mem_map] at hc
  obtain ⟨d, hd, rfl⟩ := hc
  unfold shown
  split
  · exact Or.inl rfl
  · exact Or.inr (List.mem_of_mem_take (List.mem_of_mem_drop hd))

/-- Only a newline is not shown in its own window. -/
theorem lt_stop {c : Char} (h : Frames source place start stop w) (hc : source[place]? = some c)
    (hne : c ≠ '\n') : place < stop := by
  have hlt := (List.getElem?_eq_some_iff.1 hc).1
  have hle := h.le_stop
  rcases h.right_end with hend | hnewline | hreach
  · omega
  · rcases Nat.lt_or_eq_of_le hle with hlt' | rfl
    · exact hlt'
    · rw [hc] at hnewline
      exact absurd (Option.some.inj hnewline) hne
  · omega

theorem getElem?_text (h : Frames source place start stop w) (hlt : place < stop) :
    w.text[w.column]? = source[place]?.map shown := by
  rw [h.text_eq, List.getElem?_map, List.getElem?_drop, h.column_eq, List.getElem?_take_of_lt hlt]

end Frames

end Window

namespace Diagnostic

/-- The line that says what went wrong, without colors. -/
def messageLine (name : Option String) (e : RunError) : String :=
  name.elim "" (· ++ ": ") ++ e.label ++ ": " ++ e.message ++ "\n"

/-- What stands below the message and before the caret. -/
def upToCaret (w : Window) : String :=
  "  " ++ String.ofList w.text ++ "\n  " ++ String.ofList (List.replicate w.column ' ')

theorem headline_eq (name : Option String) (e : RunError) (paints : Paints) :
    headline name e paints =
      name.elim "" (fun n => paints.program n ++ ": ") ++ paints.error e.label ++ (": " ++ e.message ++ "\n") := by
  cases name <;> simp [headline, String.append_assoc, toString]

theorem excerpt_eq (source : List Char) (position : Nat) (paints : Paints) :
    excerpt source position paints =
      upToCaret (Window.around source position) ++ paints.caret "^" ++ "\n" := by
  simp [excerpt, upToCaret, String.append_assoc, toString]

theorem report_eq (name : Option String) (source : String) (p : Program) (e : RunError) (paints : Paints) :
    report name source p e paints =
      headline name e paints ++ (e.ip?.bind p.offset?).elim "" fun place => excerpt source.toList place paints := by
  unfold report
  cases e.ip?.bind p.offset? with
  | none => exact String.append_empty.symm
  | some place => rfl

theorem headline_plain (name : Option String) (e : RunError) :
    headline name e .plain = messageLine name e := by
  rw [headline_eq, messageLine]
  cases name <;> simp [Paints.plain, String.append_assoc]

theorem render_of_offset?_eq {name : Option String} {source : String} {p : Program} {e : RunError}
    {ip place : Nat} (hip : e.ip? = some ip) (hplace : p.offset? ip = some place) :
    render name source p e none =
      messageLine name e ++ "  " ++ String.ofList (Window.around source.toList place).text ++ "\n" ++
      "  " ++ String.ofList (List.replicate (Window.around source.toList place).column ' ') ++ "^\n" := by
  have hbind : e.ip?.bind p.offset? = some place := by rw [hip, Option.bind_some, hplace]
  rw [render, Option.elim_none, report_eq, headline_plain, hbind, Option.elim_some, excerpt_eq]
  simp [upToCaret, Paints.plain, String.append_assoc]

theorem render_of_offset?_eq_none {name : Option String} {source : String} {p : Program} {e : RunError}
    (h : e.ip?.bind p.offset? = none) : render name source p e none = messageLine name e := by
  rw [render, Option.elim_none, report_eq, headline_plain, h, Option.elim_none, String.append_empty]

end Diagnostic

/-! ## Top theorem -/

/-- Below the message there are two lines, if the error is blamed on an instruction: the source line of
that instruction, as far as it is within reach, and the caret below its symbol. -/
theorem caret_points_at_instruction (name : Option String) (source : String) (e : RunError) :
    (∀ ip, e.ip? = some ip → ip < (Program.parse source).size →
      ∃ i place start stop, ∃ w : Window,
        (Program.parse source).instruction? ip = some i ∧
        source.toList[place]? = some i.symbol ∧
        ((source.toList.take place).filterMap Instruction.ofChar?).length = ip ∧
        w.Frames source.toList place start stop ∧
        Diagnostic.render name source (Program.parse source) e none =
          Diagnostic.messageLine name e ++ "  " ++ String.ofList w.text ++ "\n" ++
          "  " ++ String.ofList (List.replicate w.column ' ') ++ "^\n" ∧
        '\n' ∉ w.text ∧ '\t' ∉ w.text ∧ w.text.length ≤ 65 ∧ w.column ≤ 32 ∧
        w.text[w.column]? = some i.symbol) ∧
    ((∀ ip, e.ip? = some ip → (Program.parse source).size ≤ ip) →
      Diagnostic.render name source (Program.parse source) e none = Diagnostic.messageLine name e) := by
  refine ⟨fun ip hip hlt => ?_, fun h => ?_⟩
  · obtain ⟨i, place, hi, hoffset, hsymbol, hcount⟩ := Program.exists_symbol_of_lt_size hlt
    obtain ⟨start, stop, hframes⟩ := Window.exists_frames_around source.toList place
    have hclamp : Window.clamp source.toList place = place := by
      have := (List.getElem?_eq_some_iff.1 hsymbol).1
      unfold Window.clamp
      omega
    rw [hclamp] at hframes
    have hstop := hframes.lt_stop hsymbol i.symbol_ne_newline
    have hreach : Window.reach = 32 := rfl
    have hleft := hframes.left_le
    have hright := hframes.right_le
    have hcolumn := hframes.column_eq
    refine ⟨i, place, start, stop, _, hi, hsymbol, hcount, hframes,
      Diagnostic.render_of_offset?_eq hip hoffset, hframes.newline_notMem_text,
      hframes.tab_notMem_text, ?_, ?_, ?_⟩
    · rw [hframes.length_text]
      omega
    · omega
    · rw [hframes.getElem?_text hstop, hsymbol, Option.map_some, Window.shown_symbol]
  · apply Diagnostic.render_of_offset?_eq_none
    cases hip : e.ip? with
    | none => rfl
    | some ip => exact (Program.parse source).offset?_eq_none (h ip hip)

/-- The tab before the instruction is shown as one blank; a limit has no place to be shown. -/
theorem caret_points_at_instruction_tab :
    (∃ w : Window, w.text[w.column]? = some '<' ∧ '\n' ∉ w.text ∧
      Diagnostic.render none "+++\n>>\t<<<\n..." (Program.parse "+++\n>>\t<<<\n...")
        (.offTape 7 0 .underflow) none =
          Diagnostic.messageLine none (.offTape 7 0 .underflow) ++ "  " ++ String.ofList w.text ++
          "\n" ++ "  " ++ String.ofList (List.replicate w.column ' ') ++ "^\n") ∧
    Diagnostic.render none "+++" (Program.parse "+++") (.outOfSteps 2) none =
      Diagnostic.messageLine none (.outOfSteps 2) := by
  obtain ⟨hplaced, -⟩ :=
    caret_points_at_instruction none "+++\n>>\t<<<\n..." (.offTape 7 0 .underflow)
  obtain ⟨i, place, start, stop, w, hi, -, -, -, hrender, hnewline, -, -, -, hsymbol⟩ :=
    hplaced 7 rfl (by decide)
  obtain ⟨-, hunplaced⟩ := caret_points_at_instruction none "+++" (.outOfSteps 2)
  have hleft : (Program.parse "+++\n>>\t<<<\n...").instruction? 7 = some .left := rfl
  rw [hleft] at hi
  cases hi
  exact ⟨⟨w, hsymbol, hnewline, hrender⟩, hunplaced (fun ip hip => by cases hip)⟩

end Brainfuck
