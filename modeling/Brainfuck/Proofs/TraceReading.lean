import Brainfuck.Trace.Row
import Brainfuck.Text.Blank

/-!
# Reading rows back

`readLine?` breaks a line of the trace table at its first five bars, trims the columns and takes
the numbers out of the action.  It knows nothing of the machine, and reads back what a row was
written from, however wide its numbers are (`readLine?_line`).
-/

namespace Brainfuck

namespace Text

/-! ## Columns -/

/-- What stands before and behind the first ` | `. -/
def breakAtBar : List Char → Option (List Char × List Char)
  | ' ' :: '|' :: ' ' :: behind => some ([], behind)
  | c :: rest =>
    match breakAtBar rest with
    | some (before, behind) => some (c :: before, behind)
    | none => none
  | [] => none

/-- A line, broken at its first `n` bars. -/
def columns : Nat → List Char → List (List Char)
  | 0, line => [line]
  | n + 1, line =>
    match breakAtBar line with
    | some (before, behind) => before :: columns n behind
    | none => [line]

/-- Columns with bars between them. -/
def withBars : List (List Char) → List Char
  | [] => []
  | [last] => last
  | column :: rest => column ++ ' ' :: '|' :: ' ' :: withBars rest

theorem breakAtBar_append {before : List Char} (h : '|' ∉ before) (behind : List Char) :
    breakAtBar (before ++ ' ' :: '|' :: ' ' :: behind) = some (before, behind) := by
  induction before with
  | nil => rfl
  | cons c before ih =>
    -- no bar begins inside `before`
    have hnone : ∀ behind', c = ' ' → before ++ ' ' :: '|' :: ' ' :: behind = '|' :: ' ' :: behind' →
        False := by
      intro behind' _ heq
      cases before with
      | nil => cases heq
      | cons d before =>
        obtain ⟨rfl, -⟩ := List.cons.inj heq
        simp at h
    rw [List.cons_append, breakAtBar.eq_2 _ _ hnone, ih (List.not_mem_of_not_mem_cons h)]

theorem columns_withBars {first : List (List Char)} (last : List Char) (h : ∀ c ∈ first, '|' ∉ c) :
    columns first.length (withBars (first ++ [last])) = first ++ [last] := by
  induction first with
  | nil => rfl
  | cons column first ih =>
    obtain ⟨hcolumn, hfirst⟩ := List.forall_mem_cons.1 h
    have hbars : withBars (column :: first ++ [last]) =
        column ++ ' ' :: '|' :: ' ' :: withBars (first ++ [last]) := by
      cases first <;> rfl
    rw [hbars, List.length_cons, columns, breakAtBar_append hcolumn]
    simp only [ih hfirst, List.cons_append]

/-! ## Padding -/

theorem dropWhile_isBlank {pad cs : List Char} (hpad : ∀ c ∈ pad, isBlank c = true)
    (h : ∀ c ∈ cs, isBlank c = false) (hcs : cs ≠ []) (rest : List Char) :
    (pad ++ cs ++ rest).dropWhile isBlank = cs ++ rest := by
  obtain ⟨c, cs, rfl⟩ := List.exists_cons_of_ne_nil hcs
  rw [List.append_assoc, List.dropWhile_append_of_pos hpad, List.cons_append,
    List.dropWhile_cons_of_neg (by simp [h c])]

/-- Padding on both sides of a text without blanks is trimmed away. -/
theorem trim_pad {pad cs pad' : List Char} (hpad : ∀ c ∈ pad, isBlank c = true)
    (h : ∀ c ∈ cs, isBlank c = false) (hcs : cs ≠ []) (hpad' : ∀ c ∈ pad', isBlank c = true) :
    trim (pad ++ cs ++ pad') = cs := by
  have hback : (cs ++ pad').reverse.dropWhile isBlank = cs.reverse := by
    have := @dropWhile_isBlank pad'.reverse cs.reverse (by simpa using hpad') (by simpa using h)
      (by simpa using hcs) []
    rwa [List.append_nil, List.append_nil, ← List.reverse_append] at this
  rw [trim, dropWhile_isBlank hpad h hcs, hback, List.reverse_reverse]

theorem not_isBlank_of_isDigit {c : Char} (h : c.isDigit = true) : isBlank c = false := by
  have hbounds : 48 ≤ c.toNat ∧ c.toNat ≤ 57 := by
    simpa [Char.isDigit, UInt32.le_iff_toNat_le] using h
  rw [Bool.eq_false_iff]
  simp only [isBlank, ne_eq, Bool.or_eq_true, Bool.and_eq_true, decide_eq_true_eq, beq_iff_eq]
  omega

/-! ## Numerals -/

theorem isDigit_of_mem_repr {n : Nat} {c : Char} (h : c ∈ n.repr.toList) : c.isDigit = true := by
  rw [Nat.toList_repr] at h
  exact Nat.isDigit_of_mem_toDigits (by decide) (by decide) h

theorem repr_ne_nil (n : Nat) : n.repr.toList ≠ [] := by
  rw [Nat.toList_repr]
  exact Nat.toDigits_ne_nil

/-- The value of a decimal numeral, which may have any number of digits. -/
def numeral? (digits : List Char) : Option Nat :=
  if digits ≠ [] ∧ digits.all Char.isDigit then some (Nat.ofDigitChars 10 digits 0) else none

theorem numeral?_repr (n : Nat) : numeral? n.repr.toList = some n := by
  have hdigits : n.repr.toList.all Char.isDigit = true :=
    List.all_eq_true.2 fun _ hc => isDigit_of_mem_repr hc
  rw [numeral?, if_pos ⟨repr_ne_nil n, hdigits⟩, Nat.toList_repr, Nat.ofDigitChars_ten_toDigits]

/-- The numbers in a text, where `pending` is the one that has been begun. -/
def numeralsFrom : Option Nat → List Char → List Nat
  | pending, [] => pending.toList
  | pending, c :: cs =>
    if c.isDigit then numeralsFrom (some (Nat.ofDigitChars 10 [c] (pending.getD 0))) cs
    else pending.toList ++ numeralsFrom none cs

def numerals (text : List Char) : List Nat := numeralsFrom none text

theorem numerals_words {words : List Char} (h : words.all fun c => !c.isDigit) (rest : List Char) :
    numerals (words ++ rest) = numerals rest := by
  induction words with
  | nil => rfl
  | cons c words ih =>
    simp only [List.all_cons, Bool.and_eq_true, Bool.not_eq_true'] at h
    rw [List.cons_append, numerals, numeralsFrom, if_neg (by simp [h.1])]
    exact ih h.2

theorem numeralsFrom_digits {digits : List Char} (h : ∀ c ∈ digits, c.isDigit) (n : Nat) (rest : List Char) :
    numeralsFrom (some n) (digits ++ rest) = numeralsFrom (some (Nat.ofDigitChars 10 digits n)) rest := by
  induction digits generalizing n with
  | nil => rfl
  | cons c digits ih =>
    obtain ⟨hc, hdigits⟩ := List.forall_mem_cons.1 h
    rw [List.cons_append, numeralsFrom, if_pos hc, ih hdigits]
    rfl

theorem numerals_repr {n : Nat} {rest : List Char} (h : ∀ c ∈ rest.head?, c.isDigit = false) :
    numerals (n.repr.toList ++ rest) = n :: numerals rest := by
  have hvalue : Nat.ofDigitChars 10 n.repr.toList 0 = n := by
    rw [Nat.toList_repr, Nat.ofDigitChars_ten_toDigits]
  have hdigits : ∀ c ∈ n.repr.toList, c.isDigit = true := fun c => isDigit_of_mem_repr
  have hne := repr_ne_nil n
  generalize n.repr.toList = digits at hdigits hvalue hne
  obtain ⟨c, digits, rfl⟩ := List.exists_cons_of_ne_nil hne
  obtain ⟨hc, hdigits⟩ := List.forall_mem_cons.1 hdigits
  rw [List.cons_append, numerals, numeralsFrom, if_pos hc, numeralsFrom_digits hdigits]
  have hn : Nat.ofDigitChars 10 digits (Nat.ofDigitChars 10 [c] ((none : Option Nat).getD 0)) = n := hvalue
  rw [hn]
  cases rest with
  | nil => rfl
  | cons d rest =>
    have hd : ¬ d.isDigit = true := by simp [h d rfl]
    rw [numerals, numeralsFrom, numeralsFrom, if_neg hd, if_neg hd]
    rfl

theorem numerals_repr_self (n : Nat) : numerals n.repr.toList = [n] := by
  have := @numerals_repr n [] nofun
  rwa [List.append_nil] at this

end Text

namespace Trace

open Text

/-! ## Actions -/

namespace Action

/-- The action of an instruction whose text has these numbers in it.  The text for a loop that is
entered or left has the zero it is about. -/
def ofNumbers? : Instruction → List Nat → Option Action
  | .right, [pointer] => some (moved pointer)
  | .left, [pointer] => some (moved pointer)
  | .increment, [pointer, before, after] => some (incremented pointer (.ofNat before) (.ofNat after))
  | .decrement, [pointer, before, after] => some (decremented pointer (.ofNat before) (.ofNat after))
  | .output, [b] => some (suppressed (.ofNat b))
  | .input, [] => some endOfInput
  | .loopStart, [0] => some entered
  | .loopStart, [0, partner] => some (skipped partner)
  | .loopEnd, [partner] => some (returned partner)
  | _, _ => none

/-- The action of an instruction that has this text. -/
def read? (i : Instruction) (text : List Char) : Option Action :=
  (ofNumbers? i (numerals text)).filter (·.text.toList = text)

/-- The words and the numbers of an action. -/
theorem text_eq (a : Action) :
    a.text = match a with
      | moved pointer => "Moved pointer head to index " ++ pointer.repr
      | incremented pointer before after =>
        "Increment cell[" ++ pointer.repr ++ "] from " ++ before.toNat.repr ++ " to " ++ after.toNat.repr
      | decremented pointer before after =>
        "Decrement cell[" ++ pointer.repr ++ "] from " ++ before.toNat.repr ++ " to " ++ after.toNat.repr
      | suppressed b => "Output byte " ++ b.toNat.repr ++ " (suppressed in debug)"
      | endOfInput => "Read byte -> simulated end of input (cell unchanged)"
      | entered => "Enter loop (cell != " ++ Nat.repr 0 ++ ")"
      | skipped partner =>
        "Cell is " ++ Nat.repr 0 ++ "; jump forward past matching ']' at IP " ++ partner.repr
      | returned partner => "Jump back to matching '[' at IP " ++ partner.repr := by
  cases a <;> rfl

def numbers : Action → List Nat
  | moved pointer => [pointer]
  | incremented pointer before after => [pointer, before.toNat, after.toNat]
  | decremented pointer before after => [pointer, before.toNat, after.toNat]
  | suppressed b => [b.toNat]
  | endOfInput => []
  | entered => [0]
  | skipped partner => [0, partner]
  | returned partner => [partner]

theorem numerals_text (a : Action) : numerals a.text.toList = a.numbers := by
  rw [text_eq]
  cases a <;> simp only [String.toList_append, List.append_assoc]
  case moved => rw [numerals_words (by decide), numerals_repr_self]; rfl
  case incremented =>
    rw [numerals_words (by decide), numerals_repr (by simp), numerals_words (by decide),
      numerals_repr (by simp), numerals_words (by decide), numerals_repr_self]
    rfl
  case decremented =>
    rw [numerals_words (by decide), numerals_repr (by simp), numerals_words (by decide),
      numerals_repr (by simp), numerals_words (by decide), numerals_repr_self]
    rfl
  case suppressed =>
    rw [numerals_words (by decide), numerals_repr (by simp)]
    rfl
  case endOfInput => rfl
  case entered => rfl
  case skipped =>
    rw [numerals_words (by decide), numerals_repr (by simp), numerals_words (by decide), numerals_repr_self]
    rfl
  case returned =>
    rw [numerals_words (by decide), numerals_repr_self]
    rfl

theorem ofNumbers?_numbers (i : Instruction) (pointer : Nat) (cell : UInt8) (next : Nat) :
    ofNumbers? i (ofInstruction i pointer cell next).numbers = some (ofInstruction i pointer cell next) := by
  cases i
  case loopStart =>
    simp only [ofInstruction]
    split <;> rfl
  all_goals simp only [ofInstruction, numbers, ofNumbers?, UInt8.ofNat_toNat]

theorem read?_text (i : Instruction) (pointer : Nat) (cell : UInt8) (next : Nat) :
    read? i (ofInstruction i pointer cell next).text.toList =
      some (ofInstruction i pointer cell next) := by
  rw [read?, numerals_text, ofNumbers?_numbers, Option.filter_some, if_pos]
  exact decide_eq_true rfl

end Action

/-! ## Rows -/

def byte? (digits : List Char) : Option UInt8 :=
  match numeral? digits with
  | some n => if n < 256 then some (.ofNat n) else none
  | none => none

def symbol? : List Char → Option Instruction
  | [c] => Instruction.ofChar? c
  | _ => none

/-- A line of the table, read without knowing the machine. -/
def readLine? (line : String) : Option (Moment × Action) :=
  match columns 5 line.toList with
  | [step, ip, pointer, cell, symbol, action] => do
    let step ← numeral? (trim step)
    let ip ← numeral? (trim ip)
    let pointer ← numeral? (trim pointer)
    let cell ← byte? (trim cell)
    let i ← symbol? (trim symbol)
    let action ← Action.read? i action
    return (⟨step, ip, pointer, cell, i⟩, action)
  | _ => none

theorem byte?_repr (b : UInt8) : byte? b.toNat.repr.toList = some b := by
  rw [byte?, numeral?_repr]
  simp only [if_pos b.toNat_lt, UInt8.ofNat_toNat]

/-- The six columns of a row. -/
def Row.columns (r : Row) : List (List Char) :=
  [(column 4 r.step).toList, (column 3 r.ip).toList, (column 3 r.pointer).toList,
    (column 4 r.cell.toNat).toList, [' ', r.instruction.symbol, ' ', ' ', ' '], r.action.text.toList]

/-- A row without its newline. -/
def Row.line (r : Row) : String := String.ofList (withBars r.columns)

theorem Row.text_eq (r : Row) : r.text =
    column 4 r.step ++ " | " ++ column 3 r.ip ++ " | " ++ column 3 r.pointer ++ " | " ++
    column 4 r.cell.toNat ++ " |  " ++
    (String.singleton r.instruction.symbol ++ "    | " ++ r.action.text ++ "\n") := rfl

theorem Row.text_eq_line (r : Row) : r.text = r.line ++ "\n" := by
  rw [text_eq]
  apply String.toList_inj.1
  simp [line, columns, withBars]

theorem toList_column (width n : Nat) :
    (column width n).toList = n.repr.toList ++ List.replicate (width - n.repr.length) ' ' := by
  rw [column, String.toList_append, String.toList_ofList]

theorem trim_column (width n : Nat) : trim (column width n).toList = n.repr.toList := by
  have hdigits : ∀ c ∈ n.repr.toList, isBlank c = false := fun c hc =>
    not_isBlank_of_isDigit (isDigit_of_mem_repr hc)
  rw [toList_column]
  refine @trim_pad [] _ _ (List.forall_mem_nil _) hdigits (repr_ne_nil n) fun c hc => ?_
  rw [List.eq_of_mem_replicate hc]
  rfl

/-- A character that is no digit and no blank is in no column of numbers. -/
theorem not_mem_column {c : Char} (hdigit : c.isDigit = false) (hblank : c ≠ ' ') (width n : Nat) :
    c ∉ (column width n).toList := by
  rw [toList_column, List.mem_append]
  rintro (h | h)
  · rw [isDigit_of_mem_repr h] at hdigit
    cases hdigit
  · exact hblank (List.eq_of_mem_replicate h)

theorem readLine?_line (r : Row) : readLine? r.line = some (r.toMoment, r.action) := by
  have hbars : ∀ c ∈ r.columns.take 5, '|' ∉ c := by
    have hsymbol : '|' ∉ [' ', r.instruction.symbol, ' ', ' ', ' '] := by
      cases r.instruction <;> decide
    simp only [Row.columns, List.take, List.forall_mem_cons]
    exact ⟨not_mem_column rfl (by decide) _ _, not_mem_column rfl (by decide) _ _,
      not_mem_column rfl (by decide) _ _, not_mem_column rfl (by decide) _ _, hsymbol,
      List.forall_mem_nil _⟩
  have hcolumns : Text.columns 5 r.line.toList = r.columns := by
    rw [Row.line, String.toList_ofList]
    exact @columns_withBars (r.columns.take 5) r.action.text.toList hbars
  have hsymbol : symbol? (trim [' ', r.instruction.symbol, ' ', ' ', ' ']) = some r.instruction := by
    cases r.instruction <;> rfl
  rw [readLine?, hcolumns]
  simp only [Row.columns, trim_column, numeral?_repr, byte?_repr, hsymbol, Row.action,
    Option.bind_eq_bind, Option.bind_some, Action.read?_text]
  rfl

/-! ## Lines -/

theorem newline_not_mem_text (a : Action) : '\n' ∉ a.text.toList := by
  have hdigits : ∀ n : Nat, '\n' ∉ Nat.toDigits 10 n := by
    intro n h
    rw [← Nat.toList_repr] at h
    exact absurd (isDigit_of_mem_repr h) (by decide)
  rw [Action.text_eq]
  cases a <;> simp [hdigits]

theorem newline_not_mem_line (r : Row) : '\n' ∉ r.line.toList := by
  have hsymbol := r.instruction.symbol_ne_newline
  have hcolumn : ∀ width n, '\n' ∉ (column width n).toList := not_mem_column rfl (by decide)
  rw [Row.line, String.toList_ofList]
  simp [Row.columns, withBars, hcolumn, hsymbol.symm, newline_not_mem_text]

end Trace
end Brainfuck
