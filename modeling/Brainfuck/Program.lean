import Brainfuck.Instruction

/-!
# Programs

A program is the instruction characters of a text, in order, each with its place in the text
(counted in characters).  Everything else in the text is a comment and is dropped.
-/

namespace Brainfuck

/-- One instruction of a program and the character offset it was read from. -/
structure Occurrence where
  instruction : Instruction
  offset : Nat
deriving DecidableEq

structure Program where
  occurrences : Array Occurrence
deriving DecidableEq

namespace Program

/-- The instruction characters of `source`, numbered from `start` on. -/
def occurrencesIn (source : List Char) (start : Nat) : List Occurrence :=
  (source.zipIdx start).filterMap fun (c, offset) => (Instruction.ofChar? c).map (⟨·, offset⟩)

def parse (source : String) : Program :=
  ⟨(occurrencesIn source.toList 0).toArray⟩

def size (p : Program) : Nat := p.occurrences.size

def instructions (p : Program) : List Instruction := p.occurrences.toList.map (·.instruction)

def offsets (p : Program) : List Nat := p.occurrences.toList.map (·.offset)

def instruction? (p : Program) (ip : Nat) : Option Instruction :=
  p.occurrences[ip]?.map (·.instruction)

/-- Where in the text the instruction at `ip` was read. -/
def offset? (p : Program) (ip : Nat) : Option Nat :=
  p.occurrences[ip]?.map (·.offset)

/-- The program without its comments. -/
def text (p : Program) : String := String.ofList (p.instructions.map (·.symbol))

@[simp] theorem length_instructions (p : Program) : p.instructions.length = p.size := by
  simp [instructions, size]

theorem instruction?_eq (p : Program) (ip : Nat) : p.instruction? ip = p.instructions[ip]? := by
  simp [instruction?, instructions]

theorem instruction?_eq_none_iff (p : Program) (ip : Nat) : p.instruction? ip = none ↔ p.size ≤ ip := by
  simp [instruction?, size]

theorem offset?_eq_none (p : Program) {ip : Nat} (h : p.size ≤ ip) : p.offset? ip = none := by
  rw [offset?, Array.getElem?_eq_none h, Option.map_none]

/-! ## Programs and their sources -/

theorem occurrencesIn_cons (c : Char) (source : List Char) (start : Nat) :
    occurrencesIn (c :: source) start =
      ((Instruction.ofChar? c).map (⟨·, start⟩)).toList ++ occurrencesIn source (start + 1) := by
  simp only [occurrencesIn, List.zipIdx_cons, List.filterMap_cons]
  cases Instruction.ofChar? c <;> rfl

theorem map_instruction_occurrencesIn (source : List Char) (start : Nat) :
    (occurrencesIn source start).map (·.instruction) = source.filterMap Instruction.ofChar? := by
  induction source generalizing start with
  | nil => rfl
  | cons c source ih =>
    rw [occurrencesIn_cons, List.map_append, ih, List.filterMap_cons]
    cases Instruction.ofChar? c <;> rfl

/-- Where an instruction of a program was read. -/
theorem exists_eq_append_of_occurrence {source : List Char} {start ip : Nat} {o : Occurrence}
    (h : (occurrencesIn source start)[ip]? = some o) :
    ∃ before after, source = before ++ o.instruction.symbol :: after ∧
      o.offset = start + before.length ∧ (before.filterMap Instruction.ofChar?).length = ip := by
  induction source generalizing start ip with
  | nil => simp [occurrencesIn] at h
  | cons c source ih =>
    rw [occurrencesIn_cons] at h
    cases hc : Instruction.ofChar? c with
    | none =>
      rw [hc] at h
      obtain ⟨before, after, rfl, hoffset, hlen⟩ := ih h
      refine ⟨c :: before, after, rfl, ?_, ?_⟩
      · rw [hoffset, List.length_cons]
        omega
      · rw [List.filterMap_cons_none hc, hlen]
    | some i =>
      rw [hc] at h
      cases ip with
      | zero =>
        cases h
        exact ⟨[], source, by rw [Instruction.ofChar?_eq_some_iff.1 hc]; rfl, rfl, rfl⟩
      | succ ip =>
        obtain ⟨before, after, rfl, hoffset, hlen⟩ := ih h
        refine ⟨c :: before, after, rfl, ?_, ?_⟩
        · rw [hoffset, List.length_cons]
          omega
        · rw [List.filterMap_cons_some hc, List.length_cons, hlen]

theorem instructions_parse (source : String) :
    (parse source).instructions = source.toList.filterMap Instruction.ofChar? :=
  map_instruction_occurrencesIn source.toList 0

/-- An instruction has its symbol in the source, behind the symbols of those before it. -/
theorem exists_symbol_of_lt_size {source : String} {ip : Nat} (h : ip < (parse source).size) :
    ∃ i place, (parse source).instruction? ip = some i ∧ (parse source).offset? ip = some place ∧
      source.toList[place]? = some i.symbol ∧
      ((source.toList.take place).filterMap Instruction.ofChar?).length = ip := by
  obtain ⟨o, ho⟩ : ∃ o, (parse source).occurrences[ip]? = some o := ⟨_, Array.getElem?_eq_getElem h⟩
  have ho' : (occurrencesIn source.toList 0)[ip]? = some o := by
    simpa only [parse, List.getElem?_toArray] using ho
  obtain ⟨before, after, hsource, hoffset, hcount⟩ := exists_eq_append_of_occurrence ho'
  rw [Nat.zero_add] at hoffset
  refine ⟨o.instruction, o.offset, ?_, ?_, ?_, ?_⟩
  · rw [instruction?, ho, Option.map_some]
  · rw [offset?, ho, Option.map_some]
  · rw [hsource, hoffset, List.getElem?_append_right (Nat.le_refl _), Nat.sub_self,
      List.getElem?_cons_zero]
  · rw [hsource, hoffset, List.take_left, hcount]

end Program

end Brainfuck
