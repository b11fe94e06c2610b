import Brainfuck.Program
import Mathlib.Data.List.Sort

/-!
# Programs and the places of their instructions

What it is for a program to be the instructions of a text (`IsFilterOf`) is said without reading the
text: its places are in the text, in order, with the right symbols, and all other places hold
comments.  A text has one such program, and it is the one that is parsed
(`isFilterOf_iff_eq_parse`).

    parse p.text      has the instructions of p, without gaps
    parse (a ++ b)    has those of a and then those of b, shifted by the length of a
-/

namespace Brainfuck

namespace Instruction

theorem symbol_injective {i j : Instruction} (h : i.symbol = j.symbol) : i = j := by
  have hi := ofChar?_symbol i
  rw [h, ofChar?_symbol] at hi
  exact (Option.some.inj hi).symm

end Instruction

/-- The same instruction, read `n` characters further on. -/
def Occurrence.shift (n : Nat) (o : Occurrence) : Occurrence := ⟨o.instruction, o.offset + n⟩

namespace Program

/-- The program is all the instructions of `source` and nothing else, each with its place. -/
structure IsFilterOf (p : Program) (source : List Char) : Prop where
  increasing : p.offsets.Pairwise (· < ·)
  offset_lt : ∀ place ∈ p.offsets, place < source.length
  symbol_eq : ∀ ip place, p.offset? ip = some place →
    ∃ i, p.instruction? ip = some i ∧ source[place]? = some i.symbol
  comment : ∀ place c, source[place]? = some c → place ∉ p.offsets → Instruction.ofChar? c = none

/-! ## Occurrences -/

theorem mem_occurrencesIn {source : List Char} {start : Nat} {o : Occurrence} :
    o ∈ occurrencesIn source start ↔
      start ≤ o.offset ∧ source[o.offset - start]? = some o.instruction.symbol := by
  obtain ⟨i, place⟩ := o
  simp only [occurrencesIn, List.mem_filterMap, Option.map_eq_some_iff, Prod.exists,
    List.mem_zipIdx_iff_le_and_getElem?_sub, Instruction.ofChar?_eq_some_iff]
  constructor
  · rintro ⟨c, place', ⟨hle, hc⟩, j, rfl, heq⟩
    cases heq
    exact ⟨hle, hc⟩
  · rintro ⟨hle, hc⟩
    exact ⟨i.symbol, place, ⟨hle, hc⟩, i, rfl, rfl⟩

theorem pairwise_occurrencesIn (source : List Char) (start : Nat) :
    (occurrencesIn source start).Pairwise (·.offset < ·.offset) := by
  induction source generalizing start with
  | nil => simp [occurrencesIn]
  | cons c source ih =>
    rw [occurrencesIn_cons]
    cases Instruction.ofChar? c with
    | none => exact ih (start + 1)
    | some i =>
      show (⟨i, start⟩ :: occurrencesIn source (start + 1)).Pairwise (·.offset < ·.offset)
      rw [List.pairwise_cons]
      refine ⟨fun o ho => ?_, ih (start + 1)⟩
      have := (mem_occurrencesIn.1 ho).1
      show start < o.offset
      omega

theorem occurrencesIn_append (a b : List Char) (start : Nat) :
    occurrencesIn (a ++ b) start = occurrencesIn a start ++ occurrencesIn b (start + a.length) := by
  simp only [occurrencesIn, List.zipIdx_append, List.filterMap_append]

theorem occurrencesIn_add (source : List Char) (start n : Nat) :
    occurrencesIn source (start + n) = (occurrencesIn source start).map (·.shift n) := by
  induction source generalizing start with
  | nil => rfl
  | cons c source ih =>
    rw [occurrencesIn_cons, occurrencesIn_cons, List.map_append, ← ih, Nat.add_right_comm]
    cases Instruction.ofChar? c <;> rfl

/-- Symbols without comments between them are all read, one place each. -/
theorem map_offset_occurrencesIn_symbols (is : List Instruction) (start : Nat) :
    (occurrencesIn (is.map Instruction.symbol) start).map (·.offset) = List.range' start is.length := by
  induction is generalizing start with
  | nil => rfl
  | cons i is ih =>
    rw [List.map_cons, occurrencesIn_cons, Instruction.ofChar?_symbol, List.map_append, ih,
      List.length_cons, List.range'_succ]
    rfl

/-! ## Programs -/

theorem occurrences_parse (source : String) :
    (parse source).occurrences.toList = occurrencesIn source.toList 0 := rfl

theorem toList_text (p : Program) : p.text.toList = p.instructions.map Instruction.symbol :=
  String.toList_ofList

theorem mem_occurrences_of_isFilterOf {p : Program} {source : List Char} (h : p.IsFilterOf source)
    {o : Occurrence} (ho : o ∈ p.occurrences.toList) :
    source[o.offset]? = some o.instruction.symbol := by
  obtain ⟨ip, hip⟩ := List.getElem?_of_mem ho
  rw [Array.getElem?_toList] at hip
  have hplace : p.offset? ip = some o.offset := by rw [offset?, hip, Option.map_some]
  obtain ⟨i, hi, hsymbol⟩ := h.symbol_eq ip o.offset hplace
  rw [instruction?, hip, Option.map_some] at hi
  rw [hsymbol, ← Option.some.inj hi]

/-- A program that filters a text has an instruction wherever the text has its symbol. -/
theorem IsFilterOf.mem_iff {p : Program} {source : List Char} (h : p.IsFilterOf source)
    (o : Occurrence) :
    o ∈ p.occurrences.toList ↔ source[o.offset]? = some o.instruction.symbol := by
  refine ⟨mem_occurrences_of_isFilterOf h, fun hsymbol => ?_⟩
  have hmem : o.offset ∈ p.offsets := by
    apply Classical.byContradiction
    intro hnot
    have hcomment := h.comment o.offset _ hsymbol hnot
    rw [Instruction.ofChar?_symbol] at hcomment
    cases hcomment
  obtain ⟨o', ho', hplace⟩ := List.mem_map.1 hmem
  have hsymbol' := mem_occurrences_of_isFilterOf h ho'
  rw [hplace, hsymbol] at hsymbol'
  have hinstruction := Instruction.symbol_injective (Option.some.inj hsymbol')
  obtain ⟨i, place⟩ := o
  obtain ⟨i', place'⟩ := o'
  cases hplace
  cases hinstruction
  exact ho'

theorem isFilterOf_parse (source : String) : (parse source).IsFilterOf source.toList := by
  have hmem : ∀ o ∈ (parse source).occurrences.toList,
      source.toList[o.offset]? = some o.instruction.symbol := fun o ho => (mem_occurrencesIn.1 ho).2
  refine ⟨?_, ?_, ?_, ?_⟩
  · rw [offsets, List.pairwise_map]
    exact pairwise_occurrencesIn source.toList 0
  · intro place hplace
    obtain ⟨o, ho, rfl⟩ := List.mem_map.1 hplace
    exact (List.getElem?_eq_some_iff.1 (hmem o ho)).1
  · intro ip place hplace
    obtain ⟨o, ho, rfl⟩ := Option.map_eq_some_iff.1 hplace
    refine ⟨o.instruction, by rw [instruction?, ho, Option.map_some], hmem o ?_⟩
    rw [← Array.getElem?_toList] at ho
    exact List.mem_of_getElem? ho
  · intro place c hc hnot
    cases hi : Instruction.ofChar? c with
    | none => rfl
    | some i =>
      exfalso
      obtain rfl := Instruction.ofChar?_eq_some_iff.1 hi
      exact hnot (List.mem_map.2 ⟨⟨i, place⟩, mem_occurrencesIn.2 ⟨Nat.zero_le _, hc⟩, rfl⟩)

/-- A text has one program. -/
theorem isFilterOf_iff_eq_parse (p : Program) (source : String) :
    p.IsFilterOf source.toList ↔ p = parse source := by
  constructor
  · intro h
    have hsorted : p.occurrences.toList.Pairwise (·.offset < ·.offset) := List.pairwise_map.1 h.increasing
    have : Std.Irrefl fun a b : Occurrence => a.offset < b.offset := ⟨fun o => Nat.lt_irrefl o.offset⟩
    have : Std.Antisymm fun a b : Occurrence => a.offset < b.offset :=
      ⟨fun a b hab hba => absurd hba (Nat.lt_asymm hab)⟩
    have heq := hsorted.eq_of_mem_iff (pairwise_occurrencesIn source.toList 0) fun o => by
      rw [h.mem_iff, mem_occurrencesIn, Nat.sub_zero]
      exact ⟨fun hsymbol => ⟨Nat.zero_le _, hsymbol⟩, And.right⟩
    obtain ⟨⟨occurrences⟩⟩ := p
    exact congrArg (fun os => Program.mk ⟨os⟩) heq
  · rintro rfl
    exact isFilterOf_parse source

/-! ## Texts without comments -/

theorem instructions_parse_text (p : Program) : (parse p.text).instructions = p.instructions := by
  rw [instructions_parse, toList_text, List.filterMap_map]
  have hall : (Instruction.ofChar? ∘ Instruction.symbol) = some := funext Instruction.ofChar?_symbol
  rw [hall, List.filterMap_some]

theorem offsets_parse_text (p : Program) : (parse p.text).offsets = List.range p.size := by
  rw [offsets, occurrences_parse, toList_text, map_offset_occurrencesIn_symbols, length_instructions,
    List.range_eq_range']

/-! ## Texts one after the other -/

theorem instructions_parse_append (a b : String) :
    (parse (a ++ b)).instructions = (parse a).instructions ++ (parse b).instructions := by
  rw [instructions_parse, instructions_parse, instructions_parse, String.toList_append,
    List.filterMap_append]

theorem offsets_parse_append (a b : String) :
    (parse (a ++ b)).offsets = (parse a).offsets ++ (parse b).offsets.map (· + a.length) := by
  have hb : occurrencesIn b.toList a.length = (occurrencesIn b.toList 0).map (·.shift a.length) := by
    rw [← occurrencesIn_add, Nat.zero_add]
  rw [offsets, offsets, offsets, occurrences_parse, occurrences_parse, occurrences_parse,
    String.toList_append, occurrencesIn_append, Nat.zero_add, String.length_toList, hb, List.map_append,
    List.map_map, List.map_map]
  rfl

end Program

/-! ## Top theorem -/

/-- Nothing is left out, made up or moved; a text without comments is read back as it was written;
and of two texts one after the other, each is read as if it stood alone. -/
theorem parse_is_exact_filter (source a b : String) :
    (∀ p : Program, p.IsFilterOf source.toList ↔ p = .parse source) ∧
    (Program.parse (Program.parse source).text).instructions = (Program.parse source).instructions ∧
    (Program.parse (Program.parse source).text).offsets = List.range (Program.parse source).size ∧
    (Program.parse (Program.parse source).text).text = (Program.parse source).text ∧
    (Program.parse (a ++ b)).instructions =
      (Program.parse a).instructions ++ (Program.parse b).instructions ∧
    (Program.parse (a ++ b)).offsets =
      (Program.parse a).offsets ++ (Program.parse b).offsets.map (· + a.length) := by
  have hagain := Program.instructions_parse_text (.parse source)
  refine ⟨fun p => p.isFilterOf_iff_eq_parse source, hagain, Program.offsets_parse_text _, ?_,
    Program.instructions_parse_append a b, Program.offsets_parse_append a b⟩
  rw [Program.text, hagain, Program.text]

end Brainfuck
