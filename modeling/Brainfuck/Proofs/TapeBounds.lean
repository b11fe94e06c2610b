import Brainfuck.Machine
import Brainfuck.Proofs.NumericVariables
import Brainfuck.Proofs.TomlIntegers

/-!
# The bounds of the tape length

A tape has at least one cell, and at most as many as can be asked for in one piece of memory
(`Tape.maxLength`).  A longer one cannot be had, and the program breaks down before it is started
(`Program.boot`).

A settings file cannot ask for so long a tape, since the whole numbers of TOML are not large enough
(`Settings.bounded_found`).  A variable can: its numbers have one bit more, and are not compared with
anything but zero (`tape_too_long_by_variable`, `oversized_length_adopted`).
-/

namespace Brainfuck

/-! ## Memory -/

/-- The largest number of cells that can be asked for at once. -/
def Tape.maxLength : Nat := 0x7FFFFFFFFFFFFFFF

/-- A blank tape, unless it has too many cells to be asked for; then the program breaks down. -/
def Tape.allocate? (length : Nat) : Option Tape :=
  if max length 1 ≤ maxLength then some (.blank length) else none

/-- A program with its brackets resolved, and the state in which it begins; `none` if there is no tape. -/
def Program.boot (p : Program) (tapeLength : Nat) (console : Console) :
    Except RunError (Option (Executable × State)) :=
  p.link.map fun exe => (Tape.allocate? tapeLength).map fun tape => (exe, ⟨tape, 0, 0, console⟩)

theorem Program.boot_of_link {p : Program} {exe : Executable} (h : p.link = .ok exe) {tapeLength : Nat}
    (hpos : 1 ≤ tapeLength) (console : Console) :
    p.boot tapeLength console =
      .ok (if tapeLength ≤ Tape.maxLength then some (exe, .initial tapeLength console) else none) := by
  rw [boot, h, Tape.allocate?, Nat.max_eq_left hpos]
  by_cases hle : tapeLength ≤ Tape.maxLength
  · rw [if_pos hle, if_pos hle]
    rfl
  · rw [if_neg hle, if_neg hle]
    rfl

namespace Settings

/-! ## The numbers in a file -/

/-- What reads a field keeps the property when it reads a value that fits. -/
def Keeps {α : Type} (P : α → Prop) (read : α → Toml.Node → Except ShapeError α) : Prop :=
  ∀ ⦃known node next⦄, read known node = .ok next → node.Fits → P known → P next

theorem foldlM_keeps {α β ε : Type} {P : α → Prop} {f : α → β → Except ε α} {xs : List β}
    {start last : α} (hf : ∀ x ∈ xs, ∀ known next, f known x = .ok next → P known → P next)
    (h : xs.foldlM f start = .ok last) (hstart : P start) : P last := by
  induction xs generalizing start with
  | nil =>
    cases h
    exact hstart
  | cons x xs ih =>
    obtain ⟨hx, hxs⟩ := List.forall_mem_cons.1 hf
    rw [List.foldlM_cons] at h
    cases hnext : f start x with
    | error e =>
      rw [hnext] at h
      cases h
    | ok next =>
      rw [hnext] at h
      exact ih hxs h (hx start next hnext hstart)

variable {α : Type} {P : α → Prop} {fields : Fields α} {empty result : α}

theorem readEntries_keeps (hfields : ∀ field ∈ fields, Keeps P field.2) (hempty : P empty)
    {entries : Toml.Entries} (hfit : entries.Fit) (h : readEntries fields empty entries = .ok result) :
    P result := by
  refine foldlM_keeps ?_ h hempty
  rintro ⟨name, node⟩ hentry known next hread hknown
  dsimp only at hread
  split at hread
  · next read hlookup =>
    obtain ⟨before, behind, rfl, -⟩ := List.lookup_eq_some_iff.1 hlookup
    exact hfields (name, read) (by simp) hread (hfit _ hentry) hknown
  · cases hread

theorem readItems_keeps (hfields : ∀ field ∈ fields, Keeps P field.2) (hempty : P empty)
    {items : List Toml.Node} (hfit : ∀ item ∈ items, item.Fits)
    (h : readItems fields empty items = .ok result) : P result := by
  refine foldlM_keeps ?_ h hempty
  rintro ⟨⟨name, read⟩, node⟩ hentry known next hread hknown
  obtain ⟨hfield, hitem⟩ := List.of_mem_zip hentry
  exact hfields _ hfield hread (hfit _ hitem) hknown

theorem readSection_keeps {title : String} (hfields : ∀ field ∈ fields, Keeps P field.2)
    (hempty : P empty) {node : Toml.Node} (hfit : node.Fits)
    (h : readSection title fields empty node = .ok result) : P result := by
  cases hfit with
  | table hentries => exact readEntries_keeps hfields hempty hentries h
  | array hitems => exact readItems_keeps hfields hempty hitems h
  | tables hitems => exact readItems_keeps hfields hempty hitems h
  | string s => cases h
  | integer hlow hhigh => cases h
  | float x => cases h
  | boolean b => cases h
  | moment => cases h

/-- A tape length from a file is small enough. -/
def InterpreterContents.Bounded (c : InterpreterContents) : Prop :=
  ∀ n, c.tapeLength = some n → n ≤ Tape.maxLength

theorem number_le {node : Toml.Node} {n : Nat} (h : number node = .ok n) (hfit : node.Fits) :
    n ≤ Tape.maxLength := by
  cases hfit with
  | integer hlow hhigh =>
    unfold number at h
    dsimp only at h
    split at h
    · cases h
      unfold Tape.maxLength
      omega
    · cases h
  | _ => cases h

theorem exists_of_map_eq_ok {α β ε : Type} {f : α → β} {x : Except ε α} {b : β}
    (h : x.map f = .ok b) : ∃ a, x = .ok a ∧ f a = b := by
  cases x with
  | error e => cases h
  | ok a =>
    cases h
    exact ⟨a, rfl, rfl⟩

/-- The other two fields leave the tape length alone. -/
theorem keeps_interpreterFields :
    ∀ field ∈ InterpreterContents.fields, Keeps InterpreterContents.Bounded field.2 := by
  unfold InterpreterContents.fields
  simp only [List.forall_mem_cons]
  refine ⟨?_, ?_, ?_, List.forall_mem_nil _⟩
  · intro known node next h hfit hknown
    obtain ⟨n, hn, rfl⟩ := exists_of_map_eq_ok h
    rintro m ⟨⟩
    exact number_le hn hfit
  · intro known node next h hfit hknown
    obtain ⟨n, hn, rfl⟩ := exists_of_map_eq_ok h
    exact hknown
  · intro known node next h hfit hknown
    obtain ⟨b, hb, rfl⟩ := exists_of_map_eq_ok h
    exact hknown

theorem keeps_contentsFields :
    ∀ field ∈ Contents.fields, Keeps (fun c => c.interpreter.Bounded) field.2 := by
  unfold Contents.fields
  simp only [List.forall_mem_cons]
  refine ⟨?_, ?_, List.forall_mem_nil _⟩
  · intro known node next h hfit hknown
    obtain ⟨section', hsection, rfl⟩ := exists_of_map_eq_ok h
    exact readSection_keeps keeps_interpreterFields (fun n hn => by cases hn) hfit hsection
  · intro known node next h hfit hknown
    obtain ⟨colors, hcolors, rfl⟩ := exists_of_map_eq_ok h
    exact hknown

theorem bounded_of_parse {text : String} {c : Contents} (h : Contents.parse text = .ok c) :
    c.interpreter.Bounded := by
  unfold Contents.parse at h
  split at h
  · cases h
  · next entries hentries =>
    cases hread : readEntries Contents.fields {} entries with
    | error e =>
      rw [hread] at h
      cases h
    | ok c' =>
      rw [hread] at h
      cases h
      exact readEntries_keeps (P := fun c => c.interpreter.Bounded) keeps_contentsFields
        (fun n hn => by cases hn) (Toml.fit_of_parse? hentries) hread

/-- What there can be in the place of the settings file. -/
inductive Found
  | nothing
  | unreadable (reason : String)
  | bytes (content : List UInt8)

def Found.file : Found → File
  | nothing => .absent
  | unreadable reason => .unreadable reason
  | bytes content => .ofBytes content

theorem bounded_found (found : Found) : found.file.contents.interpreter.Bounded := by
  have hempty : (({} : Contents).interpreter).Bounded := fun n hn => by cases hn
  cases found with
  | nothing => exact hempty
  | unreadable reason => exact hempty
  | bytes content =>
    show (File.ofBytes content).contents.interpreter.Bounded
    unfold File.ofBytes
    split
    · next text htext =>
      unfold File.ofText
      split
      · next c hc => exact bounded_of_parse hc
      · exact hempty
    · exact hempty

/-- Without the environment the tape is neither too short nor too long. -/
theorem length_of_found (found : Found) :
    1 ≤ (found.file.layer.over {}).tapeLength ∧
    (found.file.layer.over {}).tapeLength ≤ Tape.maxLength := by
  refine ⟨getD_positive_pos (by decide) _, ?_⟩
  show ((found.file.contents.interpreter.tapeLength).bind positive?).getD Tape.defaultLength ≤ _
  cases hread : (found.file.contents.interpreter.tapeLength).bind positive? with
  | none => decide
  | some n =>
    obtain ⟨m, hm, hpositive⟩ := Option.bind_eq_some_iff.1 hread
    obtain ⟨-, heq⟩ := Option.ite_none_right_eq_some.1 hpositive
    cases heq
    exact bounded_found found n hm

theorem Holds.unique {raw : String} {m n : Nat} (hm : Holds raw m) (hn : Holds raw n) : m = n := by
  have hread := numeral?_eq_some_iff.2 hm
  rw [numeral?_eq_some_iff.2 hn] at hread
  exact (Option.some.inj hread).symm

/-- The variable gives a tape length of more cells than can be asked for. -/
def Oversized (lookup : Variable → Option String) (n : Nat) : Prop :=
  ∃ raw, lookup .tapeLength = some raw ∧ Holds raw n ∧ 2 ^ 63 ≤ n

section
variable (path : String) (found : Found) (lookup : Variable → Option String)

theorem tapeLength_load : (load path found.file lookup).1.tapeLength =
    ((lookup .tapeLength).bind length?).getD (found.file.layer.over {}).tapeLength := by
  rw [load_eq]
  rfl

/-- The length is the variable's, or else the one without the environment. -/
theorem length_load_cases :
    (∃ raw n, lookup .tapeLength = some raw ∧ Holds raw n ∧ 1 ≤ n ∧
      (load path found.file lookup).1.tapeLength = n) ∨
    ((load path found.file lookup).1.tapeLength = (found.file.layer.over {}).tapeLength ∧
      ∀ raw n, lookup .tapeLength = some raw → Holds raw n → n = 0) := by
  have hload := tapeLength_load path found lookup
  cases hread : (lookup .tapeLength).bind length? with
  | some n =>
    obtain ⟨raw, hraw, hlength⟩ := Option.bind_eq_some_iff.1 hread
    obtain ⟨hn, hpos⟩ := length?_eq_some_iff.1 hlength
    rw [hread] at hload
    exact Or.inl ⟨raw, n, hraw, hn, hpos, hload⟩
  | none =>
    rw [hread] at hload
    refine Or.inr ⟨hload, fun raw n hraw hn => ?_⟩
    by_contra hne
    rw [hraw, Option.bind_some, length?_eq_some_iff.2 ⟨hn, Nat.pos_of_ne_zero hne⟩] at hread
    cases hread

variable {lookup} {raw : String} {n : Nat}

theorem length_of_holds (hraw : lookup .tapeLength = some raw) (hn : Holds raw n) (hpos : 1 ≤ n) :
    (load path found.file lookup).1.tapeLength = n := by
  rw [tapeLength_load, hraw, Option.bind_some, length?_eq_some_iff.2 ⟨hn, hpos⟩]
  rfl

theorem length_lt_iff :
    (load path found.file lookup).1.tapeLength < 2 ^ 63 ↔ ¬ ∃ n, Oversized lookup n := by
  constructor
  · rintro hlt ⟨n, raw, hraw, hn, hle⟩
    rw [length_of_holds path found hraw hn (by omega)] at hlt
    omega
  · intro hnone
    rcases length_load_cases path found lookup with ⟨raw, n, hraw, hn, -, heq⟩ | ⟨heq, -⟩
    · rw [heq]
      by_contra hle
      exact hnone ⟨n, raw, hraw, hn, by omega⟩
    · rw [heq]
      exact Nat.lt_succ_of_le (length_of_found found).2

theorem invalidVariable_notMem_complaints (file : File) (which : Variable) (text : String) :
    .invalidVariable which text ∉ file.complaints path := by
  intro h
  cases file with
  | absent => cases h
  | unreadable reason => cases List.mem_singleton.1 h
  | malformed => cases List.mem_singleton.1 h
  | read c =>
    simp only [File.complaints, List.mem_append] at h
    rcases h with ((h | h) | h) | h <;> obtain ⟨value, hnotice⟩ := exists_of_mem_complaint h <;>
      cases hnotice

/-- Nothing is said about a length that is adopted. -/
theorem invalidVariable_notMem_load (hraw : lookup .tapeLength = some raw) (hn : Holds raw n) (hpos : 1 ≤ n)
    (text : String) : .invalidVariable .tapeLength text ∉ (load path found.file lookup).2 := by
  rw [load_eq]
  intro hmem
  rcases List.mem_append.1 hmem with hfile | henvironment
  · exact invalidVariable_notMem_complaints path found.file .tapeLength text hfile
  · simp only [environmentComplaints, hraw, complaint_of_some (length?_eq_some_iff.2 ⟨hn, hpos⟩),
      List.nil_append, List.mem_append] at henvironment
    rcases henvironment with h | h <;> obtain ⟨value, hnotice⟩ := exists_of_mem_complaint h <;>
      cases hnotice

/-- What gives no length at all is skipped with a notice. -/
theorem skipped_load (hraw : lookup .tapeLength = some raw)
    (hnone : ¬ ∃ n, Holds raw n ∧ 1 ≤ n) :
    (load path found.file lookup).1.tapeLength = (load path found.file fun _ => none).1.tapeLength ∧
    lengthNotice (load path found.file lookup).1.tapeLength raw ∈ (load path found.file lookup).2 := by
  have hread : length? raw = none := by
    by_contra hsome
    obtain ⟨n, hn⟩ := Option.ne_none_iff_exists'.1 hsome
    exact hnone ⟨n, length?_eq_some_iff.1 hn⟩
  have hlength : (load path found.file lookup).1.tapeLength = (found.file.layer.over {}).tapeLength := by
    rw [tapeLength_load, hraw, Option.bind_some, hread]
    rfl
  refine ⟨?_, ?_⟩
  · rw [hlength, tapeLength_load]
    rfl
  · rw [hlength, load_eq]
    refine List.mem_append_right _ (List.mem_append_left _ (List.mem_append_left _ ?_))
    rw [hraw, complaint_of_none hread]
    exact List.mem_singleton_self _

end

end Settings

open Settings

/-! ## Top theorem -/

/-- The tape is too long just if the variable asks for that.  Then its length is adopted without a word,
and no program can be started; with any other settings all programs can whose brackets match. -/
theorem tape_too_long_by_variable (path : String) (found : Found) (lookup : Variable → Option String) :
    1 ≤ (load path found.file lookup).1.tapeLength ∧
    (load path found.file lookup).1.tapeLength < 2 ^ 64 ∧
    ((load path found.file lookup).1.tapeLength < 2 ^ 63 ↔ ¬ ∃ n, Oversized lookup n) ∧
    (∀ raw n, lookup .tapeLength = some raw → Holds raw n → 1 ≤ n →
      (load path found.file lookup).1.tapeLength = n ∧
      ∀ text, .invalidVariable .tapeLength text ∉ (load path found.file lookup).2) ∧
    (∀ raw, lookup .tapeLength = some raw → (¬ ∃ n, Holds raw n ∧ 1 ≤ n) →
      (load path found.file lookup).1.tapeLength = (load path found.file fun _ => none).1.tapeLength ∧
      lengthNotice (load path found.file lookup).1.tapeLength raw ∈ (load path found.file lookup).2) ∧
    ∀ (p : Program) exe console, p.link = .ok exe →
      p.boot (load path found.file lookup).1.tapeLength console =
        .ok (if (load path found.file lookup).1.tapeLength < 2 ^ 63 then
          some (exe, .initial (load path found.file lookup).1.tapeLength console)
        else none) := by
  obtain ⟨hpos, hlt⟩ : 1 ≤ (load path found.file lookup).1.tapeLength ∧
      (load path found.file lookup).1.tapeLength < 2 ^ 64 := by
    rcases length_load_cases path found lookup with ⟨raw, n, -, hn, hpos, heq⟩ | ⟨heq, -⟩
    · rw [heq]
      exact ⟨hpos, hn.2⟩
    · obtain ⟨hpos, hle⟩ := length_of_found found
      unfold Tape.maxLength at hle
      omega
  refine ⟨hpos, hlt, length_lt_iff path found, fun raw n hraw hn hone => ?_, ?_, ?_⟩
  · exact ⟨length_of_holds path found hraw hn hone, invalidVariable_notMem_load path found hraw hn hone⟩
  · exact fun raw hraw hnone => skipped_load path found hraw hnone
  · intro p exe console hlink
    have hmax : ∀ n, n ≤ Tape.maxLength ↔ n < 2 ^ 63 := fun n => Nat.lt_succ_iff.symm
    rw [Program.boot_of_link hlink hpos]
    simp only [hmax]

/-- The longest tape that there can be, one that is longer by one cell, and no length at all. -/
theorem tape_too_long_by_variable_edge :
    ∃ exe, (Program.parse "+").link = .ok exe ∧
      (load "" Found.nothing.file fun _ => some "9223372036854775807").1.tapeLength = 9223372036854775807 ∧
      (Program.parse "+").boot 9223372036854775807 {} = .ok (some (exe, .initial 9223372036854775807 {})) ∧
      (load "" Found.nothing.file fun _ => some "+9223372036854775808").1.tapeLength = 9223372036854775808 ∧
      (Program.parse "+").boot 9223372036854775808 {} = .ok none ∧
      .invalidVariable .tapeLength "-1" ∈ (load "" Found.nothing.file fun _ => some "-1").2 := by
  let exe : Executable := ⟨.parse "+", ⟨#[none], 0⟩, rfl⟩
  have hlink : (Program.parse "+").link = .ok exe := (Program.link_eq_ok_iff _ _).2 rfl
  have hlongest : Holds "9223372036854775807" 9223372036854775807 :=
    numeral?_eq_some_iff.1 (by decide +kernel)
  have hlonger : Holds "+9223372036854775808" 9223372036854775808 :=
    numeral?_eq_some_iff.1 (by decide +kernel)
  have hnone : numeral? "-1" = none := by decide +kernel
  obtain ⟨-, -, -, hadopted, -, hboot⟩ :=
    tape_too_long_by_variable "" .nothing fun _ => some "9223372036854775807"
  obtain ⟨-, -, -, hadopted', -, hboot'⟩ :=
    tape_too_long_by_variable "" .nothing fun _ => some "+9223372036854775808"
  obtain ⟨-, -, -, -, hskipped, -⟩ := tape_too_long_by_variable "" .nothing fun _ => some "-1"
  have hlength := (hadopted _ _ rfl hlongest (by decide)).1
  have hlength' := (hadopted' _ _ rfl hlonger (by decide)).1
  have hstart := hboot (.parse "+") exe {} hlink
  have hstart' := hboot' (.parse "+") exe {} hlink
  rw [hlength] at hstart
  rw [hlength'] at hstart'
  refine ⟨exe, hlink, hlength, hstart, hlength', hstart', ?_⟩
  have hnotice := (hskipped "-1" rfl fun ⟨n, hn, _⟩ => numeral?_eq_none_iff.1 hnone ⟨n, hn⟩).2
  have hinvalid : ∀ kept, lengthNotice kept "-1" = .invalidVariable .tapeLength "-1" := by
    intro kept
    rw [lengthNotice, hnone]
    rfl
  rwa [hinvalid] at hnotice

/-- One cell more than can be asked for is adopted in silence, and no tape can be had. -/
theorem oversized_length_adopted :
    load "" Found.nothing.file (fun v => if v = .tapeLength then some "9223372036854775808" else none) =
      ({ tapeLength := 9223372036854775808 }, []) ∧
    (Program.parse "+").boot 9223372036854775808 {} = .ok none := by
  refine ⟨by decide +kernel, ?_⟩
  have hlink : (Program.parse "+").link = .ok ⟨.parse "+", ⟨#[none], 0⟩, rfl⟩ :=
    (Program.link_eq_ok_iff _ _).2 rfl
  rw [Program.boot_of_link hlink (by decide), if_neg (by decide)]

end Brainfuck
