import Brainfuck.Proofs.SourceWindows
import Brainfuck.Proofs.TraceReading

/-!
# Colored reports

A terminal reads a text as characters and as sequences that set its graphics (`Token`, `tokens`).  Colors put
such a sequence before and behind the label, the name and the caret of a report, and change nothing else
(`colors_add_only_graphics`).

A text `Spells` tokens if these are read from it whatever stands behind it.  So what a report spells is put
together as the report is.
-/

namespace Brainfuck

/-! ## What a terminal reads -/

inductive Token
  | character (c : Char)
  | graphics (parameters : List Char)
deriving DecidableEq

namespace Token

/-- The digits, separators and marks that parameters consist of. -/
def isParameter (c : Char) : Bool := '0' ≤ c && c ≤ '?'

/-- The parameters of a sequence that sets graphics, where a text begins with one, and what is behind it. -/
def graphics? : List Char → Option (List Char × List Char)
  | '\x1b' :: '[' :: cs =>
    match cs.dropWhile isParameter with
    | 'm' :: more => some (cs.takeWhile isParameter, more)
    | _ => none
  | _ => none

variable {cs ps more : List Char} {c : Char}

theorem length_of_graphics? (h : graphics? cs = some (ps, more)) : more.length < cs.length := by
  unfold graphics? at h
  split at h
  · next cs =>
    have hle : (cs.dropWhile isParameter).length ≤ cs.length := List.length_dropWhile_le isParameter cs
    split at h
    · next hdrop =>
      cases h
      rw [hdrop] at hle
      simp only [List.length_cons] at hle ⊢
      omega
    · cases h
  · cases h

theorem graphics?_of_ne (h : c ≠ '\x1b') (cs : List Char) : graphics? (c :: cs) = none := by
  unfold graphics?
  split
  · next heq =>
    cases heq
    exact absurd rfl h
  · rfl

theorem graphics?_sequence (h : ps.all isParameter) (more : List Char) :
    graphics? ('\x1b' :: '[' :: (ps ++ 'm' :: more)) = some (ps, more) := by
  rw [List.all_eq_true] at h
  have hend : isParameter 'm' = false := by decide
  have hdrop : (ps ++ 'm' :: more).dropWhile isParameter = 'm' :: more := by
    rw [List.dropWhile_append_of_pos h, List.dropWhile_cons_of_neg (by simp [hend])]
  have htake : (ps ++ 'm' :: more).takeWhile isParameter = ps := by
    rw [List.takeWhile_append_of_pos h, List.takeWhile_cons_of_neg (by simp [hend]), List.append_nil]
  simp only [graphics?, hdrop, htake]

/-- An escape that begins no such sequence is a character. -/
def tokens : List Char → List Token
  | [] => []
  | c :: cs =>
    match h : graphics? (c :: cs) with
    | some (ps, more) =>
      have := length_of_graphics? h
      graphics ps :: tokens more
    | none => character c :: tokens cs
termination_by cs => cs.length
decreasing_by
  · exact this
  · exact Nat.lt_succ_self _

theorem tokens_of_graphics?_some (h : graphics? cs = some (ps, more)) :
    tokens cs = graphics ps :: tokens more := by
  cases cs with
  | nil => cases h
  | cons c cs =>
    rw [tokens]
    split
    · next hsome =>
      cases hsome.symm.trans h
      rfl
    · next hnone => cases hnone.symm.trans h

theorem tokens_of_graphics?_none (h : graphics? (c :: cs) = none) :
    tokens (c :: cs) = character c :: tokens cs := by
  rw [tokens]
  split
  · next hsome => cases hsome.symm.trans h
  · rfl

theorem tokens_append_of_notMem (h : '\x1b' ∉ cs) (more : List Char) :
    tokens (cs ++ more) = cs.map character ++ tokens more := by
  induction cs with
  | nil => rfl
  | cons c cs ih =>
    rw [List.mem_cons, not_or] at h
    rw [List.cons_append, tokens_of_graphics?_none (graphics?_of_ne (Ne.symm h.1) _), ih h.2]
    rfl

def character? : Token → Option Char
  | character c => some c
  | graphics _ => none

end Token

open Token

/-- A text without the sequences that set graphics. -/
def withoutGraphics (cs : List Char) : List Char := (tokens cs).filterMap character?

/-- The text as it is, token by token. -/
def plain (text : String) : List Token := text.toList.map .character

def tinted (parameters text : String) : List Token :=
  .graphics parameters.toList :: (plain text ++ [.graphics ['0']])

@[simp] theorem filterMap_plain (text : String) : (plain text).filterMap character? = text.toList := by
  simp [plain, List.filterMap_map, Function.comp_def, character?]

@[simp] theorem filterMap_tinted (parameters text : String) :
    (tinted parameters text).filterMap character? = text.toList := by
  simp [tinted, List.filterMap_cons, character?]

/-- The tokens of a text, whatever stands behind it; none is a mere escape. -/
structure Spells (text : String) (ts : List Token) : Prop where
  tokens_append : ∀ more, tokens (text.toList ++ more) = ts ++ tokens more
  escape_notMem : .character '\x1b' ∉ ts

namespace Spells

variable {a b : String} {s t : List Token}

theorem tokens_eq (h : Spells a s) : tokens a.toList = s := by
  have := h.tokens_append []
  rwa [List.append_nil, tokens, List.append_nil] at this

theorem nil : Spells "" [] := ⟨fun _ => rfl, List.not_mem_nil⟩

theorem append (ha : Spells a s) (hb : Spells b t) : Spells (a ++ b) (s ++ t) where
  tokens_append more := by
    rw [String.toList_append, List.append_assoc, ha.tokens_append, hb.tokens_append, List.append_assoc]
  escape_notMem := by
    rw [List.mem_append]
    exact not_or.2 ⟨ha.escape_notMem, hb.escape_notMem⟩

theorem elim {α : Type} {o : Option α} {f : α → String} {g : α → List Token}
    (h : ∀ x ∈ o, Spells (f x) (g x)) : Spells (o.elim "" f) (o.elim [] g) := by
  cases o with
  | none => exact nil
  | some x => exact h x rfl

theorem plain {text : String} (h : '\x1b' ∉ text.toList) : Spells text (plain text) where
  tokens_append more := tokens_append_of_notMem h more
  escape_notMem := by
    intro hmem
    obtain ⟨c, hc, heq⟩ := List.mem_map.1 hmem
    cases heq
    exact h hc

theorem setGraphics {parameters : String} (h : parameters.toList.all isParameter) :
    Spells (setGraphics parameters) [.graphics parameters.toList] where
  tokens_append more := by
    have htext : (Brainfuck.setGraphics parameters).toList ++ more =
        '\x1b' :: '[' :: (parameters.toList ++ 'm' :: more) := by
      simp [Brainfuck.setGraphics, toString]
    rw [htext, tokens_of_graphics?_some (graphics?_sequence h more)]
    rfl
  escape_notMem := by simp

end Spells

/-! ## Painted texts -/

/-- To paint is to set these parameters before a text, be it empty, and to set everything back behind it. -/
structure Sets (paint : String → String) (parameters : String) : Prop where
  all_isParameter : parameters.toList.all isParameter
  paint_eq : ∀ text, paint text = setGraphics parameters ++ text ++ setGraphics "0"

theorem Sets.spells {paint : String → String} {parameters text : String} (h : Sets paint parameters)
    (htext : '\x1b' ∉ text.toList) : Spells (paint text) (tinted parameters text) := by
  rw [h.paint_eq, String.append_assoc]
  exact (Spells.setGraphics h.all_isParameter).append ((Spells.plain htext).append (Spells.setGraphics rfl))

namespace Color

theorem all_isParameter_toString (n : UInt8) : (toString n).toList.all isParameter := by
  rw [List.all_eq_true]
  intro c hc
  have hdigit : 48 ≤ c.val.toNat ∧ c.val.toNat ≤ 57 := by
    simpa [Char.isDigit, UInt32.le_iff_toNat_le] using Text.isDigit_of_mem_repr hc
  have hparameter : 48 ≤ c.val.toNat ∧ c.val.toNat ≤ 63 := ⟨hdigit.1, hdigit.2.trans (by decide)⟩
  simpa [isParameter, Char.le_def, UInt32.le_iff_toNat_le] using hparameter

theorem all_isParameter_code (color : Color) : color.code.toList.all isParameter := by
  cases color
  case rgb r g b =>
    simp only [code, String.toList_append, List.all_append, Bool.and_eq_true]
    exact ⟨⟨⟨⟨⟨rfl, all_isParameter_toString r⟩, rfl⟩, all_isParameter_toString g⟩, rfl⟩,
      all_isParameter_toString b⟩
  all_goals rfl

theorem all_isParameter_parameters (color : Color) (weight : Weight) :
    (color.parameters weight).toList.all isParameter := by
  cases weight with
  | plain => exact all_isParameter_code color
  | bold =>
    simp only [parameters, String.toList_append, List.all_append, Bool.and_eq_true]
    exact ⟨rfl, all_isParameter_code color⟩

theorem sets_paint (color : Color) (weight : Weight) :
    Sets (color.paint weight) (color.parameters weight) where
  all_isParameter := all_isParameter_parameters color weight
  paint_eq _ := rfl

end Color

/-! ## Reports -/

/-- Labels, carets and names are painted by setting these parameters. -/
structure Paints.Graphic (paints : Paints) (error caret program : String) : Prop where
  error : Sets paints.error error
  caret : Sets paints.caret caret
  program : Sets paints.program program

theorem Paints.graphic_ofPalette (palette : Palette) :
    (ofPalette palette).Graphic (palette.error.parameters .bold) (palette.caret.parameters .bold)
      (palette.program.parameters .plain) :=
  ⟨palette.error.sets_paint .bold, palette.caret.sets_paint .bold, palette.program.sets_paint .plain⟩

namespace Diagnostic

variable {name : Option String} {source : String} {e : RunError} {paints : Paints}
  {error caret program : String}

theorem escape_notMem_upToCaret (h : '\x1b' ∉ source.toList) (place : Nat) :
    '\x1b' ∉ (upToCaret (Window.around source.toList place)).toList := by
  obtain ⟨start, stop, hframes⟩ := Window.exists_frames_around source.toList place
  have hwindow : '\x1b' ∉ (Window.around source.toList place).text := by
    intro hc
    rcases hframes.eq_blank_or_mem_of_mem_text hc with hblank | hmem
    · exact absurd hblank (by decide)
    · exact h hmem
  simpa [upToCaret] using hwindow

theorem spells_headline (hpaints : paints.Graphic error caret program) (hname : ∀ n ∈ name, '\x1b' ∉ n.toList)
    (hmessage : '\x1b' ∉ e.message.toList) :
    Spells (headline name e paints)
      (name.elim [] (fun n => tinted program n ++ plain ": ") ++ tinted error e.label ++
        plain (": " ++ e.message ++ "\n")) := by
  have hlabel : '\x1b' ∉ e.label.toList := by
    cases e <;> simp [RunError.label]
  have hrest : '\x1b' ∉ (": " ++ e.message ++ "\n").toList := by
    simpa using hmessage
  rw [headline_eq]
  refine ((Spells.elim fun n hn => ?_).append (hpaints.error.spells hlabel)).append (.plain hrest)
  exact (hpaints.program.spells (hname n hn)).append (.plain (by decide))

theorem spells_excerpt (hpaints : paints.Graphic error caret program) (hsource : '\x1b' ∉ source.toList)
    (place : Nat) :
    Spells (excerpt source.toList place paints)
      (plain (upToCaret (Window.around source.toList place)) ++ tinted caret "^" ++ plain "\n") := by
  rw [excerpt_eq]
  have hcaret : Spells (paints.caret "^") (tinted caret "^") := hpaints.caret.spells (by decide)
  exact ((Spells.plain (escape_notMem_upToCaret hsource place)).append hcaret).append (.plain (by decide))

end Diagnostic

/-! ## Top theorem -/

open Diagnostic

/-- In the colors of a palette a report is painted like this, by `Paints.graphic_ofPalette`. -/
theorem colors_add_only_graphics (name : Option String) (source : String) (p : Program) (e : RunError)
    (paints : Paints) (error caret program : String) (hpaints : paints.Graphic error caret program)
    (hname : ∀ n ∈ name, '\x1b' ∉ n.toList) (hsource : '\x1b' ∉ source.toList)
    (hmessage : '\x1b' ∉ e.message.toList) :
    withoutGraphics (report name source p e paints).toList = (render name source p e none).toList ∧
    tokens (report name source p e paints).toList =
      name.elim [] (fun n => tinted program n ++ plain ": ") ++ tinted error e.label ++
        plain (": " ++ e.message ++ "\n") ++
        (e.ip?.bind p.offset?).elim [] (fun place =>
          plain (upToCaret (Window.around source.toList place)) ++ tinted caret "^" ++ plain "\n") ∧
    .character '\x1b' ∉ tokens (report name source p e paints).toList := by
  have hspells := (spells_headline hpaints hname hmessage).append
    (Spells.elim fun place (_ : place ∈ e.ip?.bind p.offset?) => spells_excerpt hpaints hsource place)
  rw [← report_eq] at hspells
  have htokens := hspells.tokens_eq
  refine ⟨?_, htokens, ?_⟩
  · -- both sides piece by piece, whether or not there are a name and a caret
    rw [withoutGraphics, htokens, render, report_eq, headline_eq]
    simp only [excerpt_eq]
    cases name <;> cases e.ip?.bind p.offset? <;> simp [Paints.plain]
  · rw [htokens]
    exact hspells.escape_notMem

/-- A name that looks like the rest of a sequence stays. -/
theorem colors_add_only_graphics_lookalike :
    ∃ colored, render (some "[31m") "0m\t]" (.parse "0m\t]") (.unbalanced 0 .closing) (some {}) = colored ∧
      withoutGraphics colored.toList =
        "[31m: Parse error: unbalanced brackets: excess close at instruction 0\n  0m ]\n     ^\n".toList ∧
      (tokens colored.toList).filter (·.character?.isNone) =
        [.graphics "38;2;108;112;134".toList, .graphics ['0'],
          .graphics "1;38;2;243;139;168".toList, .graphics ['0'],
          .graphics "1;38;2;249;226;175".toList, .graphics ['0']] := by
  obtain ⟨hsame, htokens, -⟩ := colors_add_only_graphics (some "[31m") "0m\t]" (.parse "0m\t]")
    (.unbalanced 0 .closing) (.ofPalette {}) _ _ _ (Paints.graphic_ofPalette {})
    (by decide) (by decide) (by decide)
  refine ⟨_, rfl, hsame.trans ?_, (congrArg (List.filter _) htokens).trans ?_⟩
  · decide +kernel
  · decide +kernel

end Brainfuck
