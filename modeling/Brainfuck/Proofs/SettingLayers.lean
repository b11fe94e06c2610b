import Brainfuck.Settings.Load

/-!
# Settings in layers

The file and the environment are layers over the default settings.  A `Layer` has the values that
one of them holds and that are acceptable; laid over settings (`Layer.over`), each of its values
takes the place of what was there, and where it has none, what was there stays.

    what a file makes of the defaults       is its layer over them       (ofFile_eq)
    what an environment makes of settings   is its layer over them       (applyEnvironment_eq)

So of each setting the last acceptable value counts, and a value that is not acceptable makes no
difference but for the notice about it (`last_acceptable_value_counts`).
-/

namespace Brainfuck.Settings

/-! ## Values -/

/-- A tape has at least one cell. -/
def positive? (n : Nat) : Option Nat := if 0 < n then some n else none

/-- A tape length, as a variable gives it. -/
def length? (raw : String) : Option Nat := (numeral? raw).bind positive?

/-- A value, if there is one and it is acceptable. -/
def accepted {α β : Type} (read : α → Option β) (value : Option α) : Option α :=
  value.filter fun value => (read value).isSome

/-- The notice about a value, if there is one and it is not acceptable. -/
def complaint {α β : Type} (read : α → Option β) (notice : α → Notice) (value : Option α) :
    List Notice :=
  ((value.filter fun value => (read value).isNone).map notice).toList

/-- What is said about a variable that gives no tape length, while the length is `kept`. -/
def lengthNotice (kept : Nat) (raw : String) : Notice :=
  if numeral? raw = some 0 then .tapeTooShort kept else .invalidVariable .tapeLength raw

/-! ## Layers -/

/-- The acceptable values of a file or an environment. -/
structure Layer where
  tapeLength : Option Nat := none
  maxSteps : Option Nat := none
  debug : Option Bool := none
  error : Option Color := none
  caret : Option Color := none
  program : Option Color := none

/-- Settings, changed where the layer has a value. -/
def Layer.over (l : Layer) (s : Settings) : Settings where
  tapeLength := l.tapeLength.getD s.tapeLength
  maxSteps := l.maxSteps.or s.maxSteps
  debug := l.debug.getD s.debug
  palette := ⟨l.error.getD s.palette.error, l.caret.getD s.palette.caret, l.program.getD s.palette.program⟩

/-- What the file says; a file that cannot be used says nothing. -/
def File.contents : File → Contents
  | .read c => c
  | _ => {}

def File.layer (file : File) : Layer where
  tapeLength := file.contents.interpreter.tapeLength.bind positive?
  maxSteps := file.contents.interpreter.maxSteps
  debug := file.contents.interpreter.debug
  error := file.contents.colors.error.bind Color.parse?
  caret := file.contents.colors.caret.bind Color.parse?
  program := file.contents.colors.program.bind Color.parse?

/-- The environment has nothing to say about colors. -/
def environmentLayer (lookup : Variable → Option String) : Layer where
  tapeLength := (lookup .tapeLength).bind length?
  maxSteps := (lookup .maxSteps).bind numeral?
  debug := (lookup .debug).bind switch?

/-! ## What is not acceptable -/

/-- One notice for each value of the file that is not acceptable, in the order of the fields, or one
for the whole file. -/
def File.complaints (path : String) : File → List Notice
  | .absent => []
  | .unreadable reason => [.unreadableFile path reason]
  | .malformed => [.malformedFile path]
  | .read c =>
    complaint positive? (fun _ => .tapeTooShort Tape.defaultLength) c.interpreter.tapeLength ++
    complaint Color.parse? (.unknownColor "error") c.colors.error ++
    complaint Color.parse? (.unknownColor "caret") c.colors.caret ++
    complaint Color.parse? (.unknownColor "program") c.colors.program

/-- One notice for each variable that is not acceptable, in order; `kept` is the tape length that
was set before. -/
def environmentComplaints (kept : Nat) (lookup : Variable → Option String) : List Notice :=
  complaint length? (lengthNotice kept) (lookup .tapeLength) ++
  complaint numeral? (.invalidVariable .maxSteps) (lookup .maxSteps) ++
  complaint switch? (.invalidVariable .debug) (lookup .debug)

/-- The file without what is not acceptable. -/
def File.acceptable : File → File
  | .read c =>
    .read ⟨{ c.interpreter with tapeLength := accepted positive? c.interpreter.tapeLength },
      ⟨accepted Color.parse? c.colors.error, accepted Color.parse? c.colors.caret,
        accepted Color.parse? c.colors.program⟩⟩
  | _ => .absent

/-- The environment without what is not acceptable. -/
def acceptableVariables (lookup : Variable → Option String) : Variable → Option String
  | .tapeLength => accepted length? (lookup .tapeLength)
  | .maxSteps => accepted numeral? (lookup .maxSteps)
  | .debug => accepted switch? (lookup .debug)

/-! ## Lemmas -/

section
variable {α β : Type} (read : α → Option β) (notice : α → Notice)

@[simp] theorem complaint_none : complaint read notice none = [] := rfl

theorem complaint_some (value : α) :
    complaint read notice (some value) = if (read value).isNone then [notice value] else [] := by
  simp only [complaint, Option.filter_some]
  split <;> rfl

theorem accepted_some (value : α) :
    accepted read (some value) = if (read value).isSome then some value else none := by
  simp only [accepted, Option.filter_some]

@[simp] theorem bind_accepted (value : Option α) : (accepted read value).bind read = value.bind read := by
  cases value with
  | none => rfl
  | some value =>
    rw [accepted_some]
    cases h : read value with
    | none => simp [h]
    | some b => simp [h]

@[simp] theorem complaint_accepted (value : Option α) :
    complaint read notice (accepted read value) = [] := by
  cases value with
  | none => rfl
  | some value =>
    rw [accepted_some]
    cases h : read value with
    | none => simp
    | some b => simp [complaint_some, h]

end

theorem adoptLength_eq (current n : Nat) :
    adoptLength current n =
      ((positive? n).getD current, complaint positive? (fun _ => .tapeTooShort current) (some n)) := by
  rw [complaint_some]
  by_cases h : n = 0
  · simp [adoptLength, positive?, h]
  · simp [adoptLength, positive?, h, Nat.pos_of_ne_zero h]

theorem adoptColor_eq (slot : String) (current : Color) (value : Option String) :
    adoptColor slot current value =
      ((value.bind Color.parse?).getD current, complaint Color.parse? (.unknownColor slot) value) := by
  cases value with
  | none => rfl
  | some value =>
    simp only [adoptColor, complaint_some, Option.bind_some]
    cases Color.parse? value <;> rfl

theorem overrideLength_eq (raw : Option String) (s : Settings) :
    overrideLength raw s =
      ({ s with tapeLength := (raw.bind length?).getD s.tapeLength },
        complaint length? (lengthNotice s.tapeLength) raw) := by
  cases raw with
  | none => rfl
  | some raw =>
    rw [complaint_some, Option.bind_some]
    by_cases hraw : numeral? raw = none
    · simp [overrideLength, override, length?, lengthNotice, hraw]
    · obtain ⟨n, hn⟩ := Option.ne_none_iff_exists'.1 hraw
      by_cases h : n = 0
      · simp [overrideLength, override, adoptLength_eq, complaint_some, length?, lengthNotice, positive?,
          hn, h]
      · simp [overrideLength, override, adoptLength_eq, complaint_some, length?, positive?, hn,
          Nat.pos_of_ne_zero h]

theorem overrideSteps_eq (raw : Option String) (s : Settings) :
    overrideSteps raw s =
      ({ s with maxSteps := (raw.bind numeral?).or s.maxSteps },
        complaint numeral? (.invalidVariable .maxSteps) raw) := by
  cases raw with
  | none => rfl
  | some raw =>
    simp only [overrideSteps, override, complaint_some, Option.bind_some]
    cases numeral? raw <;> rfl

theorem overrideDebug_eq (raw : Option String) (s : Settings) :
    overrideDebug raw s =
      ({ s with debug := (raw.bind switch?).getD s.debug },
        complaint switch? (.invalidVariable .debug) raw) := by
  cases raw with
  | none => rfl
  | some raw =>
    simp only [overrideDebug, override, complaint_some, Option.bind_some]
    cases switch? raw <;> rfl

theorem ofFile_eq (path : String) (file : File) :
    ofFile path file = (file.layer.over {}, file.complaints path) := by
  cases file with
  | read c =>
    simp only [ofFile, ofContents, adoptColor_eq, File.complaints]
    cases h : c.interpreter.tapeLength with
    | none => simp [File.layer, File.contents, Layer.over, h]
    | some n => simp [File.layer, File.contents, Layer.over, h, adoptLength_eq]
  | absent => rfl
  | unreadable reason => rfl
  | malformed => rfl

theorem applyEnvironment_eq (lookup : Variable → Option String) (s : Settings) :
    applyEnvironment lookup s =
      ((environmentLayer lookup).over s, environmentComplaints s.tapeLength lookup) := by
  simp only [applyEnvironment, overrideLength_eq, overrideSteps_eq, overrideDebug_eq]
  rfl

theorem load_eq (path : String) (file : File) (lookup : Variable → Option String) :
    load path file lookup =
      ((environmentLayer lookup).over (file.layer.over {}),
        file.complaints path ++ environmentComplaints (file.layer.over {}).tapeLength lookup) := by
  simp only [load, ofFile_eq, applyEnvironment_eq]

/-- To lay a layer over settings once more changes nothing. -/
theorem over_over (l : Layer) (s : Settings) : l.over (l.over s) = l.over s := by
  have hgetD : ∀ {α : Type} (x : Option α) (a : α), x.getD (x.getD a) = x.getD a := by
    intro α x a
    cases x <;> rfl
  have hor : ∀ {α : Type} (x y : Option α), x.or (x.or y) = x.or y := by
    intro α x y
    cases x <;> rfl
  simp only [Layer.over, hgetD, hor]

theorem getD_positive_pos {n : Nat} (h : 0 < n) (value : Option Nat) :
    0 < (value.bind positive?).getD n := by
  cases value with
  | none => exact h
  | some m => by_cases hm : 0 < m <;> simp [positive?, hm, h]

theorem layer_acceptable (file : File) : file.acceptable.layer = file.layer := by
  cases file with
  | read c => simp [File.acceptable, File.layer, File.contents]
  | absent => rfl
  | unreadable reason => rfl
  | malformed => rfl

theorem complaints_acceptable (path : String) (file : File) : file.acceptable.complaints path = [] := by
  cases file with
  | read c => simp [File.acceptable, File.complaints]
  | absent => rfl
  | unreadable reason => rfl
  | malformed => rfl

theorem environmentLayer_acceptable (lookup : Variable → Option String) :
    environmentLayer (acceptableVariables lookup) = environmentLayer lookup := by
  simp [environmentLayer, acceptableVariables]

theorem environmentComplaints_acceptable (kept : Nat) (lookup : Variable → Option String) :
    environmentComplaints kept (acceptableVariables lookup) = [] := by
  simp [environmentComplaints, acceptableVariables]

end Brainfuck.Settings

namespace Brainfuck

open Settings

/-! ## Top theorem -/

/-- The environment before the file and the file before the default, field by field.  Without the
values that are not acceptable the settings are the same, and there is nothing to complain of. -/
theorem last_acceptable_value_counts (path : String) (file : File)
    (lookup : Variable → Option String) :
    (load path file lookup).1.tapeLength =
      (((lookup .tapeLength).bind length?).or (file.contents.interpreter.tapeLength.bind positive?)).getD
        30000 ∧
    1 ≤ (load path file lookup).1.tapeLength ∧
    (load path file lookup).1.maxSteps =
      ((lookup .maxSteps).bind numeral?).or file.contents.interpreter.maxSteps ∧
    (load path file lookup).1.debug =
      (((lookup .debug).bind switch?).or file.contents.interpreter.debug).getD false ∧
    (load path file lookup).1.palette =
      ⟨(file.contents.colors.error.bind Color.parse?).getD (.rgb 0xf3 0x8b 0xa8),
        (file.contents.colors.caret.bind Color.parse?).getD (.rgb 0xf9 0xe2 0xaf),
        (file.contents.colors.program.bind Color.parse?).getD (.rgb 0x6c 0x70 0x86)⟩ ∧
    (load path file lookup).2 = file.complaints path ++
      environmentComplaints ((file.contents.interpreter.tapeLength.bind positive?).getD 30000) lookup ∧
    load path file.acceptable (acceptableVariables lookup) = ((load path file lookup).1, []) ∧
    (∀ reason, load path (.unreadable reason) lookup =
      ((load path .absent lookup).1, .unreadableFile path reason :: (load path .absent lookup).2)) ∧
    load path .malformed lookup =
      ((load path .absent lookup).1, .malformedFile path :: (load path .absent lookup).2) ∧
    (applyEnvironment lookup (load path file lookup).1).1 = (load path file lookup).1 := by
  have hor : ∀ {α : Type} (x y : Option α) (a : α), x.getD (y.getD a) = (x.or y).getD a := by
    intro α x y a
    cases x <;> rfl
  have hfile : 0 < (file.layer.over {}).tapeLength := getD_positive_pos (by decide) _
  refine ⟨?_, ?_, ?_, ?_, ?_, ?_, ?_, ?_, ?_, ?_⟩
  · rw [load_eq]
    exact hor _ _ _
  · rw [load_eq]
    show 0 < ((lookup .tapeLength).bind fun raw => (numeral? raw).bind positive?).getD _
    rw [← Option.bind_assoc]
    exact getD_positive_pos hfile _
  · rw [load_eq]
    show ((lookup .maxSteps).bind numeral?).or (file.contents.interpreter.maxSteps.or none) = _
    rw [Option.or_none]
  · rw [load_eq]
    exact hor _ _ _
  · rw [load_eq]
    rfl
  · rw [load_eq]
    rfl
  · rw [load_eq, load_eq, layer_acceptable, environmentLayer_acceptable, complaints_acceptable,
      environmentComplaints_acceptable]
    rfl
  · intro reason
    rw [load_eq, load_eq]
    rfl
  · rw [load_eq, load_eq]
    rfl
  · rw [applyEnvironment_eq, load_eq, over_over]

/-- A length of zero in the environment leaves the file's, not the default. -/
example : load "" (.read { interpreter := { tapeLength := some 100 } })
    (fun v => if v = .tapeLength then some "0" else none) =
      ({ tapeLength := 100 }, [.tapeTooShort 100]) := by
  decide +kernel

end Brainfuck
