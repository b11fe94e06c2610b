/-!
# The tape

A fixed number of byte cells and a pointer that is always on one of them (`pointer_lt`).
Moves that would leave the tape are refused.
-/

namespace Brainfuck

structure Tape where
  cells : Array UInt8
  pointer : Nat
  pointer_lt : pointer < cells.size

namespace Tape

def defaultLength : Nat := 30000

/-- All cells zero, pointer on the first; a tape has at least one cell. -/
def blank (length : Nat) : Tape :=
  ⟨Array.replicate (max length 1) 0, 0, by simp only [Array.size_replicate]; omega⟩

def length (t : Tape) : Nat := t.cells.size

/-- The cell under the pointer. -/
def cell (t : Tape) : UInt8 :=
  have := t.pointer_lt
  t.cells[t.pointer]

def write (t : Tape) (b : UInt8) : Tape :=
  ⟨t.cells.set t.pointer b t.pointer_lt, t.pointer, by rw [Array.size_set]; exact t.pointer_lt⟩

def right? (t : Tape) : Option Tape :=
  if h : t.pointer + 1 < t.cells.size then some ⟨t.cells, t.pointer + 1, h⟩ else none

def left? (t : Tape) : Option Tape :=
  if t.pointer = 0 then none
  else some ⟨t.cells, t.pointer - 1, Nat.lt_of_le_of_lt (Nat.sub_le _ _) t.pointer_lt⟩

/-- The cells that are not zero, with their indices. -/
def marked (t : Tape) : List (Nat × UInt8) :=
  t.cells.toList.zipIdx.filterMap fun (b, i) => if b = 0 then none else some (i, b)

@[simp] theorem length_blank (n : Nat) : (blank n).length = max n 1 := by
  simp [blank, length]

@[simp] theorem length_write (t : Tape) (b : UInt8) : (t.write b).length = t.length := by
  simp [write, length]

@[simp] theorem pointer_write (t : Tape) (b : UInt8) : (t.write b).pointer = t.pointer := rfl

@[simp] theorem cell_write (t : Tape) (b : UInt8) : (t.write b).cell = b := by
  simp [cell, write]

/-- A move keeps the cells. -/
theorem cells_of_right? {t u : Tape} (h : t.right? = some u) : u.cells = t.cells := by
  unfold right? at h
  split at h <;> cases h
  rfl

theorem cells_of_left? {t u : Tape} (h : t.left? = some u) : u.cells = t.cells := by
  unfold left? at h
  split at h <;> cases h
  rfl

/-- A move is refused only at the end of the tape. -/
theorem right?_eq_none {t : Tape} (h : t.right? = none) : t.pointer + 1 = t.length := by
  unfold right? at h
  split at h
  · cases h
  · next hle =>
    have : t.pointer < t.length := t.pointer_lt
    have : ¬ t.pointer + 1 < t.length := hle
    omega

theorem left?_eq_none {t : Tape} (h : t.left? = none) : t.pointer = 0 := by
  unfold left? at h
  split at h
  · next hzero => exact hzero
  · cases h

theorem pointer_of_right? {t u : Tape} (h : t.right? = some u) : u.pointer = t.pointer + 1 := by
  unfold right? at h
  split at h <;> cases h
  rfl

theorem pointer_of_left? {t u : Tape} (h : t.left? = some u) : u.pointer + 1 = t.pointer := by
  unfold left? at h
  split at h <;> cases h
  show t.pointer - 1 + 1 = t.pointer
  omega

end Tape

end Brainfuck
