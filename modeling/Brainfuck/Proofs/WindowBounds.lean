import Brainfuck.Proofs.SourceWindows
import Brainfuck.Text.Piece

/-!
# The bounds of windows

A window can also be cut out of its source: look for the ends of the line on both sides of the place,
come closer where they are out of reach, and take what is between (`Window.cut?`).  Each piece that is
taken on the way has to lie inside the source, with its ends in order.  It always does, and the
result is the window (`Window.cut?_eq`), so that the bounds of every window are known
(`window_within_bounds`).
-/

namespace Brainfuck

namespace Window

/-- Where the last line of a text begins. -/
def lastLine (text : List Char) : Nat := text.length - text.reverse.findIdx (· = '\n')

/-- Where the first line of a text ends. -/
def firstLine (text : List Char) : Nat := text.findIdx (· = '\n')

/-- The window around a position, cut out of the source by the bounds of the line and of what is within
reach.  There is none if a piece cannot be cut out or the window begins behind the position. -/
def cut? (source : List Char) (position : Nat) : Option Window := do
  let place := clamp source position
  let before ← Text.piece? source 0 place
  let behind ← Text.piece? source place source.length
  let start := max (place - reach) (lastLine before)
  let stop := min (place + (reach + 1)) (place + firstLine behind)
  let text ← Text.piece? source start stop
  if start ≤ place then some ⟨text.map shown, place - start⟩ else none

theorem take_takeWhile_eq_take (n : Nat) (text : List Char) :
    (text.takeWhile (· ≠ '\n')).take n = text.take (min n (firstLine text)) := by
  rw [List.takeWhile_eq_take_findIdx_not, List.take_take]
  simp [firstLine]

theorem reverse_leftOf {source : List Char} {place : Nat} (h : place ≤ source.length) :
    (leftOf source place).reverse =
      (source.take place).drop (max (place - reach) (lastLine (source.take place))) := by
  have hlength : (source.take place).length = place := List.length_take_of_le h
  have hline : firstLine (source.take place).reverse ≤ place := by
    have : firstLine (source.take place).reverse ≤ (source.take place).reverse.length :=
      List.findIdx_le_length
    rwa [List.length_reverse, hlength] at this
  have hstart : max (place - reach) (lastLine (source.take place)) =
      place - min reach (firstLine (source.take place).reverse) := by
    show max (place - reach) ((source.take place).length - firstLine (source.take place).reverse) = _
    omega
  rw [leftOf, take_takeWhile_eq_take, hstart, List.reverse_take, List.length_reverse,
    List.reverse_reverse, hlength]

theorem rightFrom_eq (source : List Char) (place : Nat) :
    rightFrom source place =
      (source.take (min (place + (reach + 1)) (place + firstLine (source.drop place)))).drop place := by
  have hstop : min (place + (reach + 1)) (place + firstLine (source.drop place)) =
      place + min (reach + 1) (firstLine (source.drop place)) := by omega
  rw [rightFrom, take_takeWhile_eq_take, hstop, List.drop_take, Nat.add_sub_cancel_left]

/-- Whatever the position, all pieces can be cut out, and they make the window. -/
theorem cut?_eq (source : List Char) (position : Nat) :
    cut? source position = some (around source position) := by
  have hplace : clamp source position ≤ source.length := by
    unfold clamp
    omega
  unfold cut? around
  generalize clamp source position = place at hplace ⊢
  let start := max (place - reach) (lastLine (source.take place))
  let stop := min (place + (reach + 1)) (place + firstLine (source.drop place))
  have hbefore : Text.piece? source 0 place = some (source.take place) :=
    Text.piece?_eq_some (Nat.zero_le place) hplace
  have hbehind : Text.piece? source place source.length = some (source.drop place) := by
    rw [Text.piece?_eq_some hplace (Nat.le_refl _), List.take_length]
  have hstart : start ≤ place := by
    have : lastLine (source.take place) ≤ place :=
      Nat.le_trans (Nat.sub_le _ _) (List.length_take_le _ _)
    omega
  have hstop : place ≤ stop ∧ stop ≤ source.length := by
    have : firstLine (source.drop place) ≤ (source.drop place).length := List.findIdx_le_length
    rw [List.length_drop] at this
    omega
  have htext : Text.piece? source start stop =
      some ((leftOf source place).reverse ++ rightFrom source place) := by
    rw [Text.piece?_eq_some (Nat.le_trans hstart hstop.1) hstop.2, reverse_leftOf hplace,
      rightFrom_eq, drop_take_eq_append hstart hstop.1 hplace]
  have hcolumn : (leftOf source place).length = place - start := by
    rw [← List.length_reverse, reverse_leftOf hplace, List.length_drop, List.length_take_of_le hplace]
  simp only [hbefore, hbehind, Option.bind_eq_bind, Option.bind_some]
  rw [htext, Option.bind_some, if_pos hstart, hcolumn]

/-- A window does not go on at a newline. -/
theorem Frames.ne_newline {source : List Char} {place start stop : Nat} {w : Window}
    (h : Frames source place start stop w) (hlt : place < stop) : source[place]? ≠ some '\n' := by
  intro hnewline
  apply h.newline_notMem_text
  have hshown := h.getElem?_text hlt
  rw [hnewline] at hshown
  exact List.mem_of_getElem? hshown

/-- The column is behind the window just where there is nothing to be shown. -/
theorem Frames.eq_stop_iff {source : List Char} {place start stop : Nat} {w : Window}
    (h : Frames source place start stop w) (hplace : place ≤ source.length - 1) :
    place = stop ↔ source = [] ∨ source[place]? = some '\n' := by
  have hle := h.le_stop
  have hlen := h.stop_le
  constructor
  · intro heq
    rcases h.right_end with hend | hnewline | hreach
    · left
      apply List.eq_nil_of_length_eq_zero
      omega
    · right
      rw [heq]
      exact hnewline
    · omega
  · rintro (rfl | hnewline)
    · simp only [List.length_nil] at hlen
      omega
    · by_contra hne
      exact h.ne_newline (by omega) hnewline

end Window

open Window

/-! ## Top theorem -/

/-- Whatever the position, the window can be cut out.  It ends at the ends of the line, or where it is
out of reach, and the position is inside it or, at a newline and in an empty source, just behind it. -/
theorem window_within_bounds (source : List Char) (position : Nat) :
    cut? source position = some (around source position) ∧
    ∃ start stop, (around source position).Frames source (clamp source position) start stop ∧
      clamp source position - start ≤ 32 ∧ stop - clamp source position ≤ 33 ∧
      '\n' ∉ (around source position).text ∧ (around source position).text.length ≤ 65 ∧
      (around source position).column ≤ (around source position).text.length ∧
      ((around source position).column = (around source position).text.length ↔
        source = [] ∨ source[clamp source position]? = some '\n') := by
  obtain ⟨start, stop, hframes⟩ := exists_frames_around source position
  have hplace : clamp source position ≤ source.length - 1 := Nat.min_le_right _ _
  have hreach : reach = 32 := rfl
  have hstart := hframes.start_le
  have hstop := hframes.le_stop
  have hleft := hframes.left_le
  have hright := hframes.right_le
  have hcolumn := hframes.column_eq
  have hlength := hframes.length_text
  refine ⟨cut?_eq source position, start, stop, hframes, by omega, by omega,
    hframes.newline_notMem_text, by omega, by omega, ?_⟩
  rw [← hframes.eq_stop_iff hplace]
  omega

/-- Between two newlines, behind the text, and without one. -/
example : Window.around "a\n\nb".toList 2 = ⟨[], 0⟩ ∧
    Window.around "+\t".toList 9 = ⟨['+', ' '], 1⟩ ∧ Window.around [] 9 = ⟨[], 0⟩ := by
  decide

end Brainfuck
