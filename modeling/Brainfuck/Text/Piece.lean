/-!
# Pieces of texts

A piece of a text, cut out between two places.  Of a text in UTF-8, given by its bytes, a piece begins
and ends between two characters.
-/

namespace Brainfuck.Text

/-- The elements from `start` to `stop`, if these are in order and `stop` is not behind the end. -/
def piece? {α : Type} (text : List α) (start stop : Nat) : Option (List α) :=
  if start ≤ stop ∧ stop ≤ text.length then some ((text.take stop).drop start) else none

theorem piece?_eq_some {α : Type} {text : List α} {start stop : Nat} (h : start ≤ stop)
    (hstop : stop ≤ text.length) : piece? text start stop = some ((text.take stop).drop start) :=
  if_pos ⟨h, hstop⟩

namespace Utf8

/-- Whether a character begins at a place, or the text ends there. -/
def isBoundary (bytes : List UInt8) (place : Nat) : Bool :=
  bytes[place]?.all fun b => b < 0x80 || 0xC0 ≤ b

/-- The bytes from `start` to `stop`, if these are between characters as well. -/
def piece? (bytes : List UInt8) (start stop : Nat) : Option (List UInt8) :=
  if isBoundary bytes start && isBoundary bytes stop then Text.piece? bytes start stop else none

/-- Between bytes below 0x80 a text can be cut anywhere. -/
theorem piece?_eq_some {bytes : List UInt8} {start stop : Nat}
    (hbytes : bytes.all (· < 0x80) = true) (h : start ≤ stop) (hstop : stop ≤ bytes.length) :
    piece? bytes start stop = some ((bytes.take stop).drop start) := by
  have hboundary : ∀ place, isBoundary bytes place = true := by
    intro place
    cases hb : bytes[place]? with
    | none => simp [isBoundary, hb]
    | some b =>
      have := List.all_eq_true.1 hbytes b (List.mem_of_getElem? hb)
      simp [isBoundary, hb, of_decide_eq_true this]
  rw [piece?, hboundary, hboundary]
  exact Text.piece?_eq_some h hstop

end Utf8

end Brainfuck.Text
