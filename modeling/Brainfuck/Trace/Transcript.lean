/-!
# Transcripts

The text a trace is written to.  It may have room for so many characters only; a piece that
does not fit is cut off where the room ends, and the writing of it fails.
-/

namespace Brainfuck.Trace

structure Transcript where
  /-- How many more characters fit; `none` is no bound. -/
  room : Option Nat
  text : String
deriving DecidableEq

namespace Transcript

def empty (room : Option Nat) : Transcript := ⟨room, ""⟩

def append (piece : String) : Transcript → Except String Unit × Transcript
  | ⟨none, text⟩ => (.ok (), ⟨none, text ++ piece⟩)
  | ⟨some room, text⟩ =>
    if piece.length ≤ room then (.ok (), ⟨some (room - piece.length), text ++ piece⟩)
    else (.error "trace full", ⟨some 0, text ++ String.ofList (piece.toList.take room)⟩)

theorem text_of_append_ok {piece : String} {t u : Transcript} (h : t.append piece = (.ok (), u)) :
    u.text = t.text ++ piece := by
  obtain ⟨_ | room, text⟩ := t <;> simp only [append] at h
  · cases h
    rfl
  · split at h <;> cases h
    rfl

/-- What is cut off is missing. -/
theorem length_text_of_append_error {piece cause : String} {t u : Transcript}
    (h : t.append piece = (.error cause, u)) :
    t.text.length ≤ u.text.length ∧ u.text.length < t.text.length + piece.length := by
  obtain ⟨_ | room, text⟩ := t <;> simp only [append] at h
  · cases h
  · split at h
    · cases h
    · cases h
      simp
      omega

end Transcript

end Brainfuck.Trace
