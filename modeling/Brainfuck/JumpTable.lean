import Brainfuck.Program
import Brainfuck.RunError

/-!
# Matching brackets

`JumpTable.resolve` pairs every `[` with its `]` in one scan that keeps the open brackets on a
stack.  The first `]` with nothing to close is blamed at once; a `[` still open at the end is
blamed only then, the innermost of them.
-/

namespace Brainfuck

/-- For each instruction the index of its partner, if it is a bracket. -/
structure JumpTable where
  slots : Array (Option Nat)
  loopCount : Nat
deriving DecidableEq

namespace JumpTable

def size (t : JumpTable) : Nat := t.slots.size

def partner? (t : JumpTable) (ip : Nat) : Option Nat := t.slots[ip]?.join

/-- A table of `n` instructions in which nothing is paired yet. -/
def unpaired (n : Nat) : JumpTable := ⟨Array.replicate n none, 0⟩

/-- Pair the `[` at `i` with the `]` at `j`. -/
def pair (t : JumpTable) (i j : Nat) : JumpTable :=
  ⟨(t.slots.setIfInBounds i (some j)).setIfInBounds j (some i), t.loopCount + 1⟩

/-- Go on at instruction `ip`, where `unclosed` holds the brackets still open, innermost first. -/
def scan : List Instruction → Nat → List Nat → JumpTable → Except RunError JumpTable
  | [], _, [], t => .ok t
  | [], _, i :: _, _ => .error (.unbalanced i .opening)
  | .loopStart :: rest, ip, unclosed, t => scan rest (ip + 1) (ip :: unclosed) t
  | .loopEnd :: _, ip, [], _ => .error (.unbalanced ip .closing)
  | .loopEnd :: rest, ip, i :: unclosed, t => scan rest (ip + 1) unclosed (t.pair i ip)
  | _ :: rest, ip, unclosed, t => scan rest (ip + 1) unclosed t

def resolve (instructions : List Instruction) : Except RunError JumpTable :=
  scan instructions 0 [] (unpaired instructions.length)

/-! ## Lemmas -/

@[simp] theorem size_unpaired (n : Nat) : (unpaired n).size = n := by
  simp [unpaired, size]

@[simp] theorem partner?_unpaired (n ip : Nat) : (unpaired n).partner? ip = none := by
  simp only [unpaired, partner?, Array.getElem?_replicate]
  split <;> rfl

@[simp] theorem size_pair (t : JumpTable) (i j : Nat) : (t.pair i j).size = t.size := by
  simp [pair, size]

theorem partner?_pair (t : JumpTable) {i j : Nat} (hi : i < t.size) (hj : j < t.size) (ip : Nat) :
    (t.pair i j).partner? ip =
      if ip = j then some i else if ip = i then some j else t.partner? ip := by
  unfold size at hi hj
  simp only [pair, partner?, Array.getElem?_setIfInBounds, Array.size_setIfInBounds, hi, hj, if_true,
    eq_comm (a := ip)]
  split
  · rfl
  · split <;> rfl

end JumpTable

end Brainfuck
