import Brainfuck.Proofs.Scenes

/-!
# Reversal

The program `>,[>,]<[.<]` keeps its message on the tape, behind a cell that stays zero, and writes it from
the end to the beginning.  It needs two cells more than there are bytes in the message; on a shorter tape it
runs off the end before it has written anything (`reversal_or_overflow`).

The cells left of the pointer serve as a stack, on which one loop pushes (`leads_store`, `fails_store`) and
from which the other pops (`leads_unload`).
-/

namespace Brainfuck

open CommandLine

namespace Structured

open Executable

variable {rest : Tree} {n room : Nat} {l r i o bs : List UInt8} {c : UInt8}

/-- `>,` -/
def storeBody : Tree := .step .right (.step .input .done)

/-- `.<` -/
def unloadBody : Tree := .step .output (.step .left .done)

/-- `<[.<]` -/
def unload : Tree := .step .left (.loop unloadBody .done)

/-- `>,[>,]<[.<]` -/
def reversal : Tree := .step .right (.step .input (.loop storeBody unload))

/-- Once through the first loop. -/
theorem leads_store_next (input : List UInt8) (hc : c ≠ 0) :
    Leads ⟨.loop storeBody rest, 2, l, c, .replicate (room + 1) 0, input, o, n⟩
      ⟨.loop storeBody rest, 2, c :: l, received input, .replicate room 0, input.tail, o, n + 1⟩ :=
  leads_again hc (leads_right.trans leads_input)

/-- All of the message is pushed where there is room for it and for a zero. -/
theorem leads_store (input : List UInt8) (hroom : (message input).length ≤ room) :
    Leads ⟨.loop storeBody rest, 2, l, received input, .replicate room 0, input.tail, o, n⟩
      ⟨rest, 6, (message input).reverse ++ l, 0, .replicate (room - (message input).length) 0,
        input.drop ((message input).length + 1), o, n + (message input).length⟩ := by
  induction hm : message input generalizing input l n room with
  | nil =>
    rw [received_of_message_nil hm, ← List.drop_one]
    exact leads_out rfl
  | cons b m ih =>
    obtain ⟨hreceived, hb, input, rfl, hrest⟩ := received_of_message_cons hm
    rw [hm, List.length_cons] at hroom
    obtain ⟨room, rfl⟩ : ∃ k, room = k + 1 := ⟨room - 1, by omega⟩
    have hfits : (message input).length ≤ room := by
      rw [hrest]
      omega
    have hround : Leads ⟨.loop storeBody rest, 2, l, b, .replicate (room + 1) 0, input, o, n⟩
        ⟨.loop storeBody rest, 2, b :: l, received input, .replicate room 0, input.tail, o, n + 1⟩ :=
      leads_store_next input hb
    have hrounds := hround.trans (ih input hfits hrest)
    rw [Nat.add_right_comm] at hrounds
    rw [hreceived, List.reverse_cons, List.append_assoc, List.length_cons, Nat.add_sub_add_right]
    exact hrounds

/-- Elsewhere the last cell is passed. -/
theorem fails_store (input : List UInt8) (hroom : room < (message input).length) :
    ∃ s, Fails ⟨.loop storeBody rest, 2, l, received input, .replicate room 0, input.tail, o, n⟩
      (.offTape 3 (l.length + room) .overflow) s ∧ s.written = o := by
  -- on the cells that are left, which are used up before the message is
  induction room generalizing input l n with
  | zero =>
    obtain ⟨b, m, hm⟩ := List.exists_cons_of_length_pos hroom
    obtain ⟨hreceived, hb, -⟩ := received_of_message_cons hm
    refine ⟨_, fails_inside ?_ fails_right, rfl⟩
    rwa [hreceived]
  | succ room ih =>
    obtain ⟨b, m, hm⟩ := List.exists_cons_of_length_pos (Nat.zero_lt_of_lt hroom)
    obtain ⟨hreceived, hb, input, rfl, hrest⟩ := received_of_message_cons hm
    rw [hm, List.length_cons] at hroom
    obtain ⟨s, hfails, hs⟩ := ih input (by rw [hrest]; omega)
    refine ⟨s, ?_, hs⟩
    rw [List.length_cons, Nat.succ_add_eq_add_succ] at hfails
    rw [hreceived]
    exact (leads_store_next input hb).fails hfails

/-- The stack is written and emptied, down to its zero. -/
theorem leads_unload {d : UInt8} (hbs : ∀ b ∈ bs, b ≠ 0) (hstack : d :: l = bs ++ [0]) :
    Leads ⟨.loop unloadBody .done, 7, l, d, r, i, o, n⟩
      ⟨.done, 11, [], 0, bs.reverse ++ r, i, o ++ bs, n⟩ := by
  induction bs generalizing d l r o with
  | nil =>
    cases hstack
    rw [List.append_nil]
    exact leads_out rfl
  | cons b bs ih =>
    obtain ⟨rfl, rfl⟩ := List.cons_eq_cons.1 hstack
    -- below the last byte there is still the zero, so the pointer can go left
    obtain ⟨d', l', hnext⟩ := List.exists_cons_of_ne_nil (List.concat_ne_nil 0 bs)
    have hbody : Leads ⟨unloadBody, 8, d' :: l', d, r, i, o, n⟩ ⟨.done, 10, l', d', d :: r, i, o ++ [d], n⟩ :=
      leads_output.trans leads_left
    have hround : Leads ⟨.loop unloadBody .done, 7, bs ++ [0], d, r, i, o, n⟩
        ⟨.loop unloadBody .done, 7, l', d', d :: r, i, o ++ [d], n⟩ := by
      rw [hnext]
      exact leads_again (hbs d List.mem_cons_self) hbody
    have hrounds := hround.trans (ih (fun b hb => hbs b (List.mem_cons_of_mem d hb)) hnext.symm)
    rw [List.append_assoc] at hrounds
    rw [List.reverse_cons, List.append_assoc]
    exact hrounds

end Structured

open Executable Structured

/-- One zero stands in front of the message, one behind it. -/
theorem reversal_or_overflow (tapeLength : Nat) (input : List UInt8) (sink : Sink)
    (hlength : 2 ≤ tapeLength) (hsink : ({ sink := sink } : Console).Reliable) :
    ∃ exe r t, (Program.parse ">,[>,]<[.<]").link = .ok exe ∧
      exe.call {} (.initial tapeLength { script := input.map .byte, sink := sink }) = some (r, t) ∧
      ((message input).length + 2 ≤ tapeLength →
        r.stop = .finished ∧
        t.console.sink.stored = sink.stored ++ (message input).reverse.toArray ∧
        t.tape.pointer = 0) ∧
      (tapeLength < (message input).length + 2 →
        r.stop = .failed (.offTape 3 (tapeLength - 1) .overflow) ∧
        t.console.sink.stored = sink.stored) := by
  have htree : reversal.instructions = (Program.parse ">,[>,]<[.<]").instructions := rfl
  obtain ⟨room, rfl⟩ : ∃ k, tapeLength = k + 2 := ⟨tapeLength - 2, by omega⟩
  have hstart : Leads ⟨reversal, 0, .start (room + 2) input sink.stored⟩
      ⟨.loop storeBody unload, 2, [0], received input, .replicate room 0, input.tail, sink.stored.toList, 1⟩ :=
    leads_right.trans leads_input
  by_cases hroom : (message input).length ≤ room
  · have hstored := hstart.trans (leads_store input hroom)
    obtain ⟨d, l, hstack⟩ := List.exists_cons_of_ne_nil (List.concat_ne_nil 0 (message input).reverse)
    have hnonzero : ∀ b ∈ (message input).reverse, b ≠ 0 := fun b hb =>
      ne_zero_of_mem_message (List.mem_reverse.1 hb)
    rw [hstack] at hstored
    have hends := hstored.trans (leads_left.trans (leads_unload hnonzero hstack.symm))
    obtain ⟨exe, r, t, hlink, hcall, hstop, hseen⟩ := call_of_leads htree hsink hends
    have hwritten : t.console.sink.stored = (sink.stored.toList ++ (message input).reverse).toArray :=
      hseen.streams.stored_eq
    refine ⟨exe, r, t, hlink, hcall, fun _ => ⟨hstop, ?_, congrArg Tape.pointer hseen.tape_eq⟩, fun h => ?_⟩
    · rw [hwritten]
      simp
    · omega
  · obtain ⟨s, hpassed, hs⟩ := fails_store input (Nat.lt_of_not_le hroom)
    have hfails := hstart.fails hpassed
    have hlast : [(0 : UInt8)].length + room = room + 2 - 1 := Nat.add_comm 1 room
    rw [hlast] at hfails
    obtain ⟨exe, r, t, hlink, hcall, hstop, hseen⟩ := call_of_fails htree hsink rfl hfails
    have hwritten : t.console.sink.stored = s.written.toArray := hseen.streams.stored_eq
    refine ⟨exe, r, t, hlink, hcall, fun h => ?_, fun _ => ⟨hstop, ?_⟩⟩
    · omega
    · rw [hwritten, hs]

/-- The same three bytes, on five cells and on four. -/
theorem reversal_or_overflow_boundary :
    ∃ exe r t r' t', (Program.parse ">,[>,]<[.<]").link = .ok exe ∧
      exe.call {} (.initial 5 { script := [97, 98, 99, 26, 100].map .byte }) = some (r, t) ∧
      r.stop = .finished ∧ t.console.sink.stored = #[99, 98, 97] ∧ t.tape.pointer = 0 ∧
      exe.call {} (.initial 4 { script := [97, 98, 99, 26, 100].map .byte }) = some (r', t') ∧
      r'.stop = .failed (.offTape 3 3 .overflow) ∧ t'.console.sink.stored = #[] := by
  let input : List UInt8 := [97, 98, 99, 26, 100]
  have hreliable : ({} : Console).Reliable :=
    ⟨⟨rfl, List.forall_mem_nil _⟩, List.forall_mem_nil _, List.forall_mem_nil _⟩
  obtain ⟨exe, r, t, hlink, hcall, hfits, -⟩ := reversal_or_overflow 5 input {} (by decide) hreliable
  obtain ⟨exe', r', t', hlink', hcall', -, hfails⟩ := reversal_or_overflow 4 input {} (by decide) hreliable
  obtain rfl : exe = exe' := Except.ok.inj (hlink.symm.trans hlink')
  obtain ⟨hstop, hstored, hpointer⟩ := hfits (by decide)
  obtain ⟨hstop', hstored'⟩ := hfails (by decide)
  exact ⟨exe, r, t, r', t', hlink, hcall, hstop, hstored, hpointer, hcall', hstop', hstored'⟩

end Brainfuck
