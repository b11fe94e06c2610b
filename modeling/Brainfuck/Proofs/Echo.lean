import Brainfuck.Proofs.Scenes

/-!
# Echo

The program `,[.[-],]` writes the message at the beginning of its input, and nothing else
(`echo_writes_message`).

One induction for each loop: `leads_clear` on the value of the cell, `leads_echo` on the message.  The loop
around is left when a read has brought nothing to a cell that has been cleared before.
-/

namespace Brainfuck

open CommandLine

namespace Structured

open Executable

variable {rest : Tree} {ip n : Nat} {l r i o : List UInt8}

/-- `[-]` -/
theorem leads_clear (c : UInt8) :
    Leads ⟨.loop (.step .decrement .done) rest, ip, l, c, r, i, o, n⟩ ⟨rest, ip + 3, l, 0, r, i, o, n⟩ := by
  induction hc : c.toNat generalizing c with
  | zero =>
    obtain rfl : c = 0 := UInt8.toNat_inj.1 hc
    exact leads_out rfl
  | succ k ih =>
    have hne : c ≠ 0 := by
      rintro rfl
      cases hc
    have hless : (c - 1).toNat = k := by
      rw [UInt8.toNat_sub_of_le c 1 (by rw [UInt8.le_iff_toNat_le]; simp; omega)]
      simp
      omega
    exact (leads_again hne leads_decrement).trans (ih (c - 1) hless)

/-- `.[-],` -/
def echoBody : Tree := .step .output (.loop (.step .decrement .done) (.step .input .done))

/-- `,[.[-],]` -/
def echo : Tree := .step .input (.loop echoBody .done)

/-- Behind the read of the first byte. -/
theorem leads_echo (input : List UInt8) :
    Leads ⟨.loop echoBody .done, 1, [], received input, r, input.tail, o, n⟩
      ⟨.done, 8, [], 0, r, input.drop ((message input).length + 1), o ++ message input,
        n + (message input).length⟩ := by
  induction hm : message input generalizing input o n with
  | nil =>
    rw [received_of_message_nil hm, List.append_nil, ← List.drop_one]
    exact leads_out rfl
  | cons b m ih =>
    obtain ⟨hreceived, hb, input, rfl, hrest⟩ := received_of_message_cons hm
    have hbody : Leads ⟨echoBody, 2, [], b, r, input, o, n⟩
        ⟨.done, 7, [], received input, r, input.tail, o ++ [b], n + 1⟩ :=
      (leads_output.trans (leads_clear b)).trans leads_input
    have hround : Leads ⟨.loop echoBody .done, 1, [], b, r, input, o, n⟩
        ⟨.loop echoBody .done, 1, [], received input, r, input.tail, o ++ [b], n + 1⟩ :=
      leads_again hb hbody
    have hrounds := hround.trans (ih input hrest)
    rw [List.append_assoc, Nat.add_right_comm] at hrounds
    rw [hreceived]
    exact hrounds

end Structured

open Executable Structured

/-- Neither the bytes behind the message nor the length of the tape matter. -/
theorem echo_writes_message (tapeLength : Nat) (input : List UInt8) (sink : Sink)
    (hsink : ({ sink := sink } : Console).Reliable) :
    ∃ exe r t, (Program.parse ",[.[-],]").link = .ok exe ∧
      exe.call {} (.initial tapeLength { script := input.map .byte, sink := sink }) = some (r, t) ∧
      r.stop = .finished ∧
      t.console.sink.stored = sink.stored ++ (message input).toArray ∧
      t.console.reads = (message input).length + 1 ∧
      t.console.script = (input.drop ((message input).length + 1)).map .byte ∧
      t.tape = .blank tapeLength := by
  have htree : echo.instructions = (Program.parse ",[.[-],]").instructions := rfl
  have hends : Leads ⟨echo, 0, .start tapeLength input sink.stored⟩ _ :=
    leads_input.trans (leads_echo input)
  obtain ⟨exe, r, t, hlink, hcall, hstop, hseen⟩ := call_of_leads htree hsink hends
  have hstored : t.console.sink.stored = (sink.stored.toList ++ message input).toArray :=
    hseen.streams.stored_eq
  have hreads : t.console.reads = 0 + 1 + (message input).length := hseen.reads_eq
  refine ⟨exe, r, t, hlink, hcall, hstop, ?_, ?_, hseen.streams.script_eq, ?_⟩
  · rw [hstored]
    simp
  · omega
  · rw [Tape.blank_eq_zipper]
    exact hseen.tape_eq

/-- The 26 is not written, nor what stands behind it; an interrupted write is made again. -/
theorem echo_writes_message_sentinel :
    ∃ exe r t, (Program.parse ",[.[-],]").link = .ok exe ∧
      exe.call {} (.initial 1 ⟨[72, 105, 26, 33].map .byte, { interruptedWrites := [1] }, #[]⟩) =
        some (r, t) ∧
      r.stop = .finished ∧ t.console.sink.stored = #[72, 105] ∧
      t.console.reads = 3 ∧ t.console.script = [.byte 33] ∧ t.tape = .blank 1 :=
  echo_writes_message 1 [72, 105, 26, 33] { interruptedWrites := [1] }
    ⟨⟨rfl, List.forall_mem_nil _⟩, List.forall_mem_nil _, List.forall_mem_nil _⟩

end Brainfuck
