import Brainfuck.Proofs.Retry

/-!
# Time slices

A run may be cut into calls with any limits, and ends as if it had not been cut
(`sliced_calls_end_alike`), as long as no device fails.

Of two consoles without faults each mends the other, so two machines that agree at such consoles
run alike (`simulates_alike`).  A slice goes some way along the run it was cut from, and its flush
is no more than a difference between such consoles (`alike_of_slice`).
-/

namespace Brainfuck

namespace Console

theorem Reliable.mends_self {c : Console} (h : c.Reliable) : Mends 0 c c where
  sink_open := h.sink_open
  faults_le := Nat.le_of_eq h.faults_eq
  reliable := h
  arrivals_eq := rfl
  stored_eq := rfl
  deliveries_eq := rfl

theorem Mends.trans {n : Nat} {c d e : Console} (h : Mends n c d) (h' : Mends 0 d e) : Mends n c e where
  sink_open := h.sink_open
  faults_le := h.faults_le
  reliable := h'.reliable
  arrivals_eq := h'.arrivals_eq.trans h.arrivals_eq
  stored_eq := h'.stored_eq.trans h.stored_eq
  deliveries_eq := h'.deliveries_eq.trans h.deliveries_eq

theorem Later.refl (c : Console) : Later c c := ⟨List.suffix_rfl, List.prefix_rfl⟩

end Console

theorem State.Mends.trans {n : Nat} {s t u : State} (h : s.Mends n t) (h' : t.Mends 0 u) : s.Mends n u :=
  ⟨h.agrees.trans h'.agrees, h.console.trans h'.console⟩

namespace Executable

/-- Two calls stop for the same reason and leave the same behind, or neither ends. -/
def Alike : Option (Report × State) → Option (Report × State) → Prop :=
  Option.Rel fun x y => x.1.stop = y.1.stop ∧ x.2.Mends 0 y.2

variable {exe : Executable} {s s' t : State} {r : Report} {c : Call}

theorem Alike.trans {x y z : Option (Report × State)} (h : Alike x y) (h' : Alike y z) : Alike x z := by
  cases h with
  | none => exact h'
  | some h =>
    cases h' with
    | some h' => exact .some ⟨h.1.trans h'.1, h.2.trans h'.2⟩

theorem Alike.of_execute_eq {x : Option (Report × State)} (h : Alike x (exe.call c s))
    (he : exe.execute c s = exe.execute c t) : Alike x (exe.call c t) := by
  cases hs : exe.call c s with
  | none =>
    rw [call_eq_none_iff.2 (he ▸ call_eq_none_iff.1 hs)]
    rwa [hs] at h
  | some y =>
    obtain ⟨r, u⟩ := y
    obtain ⟨r', ht, hr⟩ := call_of_execute_eq he hs
    rw [hs] at h
    rw [ht]
    cases h with
    | some h => exact .some ⟨h.1.trans hr.symm, h.2⟩

/-! ## One slice -/

theorem simulates_alike (exe : Executable) :
    exe.real.Simulates exe.real (State.Mends 0) (fun _ => False) (fun _ _ _ => False) where
  next?_eq := (exe.simulates_mended 0).next?_eq
  perform h hi hp := by
    rcases (exe.simulates_mended 0).perform h hi hp with ⟨t', ht, h', -⟩ | ⟨_, -, -, m, hm, -⟩
    · exact Or.inl ⟨t', ht, h', fun _ _ => id⟩
    · cases hm

/-- The same call on machines that agree, at consoles without faults. -/
theorem alike_of_mends (limit : Option Nat) (h : s.Mends 0 t) :
    Alike (exe.call ⟨.real, limit⟩ s) (exe.call ⟨.real, limit⟩ t) := by
  have hrun := exe.simulates_alike.runWithin limit s.steps h
  refine rel_call_of_runWithin (Q := fun x y => x.1 = y.1 ∧ x.2.Mends 0 y.2) h.agrees.steps_eq hrun
    fun stop u v h' => ?_
  obtain ⟨hleft, hstop | ⟨-, -, m, hm, -⟩⟩ := conclude_mends_left stop h'
  · obtain ⟨hstop', hright⟩ := conclude_mends_right stop hleft
    exact ⟨hstop.trans hstop'.symm, hright⟩
  · cases hm

/-- Behind a slice a call ends as it would have ended before. -/
theorem alike_of_slice {l : Nat} (limit : Option Nat) (hs : s.console.Reliable)
    (hl : ∀ L, limit = some L → l ≤ L) (h : exe.call ⟨.real, some l⟩ s = some (r, s')) :
    Alike (exe.call ⟨.real, limit⟩ s') (exe.call ⟨.real, limit⟩ s) := by
  obtain ⟨stop, u, he, hconclude⟩ := call_cases h
  have hu : u = (exe.real.runFor (l - s.steps) s).2 := by
    rw [execute_real_limit, Option.some.injEq, Prod.mk.injEq, Prod.mk.injEq] at he
    exact he.2.1.symm
  have hreliable : u.console.Reliable := by
    rw [hu]
    exact (steady_real exe).invariant _ hs
  have hflushed : s'.Mends 0 u := by
    have hself : u.Mends 0 u := ⟨⟨rfl, rfl, rfl⟩, hreliable.mends_self⟩
    have := (conclude_mends_left stop hself).1
    rwa [hconclude] at this
  have hresume : exe.execute ⟨.real, limit⟩ u = exe.execute ⟨.real, limit⟩ s := by
    rw [hu]
    exact execute_resume hs fun L hL => Nat.sub_le_sub_right (hl L hL) _
  exact (alike_of_mends limit hflushed).of_execute_eq hresume

/-! ## Many slices -/

theorem exists_calls_slices (exe : Executable) {ls : List Nat} {limit : Option Nat}
    (hs : s.console.Reliable) (hls : ∀ L, limit = some L → ∀ l ∈ ls, l ≤ L) :
    ∃ slices u, slices.length = ls.length ∧
      (∀ cs, exe.calls (ls.map (⟨.real, some ·⟩) ++ cs) s = slices ++ exe.calls cs u) ∧
      Alike (exe.call ⟨.real, limit⟩ u) (exe.call ⟨.real, limit⟩ s) := by
  induction ls generalizing s with
  | nil =>
    exact ⟨[], s, rfl, fun cs => rfl, alike_of_mends limit ⟨⟨rfl, rfl, rfl⟩, hs.mends_self⟩⟩
  | cons l ls ih =>
    obtain ⟨⟨r, s'⟩, hcall⟩ := Option.isSome_iff_exists.1 (exe.isSome_call_of_limit .real l s)
    have hslice := alike_of_slice limit hs (fun L hL => hls L hL l List.mem_cons_self) hcall
    obtain ⟨slices, u, hlen, hcalls, halike⟩ := ih (Console.kept_reliable.call hs hcall)
      fun L hL l hl => hls L hL l (List.mem_cons_of_mem _ hl)
    refine ⟨(r, s') :: slices, u, congrArg (· + 1) hlen, fun cs => ?_, halike.trans hslice⟩
    rw [List.map_cons, List.cons_append, calls_cons hcall, hcalls, List.cons_append]

/-- Each call finds the input where the last one left it, and adds to its output. -/
theorem pairwise_later_calls (exe : Executable) (cs : List Call) (s : State) :
    (exe.calls cs s).Pairwise fun x y => x.2.console.Later y.2.console := by
  induction cs generalizing s with
  | nil => exact .nil
  | cons c cs ih =>
    unfold calls
    split
    · next r s' hcall =>
      have hrest : ∀ y ∈ exe.calls cs s', s'.console.Later y.2.console :=
        (Console.kept_later s'.console).calls (Console.Later.refl _)
      exact List.pairwise_cons.2 ⟨hrest, ih s'⟩
    · exact .nil

end Executable

/-! ## Top theorem -/

/-- Slices with limits up to that of the last call, which may have none, change nothing: not how that
call stops, nor what it leaves. -/
theorem sliced_calls_end_alike (exe : Executable) (s : State) (hs : s.console.Reliable)
    (ls : List Nat) (limit : Option Nat) (hls : ∀ L, limit = some L → ∀ l ∈ ls, l ≤ L) :
    let sliced := exe.calls (ls.map (⟨.real, some ·⟩) ++ [⟨.real, limit⟩]) s
    (limit.isSome → (exe.call ⟨.real, limit⟩ s).isSome) ∧
    (∀ r t, exe.call ⟨.real, limit⟩ s = some (r, t) →
      ∃ slices r' t', sliced = slices ++ [(r', t')] ∧ slices.length = ls.length ∧
        r'.stop = r.stop ∧ t'.Agrees t ∧ t'.console.arrivals = t.console.arrivals ∧
        t'.console.sink.stored = t.console.sink.stored) ∧
    (exe.call ⟨.real, limit⟩ s = none → sliced.length = ls.length) ∧
    sliced.Pairwise fun x y =>
      x.2.console.sink.stored.toList <+: y.2.console.sink.stored.toList := by
  intro sliced
  obtain ⟨slices, u, hlen, hcalls, halike⟩ := exe.exists_calls_slices hs hls
  have hsliced : sliced = slices ++ exe.calls [⟨.real, limit⟩] u := hcalls _
  refine ⟨fun hlimit => ?_, fun r t hcall => ?_, fun hnone => ?_, ?_⟩
  · obtain ⟨L, rfl⟩ := Option.isSome_iff_exists.1 hlimit
    exact exe.isSome_call_of_limit _ L s
  · rw [hcall] at halike
    cases hlast : exe.call ⟨.real, limit⟩ u with
    | none =>
      rw [hlast] at halike
      cases halike
    | some y =>
      obtain ⟨r', t'⟩ := y
      rw [hlast] at halike
      cases halike with
      | some h =>
        rw [Executable.calls_singleton hlast] at hsliced
        exact ⟨slices, r', t', hsliced, hlen, h.1, h.2.agrees, h.2.console.arrivals_eq.symm,
          h.2.console.stored_eq.symm⟩
  · rw [hnone] at halike
    cases hlast : exe.call ⟨.real, limit⟩ u with
    | none =>
      have hnil : exe.calls [⟨.real, limit⟩] u = [] := by simp only [Executable.calls, hlast]
      rw [hsliced, hnil, List.append_nil, hlen]
    | some y =>
      rw [hlast] at halike
      cases halike
  · exact (exe.pairwise_later_calls _ s).imp And.right

/-- A loop that copies its input, cut twice inside the loop; the second slice is no slice at all. -/
theorem sliced_calls_end_alike_copy :
    ∃ exe slices r t, (Program.parse "+[,.]").link = .ok exe ∧
      exe.calls [⟨.real, some 3⟩, ⟨.real, some 1⟩, ⟨.real, some 8⟩, ⟨.real, some 40⟩]
        (.initial 1 { script := [.byte 7, .interrupted, .byte 8, .byte 0] }) = slices ++ [(r, t)] ∧
      slices.length = 3 ∧ r.stop = .finished ∧ t.steps = 14 ∧
      t.console.sink.stored = #[7, 8, 0] := by
  let exe : Executable := ⟨.parse "+[,.]", ⟨#[none, some 4, none, none, some 1], 1⟩, rfl⟩
  let start : State := .initial 1 { script := [.byte 7, .interrupted, .byte 8, .byte 0] }
  have hlink : (Program.parse "+[,.]").link = .ok exe := (Program.link_eq_ok_iff _ _).2 rfl
  have hreliable : start.console.Reliable :=
    ⟨⟨rfl, List.forall_mem_nil _⟩, by decide, List.forall_mem_nil _⟩
  obtain ⟨r, t, hcall, hstop, hsteps, hstored⟩ : ∃ r t,
      exe.call ⟨.real, some 40⟩ start = some (r, t) ∧
      r.stop = .finished ∧ t.steps = 14 ∧ t.console.sink.stored = #[7, 8, 0] :=
    ⟨_, _, rfl, rfl, rfl, rfl⟩
  have hlimits : ∀ L, some 40 = some L → ∀ l ∈ [3, 1, 8], l ≤ L := by
    rintro _ ⟨⟩
    decide
  obtain ⟨-, hend, -⟩ :=
    sliced_calls_end_alike exe start hreliable [3, 1, 8] (some 40) hlimits
  obtain ⟨slices, r', t', hsliced, hlen, hstop', hagrees, -, hstored'⟩ := hend r t hcall
  refine ⟨exe, slices, r', t', hlink, hsliced, hlen, ?_, ?_, ?_⟩
  · rw [hstop', hstop]
  · rw [hagrees.steps_eq, hsteps]
  · rw [hstored', hstored]

end Brainfuck
