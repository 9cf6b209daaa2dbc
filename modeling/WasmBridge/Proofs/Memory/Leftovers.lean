import WasmBridge.Proofs.Memory.Requests

/-!
# What a failed call leaves behind

Giving back, reading, writing and growing look at everything that can be wrong before
they change anything, so where they fail the memory is what it was. Two calls do not.

* A request places its block first and makes the pointer afterwards. A length that no
  pointer can hold, or a block that starts too far behind, is noticed when the block is
  live already. It stays live, and nobody has a pointer to it.
* A word is cleared before the number is put there. A number that does not fit is
  noticed when the word is gone.

`failed_call_keeps_memory_iff` says that these are all the ways in which a failed call
can change the memory, and exactly when it does.
-/

namespace WasmBridge.LinearMemory

open FatPtr

variable {m m' fresh : LinearMemory} {b : Block} {length offset value : Int}

/-! ## Failing -/

/-- How a call ends, without what it returns. -/
def Call.ending (m : LinearMemory) : Call → Except BoundaryError Unit
  | malloc length => (outcome (LinearMemory.malloc length) m).map fun _ => ()
  | free fat => outcome (LinearMemory.free fat) m
  | read fat => (m.read fat).map fun _ => ()
  | write fat payload => outcome (LinearMemory.write fat payload) m
  | grow extra => outcome (LinearMemory.grow extra) m
  | readWord offset => (m.readWord offset).map fun _ => ()
  | writeWord offset value => outcome (LinearMemory.writeWord offset value) m

/-- The call fails. -/
def Call.Fails (m : LinearMemory) (call : Call) : Prop := ∃ e, call.ending m = .error e

instance (m : LinearMemory) (call : Call) : Decidable (call.Fails m) :=
  match h : call.ending m with
  | .ok () => .isFalse fun ⟨_, he⟩ => nomatch h.symm.trans he
  | .error e => .isTrue ⟨e, h⟩

/-- By the time at which the call can fail it has changed the memory: its block is live, or the word
that it is to write is cleared and was not zero. -/
def Call.Halfway (m : LinearMemory) : Call → Prop
  | malloc length => m.HasRoom (m.blockSize length)
  | writeWord offset _ =>
    isIndex offset = true ∧ ∃ start, m.wordStart offset = .ok start ∧ m.wordAt start ≠ 0
  | _ => False

/-- What a call that fails halfway leaves behind. -/
inductive Call.Leaves (m : LinearMemory) : Call → LinearMemory → Prop where
  /-- A block is live that no pointer with the requested length can lead to. -/
  | block {length : Int} {b : Block} {m' : LinearMemory} (placed : Placed m m' length b)
      (unfit : ∀ fat, ¬ Packs fat b.start length) : Leaves m (malloc length) m'
  /-- A word is zero, for the number does not fit one. -/
  | zero {offset value start : Int} (place : m.wordStart offset = .ok start)
      (unfit : value < 0 ∨ 0x100000000 ≤ value) :
      Leaves m (writeWord offset value) (m.setBytes start [0, 0, 0, 0])

/-! ## One call after the other -/

/-- An operation that either returns or keeps the memory keeps it when it fails. -/
theorem stateAfter_of_fails {α : Type} {op : MemoryOp α} {e : BoundaryError}
    (hcases : (∃ a m', op m = .ok a m') ∨ ∃ e, op m = .error e m)
    (hfails : outcome op m = .error e) : stateAfter op m = m := by
  rcases hcases with ⟨a, m', hr⟩ | ⟨e', hr⟩
  · rw [outcome_ok hr] at hfails
    cases hfails
  · exact stateAfter_error hr

/-- A placed block makes a difference. -/
theorem Placed.ne (h : Placed m m' length b) : m' ≠ m := by
  intro heq
  have hlive := congrArg List.length h.live
  rw [heq, List.length_cons] at hlive
  omega

theorem malloc_failed (h : Tiled m) (hb : m.Bounded) (hfails : (Call.malloc length).Fails m) :
    (stateAfter (malloc length) m = m ↔ ¬ m.HasRoom (m.blockSize length))
      ∧ (m.HasRoom (m.blockSize length) →
          (Call.malloc length).Leaves m (stateAfter (malloc length) m)) := by
  obtain ⟨e, he⟩ := hfails
  rcases request_cases h hb length with ⟨hroom, b, m', hplaced, hr⟩ | ⟨hfull, e', hr⟩
  · rw [stateAfter_orFail hr]
    refine ⟨iff_of_false hplaced.ne (fun hfull => hfull hroom), fun _ => .block hplaced ?_⟩
    -- the block was there, so it is the pointer that could not be made
    intro fat hpacks
    rw [pack_eq_ok_iff.mpr hpacks] at hr
    simp only [Call.ending, outcome_ok hr] at he
    cases he
  · rw [stateAfter_error hr]
    exact ⟨iff_of_true rfl hfull, fun hroom => absurd hroom hfull⟩

theorem writeWord_failed (hfails : (Call.writeWord offset value).Fails m) :
    (stateAfter (writeWord offset value) m = m ↔ ¬ (Call.writeWord offset value).Halfway m)
      ∧ ((Call.writeWord offset value).Halfway m →
          (Call.writeWord offset value).Leaves m (stateAfter (writeWord offset value) m)) := by
  obtain ⟨e, he⟩ := hfails
  by_cases hidx : isIndex offset = true
  swap
  · have hr : writeWord offset value m = .error .writeOffsetRange m := by simp [writeWord, hidx]
    rw [stateAfter_error hr]
    have hnot : ¬ (Call.writeWord offset value).Halfway m := fun h => hidx h.1
    exact ⟨iff_of_true rfl hnot, fun h => absurd h hnot⟩
  cases hstart : m.wordStart offset with
  | error cause =>
    have hr : writeWord offset value m = .error cause m := by simp [writeWord, hidx, hstart]
    have hnot : ¬ (Call.writeWord offset value).Halfway m := by
      rintro ⟨-, start, hsome, -⟩
      rw [hstart] at hsome
      cases hsome
    rw [stateAfter_error hr]
    exact ⟨iff_of_true rfl hnot, fun h => absurd h hnot⟩
  | ok start =>
    by_cases hfits : value < 0 ∨ 0x100000000 ≤ value
    · have hr : writeWord offset value m
          = .error .wordAccess (m.setBytes start [0, 0, 0, 0]) := by
        simp [writeWord, hidx, hstart, hfits]
      rw [stateAfter_error hr]
      refine ⟨?_, fun _ => .zero hstart hfits⟩
      -- clearing a word is writing zero to it, which changes nothing if zero stands there
      rw [show ([0, 0, 0, 0] : List UInt8) = bytesOfWord 0 from rfl,
        setBytes_eq_self_iff (Int.le_refl 0) (by decide)]
      constructor
      · rintro hzero ⟨-, start', hsome, hword⟩
        rw [hstart, Except.ok.injEq] at hsome
        exact hword (hsome ▸ hzero)
      · intro hnot
        by_contra hword
        exact hnot ⟨hidx, start, hstart, hword⟩
    · have hr : writeWord offset value m = .ok () (m.setBytes start (bytesOfWord value)) := by
        simp [writeWord, hidx, hstart, hfits]
      simp only [Call.ending, outcome_ok hr] at he
      cases he

/--
**A failed call keeps the memory, but for two ways to fail halfway.**

On a fresh memory anything is done, and then a call fails, whatever its arguments are.
The memory is exactly what it was, its bytes, its size, its live and freed blocks and
the place of the next new one, unless the call is

* a request for which there is room: then the length, or the place of the block, is none
  that a pointer can hold, and what is left is the memory that a returning request
  leaves, with a live block that nobody has a pointer to; or
* the writing of a word within the memory that was not zero: then the number does not
  fit a word, and what is left is the memory with zero there.
-/
theorem failed_call_keeps_memory_iff {size align : Int} (halign : 1 ≤ align)
    (hfresh : create size align = .ok fresh) (calls : List Call) (hm : fresh.run calls = m)
    (call : Call) (hfails : call.Fails m) :
    (call.after m = m ↔ ¬ call.Halfway m)
      ∧ (call.Halfway m → call.Leaves m (call.after m)) := by
  have htiled := tiled_create halign hfresh
  have ht : Tiled m := hm ▸ (follows_run htiled calls).tiled
  have hb : m.Bounded := hm ▸ bounded_run htiled (bounded_create hfresh) calls
  have hwhole : ∀ {call : Call}, (call.Halfway m → False) → call.after m = m →
      (call.after m = m ↔ ¬ call.Halfway m) ∧ (call.Halfway m → call.Leaves m (call.after m)) :=
    fun hnot hsame => ⟨iff_of_true hsame hnot, fun h => absurd h hnot⟩
  cases call with
  | malloc length => exact malloc_failed ht hb hfails
  | writeWord offset value => exact writeWord_failed hfails
  | read fat | readWord offset => exact hwhole id rfl
  | free fat =>
    obtain ⟨e, he⟩ := hfails
    refine hwhole id (stateAfter_of_fails ?_ he)
    exact (free_cases fat m).imp_left fun ⟨_, _, _, _, _, hr⟩ => ⟨_, _, hr⟩
  | write fat payload =>
    obtain ⟨e, he⟩ := hfails
    refine hwhole id (stateAfter_of_fails ?_ he)
    exact (write_cases fat payload m).imp_left fun ⟨_, _, _, _, _, hr⟩ => ⟨_, _, hr⟩
  | grow extra =>
    obtain ⟨e, he⟩ := hfails
    refine hwhole id (stateAfter_of_fails ?_ he)
    exact (grow_cases extra m).imp_left fun ⟨_, hr⟩ => ⟨_, _, hr⟩

/-- A request for less than nothing leaves a block of eight bytes live, and a word that is to be
less than zero is lost. -/
theorem failed_call_keeps_memory_iff_negative :
    let fresh : LinearMemory :=
      { byteAt := fun _ => 0, size := 65536, align := 8, next := 8, live := [], freed := [] }
    let m := fresh.run [.writeWord 8 5]
    (1 : Int) ≤ 8 ∧ create 65536 8 = .ok fresh
      ∧ (Call.malloc (-1)).Fails m ∧ (Call.malloc (-1)).after m ≠ m
      ∧ (∃ b, Placed m ((Call.malloc (-1)).after m) (-1) b)
      ∧ (Call.writeWord 8 (-1)).Fails m ∧ (Call.writeWord 8 (-1)).after m ≠ m
      ∧ (Call.writeWord 8 (-1)).after m = m.setBytes 8 [0, 0, 0, 0] := by
  intro fresh m
  have halign : (1 : Int) ≤ 8 := by decide
  have hfresh : create 65536 8 = .ok fresh := rfl
  have hrequest : (Call.malloc (-1)).Fails m := by decide +kernel
  have hword : (Call.writeWord 8 (-1)).Fails m := by decide +kernel
  have hroom : m.HasRoom (m.blockSize (-1)) := by decide +kernel
  have hplace : m.wordStart 8 = .ok 8 ∧ m.wordAt 8 ≠ 0 := by decide +kernel
  have hm : fresh.run [.writeWord 8 5] = m := rfl
  clear_value m
  have hhalfway : (Call.writeWord 8 (-1)).Halfway m := ⟨rfl, 8, hplace⟩
  obtain ⟨hkeeps, hleaves⟩ := failed_call_keeps_memory_iff halign hfresh _ hm _ hrequest
  obtain ⟨hkeeps', hleaves'⟩ := failed_call_keeps_memory_iff halign hfresh _ hm _ hword
  have hblock : ∃ b, Placed m ((Call.malloc (-1)).after m) (-1) b := by
    cases hleaves hroom with
    | block placed _ => exact ⟨_, placed⟩
  have hzero : (Call.writeWord 8 (-1)).after m = m.setBytes 8 [0, 0, 0, 0] := by
    generalize hafter : (Call.writeWord 8 (-1)).after m = after at hleaves'
    cases hleaves' hhalfway with
    | zero place _ =>
      rw [hplace.1, Except.ok.injEq] at place
      rw [place]
  exact ⟨halign, hfresh, hrequest, fun hsame => hkeeps.mp hsame hroom, hblock, hword,
    fun hsame => hkeeps'.mp hsame hhalfway, hzero⟩

end WasmBridge.LinearMemory
