import WasmBridge.Proofs.Memory.Steps

/-!
# What a failure leaves behind

Assigning writes three words, consuming gives back two buffers, and resolving drops a
registration and consumes. Each of these effects may fail after the ones before it
have happened, and nothing is undone then. So whether a failure leaves everything as
it was is a matter of the state that the operation meets. For each operation there
is one way to fail halfway.

* A result is assigned to a record whose last word lies behind the end of the memory:
  the second word has been written by then.
* A record is consumed whose result can be given back but whose own block cannot,
  because no live block starts where the record does or because the result has been
  that block: the result has been given back by then.
* A call is resolved whose record is ready but cannot be consumed, for whatever
  reason: the call no longer waits by then.

The handles and what they note never change in a failure.
-/

namespace WasmBridge

open LinearMemory FatPtr

variable {m : LinearMemory} {start : Int} {b c : Block}

/-! ## Assigning and consuming -/

namespace Handle

variable {h : Handle} {result pointer length : Int}

/-- The record is pending, and the memory ends within its last word. -/
structure CutOff (h : Handle) (m : LinearMemory) (start : Int) : Prop where
  packs : ∃ length, Packs h.fat start length
  pending : m.wordAt start = pendingStatus
  second : start + 8 ≤ m.size
  last : m.size < start + recordSize

/-- The record is ready, and its result can be given back to the live block `c`. -/
structure Offers (h : Handle) (m : LinearMemory) (start : Int) (c : Block) : Prop where
  unconsumed : h.consumed = false
  within : h.Within m start
  ready : Ready m start c.start (m.wordAt (start + 8))
  live : c ∈ m.live
  room : m.wordAt (start + 8) ≤ c.size

/-- The status of a record is a word within the memory. -/
theorem of_status {status : Int} (hr : h.status m = .ok status) :
    ∃ start length, Packs h.fat start length ∧ start + 4 ≤ m.size ∧ status = m.wordAt start := by
  obtain ⟨start, hstart, hr⟩ := Outcome.bind_eq_ok.mp hr
  obtain ⟨length, hpacks⟩ := offset_eq_ok hstart
  have hp := hpacks.pointer_lt
  by_cases hsize : start + 4 ≤ m.size
  · rw [readWord_eq hp.1 hsize (by omega)] at hr
    exact ⟨start, length, hpacks, hsize, (Except.ok.inj hr).symm⟩
  · rw [readWord_outside hp.1 (by omega) (by omega)] at hr
    cases hr

theorem CutOff.assign_eq (hc : h.CutOff m start) (hresult : Packs result pointer length) :
    h.assign result m = .error .wordAccess (m.setBytes (start + 4) (bytesOfWord pointer)) := by
  obtain ⟨recordLength, hpacks⟩ := hc.packs
  have hp := hpacks.pointer_lt
  have hroom := hc.second
  have hlast : m.size < start + 12 := hc.last
  have hoffset : h.offset = .ok start := by simp [offset, unpack_eq_ok_iff.mpr hpacks]
  have hstatus : h.status m = .ok (m.wordAt start) := by
    simp [status, hoffset, readWord_eq hp.1 (show start + 4 ≤ m.size by omega) (by omega)]
  let written := m.setBytes (start + 4) (bytesOfWord pointer)
  have hsecond : writeWord (start + 4) pointer m = .ok () written :=
    writeWord_eq (by omega) (by omega) (by omega) hresult.1.1 hresult.1.2
  have hshort : written.size < start + 8 + 4 := show m.size < start + 8 + 4 by omega
  have hthird : writeWord (start + 8) length written = .error .wordAccess written :=
    writeWord_outside (by omega) hshort (by omega) length
  simp [assign, hstatus, hc.pending, unpack_eq_ok_iff.mpr hresult, hoffset, hsecond, hthird,
    written]

/-- Assigning fails halfway exactly at a record that is cut off. -/
theorem assign_cases (h : Handle) (result : Int) (m : LinearMemory) :
    (∃ start pointer length, h.CutOff m start ∧ Packs result pointer length
        ∧ h.assign result m
          = .error .wordAccess (m.setBytes (start + 4) (bytesOfWord pointer)))
      ∨ (∀ start pointer length, h.CutOff m start → ¬ Packs result pointer length)
        ∧ ∀ e m', h.assign result m = .error e m' → m' = m := by
  by_cases hcut : ∃ start pointer length, h.CutOff m start ∧ Packs result pointer length
  · obtain ⟨start, pointer, length, hc, hresult⟩ := hcut
    exact .inl ⟨start, pointer, length, hc, hresult, hc.assign_eq hresult⟩
  refine .inr ⟨fun start pointer length hc hresult => hcut ⟨start, pointer, length, hc, hresult⟩,
    fun e m' hr => ?_⟩
  cases hstatus : h.status m with
  | error e' =>
    simp [assign, hstatus] at hr
    exact hr.2.symm
  | ok status =>
    obtain ⟨start, recordLength, hpacks, hsize, rfl⟩ := of_status hstatus
    by_cases hpending : m.wordAt start = pendingStatus
    swap
    · simp [assign, hstatus, hpending] at hr
      exact hr.2.symm
    cases hparts : unpack result with
    | error e' =>
      simp [assign, hstatus, hpending, hparts] at hr
      exact hr.2.symm
    | ok parts =>
      obtain ⟨pointer, length⟩ := parts
      have hresult := unpack_eq_ok_iff.mp hparts
      have hp := hpacks.pointer_lt
      by_cases hwithin : start + recordSize ≤ m.size
      · -- the whole record is there, so all three words are written
        rw [Within.assign_eq ⟨⟨_, hpacks⟩, hwithin⟩ hpending hresult] at hr
        cases hr
      · by_cases hsecond : start + 8 ≤ m.size
        · exact absurd ⟨start, pointer, length, ⟨⟨_, hpacks⟩, hpending, hsecond, by omega⟩,
            hresult⟩ hcut
        · have hfirst : writeWord (start + 4) pointer m = .error .wordAccess m :=
            writeWord_outside (by omega) (by omega) (by omega) pointer
          simp [assign, hstatus, hpending, hparts, offset, unpack_eq_ok_iff.mpr hpacks,
            hfirst] at hr
          exact hr.2.symm

/-- A record offers one result at most. -/
theorem Offers.unique (ht : Tiled m) {start' : Int} {c' : Block} (ho : h.Offers m start c)
    (ho' : h.Offers m start' c') : start' = start ∧ c' = c := by
  obtain ⟨_, hpacks⟩ := ho.within.packs
  obtain ⟨_, hpacks'⟩ := ho'.within.packs
  obtain ⟨rfl, -⟩ := hpacks'.unique hpacks
  have hstart : c'.start = c.start := ho'.ready.pointer.symm.trans ho.ready.pointer
  exact ⟨rfl, ht.eq_of_start (mem_blocks.mpr (.inl ho'.live)) (mem_blocks.mpr (.inl ho.live))
    hstart⟩

/-- The result can be given back, and the block of the record after it. -/
def Consumable (h : Handle) (m : LinearMemory) : Prop :=
  ∃ start c, h.Offers m start c ∧ ∃ b ∈ m.live, b.start = start ∧ b ≠ c

theorem Offers.packs (ho : h.Offers m start c) :
    Packs (c.start * halfSize + m.wordAt (start + 8)) c.start (m.wordAt (start + 8)) := by
  refine ⟨?_, m.wordAt_range _, rfl⟩
  rw [← ho.ready.pointer]
  exact m.wordAt_range _

/-- What is offered is read and given back, and then it is the turn of the record. -/
theorem Offers.consume_eq (ht : Tiled m) (ho : h.Offers m start c) :
    h.consume m = match free h.fat (m.giveBack c) with
      | .ok _ m' => .ok (m.bytesFrom c.start (m.wordAt (start + 8)).toNat) m'
      | .error e m' => .error e m' := by
  have hb : Buffer m _ (m.wordAt (start + 8)) c := ⟨ho.packs, ho.live, ho.room⟩
  simp only [consume, Operation.bind_apply, Operation.get_apply,
    ho.within.result_eq ho.unconsumed ho.packs ho.ready, orFail_ok, read_buffer hb,
    free_live ht ho.live ho.packs]
  cases free h.fat (m.giveBack c) <;> rfl

/-- Consuming what is offered fails exactly if the record has no block of its own. -/
theorem Offers.consume_cases (ht : Tiled m) (ho : h.Offers m start c) :
    (h.Consumable m ∧ ∃ payload m', h.consume m = .ok payload m')
      ∨ ¬ h.Consumable m ∧ h.consume m = .error (.freeUnallocated start) (m.giveBack c) := by
  obtain ⟨recordLength, hpacks⟩ := ho.within.packs
  have hresult := ho.consume_eq ht
  have hback := (follows_giveBack ht ho.live ho.packs).tiled
  by_cases hother : ∃ b ∈ m.live, b.start = start ∧ b ≠ c
  · obtain ⟨b, hb, rfl, hne⟩ := hother
    have hstart : b.start ≠ c.start := fun heq =>
      hne (ht.eq_of_start (mem_blocks.mpr (.inl hb)) (mem_blocks.mpr (.inl ho.live)) heq)
    rw [free_live hback (mem_live_giveBack.mpr ⟨hb, hstart⟩) hpacks] at hresult
    exact .inl ⟨⟨_, c, ho, b, hb, rfl, hne⟩, _, _, hresult⟩
  · have hnone : (m.giveBack c).blockAt? start = none := by
      refine Option.eq_none_iff_forall_ne_some.mpr fun b hblock => hother ?_
      obtain ⟨hb, hstart⟩ := mem_of_blockAt? hblock
      obtain ⟨hlive, hne⟩ := mem_live_giveBack.mp hb
      exact ⟨b, hlive, hstart, fun heq => hne (congrArg _ heq)⟩
    have hfree : free h.fat (m.giveBack c) = .error (.freeUnallocated start) (m.giveBack c) := by
      simp [free, unpack_eq_ok_iff.mpr hpacks, hnone]
    rw [hfree] at hresult
    refine .inr ⟨?_, hresult⟩
    rintro ⟨start', c', ho', hother'⟩
    obtain ⟨rfl, rfl⟩ := ho.unique ht ho'
    exact hother hother'

/-- A result that can be read and given back is offered. -/
theorem offers_of_result (ht : Tiled m) (hresult : h.result m = .ok result)
    {payload : List UInt8} (hread : m.read result = .ok payload)
    (hpacks : Packs result pointer length) (hc : m.blockAt? pointer = some c) :
    ∃ start, h.Offers m start c := by
  obtain ⟨hnew, start, _, _, hw, hready, hresult'⟩ := of_result hresult
  obtain ⟨rfl, rfl⟩ := hresult'.unique hpacks
  obtain ⟨hlive, rfl⟩ := mem_of_blockAt? hc
  obtain ⟨_, _, hread', hsome, -⟩ := read_eq_ok_iff.mp hread
  obtain ⟨rfl, rfl⟩ := hread'.unique hpacks
  have hpos := (ht.multiple c (mem_blocks.mpr (.inl hlive))).2.2
  have hroom := ht.end_within hlive (by unfold Block.Holds; omega) hpacks.2.1.1 hsome
  refine ⟨start, hnew, hw, ⟨hready.status, hready.pointer, rfl⟩, hlive, ?_⟩
  rw [hready.length]
  omega

/-- Where nothing is offered nothing is given back. -/
theorem consume_unoffered (ht : Tiled m) (hnone : ∀ start c, ¬ h.Offers m start c) :
    ∃ e, h.consume m = .error e m := by
  simp only [consume, Operation.bind_apply, Operation.get_apply]
  cases hresult : h.result m with
  | error e => exact ⟨e, rfl⟩
  | ok result =>
    cases hread : m.read result with
    | error e => exact ⟨e, by simp only [orFail_ok, hread, orFail_error]⟩
    | ok payload =>
      simp only [orFail_ok, hread]
      rcases free_cases result m with ⟨pointer, length, c, hpacks, hc, _⟩ | ⟨e, hfree⟩
      · obtain ⟨start, ho⟩ := offers_of_result ht hresult hread hpacks hc
        exact absurd ho (hnone start c)
      · exact ⟨e, by rw [hfree]⟩

/-- Consuming succeeds, or it fails halfway, or it leaves the memory as it is. -/
theorem consume_cases (ht : Tiled m) (h : Handle) :
    (h.Consumable m ∧ ∃ payload m', h.consume m = .ok payload m')
      ∨ ¬ h.Consumable m
        ∧ ((∃ start c, h.Offers m start c
            ∧ h.consume m = .error (.freeUnallocated start) (m.giveBack c))
          ∨ (∀ start c, ¬ h.Offers m start c) ∧ ∃ e, h.consume m = .error e m) := by
  by_cases hoffer : ∃ start c, h.Offers m start c
  · obtain ⟨start, c, ho⟩ := hoffer
    exact (ho.consume_cases ht).imp_right fun ⟨hnot, hr⟩ => ⟨hnot, .inl ⟨start, c, ho, hr⟩⟩
  · have hnone : ∀ start c, ¬ h.Offers m start c := fun start c ho => hoffer ⟨start, c, ho⟩
    exact .inr ⟨fun ⟨start, c, ho, _⟩ => hnone start c ho,
      .inr ⟨hnone, consume_unoffered ht hnone⟩⟩

end Handle

/-! ## All or nothing -/

namespace AsyncCalls

variable {κ : Type} {s : AsyncCalls κ} {id : Nat} {fat result : Int}

/-- When the operation fails everything is as it was. -/
def AllOrNothing {α : Type} (op : CallOp κ α) (s : AsyncCalls κ) : Prop :=
  ∀ e s', op s = .error e s' → s' = s

/-- How the operation fails: exactly under some condition it leaves everything as it was, and
otherwise what it leaves behind has some form. -/
structure Failures {α : Type} (op : CallOp κ α) (s : AsyncCalls κ) (condition : Prop)
    (halfway : AsyncCalls κ → Prop) : Prop where
  whole : AllOrNothing op s ↔ condition
  left : ∀ e s', op s = .error e s' → s' = s ∨ halfway s'

section

variable {α : Type} {op : CallOp κ α} {condition : Prop} {halfway : AsyncCalls κ → Prop}

theorem failures_of_ok {a : α} {s' : AsyncCalls κ} (h : op s = .ok a s') (hcondition : condition) :
    Failures op s condition halfway := by
  have hnever : ∀ e t, op s ≠ .error e t := by
    intro e t hr
    rw [h] at hr
    cases hr
  exact ⟨iff_of_true (fun e t hr => absurd hr (hnever e t)) hcondition,
    fun e t hr => absurd hr (hnever e t)⟩

theorem failures_of_error {e : BoundaryError} {s' : AsyncCalls κ} (h : op s = .error e s')
    (hcondition : s' = s ↔ condition) (hhalfway : s' = s ∨ halfway s') :
    Failures op s condition halfway := by
  have hend : ∀ e' t, op s = .error e' t → t = s' := by
    intro e' t hr
    rw [h, EStateM.Result.error.injEq] at hr
    exact hr.2.symm
  refine ⟨Iff.trans ⟨fun hall => hall e s' h, fun hsame e' t hr => ?_⟩ hcondition,
    fun e' t hr => ?_⟩
  · rw [hend e' t hr, hsame]
  · rw [hend e' t hr]
    exact hhalfway

end

theorem memory_eq_self_iff {m' : LinearMemory} :
    { s with memory := m' } = s ↔ m' = s.memory :=
  ⟨fun h => congrArg AsyncCalls.memory h, fun h => by rw [h]⟩

theorem assign_error {e : BoundaryError} {m' : LinearMemory}
    (h : (s.handle id).assign result s.memory = .error e m') :
    assign id result s = .error e { s with memory := m' } := by
  simp [assign, onMemory, h]

theorem assign_failures (s : AsyncCalls κ) (id : Nat) (result : Int) :
    Failures (assign id result) s
      (∀ start pointer length, (s.handle id).CutOff s.memory start →
        Packs result pointer length → s.memory.wordAt (start + 4) = pointer)
      fun s' => ∃ start pointer length, (s.handle id).CutOff s.memory start
        ∧ Packs result pointer length
        ∧ s' = { s with memory := s.memory.setBytes (start + 4) (bytesOfWord pointer) } := by
  rcases Handle.assign_cases (s.handle id) result s.memory with
    ⟨start, pointer, length, hc, hresult, hr⟩ | ⟨hnone, hsame⟩
  · refine failures_of_error (assign_error hr) ?_
      (.inr ⟨start, pointer, length, hc, hresult, rfl⟩)
    rw [memory_eq_self_iff, setBytes_eq_self_iff hresult.1.1 hresult.1.2]
    refine ⟨fun hword start' pointer' length' hc' hresult' => ?_,
      fun hall => hall start pointer length hc hresult⟩
    obtain ⟨_, hpacks⟩ := hc.packs
    obtain ⟨_, hpacks'⟩ := hc'.packs
    rw [(hpacks'.unique hpacks).1, (hresult'.unique hresult).1]
    exact hword
  · have hvacuous : ∀ start pointer length, (s.handle id).CutOff s.memory start →
        Packs result pointer length → s.memory.wordAt (start + 4) = pointer :=
      fun start pointer length hc hresult => absurd hresult (hnone start pointer length hc)
    cases hassign : (s.handle id).assign result s.memory with
    | ok u m' => exact failures_of_ok (assign_ok hassign) hvacuous
    | error e m' =>
      have hrest := memory_eq_self_iff.mpr (hsame e m' hassign)
      exact failures_of_error (assign_error hassign) (iff_of_true hrest hvacuous) (.inl hrest)

theorem consume_ok {payload : List UInt8} {m' : LinearMemory}
    (h : (s.handle id).consume s.memory = .ok payload m') :
    ∃ s', consume id s = .ok payload s' := by
  simp [consume, onMemory, h]

theorem consume_error {e : BoundaryError} {m' : LinearMemory}
    (h : (s.handle id).consume s.memory = .error e m') :
    consume id s = .error e { s with memory := m' } := by
  simp [consume, onMemory, h]

theorem consume_failures (ht : Tiled s.memory) (id : Nat) :
    Failures (consume id) s
      (∀ start c, (s.handle id).Offers s.memory start c → (s.handle id).Consumable s.memory)
      fun s' => ∃ start c, (s.handle id).Offers s.memory start c
        ∧ s' = { s with memory := s.memory.giveBack c } := by
  rcases Handle.consume_cases ht (s.handle id) with
    ⟨hdone, payload, m', hr⟩ | ⟨hnot, ⟨start, c, ho, hr⟩ | ⟨hnone, e, hr⟩⟩
  · obtain ⟨s', hok⟩ := consume_ok hr
    exact failures_of_ok hok fun _ _ _ => hdone
  · refine failures_of_error (consume_error hr) ?_ (.inr ⟨start, c, ho, rfl⟩)
    -- the block of the result is no longer live
    refine iff_of_false (fun hsame => ?_) fun hall => hnot (hall start c ho)
    have hlive := ho.live
    rw [← memory_eq_self_iff.mp hsame] at hlive
    exact (mem_live_giveBack.mp hlive).2 rfl
  · exact failures_of_error (consume_error hr)
      (iff_of_true rfl fun start c ho => absurd ho (hnone start c)) (.inl rfl)

/-- A call that waits is no longer there once it is dropped. -/
theorem drop_ne_self {p : Pending κ} (hp : s.pendingAt? fat = some p) (m' : LinearMemory) :
    { s.drop fat with memory := m' } ≠ s := by
  intro hsame
  obtain ⟨hmem, hfat⟩ := mem_of_pendingAt? hp
  rw [← hsame] at hmem
  simpa [hfat] using (List.mem_filter.mp hmem).2

/-- A call that is ready is lost if its record cannot be consumed. -/
theorem resolve_lost (ht : Tiled s.memory) {p : Pending κ} (hp : s.pendingAt? fat = some p)
    (hready : (s.handle p.handle).isReady s.memory = .ok true)
    (hnot : ¬ (s.handle p.handle).Consumable s.memory) :
    ∃ e m', resolve fat s = .error e { s.drop fat with memory := m' }
      ∧ (m' = s.memory ∨ ∃ c ∈ s.memory.live, m' = s.memory.giveBack c) := by
  rcases Handle.consume_cases ht (s.handle p.handle) with
    ⟨hdone, -⟩ | ⟨-, ⟨start, c, ho, hr⟩ | ⟨-, e, hr⟩⟩
  · exact absurd hdone hnot
  · exact ⟨_, _, resolve_error hp hready hr, .inr ⟨c, ho.live, rfl⟩⟩
  · exact ⟨e, _, resolve_error hp hready hr, .inl rfl⟩

theorem resolve_consumable (ht : Tiled s.memory) {p : Pending κ} (hp : s.pendingAt? fat = some p)
    (hready : (s.handle p.handle).isReady s.memory = .ok true)
    (hdone : (s.handle p.handle).Consumable s.memory) : ∃ ran s', resolve fat s = .ok ran s' := by
  rcases Handle.consume_cases ht (s.handle p.handle) with ⟨-, payload, m', hr⟩ | ⟨hnot, -⟩
  · exact ⟨_, _, resolve_ok hp hready hr⟩
  · exact absurd hdone hnot

theorem resolve_failures (ht : Tiled s.memory) (fat : Int) :
    Failures (resolve fat) s
      (∀ p, s.pendingAt? fat = some p → (s.handle p.handle).isReady s.memory = .ok true →
        (s.handle p.handle).Consumable s.memory)
      fun s' => ∃ m', (m' = s.memory ∨ ∃ c ∈ s.memory.live, m' = s.memory.giveBack c)
        ∧ s' = { s.drop fat with memory := m' } := by
  by_cases hwaits : ∃ p, s.pendingAt? fat = some p
      ∧ (s.handle p.handle).isReady s.memory = .ok true
  · obtain ⟨p, hp, hready⟩ := hwaits
    by_cases hdone : (s.handle p.handle).Consumable s.memory
    · obtain ⟨ran, s', hok⟩ := resolve_consumable ht hp hready hdone
      refine failures_of_ok hok fun q hq _ => ?_
      obtain rfl := Option.some.inj (hp.symm.trans hq)
      exact hdone
    · obtain ⟨e, m', hr, hm'⟩ := resolve_lost ht hp hready hdone
      exact failures_of_error hr
        (iff_of_false (drop_ne_self hp m') fun hall => hdone (hall p hp hready))
        (.inr ⟨m', hm', rfl⟩)
  · rcases resolve_cases fat s with ⟨e, hr⟩ | ⟨p, hp, hready, _⟩
    · exact failures_of_error hr
        (iff_of_true rfl fun p hp hready => absurd ⟨p, hp, hready⟩ hwaits) (.inl rfl)
    · exact absurd ⟨p, hp, hready⟩ hwaits

/--
**When a failure leaves everything as it was.**

After any steps on a fresh memory, with handles on whatever pointers: a failing
assignment leaves everything as it was, unless its record is cut off and its second
word was not the offset of the result already. A failing consumption does so unless
the record offers its result but cannot be given back after it. And a failure to
resolve does so exactly if the call that waits, if it is ready, could be consumed.

What else a failure may leave behind is said as well: the second word of the record is
written, or the result is given back, or the call no longer waits and its result may
be given back.
-/
theorem all_or_nothing_iff {size align : Int} (halign : 1 ≤ align) {fresh : LinearMemory}
    (hfresh : LinearMemory.create size align = .ok fresh) (before : List (Step κ))
    (hs : ({ memory := fresh } : AsyncCalls κ).run before = s) :
    (∀ id result, Failures (assign id result) s
      (∀ start pointer length, (s.handle id).CutOff s.memory start →
        Packs result pointer length → s.memory.wordAt (start + 4) = pointer)
      fun s' => ∃ start pointer length, (s.handle id).CutOff s.memory start
        ∧ Packs result pointer length
        ∧ s' = { s with memory := s.memory.setBytes (start + 4) (bytesOfWord pointer) })
    ∧ (∀ id, Failures (consume id) s
      (∀ start c, (s.handle id).Offers s.memory start c → (s.handle id).Consumable s.memory)
      fun s' => ∃ start c, (s.handle id).Offers s.memory start c
        ∧ s' = { s with memory := s.memory.giveBack c })
    ∧ ∀ fat, Failures (resolve fat) s
      (∀ p, s.pendingAt? fat = some p → (s.handle p.handle).isReady s.memory = .ok true →
        (s.handle p.handle).Consumable s.memory)
      fun s' => ∃ m', (m' = s.memory ∨ ∃ c ∈ s.memory.live, m' = s.memory.giveBack c)
        ∧ s' = { s.drop fat with memory := m' } := by
  have ht : Tiled s.memory := by
    rw [← hs]; exact (follows_steps (tiled_create halign hfresh) before).tiled
  exact ⟨assign_failures s, consume_failures ht, resolve_failures ht⟩

/-- A record that has been assigned to itself is given back as the result and then cannot be
given back as the record. A call that waits for it is lost, and so is a word that is written to
a record at the very end of the memory. -/
theorem all_or_nothing_iff_aliased :
    let fresh : LinearMemory :=
      { byteAt := fun _ => 0, size := 0, align := 8, next := 8, live := [], freed := [] }
    let s : AsyncCalls Unit := ({ memory := fresh } : AsyncCalls Unit).run
      [.create, .attach 281440616972300, .assign 0 34359738380, .register 0 ()]
    ¬ AllOrNothing (assign 1 21474836481) s ∧ ¬ AllOrNothing (consume 0) s
      ∧ ¬ AllOrNothing (resolve 34359738380) s ∧ AllOrNothing (consume 1) s := by
  intro fresh s
  have halign : (1 : Int) ≤ 8 := by decide
  have hfresh : LinearMemory.create 0 8 = .ok fresh := rfl
  have hhandles : s.handle 0 = ⟨34359738380, false⟩ ∧ s.handle 1 = ⟨281440616972300, false⟩ := by
    decide +kernel
  have hsize : s.memory.size = 65536 ∧ s.memory.live = [⟨8, 16⟩] := by decide +kernel
  have hready : Ready s.memory 8 8 12 :=
    ⟨by decide +kernel, by decide +kernel, by decide +kernel⟩
  have hlast : s.memory.wordAt 65528 = pendingStatus ∧ s.memory.wordAt 65532 = 0 := by
    decide +kernel
  have hisReady : (s.handle 0).isReady s.memory = .ok true := by decide +kernel
  have hwaits : (s.pendingAt? 34359738380).map (·.handle) = some 0 := by decide +kernel
  have hs : ({ memory := fresh } : AsyncCalls Unit).run
      [.create, .attach 281440616972300, .assign 0 34359738380, .register 0 ()] = s := rfl
  clear_value s
  obtain ⟨hassign, hconsume, hresolve⟩ := all_or_nothing_iff halign hfresh _ hs
  have hpacks : Packs (s.handle 0).fat 8 12 ∧ Packs (s.handle 1).fat 65528 12 := by
    rw [hhandles.1, hhandles.2]
    decide
  have hoffers : (s.handle 0).Offers s.memory 8 ⟨8, 16⟩ := by
    have hwithin : (s.handle 0).Within s.memory 8 := ⟨⟨12, hpacks.1⟩, by rw [hsize.1]; decide⟩
    have hroom : s.memory.wordAt (8 + 8) ≤ 16 := by rw [hready.length]; decide
    exact ⟨by rw [hhandles.1], hwithin, ⟨hready.status, hready.pointer, rfl⟩,
      by rw [hsize.2]; exact List.mem_cons_self, hroom⟩
  -- the only live block is that of the record and of the result
  have hnot : ¬ (s.handle 0).Consumable s.memory := by
    rintro ⟨start, c, ho, b, hb, -, hne⟩
    have hc := ho.live
    rw [hsize.2, List.mem_singleton] at hb hc
    exact hne (hb.trans hc.symm)
  have hcut : (s.handle 1).CutOff s.memory 65528 :=
    ⟨⟨12, hpacks.2⟩, hlast.1, by rw [hsize.1]; decide, by rw [hsize.1]; decide⟩
  refine ⟨?_, ?_, ?_, ?_⟩
  · rw [(hassign 1 21474836481).whole]
    intro hall
    have hword := hall 65528 5 1 hcut (by decide)
    rw [show (65528 : Int) + 4 = 65532 from rfl, hlast.2] at hword
    cases hword
  · rw [(hconsume 0).whole]
    exact fun hall => hnot (hall 8 ⟨8, 16⟩ hoffers)
  · rw [(hresolve 34359738380).whole]
    intro hall
    obtain ⟨p, hp, hid⟩ := Option.map_eq_some_iff.mp hwaits
    rw [← hid] at hisReady hnot
    exact hnot (hall p hp hisReady)
  · refine (hconsume 1).whole.mpr fun start c ho => ?_
    -- the record at the end is not within the memory
    obtain ⟨_, hfat⟩ := ho.within.packs
    obtain ⟨rfl, -⟩ := hfat.unique hpacks.2
    have hwithin := ho.within.size
    rw [hsize.1] at hwithin
    exact absurd hwithin (by decide)

end AsyncCalls

end WasmBridge
