import WasmBridge.Proofs.Memory.Tiling

/-!
# Buffers and records

What reading, writing, assigning and consuming do to a buffer that somebody holds:
a pointer to the start of a live block with room for the length it names. Within a
tiled memory none of them can fail then, and none of them touches a byte of
another block.

A record is a buffer of three words. Its status says whether the other two name a
result; they are written before the status is, so a record that is ready is
complete.
-/

namespace WasmBridge

open LinearMemory FatPtr

namespace LinearMemory

variable {m m' : LinearMemory} {fat length : Int} {b c : Block}

/-! ## Buffers -/

/-- The live block that is found at an offset starts there. -/
theorem mem_of_blockAt? {start : Int} (h : m.blockAt? start = some b) :
    b ∈ m.live ∧ b.start = start :=
  ⟨List.mem_of_find?_eq_some h, by simpa using List.find?_some h⟩

/-- Bytes that start in a live block and lie within some live block end within that one. -/
theorem Tiled.end_within (h : Tiled m) (hb : b ∈ m.live) {pointer count : Int}
    (hin : b.Holds pointer) (h0 : 0 ≤ count)
    (hsome : ∃ c ∈ m.live, c.start ≤ pointer ∧ pointer + count ≤ c.start + c.size) :
    pointer + count ≤ b.start + b.size := by
  obtain ⟨c, hc, hroom⟩ := hsome
  by_cases hempty : count = 0
  · unfold Block.Holds at hin
    omega
  · have hsame := h.eq_of_meet (mem_blocks.mpr (.inl hb)) (mem_blocks.mpr (.inl hc)) hin
      (by unfold Block.Holds; omega)
    rw [hsame]
    exact hroom.2

/-- The pointer leads to the start of a live block with room for its length. -/
structure Buffer (m : LinearMemory) (fat length : Int) (b : Block) : Prop where
  packs : Packs fat b.start length
  mem : b ∈ m.live
  room : length ≤ b.size

theorem Granted.buffer (h : Granted m m' length fat b) : Buffer m' fat length b :=
  ⟨h.packs, by rw [h.live]; exact List.mem_cons_self, h.room⟩

/-- A buffer stays where it is as long as its block is live. -/
theorem Buffer.keep (h : Buffer m fat length b) (hb : b ∈ m'.live) : Buffer m' fat length b :=
  ⟨h.packs, hb, h.room⟩

/-- Live blocks that start at different offsets have no byte in common. -/
theorem Tiled.live_apart (h : Tiled m) (hb : b ∈ m.live) (hc : c ∈ m.live)
    (hne : b.start ≠ c.start) : Block.Apart b c :=
  h.apart.forall (mem_blocks.mpr (.inl hb)) (mem_blocks.mpr (.inl hc)) fun heq => hne (heq ▸ rfl)

theorem write_buffer (h : Tiled m) {payload : List UInt8} (hb : Buffer m fat payload.length b) :
    write fat payload m = .ok () (m.setBytes b.start payload) := by
  have hin : b.start ≤ b.start ∧ b.start + payload.length ≤ b.start + b.size := by
    have := hb.room
    omega
  have hcheck : m.check b.start payload.length = .ok () :=
    check_eq_ok_iff.mpr ⟨b, hb.mem, hin⟩
  simp [write, unpack_eq_ok_iff.mpr hb.packs, hcheck, h.overwrite_eq hb.mem hin]

theorem read_buffer (hb : Buffer m fat length b) :
    m.read fat = .ok (m.bytesFrom b.start length.toNat) := by
  have hroom := hb.room
  exact read_eq_ok_iff.mpr ⟨b.start, length, hb.packs, ⟨b, hb.mem, by omega⟩, rfl⟩

/-! ## The words of a record -/

/-- The memory with a result assigned to the record that starts at an offset. -/
def assigned (m : LinearMemory) (start pointer length : Int) : LinearMemory :=
  ((m.setBytes (start + 4) (bytesOfWord pointer)).setBytes (start + 8)
    (bytesOfWord length)).setBytes start (bytesOfWord readyStatus)

/-- The record that starts at an offset is ready and names an offset and a length. -/
structure Ready (m : LinearMemory) (start pointer length : Int) : Prop where
  status : m.wordAt start = readyStatus
  pointer : m.wordAt (start + 4) = pointer
  length : m.wordAt (start + 8) = length

theorem ready_assigned {start pointer : Int} (h : Packs fat pointer length) :
    Ready (m.assigned start pointer length) start pointer length where
  status := wordAt_setBytes (by decide) (by decide)
  pointer := by
    have h4 : ∀ n : Int, ((bytesOfWord n).length : Int) = 4 := fun n => by simp
    have hp := h.1
    unfold halfSize at hp
    rw [assigned, wordAt_setBytes_outside (by rw [h4]; omega),
      wordAt_setBytes_outside (by omega), wordAt_setBytes hp.1 hp.2]
  length := by
    have h4 : ∀ n : Int, ((bytesOfWord n).length : Int) = 4 := fun n => by simp
    have hl := h.2.1
    unfold halfSize at hl
    rw [assigned, wordAt_setBytes_outside (by rw [h4]; omega), wordAt_setBytes hl.1 hl.2]

/-- Assigning changes the twelve bytes of the record only. -/
theorem byteAt_assigned_outside {start pointer a : Int} (h : a < start ∨ start + 12 ≤ a) :
    (m.assigned start pointer length).byteAt a = m.byteAt a := by
  have h4 : ∀ n : Int, ((bytesOfWord n).length : Int) = 4 := fun n => by simp
  rw [assigned, byteAt_setBytes_outside (by rw [h4]; omega),
    byteAt_setBytes_outside (by rw [h4]; omega), byteAt_setBytes_outside (by rw [h4]; omega)]

theorem follows_assigned (h : Tiled m) (start pointer length : Int) :
    Follows m (m.assigned start pointer length) := by
  have h₁ := follows_setBytes h (start + 4) (bytesOfWord pointer)
  have h₂ := follows_setBytes h₁.tiled (start + 8) (bytesOfWord length)
  exact (h₁.trans h₂).trans (follows_setBytes h₂.tiled start (bytesOfWord readyStatus))

end LinearMemory

/-! ## Records -/

namespace Handle

variable {m m' : LinearMemory} {h : Handle} {b c : Block} {start : Int}

/-- The record of a handle lies at an offset, and all of it within the memory. -/
structure Within (h : Handle) (m : LinearMemory) (start : Int) : Prop where
  packs : ∃ length, Packs h.fat start length
  size : start + recordSize ≤ m.size

theorem within (ht : Tiled m) (hb : Buffer m h.fat recordSize b) : h.Within m b.start := by
  have hw := ht.within (mem_blocks.mpr (.inl hb.mem))
  have hroom : 12 ≤ b.size := hb.room
  exact ⟨⟨_, hb.packs⟩, by unfold recordSize; omega⟩

theorem Within.offset_eq (hw : h.Within m start) : h.offset = .ok start := by
  obtain ⟨length, hpacks⟩ := hw.packs
  simp [offset, unpack_eq_ok_iff.mpr hpacks]

theorem Within.word (hw : h.Within m start) {i : Int} (hi : 0 ≤ i ∧ i ≤ 8) :
    0 ≤ start + i ∧ start + i + 4 ≤ m.size ∧ start + i < 0x8000000000000000 := by
  obtain ⟨length, hpacks⟩ := hw.packs
  have hp := hpacks.pointer_lt
  have hsize : start + 12 ≤ m.size := hw.size
  omega

theorem Within.readWord_eq (hw : h.Within m start) {i : Int} (hi : 0 ≤ i ∧ i ≤ 8) :
    m.readWord (start + i) = .ok (m.wordAt (start + i)) := by
  have hin := hw.word hi
  exact LinearMemory.readWord_eq hin.1 hin.2.1 hin.2.2

theorem Within.status_eq (hw : h.Within m start) : h.status m = .ok (m.wordAt start) := by
  have := hw.readWord_eq (i := 0) (by decide)
  rw [Int.add_zero] at this
  simp [status, hw.offset_eq, this]

theorem Within.isReady_eq (hw : h.Within m start) :
    h.isReady m = .ok (m.wordAt start = readyStatus) := by
  simp [isReady, hw.status_eq]

/-- A fresh record is zero. -/
theorem create_eq {fat : Int} (hmalloc : malloc recordSize m = .ok fat m')
    (hg : Granted m m' recordSize fat b) :
    create m = .ok { fat } (m'.setBytes b.start (List.replicate recordSize 0)) := by
  have hwrite : write fat (List.replicate recordSize 0) m'
      = .ok () (m'.setBytes b.start (List.replicate recordSize 0)) :=
    write_buffer hg.follows.tiled (by rw [List.length_replicate]; exact hg.buffer)
  simp [create, hmalloc, hwrite]

theorem wordAt_zeros (m : LinearMemory) (start : Int) :
    (m.setBytes start (List.replicate recordSize 0)).wordAt start = pendingStatus := by
  have hzero : (m.setBytes start (List.replicate recordSize 0)).bytesFrom start 4
      = [0, 0, 0, 0] := by
    have hall := bytesFrom_setBytes m start (List.replicate recordSize 0)
    have htake := congrArg (List.take 4) hall
    simpa [bytesFrom, recordSize, List.range_succ, List.replicate] using htake
  unfold wordAt; rw [hzero]; rfl

/-- A pending record takes a result. -/
theorem Within.assign_eq (hw : h.Within m start) (hpending : m.wordAt start = pendingStatus)
    {result pointer length : Int} (hresult : Packs result pointer length) :
    h.assign result m = .ok () (m.assigned start pointer length) := by
  have h0 := hw.word (i := 0) (by decide)
  have h4 := hw.word (i := 4) (by decide)
  have h8 := hw.word (i := 8) (by decide)
  rw [Int.add_zero] at h0
  have hp := hresult.1
  have hl := hresult.2.1
  unfold halfSize at hp hl
  have hw4 := writeWord_eq (m := m) h4.1 h4.2.1 h4.2.2 hp.1 hp.2
  have hw8 := writeWord_eq (m := m.setBytes (start + 4) (bytesOfWord pointer))
    h8.1 h8.2.1 h8.2.2 hl.1 hl.2
  have hw0 := writeWord_eq (m := (m.setBytes (start + 4) (bytesOfWord pointer)).setBytes
    (start + 8) (bytesOfWord length)) h0.1 h0.2.1 h0.2.2 (n := readyStatus)
    (by decide) (by decide)
  simp [assign, hw.status_eq, hpending, unpack_eq_ok_iff.mpr hresult, hw.offset_eq, hw4, hw8,
    hw0, assigned]

/-- The result of a record that is ready is the pointer that was assigned. -/
theorem Within.result_eq (hw : h.Within m start) (hnew : h.consumed = false)
    {result pointer length : Int} (hresult : Packs result pointer length)
    (hready : Ready m start pointer length) : h.result m = .ok result := by
  have hin := hw.word (i := 4) (by decide)
  have hstart := wordStart_eq hin.1 hin.2.1
  have hroom : ¬ m.size < start + 4 + 8 := by
    have hsize : start + 12 ≤ m.size := hw.size
    omega
  have hne : ¬ readyStatus = pendingStatus := by decide
  simp [Handle.result, hnew, hw.status_eq, hready.status, hne, hw.offset_eq, hstart, hroom,
    hw.readWord_eq (i := 4) (by decide), hw.readWord_eq (i := 8) (by decide),
    hready.pointer, hready.length, pack_eq_ok_iff.mpr hresult]

/-- Consuming gives the bytes of the result and gives back both blocks. -/
theorem consume_eq (ht : Tiled m) (hb : Buffer m h.fat recordSize b) (hnew : h.consumed = false)
    {result length : Int} (hc : Buffer m result length c)
    (hready : Ready m b.start c.start length) (hne : c.start ≠ b.start) :
    h.consume m = .ok (m.bytesFrom c.start length.toNat) ((m.giveBack c).giveBack b) := by
  have hfree := free_live ht hc.mem hc.packs
  have htiled := (follows_giveBack ht hc.mem hc.packs).tiled
  have hfree' := free_live htiled (mem_live_giveBack.mpr ⟨hb.mem, hne.symm⟩) hb.packs
  simp [consume, (within ht hb).result_eq hnew hc.packs hready, read_buffer hc, hfree, hfree']

/-- What consuming a record has found and done, where `b` is the block of the record and `c` that
of its result. -/
structure Consumption (h : Handle) (m m' : LinearMemory) (payload : List UInt8) (b c : Block) :
    Prop where
  unconsumed : h.consumed = false
  within : h.Within m b.start
  ready : Ready m b.start c.start (m.wordAt (b.start + 8))
  payload : payload = m.bytesFrom c.start (m.wordAt (b.start + 8)).toNat
  record : b ∈ m.live
  buffer : c ∈ m.live
  apart : c.start ≠ b.start
  after : m' = (m.giveBack c).giveBack b

/-- A result is there only if the record says so. -/
theorem of_result {result : Int} (hr : h.result m = .ok result) :
    h.consumed = false ∧ ∃ start pointer length, h.Within m start
      ∧ Ready m start pointer length ∧ Packs result pointer length := by
  unfold Handle.result at hr
  by_cases hold : h.consumed = true
  · simp [hold] at hr
  rw [if_neg hold] at hr
  obtain ⟨status, hstatus, hr⟩ := Outcome.bind_eq_ok.mp hr
  by_cases hready : status = readyStatus
  swap
  · by_cases hpending : status = pendingStatus <;> simp [hready, hpending] at hr
  have hpending : ¬ status = pendingStatus := by rw [hready]; decide
  rw [if_neg hpending, if_neg (not_not.mpr hready)] at hr
  obtain ⟨start, hstart, hr⟩ := Outcome.bind_eq_ok.mp hr
  obtain ⟨⟨start', length⟩, hfat, heq⟩ := Outcome.bind_eq_ok.mp hstart
  cases heq
  have hpacks := unpack_eq_ok_iff.mp hfat
  have hp := hpacks.pointer_lt
  -- the check of the two last words says that the record lies within the memory
  obtain ⟨word, hword, hr⟩ := Outcome.bind_eq_ok.mp hr
  have hin := wordStart_range hword
  by_cases hroom : m.size < word + 8
  · simp [hroom] at hr
  rw [if_neg hroom] at hr
  have hsame : word = start + 4 := wordStart_of_nonneg (by omega) hword
  have hw : h.Within m start := ⟨⟨length, hpacks⟩, by unfold recordSize; omega⟩
  rw [hw.status_eq] at hstatus
  rw [hw.readWord_eq (by decide), Outcome.bind_ok, hw.readWord_eq (by decide),
    Outcome.bind_ok] at hr
  exact ⟨by simpa using hold, start, _, _, hw, ⟨(Except.ok.inj hstatus).trans hready, rfl, rfl⟩,
    pack_eq_ok_iff.mp hr⟩

/-- Consuming succeeds only if the record is ready and both its blocks are live. -/
theorem of_consume {payload : List UInt8} (hr : h.consume m = .ok payload m') :
    ∃ b c, Consumption h m m' payload b c := by
  simp only [consume, Operation.bind_apply, Operation.get_apply] at hr
  cases hresult : h.result m with
  | error e => simp [hresult] at hr
  | ok result =>
    cases hread : m.read result with
    | error e => simp [hresult, hread] at hr
    | ok bytes =>
      simp only [hresult, hread, orFail_ok] at hr
      obtain ⟨hnew, start, pointer, length, hw, hready, hpacks⟩ := of_result hresult
      obtain ⟨pointer', length', hpacks', -, hbytes⟩ := read_eq_ok_iff.mp hread
      obtain ⟨rfl, rfl⟩ := hpacks.unique hpacks'
      obtain ⟨recordLength, hrecord⟩ := hw.packs
      rcases free_cases result m with ⟨p, l, c, hp, hc, hfree⟩ | ⟨e, hfree⟩
      · obtain ⟨rfl, rfl⟩ := hpacks.unique hp
        obtain ⟨hclive, rfl⟩ := mem_of_blockAt? hc
        have hgiven : free result m = .ok () (m.giveBack c) := hfree
        rw [hgiven] at hr
        rcases free_cases h.fat (m.giveBack c) with ⟨p, l, b, hp, hb, hfree'⟩ | ⟨e, hfree'⟩
        · obtain ⟨rfl, rfl⟩ := hrecord.unique hp
          obtain ⟨hblive, rfl⟩ := mem_of_blockAt? hb
          have hkept := mem_live_giveBack.mp hblive
          simp only [hfree', Operation.pure_apply, EStateM.Result.ok.injEq] at hr
          obtain ⟨rfl, rfl⟩ := hr
          refine ⟨b, c, hnew, hw, ?_, ?_, hkept.1, hclive, hkept.2.symm, rfl⟩
          · exact ⟨hready.status, hready.pointer, rfl⟩
          · rw [hbytes, hready.length]
        · simp [hfree'] at hr
      · simp [hfree] at hr

end Handle

/-! ## Calls -/

namespace AsyncCalls

variable {κ : Type} {calls : AsyncCalls κ} {m' : LinearMemory}

theorem onMemory_ok {α : Type} {op : MemoryOp α} {a : α} (h : op calls.memory = .ok a m') :
    onMemory op calls = .ok a { calls with memory := m' } := by
  simp [onMemory, h]

theorem create_ok {h : Handle} (hcreate : Handle.create calls.memory = .ok h m') :
    create calls = .ok calls.handles.length
      { calls with memory := m', handles := calls.handles ++ [h] } := by
  simp [create, addHandle, onMemory_ok hcreate]

theorem pendingAt?_eq_none_iff {fat : Int} :
    calls.pendingAt? fat = none ↔ ∀ p ∈ calls.pending, p.fat ≠ fat := by
  simp [pendingAt?]

theorem mem_of_pendingAt? {fat : Int} {p : Pending κ} (h : calls.pendingAt? fat = some p) :
    p ∈ calls.pending ∧ p.fat = fat :=
  ⟨List.mem_of_find?_eq_some h, by simpa using List.find?_some h⟩

theorem register_ok {id : Nat} (hnone : calls.pendingAt? (calls.handle id).fat = none)
    (callback : κ) : register id callback calls = .ok () { calls with
      pending := calls.pending ++ [⟨(calls.handle id).fat, id, callback⟩] } := by
  simp [register, hnone]

theorem assign_ok {id : Nat} {result : Int}
    (hassign : (calls.handle id).assign result calls.memory = .ok () m') :
    assign id result calls = .ok () { calls with memory := m' } := by
  simp [assign, onMemory_ok hassign]

/-- A call that is registered and whose record is ready is resolved with its payload. -/
theorem resolve_ok {fat : Int} {p : Pending κ} {payload : List UInt8}
    (hp : calls.pendingAt? fat = some p)
    (hready : (calls.handle p.handle).isReady calls.memory = .ok true)
    (hconsume : (calls.handle p.handle).consume calls.memory = .ok payload m') :
    resolve fat calls = .ok (payload, p.callback) {
      memory := m'
      handles := calls.handles.modify p.handle fun h => { h with consumed := true }
      pending := calls.pending.filter fun q => q.fat ≠ fat } := by
  have hsame : ∀ pending, ({ calls with pending } : AsyncCalls κ).handle p.handle
      = calls.handle p.handle := fun _ => rfl
  simp [resolve, hp, ask, hready, consume, hsame, onMemory, hconsume]

theorem resolve_unknown {fat : Int} (hp : calls.pendingAt? fat = none) :
    resolve fat calls = .error .unknownPromise calls := by
  simp [resolve, hp]

theorem resolve_notReady {fat : Int} {p : Pending κ} (hp : calls.pendingAt? fat = some p)
    (hready : (calls.handle p.handle).isReady calls.memory = .ok false) :
    resolve fat calls = .error .promiseNotReady calls := by
  simp [resolve, hp, ask, hready]

/-- Handles that were given out stay when a further one is. -/
theorem handle_append {id : Nat} (hid : id < calls.handles.length) (h : Handle)
    (pending : List (Pending κ)) :
    ({ memory := m', handles := calls.handles ++ [h], pending } : AsyncCalls κ).handle id
      = calls.handle id := by
  simp [handle, List.getD_eq_getElem?_getD, List.getElem?_append_left hid]

theorem handle_append_self (h : Handle) (pending : List (Pending κ)) :
    ({ memory := m', handles := calls.handles ++ [h], pending } : AsyncCalls κ).handle
      calls.handles.length = h := by
  simp [handle, List.getD_eq_getElem?_getD]

/-- Only the handle that is noted as consumed changes. -/
theorem handle_modify {id other : Nat} (hne : other ≠ id) (f : Handle → Handle)
    (pending : List (Pending κ)) :
    ({ memory := m', handles := calls.handles.modify other f, pending } : AsyncCalls κ).handle id
      = calls.handle id := by
  simp [handle, List.getD_eq_getElem?_getD, hne]

end AsyncCalls

end WasmBridge
