import WasmBridge.Proofs.Memory.Ownership
import WasmBridge.Proofs.Memory.Traffic

/-!
# One call and its steps

What holds of a call at each stage, and that its next step takes it to the next
stage. The statement `CallInv` says which blocks the call holds, what is in them,
and what is registered for it. The six steps of the call itself move it on; a step
of somebody else touches neither the blocks nor the registration, so it leaves the
statement true.
-/

namespace WasmBridge

open LinearMemory FatPtr AsyncCalls

variable {κ : Type}

/-! ## What holds of a call at its stage -/

/-- The call holds the block of its result and no other one for it. -/
structure HoldsResult (payload : List UInt8) (owners : Owners κ) (m : LinearMemory) (k : κ)
    (result : Int) (c : Block) : Prop where
  buffer : Buffer m result payload.length c
  owner : ∀ a, owners a = some (.result k) ↔ a = c.start

/-- What is in the blocks of a call at a stage, where `b` is the block of its record. -/
def StageInv (payload : List UInt8) (owners : Owners κ) (m : LinearMemory) (k : κ) (b : Block) :
    Stage → Prop
  | .created | .registered =>
    m.wordAt b.start = pendingStatus ∧ ∀ a, owners a ≠ some (.result k)
  | .allocated result =>
    m.wordAt b.start = pendingStatus ∧ ∃ c, HoldsResult payload owners m k result c
  | .written result =>
    m.wordAt b.start = pendingStatus
      ∧ ∃ c, HoldsResult payload owners m k result c
        ∧ m.bytesFrom c.start payload.length = payload
  | .assigned result =>
    ∃ c, HoldsResult payload owners m k result c
      ∧ m.bytesFrom c.start payload.length = payload
      ∧ Ready m b.start c.start payload.length

/-- A call whose record lies in the block `b` runs as it should. -/
structure Running (payload : List UInt8) (owners : Owners κ) (calls : AsyncCalls κ) (k : κ)
    (handle : Nat) (stage : Stage) (b : Block) : Prop where
  known : handle < calls.handles.length
  unconsumed : (calls.handle handle).consumed = false
  record : Buffer calls.memory (calls.handle handle).fat recordSize b
  owner : ∀ a, owners a = some (.record k) ↔ a = b.start
  pending : ∀ p, p ∈ calls.pending ∧ p.callback = k
    ↔ stage ≠ .created ∧ p = ⟨(calls.handle handle).fat, handle, k⟩
  stage : StageInv payload owners calls.memory k b stage

/-- What holds of a call in each phase. -/
def CallInv (payload : List UInt8) (owners : Owners κ) (calls : AsyncCalls κ) (k : κ) :
    Phase → Prop
  | .idle | .resolved =>
    (∀ a, owners a ≠ some (.record k)) ∧ (∀ a, owners a ≠ some (.result k))
      ∧ ∀ p ∈ calls.pending, p.callback ≠ k
  | .running handle stage => ∃ b, Running payload owners calls k handle stage b

/-! ## Steps of others -/

variable {payload : List UInt8} {owners owners' : Owners κ} {calls calls' : AsyncCalls κ}
  {m m' : LinearMemory} {k : κ} {b : Block} {handle : Nat} {stage : Stage}

theorem HoldsResult.untouched {result : Int} {c : Block}
    (h : HoldsResult payload owners m k result c)
    (hu : Untouched owners owners' m m' (.result k)) :
    HoldsResult payload owners' m' k result c :=
  ⟨hu.buffer h.buffer ((h.owner _).mpr rfl), fun a => (hu.holds a).trans (h.owner a)⟩

theorem HoldsResult.bytes_untouched {result : Int} {c : Block}
    (h : HoldsResult payload owners m k result c)
    (hu : Untouched owners owners' m m' (.result k)) :
    m'.bytesFrom c.start payload.length = m.bytesFrom c.start payload.length :=
  hu.bytesFrom h.buffer ((h.owner _).mpr rfl) (Int.le_refl _)

theorem StageInv.untouched {fat : Int} (h : StageInv payload owners m k b stage)
    (hb : Buffer m fat recordSize b) (hw : owners b.start = some (.record k))
    (hrecord : Untouched owners owners' m m' (.record k))
    (hresult : Untouched owners owners' m m' (.result k)) :
    StageInv payload owners' m' k b stage := by
  have hword : ∀ i : Int, 0 ≤ i ∧ i + 4 ≤ recordSize →
      m'.wordAt (b.start + i) = m.wordAt (b.start + i) := fun i hi => hrecord.wordAt hb hw hi
  have hstatus : m'.wordAt b.start = m.wordAt b.start := by
    have := hword 0 (by decide)
    rwa [Int.add_zero] at this
  have hnone : (∀ a, owners a ≠ some (.result k)) → ∀ a, owners' a ≠ some (.result k) :=
    fun hn a => mt (hresult.holds a).mp (hn a)
  cases stage with
  | created => exact ⟨hstatus.trans h.1, hnone h.2⟩
  | registered => exact ⟨hstatus.trans h.1, hnone h.2⟩
  | allocated result =>
    obtain ⟨hpending, c, hc⟩ := h
    exact ⟨hstatus.trans hpending, c, hc.untouched hresult⟩
  | written result =>
    obtain ⟨hpending, c, hc, hbytes⟩ := h
    exact ⟨hstatus.trans hpending, c, hc.untouched hresult,
      (hc.bytes_untouched hresult).trans hbytes⟩
  | assigned result =>
    obtain ⟨c, hc, hbytes, hready⟩ := h
    refine ⟨c, hc.untouched hresult, (hc.bytes_untouched hresult).trans hbytes, ?_⟩
    exact ⟨hstatus.trans hready.status, (hword 4 (by decide)).trans hready.pointer,
      (hword 8 (by decide)).trans hready.length⟩

/-- Whatever leaves the blocks, the handle and the registration of a call leaves the call. -/
theorem CallInv.untouched {phase : Phase} (h : CallInv payload owners calls k phase)
    (hrecord : Untouched owners owners' calls.memory calls'.memory (.record k))
    (hresult : Untouched owners owners' calls.memory calls'.memory (.result k))
    (hhandle : ∀ handle stage, phase = .running handle stage → handle < calls.handles.length →
      handle < calls'.handles.length ∧ calls'.handle handle = calls.handle handle)
    (hpending : ∀ p, p.callback = k → (p ∈ calls'.pending ↔ p ∈ calls.pending)) :
    CallInv payload owners' calls' k phase := by
  have hnot : ((∀ a, owners a ≠ some (.record k)) ∧ (∀ a, owners a ≠ some (.result k))
        ∧ ∀ p ∈ calls.pending, p.callback ≠ k) →
      (∀ a, owners' a ≠ some (.record k)) ∧ (∀ a, owners' a ≠ some (.result k))
        ∧ ∀ p ∈ calls'.pending, p.callback ≠ k := by
    rintro ⟨hr, hs, hp⟩
    exact ⟨fun a => mt (hrecord.holds a).mp (hr a), fun a => mt (hresult.holds a).mp (hs a),
      fun p hmem heq => hp p ((hpending p heq).mp hmem) heq⟩
  cases phase with
  | idle => exact hnot h
  | resolved => exact hnot h
  | running handle stage =>
    obtain ⟨b, hr⟩ := h
    obtain ⟨hknown, hsame⟩ := hhandle handle stage rfl hr.known
    have hw : owners b.start = some (.record k) := (hr.owner _).mpr rfl
    refine ⟨b, hknown, ?_, ?_, ?_, ?_, ?_⟩
    · rw [hsame]; exact hr.unconsumed
    · rw [hsame]; exact hrecord.buffer hr.record hw
    · exact fun a => (hrecord.holds a).trans (hr.owner a)
    · intro p
      rw [hsame, ← hr.pending p]
      exact and_congr_left fun hk => hpending p hk
    · exact hr.stage.untouched hr.record hw hrecord hresult

/-! ## Steps of the call itself -/

/-- A step of `k` has moved it from one phase to another and has left all others alone. -/
structure Stepped (payload : List UInt8) (owners owners' : Owners κ) (calls calls' : AsyncCalls κ)
    (k : κ) (phase phase' : Phase) : Prop where
  owned : Owned owners' calls'.memory
  untouched : ∀ w, w ≠ .record k → w ≠ .result k →
    Untouched owners owners' calls.memory calls'.memory w
  handles : ∀ handle, handle < calls.handles.length → (∀ stage, phase ≠ .running handle stage) →
    handle < calls'.handles.length ∧ calls'.handle handle = calls.handle handle
  pending : ∀ p, p.callback ≠ k → (p ∈ calls'.pending ↔ p ∈ calls.pending)
  self : CallInv payload owners' calls' k phase'

/-- Creating: the call gets a block for its record and a handle of its own. -/
theorem step_create (ho : Owned owners calls.memory) (h : CallInv payload owners calls k .idle)
    (hreturns : Returns recordSize calls.memory) :
    ∃ handle owners' calls',
      nextStep payload k .idle calls = .ok (none, .running handle .created) calls'
        ∧ Stepped payload owners owners' calls calls' k .idle (.running handle .created) := by
  obtain ⟨hrecord, hresult, hpending⟩ := h
  obtain ⟨fat, m, hm⟩ := hreturns
  obtain ⟨b, hg⟩ := granted_of_malloc ho.tiled hm
  have hcreate := create_ok (Handle.create_eq hm hg)
  have hfollows := follows_setBytes hg.follows.tiled b.start (List.replicate recordSize 0)
  have hroom : 12 ≤ b.size := hg.room
  have hnext : nextStep payload k .idle calls
      = .ok (none, .running calls.handles.length .created) { calls with
          memory := m.setBytes b.start (List.replicate recordSize 0)
          handles := calls.handles ++ [{ fat }] } := by
    simp only [nextStep, Operation.bind_apply, hcreate]; rfl
  refine ⟨calls.handles.length, Function.update owners b.start (some (.record k)), _, hnext,
    ?_, ?_, ?_, ?_, ?_⟩
  · exact (ho.take hg _).overwritten hfollows rfl
  · -- the block is new, and the zeros that it starts with stay within it
    intro w hw _
    have htake := untouched_take ho hg hw
    refine htake.trans (untouched_overwritten (ho.take hg _) hg.buffer.mem rfl ?_ ?_)
    · intro a ha
      unfold Block.Holds at ha
      exact byteAt_setBytes_outside (by rw [List.length_replicate]; unfold recordSize; omega)
    · rw [Function.update_self]; simpa using hw.symm
  · intro handle hlt _
    exact ⟨by simp; omega, handle_append hlt _ _⟩
  · exact fun p _ => Iff.rfl
  · -- the call itself: its handle is the last one, and nothing was its own before
    refine ⟨b, by simp, ?_, ?_, ?_, ?_, ?_⟩
    · rw [handle_append_self]
    · rw [handle_append_self]; exact hg.buffer.keep hg.buffer.mem
    · intro a
      by_cases ha : a = b.start
      · subst ha; simp
      · rw [Function.update_of_ne ha]
        exact ⟨fun hc => absurd hc (hrecord a), fun hc => absurd hc ha⟩
    · intro p
      exact ⟨fun ⟨hp, hk⟩ => absurd hk (hpending p hp), fun ⟨hc, _⟩ => absurd rfl hc⟩
    · refine ⟨Handle.wordAt_zeros _ _, fun a => ?_⟩
      by_cases ha : a = b.start
      · subst ha; simp
      · rw [Function.update_of_ne ha]; exact hresult a

/-- Registering: the record of the call is not registered yet, so its callback is taken. -/
theorem step_register (ho : Owned owners calls.memory)
    (h : CallInv payload owners calls k (.running handle .created))
    (hunique : ∀ p ∈ calls.pending, p.fat = (calls.handle handle).fat → p.callback = k) :
    ∃ calls', nextStep payload k (.running handle .created) calls
        = .ok (none, .running handle .registered) calls'
      ∧ Stepped payload owners owners calls calls' k (.running handle .created)
          (.running handle .registered) := by
  obtain ⟨b, hr⟩ := h
  -- blocks of other calls start elsewhere, so the pointer is not registered either
  have hno : ∀ p, ¬ (p ∈ calls.pending ∧ p.callback = k) :=
    fun p hc => ((hr.pending p).mp hc).1 rfl
  have hnone : calls.pendingAt? (calls.handle handle).fat = none :=
    pendingAt?_eq_none_iff.mpr fun p hp heq => hno p ⟨hp, hunique p hp heq⟩
  have hnext : nextStep payload k (.running handle .created) calls
      = .ok (none, .running handle .registered) { calls with
          pending := calls.pending ++ [⟨(calls.handle handle).fat, handle, k⟩] } := by
    simp only [nextStep, Operation.bind_apply, register_ok hnone k]; rfl
  refine ⟨_, hnext, ho, ?_, ?_, ?_, b, hr.known, hr.unconsumed, hr.record, hr.owner, ?_, hr.stage⟩
  · exact fun w _ _ => Untouched.refl _ _ w
  · exact fun handle hlt _ => ⟨hlt, rfl⟩
  · intro p hp
    rw [List.mem_append, List.mem_singleton]
    exact or_iff_left fun heq => hp (by rw [heq])
  · intro p
    rw [List.mem_append, List.mem_singleton]
    constructor
    · rintro ⟨hp | hp, hk⟩
      · exact absurd ⟨hp, hk⟩ (hno p)
      · exact ⟨by decide, hp⟩
    · rintro ⟨-, hp⟩
      exact ⟨.inr hp, by rw [hp]⟩

/-- Requesting: the call gets a block for its result. -/
theorem step_allocate (ho : Owned owners calls.memory)
    (h : CallInv payload owners calls k (.running handle .registered))
    (hreturns : Returns payload.length calls.memory) :
    ∃ result owners' calls', nextStep payload k (.running handle .registered) calls
        = .ok (none, .running handle (.allocated result)) calls'
      ∧ Stepped payload owners owners' calls calls' k (.running handle .registered)
          (.running handle (.allocated result)) := by
  obtain ⟨b, hr⟩ := h
  obtain ⟨hpending, hresult⟩ := hr.stage
  obtain ⟨result, m, hm⟩ := hreturns
  obtain ⟨c, hg⟩ := granted_of_malloc ho.tiled hm
  have hne : (Owner.record k) ≠ .result k := nofun
  -- the record stays pending, as the request touches nothing that has an owner
  have hrecord := untouched_take ho hg hne
  have hw : owners b.start = some (.record k) := (hr.owner _).mpr rfl
  have hstatus : m.wordAt b.start = calls.memory.wordAt b.start := by
    have := hrecord.wordAt hr.record hw (i := 0) (by decide)
    rwa [Int.add_zero] at this
  have hnext : nextStep payload k (.running handle .registered) calls
      = .ok (none, .running handle (.allocated result)) { calls with memory := m } := by
    simp only [nextStep, Operation.bind_apply, onMemory_ok hm]; rfl
  refine ⟨result, Function.update owners c.start (some (.result k)), _, hnext, ho.take hg _,
    ?_, ?_, ?_, b, hr.known, hr.unconsumed, hrecord.buffer hr.record hw, ?_, ?_, ?_⟩
  · exact fun w _ hw => untouched_take ho hg hw
  · exact fun handle hlt _ => ⟨hlt, rfl⟩
  · exact fun p _ => Iff.rfl
  · exact fun a => (hrecord.holds a).trans (hr.owner a)
  · exact fun p => (hr.pending p).trans (and_congr_left fun _ => ⟨fun _ => nofun, fun _ => nofun⟩)
  · refine ⟨hstatus.trans hpending, c, hg.buffer, fun a => ?_⟩
    by_cases ha : a = c.start
    · subst ha; simp
    · rw [Function.update_of_ne ha]
      exact ⟨fun hc => absurd hc (hresult a), fun hc => absurd hc ha⟩

/-- Writing: the block of the result takes the payload. -/
theorem step_write {result : Int} (ho : Owned owners calls.memory)
    (h : CallInv payload owners calls k (.running handle (.allocated result))) :
    ∃ calls', nextStep payload k (.running handle (.allocated result)) calls
        = .ok (none, .running handle (.written result)) calls'
      ∧ Stepped payload owners owners calls calls' k (.running handle (.allocated result))
          (.running handle (.written result)) := by
  obtain ⟨b, hr⟩ := h
  obtain ⟨hpending, c, hc⟩ := hr.stage
  have hwrite := write_buffer ho.tiled hc.buffer
  have hroom := hc.buffer.room
  have howner : owners c.start = some (.result k) := (hc.owner _).mpr rfl
  have huntouched : ∀ w, w ≠ .result k → Untouched owners owners calls.memory
      (calls.memory.setBytes c.start payload) w := by
    intro w hw
    refine untouched_overwritten ho hc.buffer.mem rfl (fun a ha => ?_)
      (by rw [howner]; simpa using hw.symm)
    unfold Block.Holds at ha
    exact byteAt_setBytes_outside (by omega)
  have hrecord := huntouched (.record k) nofun
  have hw : owners b.start = some (.record k) := (hr.owner _).mpr rfl
  have hstatus := hrecord.wordAt hr.record hw (i := 0) (by decide)
  rw [Int.add_zero] at hstatus
  have hnext : nextStep payload k (.running handle (.allocated result)) calls
      = .ok (none, .running handle (.written result))
          { calls with memory := calls.memory.setBytes c.start payload } := by
    simp only [nextStep, Operation.bind_apply, onMemory_ok hwrite]; rfl
  refine ⟨_, hnext, ho.overwritten (follows_setBytes ho.tiled _ _) rfl,
    fun w _ hw => huntouched w hw, fun handle hlt _ => ⟨hlt, rfl⟩, fun p _ => Iff.rfl,
    b, hr.known, hr.unconsumed, hr.record.keep hr.record.mem, hr.owner, ?_, hstatus.trans hpending,
    c, ⟨hc.buffer.keep hc.buffer.mem, hc.owner⟩, bytesFrom_setBytes _ _ _⟩
  exact fun p => (hr.pending p).trans (and_congr_left fun _ => ⟨fun _ => nofun, fun _ => nofun⟩)

/-- Assigning: the record names the result and is ready. -/
theorem step_assign {result : Int} (ho : Owned owners calls.memory)
    (h : CallInv payload owners calls k (.running handle (.written result))) :
    ∃ calls', nextStep payload k (.running handle (.written result)) calls
        = .ok (none, .running handle (.assigned result)) calls'
      ∧ Stepped payload owners owners calls calls' k (.running handle (.written result))
          (.running handle (.assigned result)) := by
  obtain ⟨b, hr⟩ := h
  obtain ⟨hpending, c, hc, hbytes⟩ := hr.stage
  have hassign := assign_ok ((Handle.within ho.tiled hr.record).assign_eq hpending hc.buffer.packs)
  have hfollows := follows_assigned ho.tiled b.start c.start payload.length
  have hroom : 12 ≤ b.size := hr.record.room
  have howner : owners b.start = some (.record k) := (hr.owner _).mpr rfl
  have huntouched : ∀ w, w ≠ .record k → Untouched owners owners calls.memory
      (calls.memory.assigned b.start c.start payload.length) w := by
    intro w hw
    refine untouched_overwritten ho hr.record.mem rfl (fun a ha => ?_)
      (by rw [howner]; simpa using hw.symm)
    unfold Block.Holds at ha
    exact byteAt_assigned_outside (by omega)
  -- the three words of the record lie apart from the bytes of the result
  have hresult := huntouched (.result k) nofun
  have hnext : nextStep payload k (.running handle (.written result)) calls
      = .ok (none, .running handle (.assigned result))
          { calls with memory := calls.memory.assigned b.start c.start payload.length } := by
    simp only [nextStep, Operation.bind_apply, hassign]; rfl
  refine ⟨_, hnext, ho.overwritten hfollows rfl, fun w hw _ => huntouched w hw,
    fun handle hlt _ => ⟨hlt, rfl⟩, fun p _ => Iff.rfl,
    b, hr.known, hr.unconsumed, hr.record.keep hr.record.mem, hr.owner, ?_,
    c, hc.untouched hresult, (hc.bytes_untouched hresult).trans hbytes,
    ready_assigned hc.buffer.packs⟩
  exact fun p => (hr.pending p).trans (and_congr_left fun _ => ⟨fun _ => nofun, fun _ => nofun⟩)

/-- Who has owned these two blocks only owns nothing when they are given back. -/
theorem unowned_of_given_back {start start' : Int} {w : Owner κ}
    (h : ∀ a, owners a = some w → a = start ∨ a = start') (a : Int) :
    Function.update (Function.update owners start none) start' none a ≠ some w := by
  by_cases ha : a = start'
  · subst ha; simp
  · rw [Function.update_of_ne ha]
    by_cases hs : a = start
    · subst hs; simp
    · rw [Function.update_of_ne hs]
      exact fun howner => (h a howner).elim hs ha

/-- Resolving: the callback is run with the payload, and the call gives back its blocks. -/
theorem step_resolve {result : Int} (ho : Owned owners calls.memory)
    (h : CallInv payload owners calls k (.running handle (.assigned result)))
    (hunique : ∀ p ∈ calls.pending, p.fat = (calls.handle handle).fat → p.callback = k) :
    ∃ owners' calls', nextStep payload k (.running handle (.assigned result)) calls
        = .ok (some (payload, k), .resolved) calls'
      ∧ Stepped payload owners owners' calls calls' k (.running handle (.assigned result))
          .resolved := by
  obtain ⟨b, hr⟩ := h
  obtain ⟨c, hc, hbytes, hready⟩ := hr.stage
  have hrecord : owners b.start = some (.record k) := (hr.owner _).mpr rfl
  have hresult : owners c.start = some (.result k) := (hc.owner _).mpr rfl
  have hne : c.start ≠ b.start := by
    intro heq
    rw [heq, hrecord] at hresult
    cases hresult
  -- the entry of the call is the one that is found
  have hentry := (hr.pending ⟨(calls.handle handle).fat, handle, k⟩).mpr ⟨nofun, rfl⟩
  have hfound : calls.pendingAt? (calls.handle handle).fat
      = some ⟨(calls.handle handle).fat, handle, k⟩ := by
    cases hp : calls.pendingAt? (calls.handle handle).fat with
    | none =>
      exact absurd rfl (pendingAt?_eq_none_iff.mp hp _ hentry.1)
    | some p =>
      obtain ⟨hmem, hfat⟩ := mem_of_pendingAt? hp
      rw [((hr.pending p).mp ⟨hmem, hunique p hmem hfat⟩).2]
  have hisReady : (calls.handle handle).isReady calls.memory = .ok true := by
    rw [(Handle.within ho.tiled hr.record).isReady_eq, hready.status]; rfl
  have hconsume := Handle.consume_eq ho.tiled hr.record hr.unconsumed hc.buffer hready hne
  rw [Int.toNat_natCast, hbytes] at hconsume
  have hnext : nextStep payload k (.running handle (.assigned result)) calls
      = .ok (some (payload, k), .resolved) {
          memory := (calls.memory.giveBack c).giveBack b
          handles := calls.handles.modify handle fun h => { h with consumed := true }
          pending := calls.pending.filter fun p => p.fat ≠ (calls.handle handle).fat } := by
    simp only [nextStep, Operation.bind_apply, Operation.get_apply,
      resolve_ok hfound hisReady hconsume]
    rfl
  -- both blocks are given back, first that of the result
  have hdrop := ho.drop hc.buffer.mem hc.buffer.packs
  have hb : b ∈ (calls.memory.giveBack c).live := mem_live_giveBack.mpr ⟨hr.record.mem, hne.symm⟩
  have hrecord' : Function.update owners c.start none b.start = some (.record k) := by
    rw [Function.update_of_ne hne.symm, hrecord]
  refine ⟨_, _, hnext, hdrop.drop hb hr.record.packs, ?_, ?_, ?_, ?_, ?_, ?_⟩
  · intro w hwrecord hwresult
    refine (untouched_drop ?_).trans (untouched_drop ?_)
    · rw [hresult]; simpa using hwresult.symm
    · rw [hrecord']; simpa using hwrecord.symm
  · intro other hlt hother
    have hdiff : handle ≠ other := fun heq => hother _ (by rw [heq])
    exact ⟨by simpa using hlt, handle_modify hdiff _ _⟩
  · intro p hp
    rw [List.mem_filter]
    exact and_iff_left_of_imp fun hmem =>
      decide_eq_true fun heq => hp (hunique p hmem heq)
  · exact unowned_of_given_back fun a howner => .inr ((hr.owner a).mp howner)
  · exact unowned_of_given_back fun a howner => .inl ((hc.owner a).mp howner)
  · -- the entry that was found is the only one of the call, and it is gone
    intro p hp hk
    rw [List.mem_filter] at hp
    have := ((hr.pending p).mp ⟨hp.1, hk⟩).2
    rw [this] at hp
    simp at hp

end WasmBridge
