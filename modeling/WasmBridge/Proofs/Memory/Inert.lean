import WasmBridge.Proofs.Memory.Steps

/-!
# What is left of a consumed record

Consuming a record gives back its two blocks and notes in the handle that it was
done. Neither the words of the record are cleared nor do other handles on it hear
of it. So there are two guards, and they see different things.

The handle that has consumed refuses to do it again, whatever happens to the memory.
Every other handle goes by the status word that it finds where the record was. As
long as the block of the record stays freed and nobody writes a word over it, that
word still says that the result is there: assigning is refused, but the handle still
gives the pointer to a buffer that is nobody's. Once the block is handed out again
the word is whatever its new holder has written, and a zero there lets a handle
assign into it.

The main result says for every handle and every operation when exactly it is
refused, after any steps.
-/

namespace WasmBridge

open LinearMemory FatPtr Outcome

/-- The calls refuse to do something with a record or a registration in its present state. -/
def BoundaryError.isResolution : BoundaryError → Bool
  | alreadyAssigned _ | alreadyConsumed _ | notReady | unexpectedStatus _ | alreadyRegistered _
  | unknownPromise | promiseNotReady => true
  | _ => false

/-! ## When a handle refuses -/

namespace LinearMemory

variable {m m' : LinearMemory} {fat : Int} {e : BoundaryError}

theorem unpack_failsOnly (fat : Int) : FailsOnly (·.isResolution = false) (unpack fat) := by
  unfold unpack
  split
  · exact failsOnly_error rfl
  · exact failsOnly_ok _

theorem read_failsOnly (m : LinearMemory) (fat : Int) :
    FailsOnly (·.isResolution = false) (m.read fat) := by
  refine (unpack_failsOnly fat).bind fun parts _ => FailsOnly.bind ?_ fun _ _ => failsOnly_ok _
  unfold check
  split
  · exact failsOnly_ok _
  · exact failsOnly_error rfl

theorem not_isResolution_of_free (h : free fat m = .error e m') : e.isResolution = false := by
  simp only [free, Operation.bind_apply, Operation.get_apply] at h
  cases hfat : unpack fat with
  | error e' =>
    rw [hfat] at h
    cases h
    exact unpack_failsOnly _ _ hfat
  | ok parts =>
    simp only [hfat, orFail_ok] at h
    cases hb : m.blockAt? parts.1 with
    | none => rw [hb] at h; cases h; rfl
    | some b => rw [hb] at h; cases h

end LinearMemory

namespace Handle

variable {m : LinearMemory} {h : Handle} {start : Int}

/-- A record that is not pending takes no result. -/
theorem Within.assign_refused (hw : h.Within m start) (hword : m.wordAt start ≠ pendingStatus)
    (fat : Int) : h.assign fat m = .error (.alreadyAssigned h.fat) m := by
  simp [assign, hw.status_eq, hword]

/-- A pending record takes a result, unless what is assigned is no pointer. -/
theorem Within.assign_taken (hw : h.Within m start) (hword : m.wordAt start = pendingStatus)
    {fat : Int} {e : BoundaryError} {m' : LinearMemory} (hr : h.assign fat m = .error e m') :
    e.isResolution = false := by
  cases hfat : unpack fat with
  | ok parts =>
    rw [hw.assign_eq hword (unpack_eq_ok_iff.mp hfat)] at hr
    cases hr
  | error e' =>
    simp [assign, hw.status_eq, hword, hfat] at hr
    obtain ⟨rfl, -⟩ := hr
    exact unpack_failsOnly _ _ hfat

/-- A record that is ready gives the pointer that its words spell. -/
theorem Within.result_given (hw : h.Within m start) (hnew : h.consumed = false)
    (hword : m.wordAt start = readyStatus) :
    h.result m = .ok (m.wordAt (start + 4) * halfSize + m.wordAt (start + 8)) :=
  hw.result_eq hnew ⟨m.wordAt_range _, m.wordAt_range _, rfl⟩ ⟨hword, rfl, rfl⟩

theorem result_refused (hold : h.consumed = true) (m : LinearMemory) :
    h.result m = .error (.alreadyConsumed h.fat) := by
  simp [Handle.result, hold]

/-- A record without a result gives none. -/
theorem Within.result_refused (hw : h.Within m start)
    (hguard : h.consumed = true ∨ m.wordAt start ≠ readyStatus) :
    ∃ e, e.isResolution = true ∧ h.result m = .error e := by
  by_cases hold : h.consumed = true
  · exact ⟨_, rfl, Handle.result_refused hold m⟩
  · have hword := hguard.resolve_left hold
    by_cases hpending : m.wordAt start = pendingStatus
    · exact ⟨.notReady, rfl, by simp [Handle.result, hold, hw.status_eq, hpending]⟩
    · exact ⟨.unexpectedStatus _, rfl, by
        simp [Handle.result, hold, hw.status_eq, hpending, hword]; rfl⟩

/-- What fails after the result is there is an access to memory. -/
theorem not_isResolution_of_consume {result : Int} (hresult : h.result m = .ok result)
    {e : BoundaryError} {m' : LinearMemory} (hr : h.consume m = .error e m') :
    e.isResolution = false := by
  simp only [consume, Operation.bind_apply, Operation.get_apply, hresult, orFail_ok] at hr
  cases hread : m.read result with
  | error e' =>
    rw [hread] at hr
    cases hr
    exact read_failsOnly _ _ _ hread
  | ok payload =>
    simp only [hread, orFail_ok] at hr
    cases hfree : free result m with
    | error e' m₁ =>
      rw [hfree] at hr
      cases hr
      exact not_isResolution_of_free hfree
    | ok u m₁ =>
      simp only [hfree] at hr
      cases hrecord : free h.fat m₁ with
      | error e' m₂ =>
        rw [hrecord] at hr
        cases hr
        exact not_isResolution_of_free hrecord
      | ok u m₂ => rw [hrecord] at hr; cases hr

end Handle

namespace AsyncCalls

variable {κ : Type} {s : AsyncCalls κ} {id : Nat} {start : Int}

/-- The operation is refused and leaves everything as it is. -/
def Refuses {α : Type} (op : CallOp κ α) (s : AsyncCalls κ) : Prop :=
  ∃ e : BoundaryError, e.isResolution = true ∧ op s = .error e s

/-- The handle does not give a result: it has consumed one, or the record says that there is
none. -/
def Spent (s : AsyncCalls κ) (id : Nat) (start : Int) : Prop :=
  (s.handle id).consumed = true ∨ s.memory.wordAt start ≠ readyStatus

theorem refuses_assign_iff (hw : (s.handle id).Within s.memory start) (fat : Int) :
    Refuses (assign id fat) s ↔ s.memory.wordAt start ≠ pendingStatus := by
  constructor
  · rintro ⟨e, he, hr⟩ hpending
    cases hassign : (s.handle id).assign fat s.memory with
    | ok u m => rw [assign_ok hassign] at hr; cases hr
    | error e' m =>
      -- a pending record fails for other reasons than its state
      have htaken := hw.assign_taken hpending hassign
      simp [assign, onMemory, hassign] at hr
      rw [hr.1, he] at htaken
      cases htaken
  · intro hword
    refine ⟨.alreadyAssigned (s.handle id).fat, rfl, ?_⟩
    simp [assign, onMemory, hw.assign_refused hword]

theorem refuses_result_iff (hw : (s.handle id).Within s.memory start) :
    Refuses (result id) s ↔ Spent s id start := by
  have hask : result id s = ask (s.handle id).result s := rfl
  constructor
  · rintro ⟨e, he, hr⟩
    by_cases hspent : Spent s id start
    · exact hspent
    · obtain ⟨hnew, hword⟩ := not_or.mp hspent
      have hgiven := hw.result_given (by simpa using hnew) (not_not.mp hword)
      rw [hask, ask, hgiven] at hr
      cases hr
  · intro hspent
    obtain ⟨e, he, hr⟩ := hw.result_refused hspent
    exact ⟨e, he, by rw [hask, ask, hr]⟩

theorem refuses_consume_iff (hw : (s.handle id).Within s.memory start) :
    Refuses (consume id) s ↔ Spent s id start := by
  constructor
  · rintro ⟨e, he, hr⟩
    by_cases hspent : Spent s id start
    · exact hspent
    · obtain ⟨hnew, hword⟩ := not_or.mp hspent
      have hgiven := hw.result_given (by simpa using hnew) (not_not.mp hword)
      rcases consume_cases id s with ⟨payload, m, _, hr'⟩ | ⟨e', m, hconsume, hr'⟩
      · rw [hr'] at hr; cases hr
      · rw [hr', EStateM.Result.error.injEq] at hr
        have hno := Handle.not_isResolution_of_consume hgiven hconsume
        rw [hr.1, he] at hno
        cases hno
  · intro hspent
    obtain ⟨e, he, hr⟩ := hw.result_refused hspent
    exact ⟨e, he, by simp [consume, onMemory, Handle.consume, hr]⟩

/-! ## Consuming a record -/

/-- The step consumes the record of a handle: as it is told to, or because the call that waits for
the record is resolved. -/
inductive Consumes (s : AsyncCalls κ) (id : Nat) : Step κ → Prop
  | directly {payload : List UInt8} {s' : AsyncCalls κ} (h : consume id s = .ok payload s') :
    Consumes s id (.consume id)
  | resolving {fat : Int} {p : Pending κ} {ran : Ran κ} {s' : AsyncCalls κ}
    (hp : s.pendingAt? fat = some p) (hid : p.handle = id) (h : resolve fat s = .ok ran s') :
    Consumes s id (.resolve fat)

theorem Consumes.cases {step : Step κ} (h : Consumes s id step) :
    (∃ payload, (s.handle id).consume s.memory = .ok payload (step.after s).memory)
      ∧ (step.after s).handles = s.handles.modify id fun h => { h with consumed := true } := by
  cases h with
  | directly h =>
    rcases consume_cases id s with ⟨payload, m, hconsume, hr⟩ | ⟨e, m, _, hr⟩
    · rw [Step.after, stateAfter_ok hr]
      exact ⟨⟨payload, hconsume⟩, rfl⟩
    · rw [hr] at h; cases h
  | @resolving fat p ran s' hp hid h =>
    rcases resolve_cases fat s with
      ⟨e, hr⟩ | ⟨q, hq, _, ⟨payload, m, hconsume, hr⟩ | ⟨e, m, _, hr⟩⟩
    · rw [hr] at h; cases h
    · rw [hp] at hq
      cases hq
      subst hid
      rw [Step.after, stateAfter_ok hr]
      exact ⟨⟨payload, hconsume⟩, rfl⟩
    · rw [hr] at h; cases h

/--
**When the handles on a consumed record refuse.**

On a fresh memory anything is done until the record of some handle is consumed, be
it directly or by resolving its call, and anything afterwards. Then for every handle
that was on the record by that time, the one that has consumed it included: assigning
is refused exactly if the word where the status of the record was is not zero, and
getting the result and consuming are refused exactly if the handle itself has
consumed or that word is not one. Being refused changes nothing.

The handle that has consumed is one of those that have. The word is still one as
long as the block of the record is not handed out again and no word is written over
it, and till then a handle that has not consumed gets the pointer to the buffer that
was given back.
-/
theorem refuses_after_consumption {size align : Int} (halign : 1 ≤ align) {fresh : LinearMemory}
    (hfresh : LinearMemory.create size align = .ok fresh) (before later : List (Step κ))
    {step : Step κ} (hs : ({ memory := fresh } : AsyncCalls κ).run before = s)
    (hid : id < s.handles.length) (hconsumes : Consumes s id step) :
    ∃ start, (s.handle id).offset = .ok start
      ∧ (((step.after s).run later).handle id).consumed = true
      ∧ (∀ g < s.handles.length, (s.handle g).fat = (s.handle id).fat →
          (∀ fat, Refuses (assign g fat) ((step.after s).run later)
              ↔ ((step.after s).run later).memory.wordAt start ≠ pendingStatus)
          ∧ (Refuses (result g) ((step.after s).run later)
              ↔ (((step.after s).run later).handle g).consumed = true
                ∨ ((step.after s).run later).memory.wordAt start ≠ readyStatus)
          ∧ (Refuses (consume g) ((step.after s).run later)
              ↔ (((step.after s).run later).handle g).consumed = true
                ∨ ((step.after s).run later).memory.wordAt start ≠ readyStatus))
      ∧ ∀ b ∈ (step.after s).memory.freed, b.start = start → recordSize ≤ b.size →
          Undisturbed b (step.after s) later →
          ((step.after s).run later).memory.wordAt start = readyStatus
          ∧ ∀ g < s.handles.length, (s.handle g).fat = (s.handle id).fat →
            (((step.after s).run later).handle g).consumed = false →
            ∃ released, outcome (result id) s = .ok released
              ∧ outcome (result g) ((step.after s).run later) = .ok released := by
  obtain ⟨⟨payload, hconsume⟩, hnote⟩ := hconsumes.cases
  obtain ⟨b, c, hdone⟩ := Handle.of_consume hconsume
  have ht : Tiled s.memory := by
    rw [← hs]; exact (follows_steps (tiled_create halign hfresh) before).tiled
  have hstep := follows_step ht step
  have hlater := follows_steps hstep.tiled later
  have hkeep := keeps_run (step.after s) later
  have hboth := (keeps_step step s).trans hkeep
  generalize hs₂ : (step.after s).run later = s₂ at *
  -- the memory never gets shorter, so the record is still within it
  have hwithin : ∀ g < s.handles.length, (s.handle g).fat = (s.handle id).fat →
      (s₂.handle g).Within s₂.memory b.start := by
    intro g hg hsame
    have hsize := hdone.within.size
    have hlonger := (hstep.trans hlater).size
    refine ⟨?_, by omega⟩
    rw [hboth.fat g hg, hsame]
    exact hdone.within.packs
  refine ⟨b.start, hdone.within.offset_eq, ?_, ?_, ?_⟩
  · refine hkeep.consumed id (by rw [hnote, List.length_modify]; exact hid) ?_
    rw [handle_note hnote hid, if_pos rfl]
  · intro g hg hsame
    have hw := hwithin g hg hsame
    exact ⟨refuses_assign_iff hw, refuses_result_iff hw, refuses_consume_iff hw⟩
  · intro d _ hstart hroom hquiet
    -- giving back changes no byte, and nothing later writes over the block
    have hbytes : ∀ a, b.start ≤ a → a < b.start + recordSize →
        s₂.memory.byteAt a = s.memory.byteAt a := by
      intro a h1 h2
      have hkept := hquiet.byteAt_run hstep.tiled (a := a) (by unfold Block.Holds; omega)
      rw [hs₂, hdone.after, byteAt_giveBack, byteAt_giveBack] at hkept
      exact hkept
    have hword : ∀ i : Int, 0 ≤ i ∧ i ≤ 8 →
        s₂.memory.wordAt (b.start + i) = s.memory.wordAt (b.start + i) := by
      intro i hi
      refine wordAt_congr fun a h1 h2 => hbytes a (by omega) ?_
      unfold recordSize; omega
    have hready : s₂.memory.wordAt b.start = readyStatus := by
      rw [← hdone.ready.status]
      simpa using hword 0 (by decide)
    refine ⟨hready, fun g hg hsame hnew => ?_⟩
    -- both handles read the same words, one before and one after
    have h₁ := hdone.within.result_given hdone.unconsumed hdone.ready.status
    have h₂ := (hwithin g hg hsame).result_given hnew hready
    rw [hword 4 (by decide), hword 8 (by decide)] at h₂
    have hask : ∀ (t : AsyncCalls κ) (n : Nat) (r : Int), (t.handle n).result t.memory = .ok r →
        outcome (result n) t = .ok r := by
      intro t n r hr
      have heq : result n t = ask (t.handle n).result t := rfl
      have hok : result n t = .ok r t := by rw [heq, ask, hr]
      exact outcome_ok hok
    exact ⟨_, hask s id _ h₁, hask s₂ g _ h₂⟩

/-- A second handle on the record is there before the first one consumes. Afterwards it gets the
pointer to the buffer that was given back, and its own attempt to consume is not refused. -/
theorem refuses_after_consumption_attached :
    let fresh : LinearMemory :=
      { byteAt := fun _ => 0, size := 0, align := 8, next := 8, live := [], freed := [] }
    let s : AsyncCalls Unit := ({ memory := fresh } : AsyncCalls Unit).run
      [.create, .attach 34359738380, .memory (.malloc 4), .assign 0 103079215108]
    let s' : AsyncCalls Unit := (Step.consume 0 : Step Unit).after s
    Consumes s 0 (.consume 0)
      ∧ Refuses (consume 0) s' ∧ Refuses (assign 1 103079215108) s' ∧ ¬ Refuses (consume 1) s'
      ∧ ∃ released, outcome (result 0) s = .ok released
        ∧ outcome (result 1) s' = .ok released := by
  intro fresh s s'
  have halign : (1 : Int) ≤ 8 := by decide
  have hfresh : LinearMemory.create 0 8 = .ok fresh := rfl
  have hknown : 0 < s.handles.length ∧ 1 < s.handles.length := by decide +kernel
  have hfat : (s.handle 0).fat = 34359738380 ∧ (s.handle 1).fat = 34359738380 := by decide +kernel
  have hword : s'.memory.wordAt 8 = readyStatus := by decide +kernel
  have hnew : (s'.handle 1).consumed = false := by decide +kernel
  have hfreed : ⟨8, 16⟩ ∈ s'.memory.freed := by decide +kernel
  have hconsumes : Consumes s 0 (.consume 0) := by
    have hok : (outcome (consume 0) s).isOk = true := by decide +kernel
    cases hr : consume 0 s with
    | ok payload t => exact .directly hr
    | error e t => rw [outcome_error hr] at hok; cases hok
  have hs : ({ memory := fresh } : AsyncCalls Unit).run
      [.create, .attach 34359738380, .memory (.malloc 4), .assign 0 103079215108] = s := rfl
  -- from here on the two states are opaque, so that nothing computes them again
  have hs' : (Step.consume 0).after s = s' := rfl
  have hnil : ∀ t : AsyncCalls Unit, t.run [] = t := fun _ => rfl
  clear_value s' s
  obtain ⟨start, hstart, hold, hguards, hquiet⟩ :=
    refuses_after_consumption halign hfresh _ [] hs hknown.1 hconsumes
  rw [hs', hnil] at hold hguards hquiet
  obtain rfl : start = 8 := by
    obtain ⟨length, hpacks⟩ := Handle.offset_eq_ok hstart
    rw [hfat.1] at hpacks
    exact (hpacks.unique (show Packs 34359738380 8 12 by decide)).1
  have hsame := hfat.2.trans hfat.1.symm
  have h0 := hguards 0 hknown.1 rfl
  have h1 := hguards 1 hknown.2 hsame
  have hleft := hquiet ⟨8, 16⟩ hfreed rfl (by decide) hfreed
  have hcannot : ¬ Refuses (consume 1) s' := by
    rw [h1.2.2, hnew, hword]
    decide
  have hassign : Refuses (assign 1 103079215108) s' := by
    rw [h1.1, hword]
    decide
  have hconsume : Refuses (consume 0) s' := h0.2.2.mpr (.inl hold)
  have hstale := hleft.2 1 hknown.2 hsame hnew
  exact ⟨hconsumes, hconsume, hassign, hcannot, hstale⟩

end AsyncCalls

end WasmBridge
