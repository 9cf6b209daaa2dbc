import WasmBridge.Proofs.Memory.CallSteps

/-!
# Interleaved calls

Whatever the order in which calls and other users of the memory take their turns,
every call ends with its own payload. The invariant of a run is that every live
block has its holder and that every call is where its stage says; each move keeps
it, because it changes the blocks of one holder only.

Two calls never share a record, since a block has one holder. So two calls have
different pointers and different handles, also when the record of the one lies in a
block that the record of an earlier call has given back.
-/

namespace WasmBridge

open LinearMemory FatPtr AsyncCalls

variable {κ : Type} {payload : κ → List UInt8} {owners owners' : Owners κ} {s : Traffic κ}

/-- **The invariant**: every block has its holder, and every call is where it should be. -/
structure Orderly (payload : κ → List UInt8) (owners : Owners κ) (s : Traffic κ) : Prop where
  owned : Owned owners s.calls.memory
  held_nodup : s.held.Nodup
  held : ∀ a, a ∈ s.held ↔ owners a = some .other
  calls : ∀ k, CallInv (payload k) owners s.calls k (s.phase k)

theorem orderly_start {size align : Int} (halign : 1 ≤ align) {fresh : LinearMemory}
    (hfresh : create size align = .ok fresh) :
    Orderly payload (fun _ => none) { calls := { memory := fresh } } where
  owned := owned_create halign hfresh
  held_nodup := .nil
  held := fun a => ⟨fun h => by simp at h, fun h => by simp at h⟩
  calls := fun k => ⟨fun _ => nofun, fun _ => nofun, fun p hp => by simp at hp⟩

/-! ## Calls do not share records -/

/-- Calls whose records have the same pointer are the same call. -/
theorem Orderly.eq_of_fat (h : Orderly payload owners s) {j k : κ} {hj hk : Nat}
    {stagej stagek : Stage} (hpj : s.phase j = .running hj stagej)
    (hpk : s.phase k = .running hk stagek)
    (hfat : (s.calls.handle hj).fat = (s.calls.handle hk).fat) : j = k := by
  have hj' := h.calls j
  have hk' := h.calls k
  rw [hpj] at hj'
  rw [hpk] at hk'
  obtain ⟨bj, hrj⟩ := hj'
  obtain ⟨bk, hrk⟩ := hk'
  have hstart : bj.start = bk.start := (hfat ▸ hrj.record.packs).unique hrk.record.packs |>.1
  have howner := (hrj.owner bj.start).mpr rfl
  rw [hstart, (hrk.owner bk.start).mpr rfl] at howner
  simpa using howner.symm

/-- An entry belongs to a call that runs and is registered. -/
theorem Orderly.running_of_pending (h : Orderly payload owners s) {p : Pending κ}
    (hp : p ∈ s.calls.pending) : ∃ handle stage b,
      s.phase p.callback = .running handle stage ∧ stage ≠ .created
        ∧ Running (payload p.callback) owners s.calls p.callback handle stage b
        ∧ p = ⟨(s.calls.handle handle).fat, handle, p.callback⟩ := by
  have hcall := h.calls p.callback
  cases hphase : s.phase p.callback with
  | idle => rw [hphase] at hcall; exact absurd rfl (hcall.2.2 p hp)
  | resolved => rw [hphase] at hcall; exact absurd rfl (hcall.2.2 p hp)
  | running handle stage =>
    rw [hphase] at hcall
    obtain ⟨b, hr⟩ := hcall
    obtain ⟨hstage, heq⟩ := (hr.pending p).mp ⟨hp, rfl⟩
    exact ⟨handle, stage, b, rfl, hstage, hr, heq⟩

/-- The entries at the pointer of a call are its own. -/
theorem Orderly.pending_unique (h : Orderly payload owners s) {k : κ} {handle : Nat}
    {stage : Stage} (hphase : s.phase k = .running handle stage) :
    ∀ p ∈ s.calls.pending, p.fat = (s.calls.handle handle).fat → p.callback = k := by
  intro p hp hfat
  obtain ⟨hj, stagej, _, hpj, _, _, heq⟩ := h.running_of_pending hp
  exact h.eq_of_fat hpj hphase (by rw [← hfat, heq])

/-! ## Moves keep the invariant -/

/-- The next step of a call never fails, as long as its request returns. -/
theorem Orderly.nextStep_ok (h : Orderly payload owners s) {k : κ}
    (hallows : Allows payload s (.advance k)) :
    ∃ ran phase' owners' calls',
      nextStep (payload k) k (s.phase k) s.calls = .ok (ran, phase') calls'
        ∧ Stepped (payload k) owners owners' s.calls calls' k (s.phase k) phase'
        ∧ ((ran = none ∧ (phase' = .resolved ↔ s.phase k = .resolved))
          ∨ (ran = some (payload k, k) ∧ s.phase k ≠ .resolved ∧ phase' = .resolved)) := by
  have hcall := h.calls k
  have hunique := @Orderly.pending_unique _ _ _ _ h k
  have hreturns : ∀ length, (s.phase k).requested (payload k) = some length →
      Returns length s.calls.memory := hallows
  cases hphase : s.phase k with
  | idle =>
    rw [hphase] at hcall hreturns
    obtain ⟨handle, owners', calls', hnext, hstep⟩ :=
      step_create h.owned hcall (hreturns _ rfl)
    exact ⟨_, _, owners', calls', hnext, hstep, .inl ⟨rfl, by simp⟩⟩
  | resolved =>
    rw [hphase] at hcall
    exact ⟨none, .resolved, owners, s.calls, rfl,
      ⟨h.owned, fun w _ _ => .refl _ _ w, fun _ hlt _ => ⟨hlt, rfl⟩, fun _ _ => Iff.rfl, hcall⟩,
      .inl ⟨rfl, by simp⟩⟩
  | running handle stage =>
    rw [hphase] at hcall hreturns
    cases stage with
    | created =>
      obtain ⟨calls', hnext, hstep⟩ := step_register h.owned hcall (hunique hphase)
      exact ⟨_, _, owners, calls', hnext, hstep, .inl ⟨rfl, by simp⟩⟩
    | registered =>
      obtain ⟨result, owners', calls', hnext, hstep⟩ :=
        step_allocate h.owned hcall (hreturns _ rfl)
      exact ⟨_, _, owners', calls', hnext, hstep, .inl ⟨rfl, by simp⟩⟩
    | allocated result =>
      obtain ⟨calls', hnext, hstep⟩ := step_write h.owned hcall
      exact ⟨_, _, owners, calls', hnext, hstep, .inl ⟨rfl, by simp⟩⟩
    | written result =>
      obtain ⟨calls', hnext, hstep⟩ := step_assign h.owned hcall
      exact ⟨_, _, owners, calls', hnext, hstep, .inl ⟨rfl, by simp⟩⟩
    | assigned result =>
      obtain ⟨owners', calls', hnext, hstep⟩ :=
        step_resolve h.owned hcall (hunique hphase)
      exact ⟨_, _, owners', calls', hnext, hstep, .inr ⟨rfl, by simp, rfl⟩⟩

/-- Nothing is registered when no call is under way. -/
theorem Orderly.pending_eq_nil (h : Orderly payload owners s)
    (hdone : ∀ k, s.phase k = .idle ∨ s.phase k = .resolved) : s.calls.pending = [] := by
  refine List.eq_nil_iff_forall_not_mem.mpr fun p hp => ?_
  obtain ⟨handle, stage, _, hphase, _⟩ := h.running_of_pending hp
  rcases hdone p.callback with hidle | hresolved
  · rw [hidle] at hphase; cases hphase
  · rw [hresolved] at hphase; cases hphase

/-- The live blocks are those of other parties when no call is under way. -/
theorem Orderly.live_perm_held (h : Orderly payload owners s)
    (hdone : ∀ k, s.phase k = .idle ∨ s.phase k = .resolved) :
    (s.calls.memory.live.map Block.start).Perm s.held := by
  have hnone : ∀ k a, owners a ≠ some (.record k) ∧ owners a ≠ some (.result k) := by
    intro k a
    have hcall := h.calls k
    rcases hdone k with hphase | hphase
    · rw [hphase] at hcall; exact ⟨hcall.1 a, hcall.2.1 a⟩
    · rw [hphase] at hcall; exact ⟨hcall.1 a, hcall.2.1 a⟩
  refine (List.perm_ext_iff_of_nodup h.owned.tiled.nodup_starts h.held_nodup).mpr fun a => ?_
  rw [h.held, List.mem_map, ← h.owned.live a]
  cases howner : owners a with
  | none => simp
  | some w =>
    cases w with
    | other => simp
    | record k => exact absurd howner (hnone k a).1
    | result k => exact absurd howner (hnone k a).2

/-- What other parties do keeps the invariant if it leaves the blocks of all calls alone. -/
theorem Orderly.elsewhere (h : Orderly payload owners s) {m' : LinearMemory} (held' : List Int)
    (howned : Owned owners' m')
    (huntouched : ∀ w, w ≠ .other → Untouched owners owners' s.calls.memory m' w)
    (hnodup : held'.Nodup) (hheld : ∀ a, a ∈ held' ↔ owners' a = some .other) :
    Orderly payload owners' { s with calls := { s.calls with memory := m' }, held := held' } where
  owned := howned
  held_nodup := hnodup
  held := hheld
  calls := fun k => (h.calls k).untouched (huntouched _ nofun) (huntouched _ nofun)
    (fun _ _ _ hlt => ⟨hlt, rfl⟩) (fun _ _ => Iff.rfl)

variable [DecidableEq κ]

/-- A step of a call that has moved it on keeps the invariant. -/
theorem Orderly.stepped (h : Orderly payload owners s) {k : κ} {calls' : AsyncCalls κ}
    {phase' : Phase}
    (hstep : Stepped (payload k) owners owners' s.calls calls' k (s.phase k) phase') :
    Orderly payload owners'
      { s with calls := calls', phase := Function.update s.phase k phase' } where
  owned := hstep.owned
  held_nodup := h.held_nodup
  held := fun a => (h.held a).trans ((hstep.untouched .other nofun nofun).holds a).symm
  calls := by
    intro j
    by_cases hjk : j = k
    · subst hjk
      simp only [Function.update_self]
      exact hstep.self
    · simp only [Function.update_of_ne hjk]
      refine (h.calls j).untouched (hstep.untouched _ (by simpa using hjk) nofun)
        (hstep.untouched _ nofun (by simpa using hjk)) ?_ ?_
      · intro handle stage hj hlt
        -- the call that steps has another handle, as it has another record
        exact hstep.handles handle hlt fun stagek hk => hjk (h.eq_of_fat hj hk rfl)
      · exact fun p hp => hstep.pending p (by rw [hp]; exact hjk)

/-- What a step of a call does to the call itself, and which callback it runs. -/
structure Advanced (payload : κ → List UInt8) (s s' : Traffic κ) (k : κ) (ran : Option (Ran κ)) :
    Prop where
  phase : ∀ j, j ≠ k → s'.phase j = s.phase j
  /-- Only the step that resolves the call runs a callback, its own with its payload. -/
  ran : (ran = none ∧ (s'.phase k = .resolved ↔ s.phase k = .resolved))
    ∨ (ran = some (payload k, k) ∧ s.phase k ≠ .resolved ∧ s'.phase k = .resolved)

theorem orderly_advance (h : Orderly payload owners s) {k : κ}
    (hallows : Allows payload s (.advance k)) :
    ∃ ran s' owners', Traffic.perform payload (.advance k) s = .ok ran s'
      ∧ Orderly payload owners' s' ∧ Advanced payload s s' k ran := by
  obtain ⟨ran, phase', owners', calls', hnext, hstep, hran⟩ := h.nextStep_ok hallows
  refine ⟨ran, _, owners', by simp [Traffic.perform, Traffic.onCalls, hnext],
    h.stepped hstep, ?_, ?_⟩
  · intro j hj
    simp only [Function.update_of_ne hj]
  · simpa using hran

theorem orderly_malloc (h : Orderly payload owners s) {length : Int}
    (hallows : Allows payload s (.malloc length)) :
    ∃ s' owners', Traffic.perform payload (.malloc length) s = .ok none s'
      ∧ Orderly payload owners' s' ∧ s'.phase = s.phase := by
  obtain ⟨fat, m, hm⟩ := hallows
  obtain ⟨b, hg⟩ := granted_of_malloc h.owned.tiled hm
  have hnone := h.owned.unowned hg
  refine ⟨_, _, by simp [Traffic.perform, Traffic.onCalls, onMemory_ok hm],
    h.elsewhere (fat / halfSize :: s.held) (h.owned.take hg .other)
      (fun w hw => untouched_take h.owned hg hw) ?_ ?_, rfl⟩
  · rw [hg.packs.pointer_eq]
    exact List.nodup_cons.mpr ⟨fun hmem => by simp [(h.held _).mp hmem] at hnone, h.held_nodup⟩
  · intro a
    rw [hg.packs.pointer_eq, List.mem_cons, h.held]
    by_cases ha : a = b.start
    · subst ha; simp
    · rw [Function.update_of_ne ha]; exact or_iff_right ha

theorem orderly_free (h : Orderly payload owners s) {fat : Int}
    (hallows : Allows payload s (.free fat)) :
    ∃ s' owners', Traffic.perform payload (.free fat) s = .ok none s'
      ∧ Orderly payload owners' s' ∧ s'.phase = s.phase := by
  obtain ⟨pointer, length, hfat, hheld⟩ := hallows
  have howner := (h.held pointer).mp hheld
  obtain ⟨b, hb, rfl⟩ := h.owned.block_of_owner howner
  have hfree := free_live h.owned.tiled hb hfat
  refine ⟨_, _, by simp [Traffic.perform, Traffic.onCalls, onMemory_ok hfree],
    h.elsewhere (s.held.erase (fat / halfSize)) (h.owned.drop hb hfat)
      (fun w hw => untouched_drop (by rw [howner]; simpa using hw.symm))
      (h.held_nodup.erase _) ?_, rfl⟩
  intro a
  rw [hfat.pointer_eq, h.held_nodup.mem_erase_iff, h.held]
  by_cases ha : a = b.start
  · subst ha; simp
  · rw [Function.update_of_ne ha]; exact and_iff_right ha

/-- Writing to a buffer of another party may fail, for want of room, and concerns its block only. -/
theorem orderly_write (h : Orderly payload owners s) {fat : Int} {bytes : List UInt8}
    (hallows : Allows payload s (.write fat bytes)) :
    ∃ s', (Traffic.perform payload (.write fat bytes) s = .ok none s'
        ∨ ∃ e, Traffic.perform payload (.write fat bytes) s = .error e s')
      ∧ Orderly payload owners s' ∧ s'.phase = s.phase := by
  obtain ⟨pointer, length, hfat, b, hb, hheld, hin⟩ := hallows
  have howner := (h.held b.start).mp hheld
  rcases write_cases fat bytes s.calls.memory with
    ⟨pointer', _, hfat', _, ⟨c, hc, hcin⟩, hwrite⟩ | ⟨e, hwrite⟩
  · obtain ⟨rfl, _⟩ := hfat.unique hfat'
    rw [h.owned.tiled.overwrite_eq hc hcin] at hwrite
    have hfollows := follows_setBytes h.owned.tiled pointer bytes
    refine ⟨_, .inl (by simp [Traffic.perform, Traffic.onCalls, onMemory_ok hwrite]),
      h.elsewhere s.held (h.owned.overwritten hfollows rfl) (fun w hw => ?_) h.held_nodup h.held,
      rfl⟩
    refine untouched_overwritten h.owned hb rfl (fun a ha => ?_)
      (by rw [howner]; simpa using hw.symm)
    rcases Nat.eq_zero_or_pos bytes.length with hempty | hpos
    · exact byteAt_setBytes_outside (by omega)
    · -- the block that is written through is the one that holds the pointer
      have heq : c = b := h.owned.tiled.eq_of_meet (mem_blocks.mpr (.inl hc))
        (mem_blocks.mpr (.inl hb)) (a := pointer) (by unfold Block.Holds; omega) hin
      subst heq
      unfold Block.Holds at ha
      exact byteAt_setBytes_outside (by omega)
  · refine ⟨s, .inr ⟨e, ?_⟩, h, rfl⟩
    simp [Traffic.perform, Traffic.onCalls, onMemory, hwrite]

/-- A call that is assigned is resolved by its next step. -/
theorem Orderly.resolves (h : Orderly payload owners s) {k : κ} {handle : Nat} {result : Int}
    (hphase : s.phase k = .running handle (.assigned result)) :
    ∃ s', Traffic.perform payload (.advance k) s = .ok (some (payload k, k)) s'
      ∧ s'.phase k = .resolved := by
  have hcall := h.calls k
  rw [hphase] at hcall
  obtain ⟨owners', calls', hnext, _⟩ := step_resolve h.owned hcall (h.pending_unique hphase)
  rw [← hphase] at hnext
  exact ⟨{ s with calls := calls', phase := Function.update s.phase k .resolved },
    by simp [Traffic.perform, Traffic.onCalls, hnext], by simp⟩

/-- Resolving out of turn fails and changes nothing. -/
theorem stray_fails (h : Orderly payload owners s) {fat : Int}
    (hallows : Allows payload s (.stray fat)) :
    ∃ e, (e = .unknownPromise ∨ e = .promiseNotReady)
      ∧ Traffic.perform payload (.stray fat) s = .error e s := by
  cases hp : s.calls.pendingAt? fat with
  | none =>
    exact ⟨_, .inl rfl, by simp [Traffic.perform, Traffic.onCalls, resolve_unknown hp]⟩
  | some p =>
    obtain ⟨hmem, rfl⟩ := mem_of_pendingAt? hp
    obtain ⟨handle, stage, b, hphase, hstage, hr, heq⟩ := h.running_of_pending hmem
    have hhandle : p.handle = handle := by rw [heq]
    have hpending : s.calls.memory.wordAt b.start = pendingStatus := by
      cases stage with
      | created => exact absurd rfl hstage
      | registered => exact hr.stage.1
      | allocated result => exact hr.stage.1
      | written result => exact hr.stage.1
      | assigned result => exact absurd hphase (hallows p hp handle result)
    have hready : (s.calls.handle p.handle).isReady s.calls.memory = .ok false := by
      rw [hhandle, (Handle.within h.owned.tiled hr.record).isReady_eq, hpending]; rfl
    exact ⟨_, .inr rfl, by simp [Traffic.perform, Traffic.onCalls, resolve_notReady hp hready]⟩

/-! ## Runs -/

/-- What every move does: it keeps the invariant, and runs no callback but that of its own call. -/
structure Proceeds (payload : κ → List UInt8) (s s' : Traffic κ) (move : Move κ)
    (result : Except BoundaryError (Option (Ran κ))) : Prop where
  orderly : ∃ owners, Orderly payload owners s'
  resolves : ∀ k,
    (payloadFor? k (move, result) = none ∧ (s'.phase k = .resolved ↔ s.phase k = .resolved))
      ∨ (payloadFor? k (move, result) = some (payload k) ∧ s.phase k ≠ .resolved
        ∧ s'.phase k = .resolved)
  own : ∀ ran, result = .ok (some ran) → ∃ k, move = .advance k ∧ ran = (payload k, k)
  never_fails : ∀ k, move = .advance k → ∀ e, result ≠ .error e

/-- A move of somebody else runs no callback. -/
theorem proceeds_elsewhere {s' : Traffic κ} {move : Move κ}
    {result : Except BoundaryError (Option (Ran κ))} (h : Orderly payload owners s')
    (hphase : s'.phase = s.phase) (hran : ∀ ran, result ≠ .ok (some ran))
    (hmove : ∀ k, move ≠ .advance k) : Proceeds payload s s' move result where
  orderly := ⟨owners, h⟩
  resolves := by
    intro k
    refine .inl ⟨?_, by rw [hphase]⟩
    rcases result with e | _ | ran
    · rfl
    · rfl
    · exact absurd rfl (hran ran)
  own := fun ran hr => absurd hr (hran ran)
  never_fails := fun k hk => absurd hk (hmove k)

theorem proceeds_advance {k : κ} {ran : Option (Ran κ)} {s' : Traffic κ}
    (h : Orderly payload owners s') (hadv : Advanced payload s s' k ran) :
    Proceeds payload s s' (.advance k) (.ok ran) where
  orderly := ⟨owners, h⟩
  resolves := by
    intro j
    rcases hadv.ran with ⟨rfl, hiff⟩ | ⟨rfl, hbefore, hafter⟩
    · refine .inl ⟨rfl, ?_⟩
      by_cases hjk : j = k
      · subst hjk; exact hiff
      · rw [hadv.phase j hjk]
    · by_cases hjk : j = k
      · subst hjk
        exact .inr ⟨by simp [payloadFor?], hbefore, hafter⟩
      · exact .inl ⟨by simp [payloadFor?, Ne.symm hjk], by rw [hadv.phase j hjk]⟩
  own := by
    intro ran' hr
    obtain rfl := Except.ok.inj hr
    rcases hadv.ran with ⟨hnone, _⟩ | ⟨hsome, _⟩
    · cases hnone
    · exact ⟨k, rfl, Option.some.inj hsome⟩
  never_fails := fun _ _ _ => nofun

/-- **Every move that may happen keeps the invariant.** -/
theorem orderly_step (h : Orderly payload owners s) {move : Move κ}
    (hallows : Allows payload s move) :
    Proceeds payload s (stateAfter (Traffic.perform payload move) s) move
      (outcome (Traffic.perform payload move) s) := by
  cases move with
  | advance k =>
    obtain ⟨ran, s', owners', hr, horderly, hadv⟩ := orderly_advance h hallows
    rw [stateAfter_ok hr, outcome_ok hr]
    exact proceeds_advance horderly hadv
  | malloc length =>
    obtain ⟨s', owners', hr, horderly, hphase⟩ := orderly_malloc h hallows
    rw [stateAfter_ok hr, outcome_ok hr]
    exact proceeds_elsewhere horderly hphase nofun nofun
  | free fat =>
    obtain ⟨s', owners', hr, horderly, hphase⟩ := orderly_free h hallows
    rw [stateAfter_ok hr, outcome_ok hr]
    exact proceeds_elsewhere horderly hphase nofun nofun
  | write fat bytes =>
    obtain ⟨s', hr | ⟨e, hr⟩, horderly, hphase⟩ := orderly_write h hallows
    · rw [stateAfter_ok hr, outcome_ok hr]
      exact proceeds_elsewhere horderly hphase nofun nofun
    · rw [stateAfter_error hr, outcome_error hr]
      exact proceeds_elsewhere horderly hphase nofun nofun
  | stray fat =>
    obtain ⟨e, _, hr⟩ := stray_fails h hallows
    rw [stateAfter_error hr, outcome_error hr]
    exact proceeds_elsewhere h rfl nofun nofun

section Runs

variable {size align : Int} {fresh : LinearMemory} {past : List (Happened κ)}

theorem orderly_reachable (halign : 1 ≤ align) (hfresh : create size align = .ok fresh)
    (hrun : Runs payload fresh s past) : ∃ owners, Orderly payload owners s := by
  induction hrun with
  | start => exact ⟨_, orderly_start halign hfresh⟩
  | step _ move hallows ih =>
    obtain ⟨owners, h⟩ := ih
    exact (orderly_step h hallows).orderly

/-- The callback of a call has run once if the call is resolved, and never otherwise. -/
theorem payloadsFor_reachable (halign : 1 ≤ align) (hfresh : create size align = .ok fresh)
    (hrun : Runs payload fresh s past) (k : κ) :
    payloadsFor k past = if s.phase k = .resolved then [payload k] else [] := by
  induction hrun with
  | start => rfl
  | step run move hallows ih =>
    obtain ⟨owners, h⟩ := orderly_reachable halign hfresh run
    rw [payloadsFor_append, ih]
    rcases (orderly_step h hallows).resolves k with ⟨hnone, hiff⟩ | ⟨hsome, hbefore, hafter⟩
    · rw [hnone, Option.toList_none, List.append_nil]
      simp only [hiff]
    · rw [hsome, if_neg hbefore, if_pos hafter]; rfl

/-- Whatever has happened in a run happened in a state that the run has reached. -/
theorem exists_of_mem_past (hrun : Runs payload fresh s past) {happened : Happened κ}
    (hmem : happened ∈ past) :
    ∃ before earlier, Runs payload fresh before earlier ∧ Allows payload before happened.1
      ∧ happened.2 = outcome (Traffic.perform payload happened.1) before := by
  induction hrun with
  | start => cases hmem
  | step run move hallows ih =>
    rcases List.mem_append.mp hmem with hpast | hnow
    · exact ih hpast
    · obtain rfl := List.mem_singleton.mp hnow
      exact ⟨_, _, run, hallows, rfl⟩

/--
**Every call ends with its own payload.**

Any number of calls, told apart by `κ`, run over a fresh memory, interleaved with
each other and with requests, writes and frees of other parties and with attempts
to resolve out of turn. As long as every request returns, the callback of a call
runs once, at the step that resolves the call, with the payload of that call; no
step of a call fails. Resolving out of turn fails and changes nothing. When no call
is under way any more, nothing is registered, and the live blocks are exactly those
of the other parties.
-/
theorem calls_end_with_own_payload (halign : 1 ≤ align) (hfresh : create size align = .ok fresh)
    (hrun : Runs payload fresh s past) :
    (∀ k, payloadsFor k past = if s.phase k = .resolved then [payload k] else [])
      ∧ (∀ move ran, (move, .ok (some ran)) ∈ past → ∃ k, move = .advance k ∧ ran = (payload k, k))
      ∧ (∀ k e, (.advance k, .error e) ∉ past)
      ∧ (∀ k handle result, s.phase k = .running handle (.assigned result) →
          ∃ s', Traffic.perform payload (.advance k) s = .ok (some (payload k, k)) s'
            ∧ s'.phase k = .resolved)
      ∧ (∀ fat, Allows payload s (.stray fat) →
          ∃ e, (e = .unknownPromise ∨ e = .promiseNotReady)
            ∧ Traffic.perform payload (.stray fat) s = .error e s)
      ∧ ((∀ k, s.phase k = .idle ∨ s.phase k = .resolved) →
          s.calls.pending = [] ∧ (s.calls.memory.live.map Block.start).Perm s.held) := by
  obtain ⟨owners, h⟩ := orderly_reachable halign hfresh hrun
  refine ⟨payloadsFor_reachable halign hfresh hrun, ?_, ?_, ?_, fun fat => stray_fails h, ?_⟩
  · intro move ran hmem
    obtain ⟨before, earlier, hrun', hallows, hr⟩ := exists_of_mem_past hrun hmem
    obtain ⟨owners', h'⟩ := orderly_reachable halign hfresh hrun'
    exact (orderly_step h' hallows).own ran hr.symm
  · intro k e hmem
    obtain ⟨before, earlier, hrun', hallows, hr⟩ := exists_of_mem_past hrun hmem
    obtain ⟨owners', h'⟩ := orderly_reachable halign hfresh hrun'
    exact (orderly_step h' hallows).never_fails k rfl e hr.symm
  · exact fun k handle result => h.resolves
  · exact fun hdone => ⟨h.pending_eq_nil hdone, h.live_perm_held hdone⟩

/-- One call is assigned and resolved while another is created and a third party holds a buffer. -/
theorem calls_end_with_own_payload_two :
    let payload : Bool → List UInt8 := fun k => if k then [1, 2] else [7]
    let fresh : LinearMemory :=
      { byteAt := fun _ => 0, size := 0, align := 8, next := 8, live := [], freed := [] }
    ∃ s past, (1 : Int) ≤ 8 ∧ create 0 8 = .ok fresh ∧ Runs payload fresh s past
      ∧ past.map Prod.fst = [.advance true, .advance true, .malloc 5, .advance true, .advance false,
          .advance true, .advance true, .stray 103079215116, .advance true]
      ∧ payloadsFor true past = [[1, 2]] ∧ payloadsFor false past = [] := by
  intro payload fresh
  have halign : (1 : Int) ≤ 8 := by decide
  have hfresh : create 0 8 = .ok fresh := rfl
  have r₀ : Runs payload fresh { calls := { memory := fresh } } [] := .start
  have r₁ := r₀.step (.advance true) (by decide +kernel)
  have r₂ := r₁.step (.advance true) (by decide +kernel)
  have r₃ := r₂.step (.malloc 5) (by decide +kernel)
  have r₄ := r₃.step (.advance true) (by decide +kernel)
  have r₅ := r₄.step (.advance false) (by decide +kernel)
  have r₆ := r₅.step (.advance true) (by decide +kernel)
  have r₇ := r₆.step (.advance true) (by decide +kernel)
  have r₈ := r₇.step (.stray 103079215116) (by decide +kernel)
  have r₉ := r₈.step (.advance true) (by decide +kernel)
  have hend := (calls_end_with_own_payload halign hfresh r₉).1
  exact ⟨_, _, halign, hfresh, r₉, rfl, (hend true).trans (by decide +kernel),
    (hend false).trans (by decide +kernel)⟩

end Runs

end WasmBridge
