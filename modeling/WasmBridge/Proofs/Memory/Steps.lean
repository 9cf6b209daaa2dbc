import WasmBridge.Proofs.Memory.Records
import WasmBridge.Proofs.Memory.Traffic

/-!
# Steps on calls and memory

The calls and their memory are used by one step after another: a record is created
or attached to, a result is assigned, read or consumed, a call is registered or
resolved, and anybody may use the memory itself meanwhile. A callback runs when the
call that it waits for has been resolved, so what it does are further steps, and so
are the steps that follow once it is done. Nothing here says which step comes when.

Two things are kept by every step. What it does to the memory is a run of memory
calls, so the blocks still tile it. And a handle views the record that it was made
for, and stays consumed once it is.
-/

namespace WasmBridge

open LinearMemory FatPtr

/-! ## Freed blocks -/

namespace LinearMemory

variable {m m' : LinearMemory} {b : Block}

/-- The call writes no word over the block. -/
def Call.Spares (b : Block) (m : LinearMemory) : Call → Prop
  | writeWord offset _ =>
    ∀ start, m.wordStart offset = .ok start → Block.Apart ⟨start, 4⟩ b
  | _ => True

instance (b : Block) (m : LinearMemory) : (call : Call) → Decidable (call.Spares b m)
  | .writeWord offset _ => inferInstanceAs (Decidable (∀ start, m.wordStart offset = .ok start → _))
  | .malloc _ | .free _ | .read _ | .write _ _ | .grow _ | .readWord _ => .isTrue trivial

/-- The block stays freed during all the calls, and no word is written over it. -/
def Rests (b : Block) (m : LinearMemory) : List Call → Prop
  | [] => b ∈ m.freed
  | call :: calls => b ∈ m.freed ∧ call.Spares b m ∧ Rests b (call.after m) calls

/-- A request changes no byte, whether it returns or fails. -/
theorem byteAt_malloc (halign : 0 < m.align) (length : Int) :
    (stateAfter (malloc length) m).byteAt = m.byteAt := by
  rcases malloc_cases halign length with ⟨before, c, after, _, _, _, hr⟩ | ⟨_, ⟨_, hr⟩ | ⟨e, hr⟩⟩
  · rw [stateAfter_orFail hr]; rfl
  · rw [stateAfter_orFail hr]; rfl
  · rw [stateAfter_error hr]

/-- A freed block has no byte in common with a live one. -/
theorem Tiled.freed_apart (h : Tiled m) {c : Block} (hb : b ∈ m.freed) (hc : c ∈ m.live) :
    Block.Apart c b := by
  refine h.apart.forall (mem_blocks.mpr (.inl hc)) (mem_blocks.mpr (.inr hb)) fun heq => ?_
  exact (List.nodup_append.mp h.nodup).2.2 c hc b hb heq

/-- The call writes nothing into the block: no bytes through a pointer into it, and no word over
it. -/
def Call.Avoids (b : Block) (m : LinearMemory) : Call → Prop
  | write fat payload => payload ≠ [] → (outcome (LinearMemory.write fat payload) m).isOk →
      ¬ b.Holds (fat / halfSize)
  | call => call.Spares b m

instance (b : Block) (m : LinearMemory) : (call : Call) → Decidable (call.Avoids b m)
  | .write _ _ => inferInstanceAs (Decidable (_ → _ → ¬ _))
  | .writeWord offset _ => inferInstanceAs (Decidable (∀ start, m.wordStart offset = .ok start → _))
  | .malloc _ | .free _ | .read _ | .grow _ | .readWord _ => .isTrue trivial

/-- A call that writes nothing into a block leaves its bytes as they are. -/
theorem byteAt_avoided (h : Tiled m) {call : Call} (hb : b ∈ m.blocks) (havoids : call.Avoids b m)
    {a : Int} (ha : b.Holds a) : (call.after m).byteAt a = m.byteAt a := by
  cases call with
  | malloc length => exact congrFun (byteAt_malloc h.align_pos length) a
  | free fat =>
    rcases free_cases fat m with ⟨_, _, _, _, _, hr⟩ | ⟨e, hr⟩
    · simp only [Call.after, stateAfter_ok hr]
    · simp only [Call.after, stateAfter_error hr]
  | read fat => rfl
  | write fat payload =>
    rcases write_cases fat payload m with ⟨pointer, _, hfat, _, ⟨c, hc, hin⟩, hr⟩ | ⟨e, hr⟩
    · simp only [Call.after, stateAfter_ok hr, h.overwrite_eq hc hin]
      refine byteAt_setBytes_outside ?_
      by_cases hne : payload = []
      · simp only [hne, List.length_nil]
        omega
      · -- the block that the pointer leads into is another one
        have hpos : 0 < payload.length := List.length_pos_iff.mpr hne
        have hout := havoids hne (by rw [outcome_ok hr]; rfl)
        rw [hfat.pointer_eq] at hout
        have hholds : c.Holds pointer := by unfold Block.Holds; omega
        have hother : c ≠ b := fun heq => hout (heq ▸ hholds)
        have hapart := h.apart.forall (mem_blocks.mpr (.inl hc)) hb hother
        unfold Block.Apart Block.Holds at *
        omega
    · simp only [Call.after, stateAfter_error hr]
  | grow extra =>
    rcases grow_cases extra m with ⟨_, hr⟩ | ⟨e, hr⟩
    · simp only [Call.after, stateAfter_ok hr]
    · simp only [Call.after, stateAfter_error hr]
  | readWord offset => rfl
  | writeWord offset value =>
    rcases writeWord_cases offset value m with hr | ⟨start, bytes, hlength, hstart, hr⟩
    · simp only [Call.after, hr]
    · have hout := havoids start hstart
      simp only [Call.after, hr]
      refine byteAt_setBytes_outside ?_
      unfold Block.Apart Block.Holds at *
      dsimp only at hout
      omega

/-- Into a freed block only words can be written. -/
theorem Tiled.avoids_freed (h : Tiled m) {call : Call} (hb : b ∈ m.freed)
    (hspares : call.Spares b m) : call.Avoids b m := by
  cases call with
  | write fat payload =>
    intro hne hok hholds
    rcases write_cases fat payload m with ⟨pointer, _, hfat, _, ⟨c, hc, hin⟩, _⟩ | ⟨e, hr⟩
    · have hpos : 0 < payload.length := List.length_pos_iff.mpr hne
      rw [hfat.pointer_eq] at hholds
      exact (h.freed_apart hb hc).not_both (by unfold Block.Holds; omega) hholds
    · rw [outcome_error hr] at hok
      cases hok
  | malloc _ | free _ | read _ | grow _ | readWord _ | writeWord _ _ => exact hspares

/-- Only a word that is written over a freed block changes its bytes. -/
theorem byteAt_after (h : Tiled m) {call : Call} (hb : b ∈ m.freed) (hspares : call.Spares b m)
    {a : Int} (ha : b.Holds a) : (call.after m).byteAt a = m.byteAt a :=
  byteAt_avoided h (mem_blocks.mpr (.inr hb)) (h.avoids_freed hb hspares) ha

/-- **A freed block keeps its bytes until it is handed out again or a word is written over it.** -/
theorem Rests.byteAt_run (h : Tiled m) {calls : List Call} (hrests : Rests b m calls) {a : Int}
    (ha : b.Holds a) : (m.run calls).byteAt a = m.byteAt a := by
  induction calls generalizing m with
  | nil => rfl
  | cons call calls ih =>
    obtain ⟨hb, hspares, hrest⟩ := hrests
    have hcall := byteAt_after h hb hspares ha
    exact (ih (follows_after h call).tiled hrest).trans hcall

/-- Giving back leaves freed blocks where they are. -/
theorem rests_frees (hb : b ∈ m.freed) (fats : List Int) : Rests b m (fats.map Call.free) := by
  induction fats generalizing m with
  | nil => exact hb
  | cons fat fats ih =>
    refine ⟨hb, trivial, ih ?_⟩
    rcases free_cases fat m with ⟨_, _, c, _, _, hr⟩ | ⟨e, hr⟩
    · simp only [Call.after, stateAfter_ok hr]
      exact List.mem_append_left _ hb
    · simpa only [Call.after, stateAfter_error hr] using hb

/-- Words that are written beside a freed block leave it alone. -/
theorem rests_words (hb : b ∈ m.freed) {calls : List Call}
    (hcalls : ∀ call ∈ calls, ∃ offset value, call = .writeWord offset value ∧ 0 ≤ offset
      ∧ Block.Apart ⟨offset, 4⟩ b) : Rests b m calls := by
  induction calls generalizing m with
  | nil => exact hb
  | cons call calls ih =>
    obtain ⟨offset, value, rfl, h0, hapart⟩ := hcalls call List.mem_cons_self
    refine ⟨hb, ?_, ih ?_ fun c hc => hcalls c (List.mem_cons_of_mem _ hc)⟩
    · intro start hstart
      rw [wordStart_of_nonneg h0 hstart]
      exact hapart
    · show b ∈ (stateAfter (writeWord offset value) m).freed
      rcases writeWord_cases offset value m with hr | ⟨start, bytes, _, _, hr⟩
      · rw [hr]; exact hb
      · rw [hr]; exact hb

end LinearMemory

/-! ## What handles do to the memory -/

namespace Handle

variable {m : LinearMemory} {h : Handle}

theorem offset_eq_ok {start : Int} (hstart : h.offset = .ok start) :
    ∃ length, Packs h.fat start length := by
  obtain ⟨⟨pointer, length⟩, hparts, heq⟩ := Outcome.bind_eq_ok.mp hstart
  cases heq
  exact ⟨length, unpack_eq_ok_iff.mp hparts⟩

theorem offset_nonneg {start : Int} (hstart : h.offset = .ok start) : 0 ≤ start := by
  obtain ⟨length, hpacks⟩ := offset_eq_ok hstart
  exact hpacks.pointer_lt.1

/-- The words that assigning writes. -/
def words (start pointer length : Int) : List LinearMemory.Call :=
  [.writeWord (start + 4) pointer, .writeWord (start + 8) length, .writeWord start readyStatus]

/-- The words of a record that lies apart from a block do so too. -/
theorem words_apart {b : Block} {start pointer length : Int} (h0 : 0 ≤ start)
    (hapart : Block.Apart ⟨start, recordSize⟩ b) {call : LinearMemory.Call}
    (hcall : call ∈ words start pointer length) :
    ∃ offset value, call = .writeWord offset value ∧ 0 ≤ offset ∧ Block.Apart ⟨offset, 4⟩ b := by
  have hword : ∀ i : Int, 0 ≤ i ∧ i ≤ 8 → Block.Apart ⟨start + i, 4⟩ b := by
    intro i hi
    unfold Block.Apart at *
    have : (recordSize : Int) = 12 := rfl
    dsimp only at hapart ⊢
    omega
  simp only [words, List.mem_cons, List.not_mem_nil, or_false] at hcall
  rcases hcall with rfl | rfl | rfl
  · exact ⟨_, _, rfl, by omega, hword 4 (by decide)⟩
  · exact ⟨_, _, rfl, by omega, hword 8 (by decide)⟩
  · exact ⟨_, _, rfl, h0, by simpa using hword 0 (by decide)⟩

theorem create_after (m : LinearMemory) :
    stateAfter create m = m.run [.malloc recordSize]
      ∨ ∃ fat m', malloc recordSize m = .ok fat m' ∧ stateAfter create m
        = m.run [.malloc recordSize, .write fat (List.replicate recordSize 0)] := by
  rw [create, Operation.stateAfter_bind]
  cases hmalloc : malloc recordSize m with
  | error e m' => exact .inl (stateAfter_error hmalloc).symm
  | ok fat m' =>
    refine .inr ⟨fat, m', rfl, ?_⟩
    have hrun : m.run [.malloc recordSize, .write fat (List.replicate recordSize 0)]
        = stateAfter (write fat (List.replicate recordSize 0)) m' := by
      rw [← stateAfter_ok hmalloc]; rfl
    rw [hrun]
    dsimp only
    rw [Operation.stateAfter_bind]
    cases hwrite : write fat (List.replicate recordSize 0) m' with
    | error e m'' => exact (stateAfter_error hwrite).symm
    | ok u m'' => exact (stateAfter_ok hwrite).symm

/-- Assigning writes the words of the record one after the other, as far as it comes. -/
theorem assign_after (h : Handle) (result : Int) (m : LinearMemory) :
    stateAfter (h.assign result) m = m
      ∨ ∃ start pointer length n, h.offset = .ok start
        ∧ stateAfter (h.assign result) m = m.run ((words start pointer length).take n) := by
  simp only [stateAfter, assign, Operation.bind_apply, Operation.get_apply]
  cases hstatus : h.status m with
  | error e => exact .inl rfl
  | ok status =>
    by_cases hpending : status ≠ pendingStatus
    · exact .inl (by simp [hpending])
    cases hresult : unpack result with
    | error e => exact .inl (by simp [hpending])
    | ok parts =>
      obtain ⟨pointer, length⟩ := parts
      cases hoffset : h.offset with
      | error e => exact .inl (by simp [hpending])
      | ok start =>
        simp only [hpending, if_false, orFail_ok, Operation.bind_apply]
        -- the first word that cannot be written ends the assignment
        cases h4 : writeWord (start + 4) pointer m with
        | error e m₁ =>
          exact .inr ⟨start, pointer, length, 1, rfl, (stateAfter_error h4).symm⟩
        | ok u m₁ =>
          have hrun₁ : m₁ = m.run ((words start pointer length).take 1) := (stateAfter_ok h4).symm
          dsimp only
          cases h8 : writeWord (start + 8) length m₁ with
          | error e m₂ =>
            rw [hrun₁] at h8
            exact .inr ⟨start, pointer, length, 2, rfl, (stateAfter_error h8).symm⟩
          | ok u m₂ =>
            rw [hrun₁] at h8
            have hrun₂ : m₂ = m.run ((words start pointer length).take 2) := (stateAfter_ok h8).symm
            refine .inr ⟨start, pointer, length, 3, rfl, ?_⟩
            rw [hrun₂]
            rfl

/-- Consuming gives back two buffers, or one, or none. -/
theorem consume_after (h : Handle) (m : LinearMemory) :
    ∃ fats : List Int, stateAfter h.consume m = m.run (fats.map Call.free) := by
  simp only [stateAfter, consume, Operation.bind_apply, Operation.get_apply]
  cases hresult : h.result m with
  | error e => exact ⟨[], rfl⟩
  | ok result =>
    cases hread : m.read result with
    | error e => exact ⟨[], by simp only [orFail_ok, hread, orFail_error]; rfl⟩
    | ok payload =>
      simp only [orFail_ok, hread]
      cases hfree : free result m with
      | error e m₁ => exact ⟨[result], (stateAfter_error hfree).symm⟩
      | ok u m₁ =>
        refine ⟨[result, h.fat], ?_⟩
        have hrun : m₁ = m.run [.free result] := (stateAfter_ok hfree).symm
        dsimp only
        cases hrecord : free h.fat m₁ with
        | error e m₂ =>
          rw [hrun] at hrecord
          exact (stateAfter_error hrecord).symm
        | ok u m₂ =>
          rw [hrun] at hrecord
          exact (stateAfter_ok hrecord).symm

end Handle

/-! ## Steps -/

namespace AsyncCalls

variable {κ : Type} {s : AsyncCalls κ}

/-- What anybody may do next. -/
inductive Step (κ : Type) where
  /-- Somebody uses the memory. -/
  | memory (call : LinearMemory.Call)
  | create
  /-- A further handle on a record. -/
  | attach (fat : Int)
  | assign (id : Nat) (fat : Int)
  | result (id : Nat)
  | consume (id : Nat)
  | register (id : Nat) (callback : κ)
  | resolve (fat : Int)

/-- The pointer to the result of the record of a handle. -/
def result (id : Nat) : CallOp κ Int := do
  let s ← get
  ask (s.handle id).result

/-- The calls after a step, whether it returns or fails. -/
def Step.after : Step κ → AsyncCalls κ → AsyncCalls κ
  | .memory call, s => { s with memory := call.after s.memory }
  | .create, s => stateAfter AsyncCalls.create s
  | .attach fat, s => stateAfter (AsyncCalls.attach fat) s
  | .assign id fat, s => stateAfter (AsyncCalls.assign id fat) s
  | .result id, s => stateAfter (AsyncCalls.result id) s
  | .consume id, s => stateAfter (AsyncCalls.consume id) s
  | .register id callback, s => stateAfter (AsyncCalls.register id callback) s
  | .resolve fat, s => stateAfter (AsyncCalls.resolve fat) s

/-- The calls after several steps, one after the other. -/
def run (s : AsyncCalls κ) (steps : List (Step κ)) : AsyncCalls κ :=
  steps.foldl (fun s step => step.after s) s

/-! ### What each step does -/

theorem stateAfter_onMemory {α : Type} (op : MemoryOp α) (s : AsyncCalls κ) :
    stateAfter (onMemory op) s = { s with memory := stateAfter op s.memory } := by
  unfold stateAfter onMemory
  cases op s.memory <;> rfl

/-- Creating gives a handle or fails, and only the memory is used then. -/
theorem create_cases (s : AsyncCalls κ) :
    (∃ h m, Handle.create s.memory = .ok h m
        ∧ stateAfter create s = { s with memory := m, handles := s.handles ++ [h] })
      ∨ stateAfter create s = { s with memory := stateAfter Handle.create s.memory } := by
  cases hcreate : Handle.create s.memory with
  | ok h m => exact .inl ⟨h, m, rfl, stateAfter_ok (create_ok hcreate)⟩
  | error e m =>
    refine .inr ?_
    rw [stateAfter_error hcreate]
    exact stateAfter_error (e := e) (by simp [create, onMemory, hcreate])

theorem assign_after (id : Nat) (result : Int) (s : AsyncCalls κ) :
    stateAfter (assign id result) s
      = { s with memory := stateAfter ((s.handle id).assign result) s.memory } :=
  stateAfter_onMemory ((s.handle id).assign result) s

theorem result_after (id : Nat) (s : AsyncCalls κ) : stateAfter (result id) s = s := by
  have hask : result id s = ask (s.handle id).result s := rfl
  unfold stateAfter
  rw [hask, ask]
  cases (s.handle id).result s.memory <;> rfl

/-- Consuming notes in the handle that it has succeeded, and nothing if it has not. -/
theorem consume_cases (id : Nat) (s : AsyncCalls κ) :
    (∃ payload m, (s.handle id).consume s.memory = .ok payload m
        ∧ consume id s = .ok payload { s with
          memory := m
          handles := s.handles.modify id fun h => { h with consumed := true } })
      ∨ ∃ e m, (s.handle id).consume s.memory = .error e m
        ∧ consume id s = .error e { s with memory := m } := by
  cases hconsume : (s.handle id).consume s.memory with
  | ok payload m => exact .inl ⟨payload, m, rfl, by simp [consume, onMemory, hconsume]⟩
  | error e m => exact .inr ⟨e, m, rfl, by simp [consume, onMemory, hconsume]⟩

/-- A callback is registered unless one is registered for the record already. -/
theorem register_cases (id : Nat) (callback : κ) (s : AsyncCalls κ) :
    (s.pendingAt? (s.handle id).fat = none
        ∧ register id callback s = .ok () { s with
          pending := s.pending ++ [⟨(s.handle id).fat, id, callback⟩] })
      ∨ register id callback s = .error (.alreadyRegistered (s.handle id).fat) s := by
  cases hpending : s.pendingAt? (s.handle id).fat with
  | none => exact .inl ⟨rfl, register_ok hpending callback⟩
  | some p => exact .inr (by simp [register, hpending])

/-- The calls without the registration for a record. -/
def drop (s : AsyncCalls κ) (fat : Int) : AsyncCalls κ :=
  { s with pending := s.pending.filter fun p => p.fat ≠ fat }

/-- The registration is dropped also if the record cannot be consumed. -/
theorem resolve_error {fat : Int} {p : Pending κ} {e : BoundaryError} {m : LinearMemory}
    (hp : s.pendingAt? fat = some p) (hready : (s.handle p.handle).isReady s.memory = .ok true)
    (hconsume : (s.handle p.handle).consume s.memory = .error e m) :
    resolve fat s = .error e { s.drop fat with memory := m } := by
  have hsame : ∀ pending, ({ s with pending } : AsyncCalls κ).handle p.handle
      = s.handle p.handle := fun _ => rfl
  simp [resolve, hp, ask, hready, consume, hsame, onMemory, hconsume, drop]

/--
Resolving fails and leaves everything as it is unless a call is registered whose
record is ready. If there is one its registration is dropped, also when its record
cannot be consumed then.
-/
theorem resolve_cases (fat : Int) (s : AsyncCalls κ) :
    (∃ e, resolve fat s = .error e s)
      ∨ ∃ p, s.pendingAt? fat = some p ∧ (s.handle p.handle).isReady s.memory = .ok true
        ∧ ((∃ payload m, (s.handle p.handle).consume s.memory = .ok payload m
            ∧ resolve fat s = .ok (payload, p.callback) { s.drop fat with
              memory := m
              handles := s.handles.modify p.handle fun h => { h with consumed := true } })
          ∨ ∃ e m, (s.handle p.handle).consume s.memory = .error e m
            ∧ resolve fat s = .error e { s.drop fat with memory := m }) := by
  cases hpending : s.pendingAt? fat with
  | none => exact .inl ⟨_, resolve_unknown hpending⟩
  | some p =>
    cases hready : (s.handle p.handle).isReady s.memory with
    | error e => exact .inl ⟨e, by simp [resolve, hpending, ask, hready]⟩
    | ok ready =>
      cases ready with
      | false => exact .inl ⟨_, resolve_notReady hpending hready⟩
      | true =>
        refine .inr ⟨p, rfl, hready, ?_⟩
        cases hconsume : (s.handle p.handle).consume s.memory with
        | ok payload m => exact .inl ⟨payload, m, rfl, resolve_ok hpending hready hconsume⟩
        | error e m => exact .inr ⟨e, m, rfl, resolve_error hpending hready hconsume⟩

/-! ### What each step does to the memory -/

/-- A step leaves the memory as it is or does to it what one of these operations does. -/
theorem memory_cases (step : Step κ) (s : AsyncCalls κ) :
    (step.after s).memory = s.memory
      ∨ (∃ call, step = .memory call)
      ∨ (step = .create ∧ (step.after s).memory = stateAfter Handle.create s.memory)
      ∨ (∃ id fat, step = .assign id fat
        ∧ (step.after s).memory = stateAfter ((s.handle id).assign fat) s.memory)
      ∨ ∃ h : Handle, (step.after s).memory = stateAfter h.consume s.memory := by
  cases step with
  | memory call => exact .inr (.inl ⟨call, rfl⟩)
  | create =>
    refine .inr (.inr (.inl ⟨rfl, ?_⟩))
    rcases create_cases s with ⟨h, m, hcreate, hafter⟩ | hafter
    · rw [Step.after, hafter, stateAfter_ok hcreate]
    · rw [Step.after, hafter]
  | attach fat => exact .inl rfl
  | assign id fat =>
    exact .inr (.inr (.inr (.inl ⟨id, fat, rfl, by rw [Step.after, assign_after]⟩)))
  | result id => exact .inl (by rw [Step.after, result_after])
  | consume id =>
    refine .inr (.inr (.inr (.inr ⟨s.handle id, ?_⟩)))
    rcases consume_cases id s with ⟨payload, m, hconsume, hr⟩ | ⟨e, m, hconsume, hr⟩
    · rw [Step.after, stateAfter_ok hr, stateAfter_ok hconsume]
    · rw [Step.after, stateAfter_error hr, stateAfter_error hconsume]
  | register id callback =>
    refine .inl ?_
    rcases register_cases id callback s with ⟨_, hr⟩ | hr
    · rw [Step.after, stateAfter_ok hr]
    · rw [Step.after, stateAfter_error hr]
  | resolve fat =>
    rcases resolve_cases fat s with
      ⟨e, hr⟩ | ⟨p, _, _, ⟨payload, m, hconsume, hr⟩ | ⟨e, m, hconsume, hr⟩⟩
    · exact .inl (by rw [Step.after, stateAfter_error hr])
    · refine .inr (.inr (.inr (.inr ⟨s.handle p.handle, ?_⟩)))
      rw [Step.after, stateAfter_ok hr, stateAfter_ok hconsume]
    · refine .inr (.inr (.inr (.inr ⟨s.handle p.handle, ?_⟩)))
      rw [Step.after, stateAfter_error hr, stateAfter_error hconsume]

/-- The step writes no word into the block: neither a single one nor those of a result. -/
def Step.Spares (b : Block) (s : AsyncCalls κ) : Step κ → Prop
  | .memory call => call.Spares b s.memory
  | .assign id _ => ∀ start, (s.handle id).offset = .ok start → Block.Apart ⟨start, recordSize⟩ b
  | _ => True

instance (b : Block) (s : AsyncCalls κ) : (step : Step κ) → Decidable (step.Spares b s)
  | .memory call => inferInstanceAs (Decidable (call.Spares b s.memory))
  | .assign id _ => inferInstanceAs (Decidable (∀ start, (s.handle id).offset = .ok start → _))
  | .create | .attach _ | .result _ | .consume _ | .register _ _ | .resolve _ => .isTrue trivial

/-- What a step does to the memory is a run of memory calls, which leave alone what it spares. -/
structure Step.Uses (step : Step κ) (s : AsyncCalls κ) (calls : List LinearMemory.Call) : Prop where
  memory : (step.after s).memory = s.memory.run calls
  rests : ∀ b ∈ s.memory.freed, b ∈ (step.after s).memory.freed → step.Spares b s →
    Rests b s.memory calls

theorem uses_nothing {step : Step κ} (h : (step.after s).memory = s.memory) : step.Uses s [] :=
  ⟨h, fun _ hb _ _ => hb⟩

theorem uses_frees {step : Step κ} {h : Handle}
    (hafter : (step.after s).memory = stateAfter h.consume s.memory) :
    ∃ calls, step.Uses s calls := by
  obtain ⟨fats, hfats⟩ := h.consume_after s.memory
  exact ⟨fats.map .free, hafter.trans hfats, fun b hb _ _ => rests_frees hb fats⟩

theorem uses_create
    (hmemory : (Step.create.after s).memory = stateAfter Handle.create s.memory) :
    ∃ calls, Step.create.Uses s calls := by
  rcases Handle.create_after s.memory with hrun | ⟨fat, _, _, hrun⟩
  · refine ⟨_, hmemory.trans hrun, fun b hb hb' _ => ⟨hb, trivial, ?_⟩⟩
    rw [hmemory, hrun] at hb'
    exact hb'
  · refine ⟨_, hmemory.trans hrun, fun b hb hb' _ => ?_⟩
    rw [hmemory, hrun] at hb'
    -- writing the zeros frees nothing, so the block was freed before
    have hkeep : ∀ m payload, (stateAfter (write fat payload) m).freed = m.freed := by
      intro m payload
      rcases write_cases fat payload m with ⟨_, _, _, _, _, hr⟩ | ⟨e, hr⟩
      · rw [stateAfter_ok hr]; rfl
      · rw [stateAfter_error hr]
    have hb'' : b ∈ (stateAfter (malloc recordSize) s.memory).freed := by
      rw [← hkeep _ (List.replicate recordSize 0)]
      exact hb'
    exact ⟨hb, trivial, hb'', trivial, hb'⟩

theorem uses_assign {id : Nat} {fat : Int} (hmemory : ((Step.assign id fat).after s).memory
      = stateAfter ((s.handle id).assign fat) s.memory) :
    ∃ calls, (Step.assign id fat).Uses s calls := by
  rcases Handle.assign_after (s.handle id) fat s.memory with
    hsame | ⟨start, pointer, length, n, hstart, hrun⟩
  · exact ⟨[], uses_nothing (hmemory.trans hsame)⟩
  · refine ⟨_, hmemory.trans hrun, fun b hb _ hspares => rests_words hb fun call hcall => ?_⟩
    exact Handle.words_apart (Handle.offset_nonneg hstart) (hspares start hstart)
      (List.mem_of_mem_take hcall)

theorem exists_uses (step : Step κ) (s : AsyncCalls κ) : ∃ calls, step.Uses s calls := by
  rcases memory_cases step s with
    hsame | ⟨call, rfl⟩ | ⟨rfl, hcreate⟩ | ⟨id, fat, rfl, hassign⟩ | ⟨h, hconsume⟩
  · exact ⟨[], uses_nothing hsame⟩
  · exact ⟨[call], rfl, fun b hb hb' hspares => ⟨hb, hspares, hb'⟩⟩
  · exact uses_create hcreate
  · exact uses_assign hassign
  · exact uses_frees hconsume

/-- Every step keeps the tiling, and the memory never gets shorter. -/
theorem follows_step (ht : Tiled s.memory) (step : Step κ) :
    Follows s.memory (step.after s).memory := by
  obtain ⟨calls, hcalls⟩ := exists_uses step s
  rw [hcalls.memory]
  exact follows_run ht calls

theorem follows_steps (ht : Tiled s.memory) (steps : List (Step κ)) :
    Follows s.memory (s.run steps).memory := by
  induction steps generalizing s with
  | nil => exact ht.follows_self
  | cons step steps ih =>
    have hstep := follows_step ht step
    exact hstep.trans (ih hstep.tiled)

/-- The block stays freed during all the steps, and none of them writes a word over it. -/
def Undisturbed (b : Block) (s : AsyncCalls κ) : List (Step κ) → Prop
  | [] => b ∈ s.memory.freed
  | step :: steps => b ∈ s.memory.freed ∧ step.Spares b s ∧ Undisturbed b (step.after s) steps

theorem Undisturbed.freed {b : Block} {steps : List (Step κ)} (h : Undisturbed b s steps) :
    b ∈ s.memory.freed := by
  cases steps with
  | nil => exact h
  | cons step steps => exact h.1

theorem Undisturbed.byteAt_run {b : Block} (ht : Tiled s.memory) {steps : List (Step κ)}
    (h : Undisturbed b s steps) {a : Int} (ha : b.Holds a) :
    (s.run steps).memory.byteAt a = s.memory.byteAt a := by
  induction steps generalizing s with
  | nil => rfl
  | cons step steps ih =>
    obtain ⟨hb, hspares, hrest⟩ := h
    obtain ⟨calls, hcalls⟩ := exists_uses step s
    have hrests := hcalls.rests b hb hrest.freed hspares
    have hstep := hrests.byteAt_run ht ha
    rw [← hcalls.memory] at hstep
    exact (ih (follows_step ht step).tiled hrest).trans hstep

/-! ### What each step does to the handles -/

/-- Handles stay the views that they are, and consumed ones stay consumed. -/
structure Keeps (s s' : AsyncCalls κ) : Prop where
  length : s.handles.length ≤ s'.handles.length
  fat : ∀ id < s.handles.length, (s'.handle id).fat = (s.handle id).fat
  consumed : ∀ id < s.handles.length, (s.handle id).consumed = true →
    (s'.handle id).consumed = true

theorem Keeps.trans {s₁ s₂ s₃ : AsyncCalls κ} (h₁ : Keeps s₁ s₂) (h₂ : Keeps s₂ s₃) :
    Keeps s₁ s₃ where
  length := Nat.le_trans h₁.length h₂.length
  fat := fun id hid => (h₂.fat id (Nat.lt_of_lt_of_le hid h₁.length)).trans (h₁.fat id hid)
  consumed := fun id hid hc =>
    h₂.consumed id (Nat.lt_of_lt_of_le hid h₁.length) (h₁.consumed id hid hc)

theorem keeps_of_handles {s s' : AsyncCalls κ} (h : s'.handles = s.handles) : Keeps s s' := by
  have hsame : ∀ id, s'.handle id = s.handle id := fun id => by unfold handle; rw [h]
  exact ⟨Nat.le_of_eq (by rw [h]), fun id _ => by rw [hsame id],
    fun id _ hc => by rw [hsame id]; exact hc⟩

theorem keeps_append {s s' : AsyncCalls κ} {h : Handle} (hs' : s'.handles = s.handles ++ [h]) :
    Keeps s s' := by
  have hsame : ∀ id < s.handles.length, s'.handle id = s.handle id := by
    intro id hid
    unfold handle
    rw [hs', List.getD_eq_getElem?_getD, List.getElem?_append_left hid,
      List.getD_eq_getElem?_getD]
  exact ⟨by simp [hs'], fun id hid => by rw [hsame id hid],
    fun id hid hc => by rw [hsame id hid]; exact hc⟩

/-- The handle that is noted as consumed, and any other one. -/
theorem handle_note {s s' : AsyncCalls κ} {id : Nat}
    (hs' : s'.handles = s.handles.modify id fun h => { h with consumed := true }) {g : Nat}
    (hg : g < s.handles.length) :
    s'.handle g = if g = id then { s.handle g with consumed := true } else s.handle g := by
  unfold handle
  rw [hs', List.getD_eq_getElem?_getD, List.getElem?_modify, List.getD_eq_getElem?_getD,
    List.getElem?_eq_getElem hg]
  by_cases hid : id = g
  · subst hid; simp
  · simp [hid, Ne.symm hid]

theorem keeps_note {s s' : AsyncCalls κ} (id : Nat)
    (hs' : s'.handles = s.handles.modify id fun h => { h with consumed := true }) :
    Keeps s s' where
  length := by simp [hs']
  fat := fun g hg => by rw [handle_note hs' hg]; split <;> rfl
  consumed := fun g hg hc => by rw [handle_note hs' hg]; split <;> simp [hc]

theorem keeps_step (step : Step κ) (s : AsyncCalls κ) : Keeps s (step.after s) := by
  cases step with
  | memory call => exact keeps_of_handles rfl
  | create =>
    rcases create_cases s with ⟨h, m, _, hafter⟩ | hafter
    · exact keeps_append (h := h) (by rw [Step.after, hafter])
    · exact keeps_of_handles (by rw [Step.after, hafter])
  | attach fat => exact keeps_append (h := { fat }) rfl
  | assign id fat => exact keeps_of_handles (by rw [Step.after, assign_after])
  | result id => exact keeps_of_handles (by rw [Step.after, result_after])
  | consume id =>
    rcases consume_cases id s with ⟨payload, m, _, hr⟩ | ⟨e, m, _, hr⟩
    · exact keeps_note id (by rw [Step.after, stateAfter_ok hr])
    · exact keeps_of_handles (by rw [Step.after, stateAfter_error hr])
  | register id callback =>
    rcases register_cases id callback s with ⟨_, hr⟩ | hr
    · exact keeps_of_handles (by rw [Step.after, stateAfter_ok hr])
    · exact keeps_of_handles (by rw [Step.after, stateAfter_error hr])
  | resolve fat =>
    rcases resolve_cases fat s with ⟨e, hr⟩ | ⟨p, _, _, ⟨payload, m, _, hr⟩ | ⟨e, m, _, hr⟩⟩
    · exact keeps_of_handles (by rw [Step.after, stateAfter_error hr])
    · exact keeps_note p.handle (by rw [Step.after, stateAfter_ok hr])
    · exact keeps_of_handles (by rw [Step.after, stateAfter_error hr]; rfl)

theorem keeps_run (s : AsyncCalls κ) (steps : List (Step κ)) : Keeps s (s.run steps) := by
  induction steps generalizing s with
  | nil => exact keeps_of_handles rfl
  | cons step steps ih => exact (keeps_step step s).trans (ih (step.after s))

end AsyncCalls

end WasmBridge
