import WasmBridge.Memory.Session
import WasmBridge.Proofs.Memory.Registrations

/-!
# Scripts

What the actions of a script do to the calls. All but two of them neither register
nor resolve a call; what these do are steps that a ledger of registrations does not
note, on handles that were given out, and no callback is left to be run. To
register is one step, and so is to resolve, which alone may leave a callback to be
run.

The operations that actions are made of are followed one after the other by
`Moves.bind`, which carries along what a part has given.
-/

namespace WasmBridge

open LinearMemory AsyncCalls

variable {α β : Type}

namespace Ledger

variable {κ : Type} {l : Ledger κ}

theorem run_append (l : Ledger κ) (events later : List (Event κ)) :
    l.run (events ++ later) = (l.run events).run later :=
  List.foldl_append

theorem allKnown_append {events later : List (Event κ)} :
    l.AllKnown (events ++ later) ↔ l.AllKnown events ∧ (l.run events).AllKnown later := by
  induction events generalizing l with
  | nil => exact (iff_of_eq (true_and _)).symm
  | cons event events ih =>
    have hrest := ih (l := l.after event)
    simp only [List.cons_append, AllKnown, hrest, run, List.foldl_cons, and_assoc]

/-- Memory calls as events. -/
def memoryEvents (calls : List LinearMemory.Call) : List (Event κ) :=
  calls.map fun call => .step (.memory call)

/-- Memory calls change the memory and are not noted. -/
theorem run_memoryEvents (l : Ledger κ) (calls : List LinearMemory.Call) :
    l.AllKnown (memoryEvents calls) ∧ l.run (memoryEvents calls)
      = { l with calls := { l.calls with memory := l.calls.memory.run calls } } := by
  induction calls generalizing l with
  | nil => exact ⟨trivial, rfl⟩
  | cons call calls ih =>
    obtain ⟨hknown, hrun⟩ := ih (l.after (.step (.memory call)))
    exact ⟨⟨fun id hid => (nomatch hid), hknown⟩, hrun⟩

end Ledger

namespace Session

variable {s s' : Session}

/-! ## Plain operations -/

/-- The names of handles stand for handles that were given out. -/
def Bound (s : Session) : Prop :=
  ∀ name id, (name, Binding.handle id) ∈ s.names → id < s.calls.handles.length

/-- Nothing was registered or resolved, and all that was done are events of a ledger that it does
not note. -/
structure Plainly (s s' : Session) : Prop where
  bound : s'.Bound
  pending : s'.calls.pending = s.calls.pending
  events : s'.events = s.events
  ledger : ∃ events, ∀ l : Ledger (List ScriptAction), l.calls = s.calls →
    l.AllKnown events ∧ l.run events = { l with calls := s'.calls }

theorem Bound.plainly (h : s.Bound) : Plainly s s where
  bound := h
  pending := rfl
  events := rfl
  ledger := ⟨[], fun l hl => ⟨trivial, by rw [← hl]; rfl⟩⟩

theorem Plainly.trans {s₁ s₂ s₃ : Session} (h₁ : Plainly s₁ s₂) (h₂ : Plainly s₂ s₃) :
    Plainly s₁ s₃ where
  bound := h₂.bound
  pending := h₂.pending.trans h₁.pending
  events := h₂.events.trans h₁.events
  ledger := by
    obtain ⟨events, hfirst⟩ := h₁.ledger
    obtain ⟨later, hsecond⟩ := h₂.ledger
    refine ⟨events ++ later, fun l hl => ?_⟩
    obtain ⟨hknown, hrun⟩ := hfirst l hl
    obtain ⟨hknown', hrun'⟩ := hsecond { l with calls := s₂.calls } rfl
    rw [Ledger.allKnown_append, Ledger.run_append, hrun]
    exact ⟨⟨hknown, hknown'⟩, hrun'⟩

/-- The operation is plain, and what it gives is as told. -/
def Moves (s : Session) (op : ScriptOp α) (post : α → Session → Prop) : Prop :=
  match op s with
  | .ok a s' => Plainly s s' ∧ post a s'
  | .error _ s' => Plainly s s'

theorem Moves.bind {op : ScriptOp α} {f : α → ScriptOp β} {post : α → Session → Prop}
    {post' : β → Session → Prop} (hop : Moves s op post)
    (hf : ∀ a s', s'.Bound → post a s' → Moves s' (f a) post') : Moves s (op >>= f) post' := by
  unfold Moves at hop ⊢
  rw [Operation.bind_apply]
  cases hr : op s with
  | error e s₁ => rw [hr] at hop; exact hop
  | ok a s₁ =>
    rw [hr] at hop
    obtain ⟨hfirst, hpost⟩ := hop
    have hsecond := hf a s₁ hfirst.bound hpost
    unfold Moves at hsecond
    dsimp only
    cases hr' : f a s₁ with
    | error e s₂ => rw [hr'] at hsecond; exact hfirst.trans hsecond
    | ok b s₂ => rw [hr'] at hsecond; exact ⟨hfirst.trans hsecond.1, hsecond.2⟩

theorem moves_pure {post : α → Session → Prop} {a : α} (h : s.Bound) (hpost : post a s) :
    Moves s (pure a) post :=
  ⟨h.plainly, hpost⟩

theorem moves_throw {post : α → Session → Prop} (h : s.Bound) (e : ScriptError) :
    Moves s (throw e) post :=
  h.plainly

theorem moves_get (h : s.Bound) : Moves s get fun a s' => a = s ∧ s' = s :=
  ⟨h.plainly, rfl, rfl⟩

theorem moves_part (h : s.Bound) (a : Written α) : Moves s (part a) fun _ s' => s' = s := by
  cases a with
  | ok a => exact moves_pure h rfl
  | error e => exact moves_throw h e

theorem moves_ask (h : s.Bound) (question : LinearMemory → Except BoundaryError α) :
    Moves s (ask question) fun _ s' => s' = s := by
  unfold Moves ask onCalls AsyncCalls.ask
  cases question s.calls.memory with
  | ok a => exact ⟨h.plainly, rfl⟩
  | error e => exact h.plainly

/-! ### Names and pointers -/

theorem moves_lookup (h : s.Bound) (name : Text) :
    Moves s (lookup name) fun binding s' => s' = s ∧ (name, binding) ∈ s.names := by
  refine (moves_get h).bind fun a s' h' ha => ?_
  obtain ⟨rfl, rfl⟩ := ha
  cases hfind : s'.names.lookup name with
  | none => exact moves_throw h _
  | some binding =>
    obtain ⟨before, after, hnames, _⟩ := List.lookup_eq_some_iff.mp hfind
    refine moves_pure h ⟨rfl, ?_⟩
    rw [hnames]
    exact List.mem_append_right _ List.mem_cons_self

theorem moves_handleId (h : s.Bound) (name : Text) :
    Moves s (handleId name) fun id s' => s' = s ∧ id < s.calls.handles.length := by
  refine (moves_lookup h name).bind fun binding s' h' hb => ?_
  obtain ⟨rfl, hmem⟩ := hb
  cases binding with
  | pointer fat => exact moves_throw h _
  | handle id => exact moves_pure h ⟨rfl, h name id hmem⟩

theorem moves_handleOf (h : s.Bound) (name : Text) :
    Moves s (handleOf name) fun _ s' => s' = s := by
  refine (moves_handleId h name).bind fun id s' h' hid => ?_
  obtain ⟨rfl, -⟩ := hid
  refine (moves_get h).bind fun a s' h' ha => ?_
  exact moves_pure h' ha.2

theorem moves_pointer (h : s.Bound) (p : PointerExpr) :
    Moves s (pointer p) fun _ s' => s' = s := by
  induction p with
  | literal fat => exact moves_pure h rfl
  | named name =>
    refine (moves_lookup h name).bind fun binding s' h' hb => ?_
    obtain ⟨rfl, -⟩ := hb
    cases binding with
    | pointer fat => exact moves_pure h rfl
    | handle id => exact (moves_get h).bind fun a s' h' ha => moves_pure h' ha.2
  | part base offset length ih =>
    refine ih.bind fun fat s' h' hs => ?_
    subst hs
    refine (moves_ask h _).bind fun parts s' h' hs => ?_
    subst hs
    exact moves_ask h _

theorem moves_bindName (h : s.Bound) (name : Option Text) {binding : Binding}
    (hknown : ∀ id, binding = .handle id → id < s.calls.handles.length) :
    Moves s (bindName name binding) fun _ s' => s'.calls = s.calls := by
  cases name with
  | none => exact moves_pure h rfl
  | some name =>
    -- names are not noted in a ledger, so no event is needed
    refine ⟨⟨fun other id hmem => ?_, rfl, rfl, ⟨[], fun l hl => ⟨trivial, ?_⟩⟩⟩, rfl⟩
    · rcases List.mem_cons.mp hmem with heq | hmem
      · exact hknown id (Prod.mk.inj heq).2.symm
      · exact h other id hmem
    · rw [← show l.calls = s.calls from hl]
      rfl

/-! ### Calls and memory -/

/-- An operation that is a plain step on a handle that is known. -/
theorem moves_onCalls (h : s.Bound) {op : CallOp (List ScriptAction) α}
    (step : Step (List ScriptAction)) (hafter : stateAfter op s.calls = step.after s.calls)
    (hplain : Ledger.Plain step)
    (hknown : ∀ id ∈ (Ledger.Event.step step).handle?, id < s.calls.handles.length) :
    Moves s (onCalls op) fun a s' => op s.calls = .ok a s'.calls := by
  -- what is left behind is the same whether the operation returns or fails
  have hmove : Plainly s { s with calls := stateAfter op s.calls } := by
    rw [hafter]
    refine ⟨fun name id hmem => ?_, Ledger.pending_plain hplain s.calls, rfl, ?_⟩
    · exact Nat.lt_of_lt_of_le (h name id hmem) (keeps_step step s.calls).length
    · refine ⟨[.step step], fun l hl => ⟨⟨?_, trivial⟩, ?_⟩⟩
      · rw [← hl] at hknown; exact hknown
      · rw [← hl]; exact Ledger.after_plain hplain l
  unfold Moves onCalls
  cases hr : op s.calls with
  | ok a calls => rw [stateAfter_ok hr] at hmove; exact ⟨hmove, rfl⟩
  | error e calls => rw [stateAfter_error hr] at hmove; exact hmove

/-- The handle on a fresh record is known. -/
theorem create_known {κ : Type} {calls now : AsyncCalls κ} {id : Nat}
    (hr : AsyncCalls.create calls = .ok id now) : id < now.handles.length := by
  cases hcreate : Handle.create calls.memory with
  | ok h m =>
    rw [create_ok hcreate] at hr
    cases hr
    simp
  | error e m => simp [AsyncCalls.create, AsyncCalls.onMemory, hcreate] at hr

/-- A further handle is known. -/
theorem attach_known {κ : Type} {calls now : AsyncCalls κ} {fat : Int} {id : Nat}
    (hr : attach fat calls = .ok id now) : id < now.handles.length := by
  cases hr
  simp

/-- An operation on the memory that is a run of memory calls. -/
theorem moves_onMemory (h : s.Bound) {op : MemoryOp α}
    (hafter : ∃ calls, stateAfter op s.calls.memory = s.calls.memory.run calls) :
    Moves s (onMemory op) fun _ _ => True := by
  obtain ⟨calls, hcalls⟩ := hafter
  have hmove : Plainly s { s with calls := stateAfter (AsyncCalls.onMemory op) s.calls } := by
    rw [stateAfter_onMemory, hcalls]
    refine ⟨h, rfl, rfl, ⟨Ledger.memoryEvents calls, fun l hl => ?_⟩⟩
    rw [← hl]
    exact Ledger.run_memoryEvents l calls
  unfold Moves onMemory onCalls
  cases hr : AsyncCalls.onMemory op s.calls with
  | ok a calls => rw [stateAfter_ok hr] at hmove; exact ⟨hmove, trivial⟩
  | error e calls => rw [stateAfter_error hr] at hmove; exact hmove

/-- Handing over a value requests a buffer and writes it. -/
theorem exportValue_after (format : PackFormat) (types : TypeMap Text) (value : Value)
    (ident : TypeIdent) (m : LinearMemory) :
    ∃ calls, stateAfter (exportValue format types value ident) m = m.run calls := by
  unfold exportValue
  cases encode format types value ident with
  | error e => exact ⟨[], rfl⟩
  | ok payload =>
    dsimp only
    rw [Operation.stateAfter_bind]
    cases hmalloc : malloc payload.length m with
    | error e m₁ => exact ⟨[.malloc payload.length], (stateAfter_error hmalloc).symm⟩
    | ok fat m₁ =>
      refine ⟨[.malloc payload.length, .write fat payload], ?_⟩
      have hrun : m₁ = m.run [.malloc payload.length] := (stateAfter_ok hmalloc).symm
      dsimp only
      rw [Operation.stateAfter_bind]
      cases hwrite : write fat payload m₁ with
      | error e m₂ => rw [hrun] at hwrite; exact (stateAfter_error hwrite).symm
      | ok u m₂ => rw [hrun] at hwrite; exact (stateAfter_ok hwrite).symm

/-- Taking over a value gives its buffer back once it has been read. -/
theorem importValue_after (format : PackFormat) (types : TypeMap Text) (fat : Int)
    (ident : TypeIdent) (m : LinearMemory) :
    ∃ calls, stateAfter (importValue format types fat ident) m = m.run calls := by
  simp only [stateAfter, importValue, Operation.bind_apply, Operation.get_apply]
  cases hread : m.read fat with
  | error e => exact ⟨[], rfl⟩
  | ok payload =>
    refine ⟨[.free fat], ?_⟩
    simp only [orFail_ok]
    cases hfree : free fat m with
    | error e m₁ => exact (stateAfter_error hfree).symm
    | ok u m₁ =>
      have hrun : m₁ = m.run [.free fat] := (stateAfter_ok hfree).symm
      dsimp only
      cases decode format types payload ident with
      | error e => exact hrun
      | ok value => exact hrun

/-! ## Actions -/

/-- The action neither registers nor resolves a call. -/
def Quiet : ScriptAction → Prop
  | .register _ _ | .resolve _ => False
  | _ => True

/-- A quiet action is plain, and leaves no callback to be run. -/
theorem moves_perform (h : s.Bound) (payload : Option (List UInt8)) {action : ScriptAction}
    (hquiet : Quiet action) :
    Moves s (perform payload action) fun r _ => r.2 = none := by
  cases action with
  | register handle callback => exact hquiet.elim
  | resolve p => exact hquiet.elim
  | malloc length name =>
    refine (moves_onMemory h ⟨[.malloc length], rfl⟩).bind fun fat s₁ h₁ _ => ?_
    refine (moves_bindName h₁ name (by nofun)).bind fun _ s₂ h₂ _ => ?_
    exact moves_pure h₂ rfl
  | free p =>
    refine (moves_pointer h p).bind fun fat s₁ h₁ _ => ?_
    refine (moves_onMemory h₁ ⟨[.free fat], rfl⟩).bind fun _ s₂ h₂ _ => ?_
    exact moves_pure h₂ rfl
  | read p =>
    refine (moves_pointer h p).bind fun fat s₁ h₁ _ => ?_
    exact (moves_ask h₁ _).bind fun _ s₂ h₂ _ => moves_pure h₂ rfl
  | write p bytes =>
    refine (moves_pointer h p).bind fun fat s₁ h₁ _ => ?_
    refine (moves_onMemory h₁ ⟨[.write fat bytes], rfl⟩).bind fun _ s₂ h₂ _ => ?_
    exact moves_pure h₂ rfl
  | isAllocated p =>
    refine (moves_pointer h p).bind fun fat s₁ h₁ _ => ?_
    exact (moves_ask h₁ _).bind fun _ s₂ h₂ _ => moves_pure h₂ rfl
  | grow extra =>
    refine (moves_onMemory h ⟨[.grow extra], rfl⟩).bind fun _ s₁ h₁ _ => ?_
    exact moves_pure h₁ rfl
  | readWord offset => exact (moves_ask h _).bind fun _ s₁ h₁ _ => moves_pure h₁ rfl
  | writeWord offset value =>
    refine (moves_onMemory h ⟨[.writeWord offset value], rfl⟩).bind fun _ s₁ h₁ _ => ?_
    exact moves_pure h₁ rfl
  | peek first length => exact (moves_ask h _).bind fun _ s₁ h₁ _ => moves_pure h₁ rfl
  | newRecord name =>
    refine (moves_onCalls h .create rfl trivial (by nofun)).bind fun id s₁ h₁ hid => ?_
    -- the number was given out just now
    have hknown : id < s₁.calls.handles.length := create_known hid
    refine (moves_bindName h₁ (some name) fun _ heq => by cases heq; exact hknown).bind
      fun _ s₂ h₂ _ => ?_
    exact (moves_get h₂).bind fun _ s₃ h₃ _ => moves_pure h₃ rfl
  | attach p name =>
    refine (moves_pointer h p).bind fun fat s₁ h₁ _ => ?_
    refine (moves_onCalls h₁ (.attach fat) rfl trivial (by nofun)).bind
      fun id s₂ h₂ hid => ?_
    have hknown : id < s₂.calls.handles.length := attach_known hid
    refine (moves_bindName h₂ (some name) fun _ heq => by cases heq; exact hknown).bind
      fun _ s₃ h₃ _ => ?_
    exact moves_pure h₃ rfl
  | status handle =>
    refine (moves_handleOf h handle).bind fun _ s₁ h₁ _ => ?_
    exact (moves_ask h₁ _).bind fun _ s₂ h₂ _ => moves_pure h₂ rfl
  | isReady handle =>
    refine (moves_handleOf h handle).bind fun _ s₁ h₁ _ => ?_
    exact (moves_ask h₁ _).bind fun _ s₂ h₂ _ => moves_pure h₂ rfl
  | offset handle =>
    refine (moves_handleOf h handle).bind fun _ s₁ h₁ _ => ?_
    exact (moves_ask h₁ _).bind fun _ s₂ h₂ _ => moves_pure h₂ rfl
  | isConsumed handle =>
    exact (moves_handleOf h handle).bind fun _ s₁ h₁ _ => moves_pure h₁ rfl
  | assign handle p =>
    refine (moves_handleId h handle).bind fun id s₁ h₁ hid => ?_
    obtain ⟨rfl, hknown⟩ := hid
    refine (moves_pointer h₁ p).bind fun fat s₂ h₂ hs => ?_
    subst hs
    refine (moves_onCalls h₂ (.assign id fat) rfl trivial
      (fun _ heq => by cases heq; exact hknown)).bind fun _ s₃ h₃ _ => ?_
    exact moves_pure h₃ rfl
  | result handle name =>
    refine (moves_handleOf h handle).bind fun _ s₁ h₁ _ => ?_
    refine (moves_ask h₁ _).bind fun fat s₂ h₂ _ => ?_
    refine (moves_bindName h₂ name (by nofun)).bind fun _ s₃ h₃ _ => ?_
    exact moves_pure h₃ rfl
  | consume handle =>
    refine (moves_handleId h handle).bind fun id s₁ h₁ hid => ?_
    obtain ⟨rfl, hknown⟩ := hid
    refine (moves_onCalls h₁ (.consume id) rfl trivial
      (fun _ heq => by cases heq; exact hknown)).bind fun _ s₂ h₂ _ => ?_
    exact moves_pure h₂ rfl
  | isPending p =>
    refine (moves_pointer h p).bind fun fat s₁ h₁ _ => ?_
    exact (moves_get h₁).bind fun _ s₂ h₂ _ => moves_pure h₂ rfl
  | exportValue value type name =>
    refine (moves_part h value).bind fun v s₁ h₁ _ => ?_
    refine (moves_part h₁ type).bind fun t s₂ h₂ _ => ?_
    refine (moves_get h₂).bind fun a s₃ h₃ _ => ?_
    refine (moves_onMemory h₃ (exportValue_after a.format a.types v t _)).bind fun fat s₄ h₄ _ => ?_
    refine (moves_bindName h₄ name (by nofun)).bind fun _ s₅ h₅ _ => ?_
    exact moves_pure h₅ rfl
  | importValue p type =>
    refine (moves_pointer h p).bind fun fat s₁ h₁ _ => ?_
    refine (moves_part h₁ type).bind fun t s₂ h₂ _ => ?_
    refine (moves_get h₂).bind fun a s₃ h₃ _ => ?_
    refine (moves_onMemory h₃ (importValue_after a.format a.types fat t _)).bind fun _ s₄ h₄ _ => ?_
    exact moves_pure h₄ rfl
  | decodePayload type =>
    cases payload with
    | none => exact moves_throw h _
    | some bytes =>
      refine (moves_part h type).bind fun t s₁ h₁ _ => ?_
      refine (moves_get h₁).bind fun a s₂ h₂ _ => ?_
      cases hdecode : decode a.format a.types bytes t with
      | ok value => exact moves_pure h₂ rfl
      | error e => exact moves_throw h₂ _

/-- What performing an action comes to. -/
inductive Effect (payload : Option (List UInt8)) (action : ScriptAction) (s : Session) : Prop
  | plain {reply : Reply} {s' : Session} (hplain : Plainly s s')
      (hr : perform payload action s = .ok (reply, none) s')
  | failed {e : ScriptError} {s' : Session} (hplain : Plainly s s')
      (hr : perform payload action s = .error e s')
  | registered {handle : Text} {callback : List ScriptAction} {id : Nat}
      {calls : AsyncCalls (List ScriptAction)} (haction : action = .register handle callback)
      (hknown : id < s.calls.handles.length) (hcall : register id callback s.calls = .ok () calls)
      (hr : perform payload action s = .ok (.done, none) { s with calls })
  | refused {fat : Int} {e : BoundaryError} {calls : AsyncCalls (List ScriptAction)}
      (hcall : resolve fat s.calls = .error e calls)
      (hr : perform payload action s = .error (.boundary e) { s with calls })
  | resolved {fat : Int} {bytes : List UInt8} {callback : List ScriptAction}
      {calls : AsyncCalls (List ScriptAction)}
      (hcall : resolve fat s.calls = .ok (bytes, callback) calls)
      (hr : perform payload action s = .ok (.done, some (bytes, callback)) { s with calls })

theorem effect_register (h : s.Bound) (payload : Option (List UInt8)) (handle : Text)
    (callback : List ScriptAction) : Effect payload (.register handle callback) s := by
  have hid := moves_handleId h handle
  unfold Moves at hid
  have hrun : perform payload (.register handle callback) s
      = match handleId handle s with
        | .error e s' => .error e s'
        | .ok id s' => match register id callback s'.calls with
          | .error e calls => .error (.boundary e) { s' with calls }
          | .ok _ calls => .ok (.done, none) { s' with calls } := by
    simp only [perform, Operation.bind_apply, onCalls]
    cases handleId handle s with
    | error e s₁ => rfl
    | ok id s₁ => dsimp only; cases register id callback s₁.calls <;> rfl
  cases hr : handleId handle s with
  | error e s₁ =>
    rw [hr] at hid hrun
    exact .failed hid hrun
  | ok id s₁ =>
    rw [hr] at hid hrun
    obtain ⟨-, rfl, hknown⟩ := hid
    rcases register_cases id callback s₁.calls with ⟨_, hcall⟩ | hcall
    · refine .registered rfl hknown hcall ?_
      simp only [hrun, hcall]
    · -- a refused registration leaves the calls as they are
      have hfailed : perform payload (.register handle callback) s₁
          = .error (.boundary (.alreadyRegistered (s₁.calls.handle id).fat)) s₁ := by
        simp only [hrun, hcall]
      exact .failed h.plainly hfailed

theorem effect_resolve (h : s.Bound) (payload : Option (List UInt8)) (p : PointerExpr) :
    Effect payload (.resolve p) s := by
  have hfat := moves_pointer h p
  unfold Moves at hfat
  have hrun : perform payload (.resolve p) s
      = match pointer p s with
        | .error e s' => .error e s'
        | .ok fat s' => match resolve fat s'.calls with
          | .error e calls => .error (.boundary e) { s' with calls }
          | .ok called calls => .ok (.done, some called) { s' with calls } := by
    simp only [perform, Operation.bind_apply, onCalls]
    cases pointer p s with
    | error e s₁ => rfl
    | ok fat s₁ => dsimp only; cases resolve fat s₁.calls <;> rfl
  cases hr : pointer p s with
  | error e s₁ =>
    rw [hr] at hfat hrun
    exact .failed hfat hrun
  | ok fat s₁ =>
    rw [hr] at hfat hrun
    obtain ⟨-, rfl⟩ := hfat
    cases hcall : resolve fat s₁.calls with
    | error e calls => exact .refused hcall (by simp only [hrun, hcall])
    | ok called calls => exact .resolved hcall (by simp only [hrun, hcall])

/-- Whatever an action is, performing it comes to one of the effects. -/
theorem effect (h : s.Bound) (payload : Option (List UInt8)) (action : ScriptAction) :
    Effect payload action s := by
  by_cases hquiet : Quiet action
  · have hmove := moves_perform h payload hquiet
    unfold Moves at hmove
    cases hr : perform payload action s with
    | error e s₁ => rw [hr] at hmove; exact .failed hmove hr
    | ok r s₁ =>
      obtain ⟨reply, called⟩ := r
      rw [hr] at hmove
      obtain ⟨hplain, rfl⟩ := hmove
      exact .plain hplain hr
  · cases action with
    | register handle callback => exact effect_register h payload handle callback
    | resolve p => exact effect_resolve h payload p
    | _ => exact absurd trivial hquiet

end Session

end WasmBridge
