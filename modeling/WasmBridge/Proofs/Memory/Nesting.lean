import WasmBridge.Proofs.Memory.Scripts

/-!
# Callbacks within callbacks

The callbacks of a script are scripts themselves, and an action that resolves a call
performs all that the callback of that call has to do before its own answer is
reported. `Session.work` keeps a list of tasks for this and is given a bound on
their number. Here the nesting is said as such, by a relation that knows neither
tasks nor bounds, and a step of a session is proved to do just that: the bound is
never reached.

Each action, with all that it leads to, is then a run of a ledger of registrations.
A registration whose callback is performed is one of those that the ledger numbers;
its callback is running while its actions are performed, and has ended when the
answer of the action that resolved the call is reported. So what is true of every
run of a ledger is true of every script.
-/

namespace WasmBridge

open LinearMemory AsyncCalls

namespace Session

variable {s s' : Session}

/-! ## How many actions are left -/

/-- The number of actions in the callbacks of calls that wait. -/
def actionsOf (pending : List (Pending (List ScriptAction))) : Nat :=
  pending.foldr (fun p n => ScriptAction.countAll p.callback + n) 0

theorem actionsOf_append (pending : List (Pending (List ScriptAction)))
    (p : Pending (List ScriptAction)) :
    actionsOf (pending ++ [p]) = actionsOf pending + ScriptAction.countAll p.callback := by
  induction pending with
  | nil => simp [actionsOf]
  | cons q pending ih => simp only [actionsOf, List.cons_append, List.foldr_cons] at ih ⊢; omega

theorem actionsOf_filter_le (keep : Pending (List ScriptAction) → Bool)
    (pending : List (Pending (List ScriptAction))) :
    actionsOf (pending.filter keep) ≤ actionsOf pending := by
  induction pending with
  | nil => exact Nat.le_refl _
  | cons q pending ih =>
    rw [List.filter_cons]
    simp only [actionsOf] at ih ⊢
    split <;> simp only [List.foldr_cons] <;> omega

/-- The actions of a call that is dropped are not among those that wait. -/
theorem actionsOf_drop {pending : List (Pending (List ScriptAction))}
    {p : Pending (List ScriptAction)} (hp : p ∈ pending) :
    actionsOf (pending.filter fun q => q.fat ≠ p.fat) + ScriptAction.countAll p.callback
      ≤ actionsOf pending := by
  induction pending with
  | nil => cases hp
  | cons q pending ih =>
    rcases List.mem_cons.mp hp with rfl | hp
    · have hle := actionsOf_filter_le (fun q => q.fat ≠ p.fat) pending
      rw [List.filter_cons_of_neg (by simp)]
      simp only [actionsOf, List.foldr_cons] at hle ⊢
      omega
    · have hle := ih hp
      rw [List.filter_cons]
      simp only [actionsOf] at hle ⊢
      split <;> simp only [List.foldr_cons] <;> omega

theorem waiting_eq (s : Session) : s.waiting = actionsOf s.calls.pending := rfl

@[simp] theorem waiting_emit (s : Session) (event : Event) : (s.emit event).waiting = s.waiting :=
  rfl

theorem count_pos (action : ScriptAction) : 0 < action.count := by
  cases action <;> simp only [ScriptAction.count] <;> omega

/-- The number of actions that an outcome leaves to be performed. -/
def leftOver : EStateM.Result ScriptError Session
    (Reply × Option (List UInt8 × List ScriptAction)) → Nat
  | .ok (_, some (_, callback)) s => ScriptAction.countAll callback + s.waiting
  | .ok (_, none) s | .error _ s => s.waiting

/-- What the callback of a resolved call has to do is no longer among what waits. -/
theorem actionsOf_resolved {fat : Int} {calls calls' : AsyncCalls (List ScriptAction)}
    {bytes : List UInt8} {callback : List ScriptAction}
    (hr : resolve fat calls = .ok (bytes, callback) calls') :
    ScriptAction.countAll callback + actionsOf calls'.pending ≤ actionsOf calls.pending := by
  rcases resolve_cases fat calls with
    ⟨e, hr'⟩ | ⟨p, hp, _, ⟨payload, m, _, hr'⟩ | ⟨e, m, _, hr'⟩⟩
  · rw [hr'] at hr; cases hr
  · rw [hr'] at hr
    cases hr
    obtain ⟨hmem, rfl⟩ := mem_of_pendingAt? hp
    have hdrop := actionsOf_drop hmem
    dsimp only [drop]
    omega
  · rw [hr'] at hr; cases hr

theorem actionsOf_refused {fat : Int} {calls calls' : AsyncCalls (List ScriptAction)}
    {e : BoundaryError} (hr : resolve fat calls = .error e calls') :
    actionsOf calls'.pending ≤ actionsOf calls.pending := by
  rcases resolve_cases fat calls with
    ⟨e, hr'⟩ | ⟨p, hp, _, ⟨payload, m, _, hr'⟩ | ⟨e, m, _, hr'⟩⟩
  · rw [hr'] at hr; cases hr; exact Nat.le_refl _
  · rw [hr'] at hr; cases hr
  · rw [hr'] at hr; cases hr; exact actionsOf_filter_le _ calls.pending

/-- **Performing an action leaves fewer actions to be performed.** -/
theorem leftOver_lt (h : s.Bound) (payload : Option (List UInt8)) (action : ScriptAction) :
    leftOver (perform payload action s) < action.count + s.waiting := by
  have hpos := count_pos action
  cases effect h payload action with
  | plain hplain hr =>
    rw [hr, leftOver, waiting_eq, hplain.pending, waiting_eq]
    omega
  | failed hplain hr =>
    rw [hr, leftOver, waiting_eq, hplain.pending, waiting_eq]
    omega
  | registered haction hknown hcall hr =>
    -- what the callback has to do moves from the action to the calls that wait
    rcases register_cases _ _ s.calls with ⟨_, hcall'⟩ | hcall'
    · rw [hcall'] at hcall
      cases hcall
      rw [hr, leftOver, waiting_eq, actionsOf_append, waiting_eq, haction, ScriptAction.count]
      dsimp only
      omega
    · rw [hcall'] at hcall; cases hcall
  | refused hcall hr =>
    have hleft := actionsOf_refused hcall
    rw [hr, leftOver, waiting_eq, waiting_eq]
    dsimp only
    omega
  | resolved hcall hr =>
    have hleft := actionsOf_resolved hcall
    rw [hr, leftOver, waiting_eq, waiting_eq]
    dsimp only
    omega

/-! ## Callbacks nest -/

/--
Actions are performed one after the other, each with all that its callback does
before its answer is reported. The callback is given the payload of its call, and
what it performs may call others back.
-/
inductive Performs : Option (List UInt8) → List ScriptAction → Session → Session → Prop
  | nil {payload : Option (List UInt8)} {s : Session} : Performs payload [] s s
  | plain {payload : Option (List UInt8)} {action : ScriptAction} {rest : List ScriptAction}
      {reply : Reply} {s s₁ s' : Session} (hr : perform payload action s = .ok (reply, none) s₁)
      (hrest : Performs payload rest (s₁.emit (.answer (.ok reply))) s') :
      Performs payload (action :: rest) s s'
  | failed {payload : Option (List UInt8)} {action : ScriptAction} {rest : List ScriptAction}
      {e : ScriptError} {s s₁ s' : Session} (hr : perform payload action s = .error e s₁)
      (hrest : Performs payload rest (s₁.emit (.answer (.error e))) s') :
      Performs payload (action :: rest) s s'
  | called {payload : Option (List UInt8)} {action : ScriptAction}
      {rest callback : List ScriptAction} {reply : Reply} {bytes : List UInt8}
      {s s₁ s₂ s' : Session}
      (hr : perform payload action s = .ok (reply, some (bytes, callback)) s₁)
      (hcallback : Performs (some bytes) callback (s₁.emit (.payload bytes)) s₂)
      (hrest : Performs payload rest (s₂.emit (.answer (.ok reply))) s') :
      Performs payload (action :: rest) s s'

/-- There is one way only to perform actions. -/
theorem Performs.unique {payload : Option (List UInt8)} {actions : List ScriptAction}
    {s s' s'' : Session} (h : Performs payload actions s s')
    (h' : Performs payload actions s s'') : s' = s'' := by
  induction h generalizing s'' with
  | nil => cases h'; rfl
  | plain hr hrest ih =>
    cases h' with
    | plain hr' hrest' => rw [hr] at hr'; cases hr'; exact ih hrest'
    | failed hr' hrest' => rw [hr] at hr'; cases hr'
    | called hr' hcallback' hrest' => rw [hr] at hr'; cases hr'
  | failed hr hrest ih =>
    cases h' with
    | plain hr' hrest' => rw [hr] at hr'; cases hr'
    | failed hr' hrest' => rw [hr] at hr'; cases hr'; exact ih hrest'
    | called hr' hcallback' hrest' => rw [hr] at hr'; cases hr'
  | called hr hcallback hrest ihcallback ihrest =>
    cases h' with
    | plain hr' hrest' => rw [hr] at hr'; cases hr'
    | failed hr' hrest' => rw [hr] at hr'; cases hr'
    | called hr' hcallback' hrest' =>
      rw [hr] at hr'
      cases hr'
      cases ihcallback hcallback'
      exact ihrest hrest'

/-- The names of handles still stand for handles that were given out. -/
theorem bound_perform (h : s.Bound) (payload : Option (List UInt8)) (action : ScriptAction) :
    (stateAfter (perform payload action) s).Bound := by
  have hkeeps : ∀ {calls}, Keeps s.calls calls → ({ s with calls } : Session).Bound :=
    fun hkeeps name id hmem => Nat.lt_of_lt_of_le (h name id hmem) hkeeps.length
  cases effect h payload action with
  | plain hplain hr => rw [stateAfter_ok hr]; exact hplain.bound
  | failed hplain hr => rw [stateAfter_error hr]; exact hplain.bound
  | registered haction hknown hcall hr =>
    rw [stateAfter_ok hr, ← stateAfter_ok hcall]
    exact hkeeps (keeps_step (.register _ _) s.calls)
  | refused hcall hr =>
    rw [stateAfter_error hr, ← stateAfter_error hcall]
    exact hkeeps (keeps_step (.resolve _) s.calls)
  | resolved hcall hr =>
    rw [stateAfter_ok hr, ← stateAfter_ok hcall]
    exact hkeeps (keeps_step (.resolve _) s.calls)

theorem Bound.of_perform (h : s.Bound) {payload : Option (List UInt8)} {action : ScriptAction}
    {r : Reply × Option (List UInt8 × List ScriptAction)}
    (hr : perform payload action s = .ok r s') : s'.Bound := by
  rw [← stateAfter_ok hr]
  exact bound_perform h payload action

theorem work_nil (fuel : Nat) (s : Session) : work fuel [] s = s := by
  cases fuel <;> rfl

/-- The task of an action makes way for those that it leads to. -/
theorem work_perform {payload : List UInt8} {action : ScriptAction} {answer : Answer}
    {tasks : List Task} {s₁ : Session} (hact : act (some payload) action s = (answer, tasks, s₁))
    (fuel : Nat) (rest : List Task) :
    work (fuel + 1) (.perform payload action :: rest) s
      = work fuel (tasks ++ .report answer :: rest) s₁ := by
  rw [work, hact]

/-- The tasks of actions are worked off as the actions are performed, whatever comes after them.
It takes no more tasks than there are actions to be performed and reported. -/
structure WorksOff (payload : List UInt8) (actions : List ScriptAction) (s s' : Session)
    (fuel : Nat) : Prop where
  performs : Performs (some payload) actions s s'
  bound : s'.Bound
  fuel_le : fuel + 2 * s'.waiting ≤ 2 * (ScriptAction.countAll actions + s.waiting)
  work : ∀ rest extra, work (fuel + extra) (actions.map (.perform payload) ++ rest) s
    = work extra rest s'

/-- An action that calls nothing back is performed and reported. -/
theorem WorksOff.quiet {payload : List UInt8} {action : ScriptAction} {rest : List ScriptAction}
    {answer : Answer} {s₁ : Session} {fuel : Nat}
    (hact : act (some payload) action s = (answer, [], s₁))
    (hleft : s₁.waiting < action.count + s.waiting)
    (hperforms : Performs (some payload) rest (s₁.emit (.answer answer)) s' →
      Performs (some payload) (action :: rest) s s')
    (hrest : WorksOff payload rest (s₁.emit (.answer answer)) s' fuel) :
    WorksOff payload (action :: rest) s s' (fuel + 2) where
  performs := hperforms hrest.performs
  bound := hrest.bound
  fuel_le := by
    have hfuel := hrest.fuel_le
    rw [waiting_emit] at hfuel
    rw [ScriptAction.countAll]
    omega
  work := fun tasks extra => by
    rw [← hrest.work, show fuel + 2 + extra = fuel + extra + 1 + 1 by omega]
    exact work_perform hact (fuel + extra + 1) _

/-- An action that calls back is reported when its callback is done. -/
theorem WorksOff.called {payload bytes : List UInt8} {action : ScriptAction}
    {rest callback : List ScriptAction} {reply : Reply} {s₁ s₂ : Session} {fuel fuel' : Nat}
    (hr : perform (some payload) action s = .ok (reply, some (bytes, callback)) s₁)
    (hleft : ScriptAction.countAll callback + s₁.waiting < action.count + s.waiting)
    (hcallback : WorksOff bytes callback (s₁.emit (.payload bytes)) s₂ fuel)
    (hrest : WorksOff payload rest (s₂.emit (.answer (.ok reply))) s' fuel') :
    WorksOff payload (action :: rest) s s' (fuel + fuel' + 2) where
  performs := .called hr hcallback.performs hrest.performs
  bound := hrest.bound
  fuel_le := by
    have hfuel := hcallback.fuel_le
    have hfuel' := hrest.fuel_le
    rw [waiting_emit] at hfuel hfuel'
    rw [ScriptAction.countAll]
    omega
  work := fun tasks extra => by
    have hact : act (some payload) action s
        = (.ok reply, callback.map (.perform bytes), s₁.emit (.payload bytes)) := by
      rw [act, hr]
    -- one task for the action, those of the callback, one for the report, and the rest
    rw [← hrest.work,
      show fuel + fuel' + 2 + extra = fuel + (fuel' + extra + 1) + 1 by omega]
    exact (work_perform hact _ _).trans (hcallback.work _ _)

theorem exists_worksOff (payload : List UInt8) (actions : List ScriptAction) (h : s.Bound) :
    ∃ s' fuel, WorksOff payload actions s s' fuel := by
  -- the actions that are left, also those of callbacks, get fewer with each that is performed
  induction hn : ScriptAction.countAll actions + s.waiting using Nat.strongRecOn
    generalizing payload actions s with
  | ind n ih =>
    subst hn
    cases actions with
    | nil => exact ⟨s, 0, .nil, h, by simp [ScriptAction.countAll], fun rest extra => by simp⟩
    | cons action rest =>
      have hleft := leftOver_lt h (some payload) action
      rw [ScriptAction.countAll] at ih
      cases hr : perform (some payload) action s with
      | error e s₁ =>
        rw [hr, leftOver] at hleft
        have hbound := bound_perform h (some payload) action
        rw [stateAfter_error hr] at hbound
        obtain ⟨s', fuel, hrest⟩ :=
          ih _ (by rw [waiting_emit]; omega) payload rest (s := s₁.emit (.answer (.error e)))
            hbound rfl
        exact ⟨s', fuel + 2, .quiet (by rw [act, hr]) hleft (.failed hr) hrest⟩
      | ok r s₁ =>
        obtain ⟨reply, called⟩ := r
        have hbound := h.of_perform hr
        cases called with
        | none =>
          rw [hr, leftOver] at hleft
          obtain ⟨s', fuel, hrest⟩ :=
            ih _ (by rw [waiting_emit]; omega) payload rest (s := s₁.emit (.answer (.ok reply)))
              hbound rfl
          exact ⟨s', fuel + 2, .quiet (by rw [act, hr]) hleft (.plain hr) hrest⟩
        | some called =>
          obtain ⟨bytes, callback⟩ := called
          rw [hr, leftOver] at hleft
          obtain ⟨s₂, fuel, hcallback⟩ :=
            ih _ (by rw [waiting_emit]; omega) bytes callback (s := s₁.emit (.payload bytes))
              hbound rfl
          -- what waits when the callback is done was counted before it has begun
          have hfuel := hcallback.fuel_le
          rw [waiting_emit] at hfuel
          obtain ⟨s', fuel', hrest⟩ :=
            ih _ (by rw [waiting_emit]; omega) payload rest (s := s₂.emit (.answer (.ok reply)))
              hcallback.bound rfl
          exact ⟨s', _, hcallback.called hr hleft hrest⟩

/--
**A step of a session performs its action, however deep its callbacks nest.** What
it comes to is what the nesting says, and nothing is cut off by the bound on tasks.
-/
theorem performs_step_iff (h : s.Bound) (action : ScriptAction) :
    Performs none [action] { s with events := [] } s'
      ↔ s' = (step action s).2.emit (.answer (step action s).1) := by
  have hperforms : Performs none [action] { s with events := [] }
      ((step action s).2.emit (.answer (step action s).1)) := by
    have h₀ : ({ s with events := [] } : Session).Bound := h
    have hleft := leftOver_lt h₀ none action
    unfold step act
    cases hr : perform none action { s with events := [] } with
    | error e s₁ => simpa only [work_nil] using Performs.failed hr .nil
    | ok r s₁ =>
      obtain ⟨reply, called⟩ := r
      cases called with
      | none => simpa only [work_nil] using Performs.plain hr .nil
      | some called =>
        obtain ⟨bytes, callback⟩ := called
        rw [hr, leftOver] at hleft
        have hbound : s₁.Bound := h₀.of_perform hr
        obtain ⟨s₂, fuel, hcallback⟩ :=
          exists_worksOff bytes callback (s := s₁.emit (.payload bytes)) hbound
        have hfuel := hcallback.fuel_le
        rw [waiting_emit] at hfuel
        -- the callback takes no more than the bound, and what is left over of it does nothing
        have hwaiting : ({ s with events := [] } : Session).waiting = s.waiting := rfl
        obtain ⟨extra, hextra⟩ : ∃ extra, 2 * (s.waiting + action.count) + 1 = fuel + extra :=
          Nat.exists_eq_add_of_le (by omega)
        have hwork := hcallback.work [] extra
        rw [List.append_nil, work_nil] at hwork
        dsimp only
        rw [hextra, hwork]
        exact .called hr hcallback.performs .nil
  exact ⟨fun hs => hs.unique hperforms, fun hs => hs ▸ hperforms⟩

/-! ## Scripts and ledgers -/

/-- The payloads that callbacks were given, as they were reported. -/
def payloads (s : Session) : List (List UInt8) :=
  s.events.filterMap fun
    | .payload bytes => some bytes
    | .answer _ => none

@[simp] theorem payloads_answer (s : Session) (answer : Answer) :
    (s.emit (.answer answer)).payloads = s.payloads := by
  simp [payloads, emit]

@[simp] theorem payloads_payload (s : Session) (bytes : List UInt8) :
    (s.emit (.payload bytes)).payloads = s.payloads ++ [bytes] := by
  simp [payloads, emit]

/--
The ledger comes from `l` to `l'` while the session comes from `s` to `s'`. The
callbacks that were run are as many as the payloads that were reported meanwhile,
and those that have started since have ended.
-/
structure Told (l l' : Ledger (List ScriptAction)) (s s' : Session) : Prop where
  bound : s'.Bound
  reached : ∃ events, l.AllKnown events ∧ l.run events = l'
  calls : l'.calls = s'.calls
  running : l'.running = l.running
  invoked : ∃ numbers reported, l'.invoked = l.invoked ++ numbers
    ∧ s'.payloads = s.payloads ++ reported ∧ numbers.length = reported.length

variable {l l' : Ledger (List ScriptAction)}

theorem Told.refl (h : s.Bound) (hl : l.calls = s.calls) : Told l l s s :=
  ⟨h, ⟨[], trivial, rfl⟩, hl, rfl, [], [], by simp, by simp, rfl⟩

theorem Told.trans {l₁ l₂ l₃ : Ledger (List ScriptAction)} {s₁ s₂ s₃ : Session}
    (h₁ : Told l₁ l₂ s₁ s₂) (h₂ : Told l₂ l₃ s₂ s₃) : Told l₁ l₃ s₁ s₃ where
  bound := h₂.bound
  reached := by
    obtain ⟨events, hknown, rfl⟩ := h₁.reached
    obtain ⟨later, hknown', rfl⟩ := h₂.reached
    exact ⟨events ++ later, Ledger.allKnown_append.mpr ⟨hknown, hknown'⟩,
      Ledger.run_append l₁ events later⟩
  calls := h₂.calls
  running := h₂.running.trans h₁.running
  invoked := by
    obtain ⟨numbers, reported, hnew, hpayloads, hlength⟩ := h₁.invoked
    obtain ⟨numbers', reported', hnew', hpayloads', hlength'⟩ := h₂.invoked
    refine ⟨numbers ++ numbers', reported ++ reported', ?_, ?_, ?_⟩
    · rw [hnew', hnew, List.append_assoc]
    · rw [hpayloads', hpayloads, List.append_assoc]
    · rw [List.length_append, List.length_append, hlength, hlength']

theorem Told.kept (h : Told l l' s s') (hkept : Ledger.Kept l) : Ledger.Kept l' := by
  obtain ⟨events, hknown, rfl⟩ := h.reached
  exact Ledger.kept_run hkept hknown

/-- Answers are not noted. -/
theorem told_answer_iff {answer : Answer} :
    Told l l' s (s'.emit (.answer answer)) ↔ Told l l' s s' := by
  constructor
  · rintro ⟨hbound, hreached, hcalls, hrunning, hinvoked⟩
    exact ⟨hbound, hreached, hcalls, hrunning, by simpa using hinvoked⟩
  · rintro ⟨hbound, hreached, hcalls, hrunning, hinvoked⟩
    exact ⟨hbound, hreached, hcalls, hrunning, by simpa using hinvoked⟩

/-- A session that only its calls tell from the one before, after one event that runs no
callback. -/
theorem told_event (h : s.Bound) (event : Ledger.Event (List ScriptAction)) (hknown : l.Known event)
    {calls : AsyncCalls (List ScriptAction)} (hcalls : (l.after event).calls = calls)
    (hkeeps : Keeps s.calls calls) (hrunning : (l.after event).running = l.running)
    (hinvoked : (l.after event).invoked = l.invoked) :
    Told l (l.after event) s { s with calls } where
  bound := fun name id hmem => Nat.lt_of_lt_of_le (h name id hmem) hkeeps.length
  reached := ⟨[event], ⟨hknown, trivial⟩, rfl⟩
  calls := hcalls
  running := hrunning
  invoked := ⟨[], [], by simp [hinvoked], by simp [payloads], rfl⟩

/-- An action that runs no callback. -/
theorem told_quiet (h : s.Bound) (hl : l.calls = s.calls) {payload : Option (List UInt8)}
    {action : ScriptAction}
    (hquiet : ∀ r s₁, perform payload action s = .ok r s₁ → r.2 = none) :
    ∃ l', Told l l' s (stateAfter (perform payload action) s) := by
  have hplainly : ∀ {s₁ : Session}, Plainly s s₁ → ∃ l', Told l l' s s₁ := by
    intro s₁ hplain
    obtain ⟨events, hevents⟩ := hplain.ledger
    obtain ⟨hknown, hrun⟩ := hevents l hl
    exact ⟨_, hplain.bound, ⟨events, hknown, hrun⟩, rfl, rfl, [], [], by simp,
      by simp [payloads, hplain.events], rfl⟩
  cases effect h payload action with
  | plain hplain hr => rw [stateAfter_ok hr]; exact hplainly hplain
  | failed hplain hr => rw [stateAfter_error hr]; exact hplainly hplain
  | @registered handle callback id calls _ hknown hcall hr =>
    -- the registration gets a number, but no callback is run
    rw [stateAfter_ok hr]
    have hkeeps := keeps_step (.register id callback) s.calls
    rw [Step.after, stateAfter_ok hcall] at hkeeps
    rw [← hl] at hcall hknown
    refine ⟨_, told_event h (.step (.register id callback)) ?_ ?_ hkeeps ?_ ?_⟩
    · rintro _ ⟨⟩; exact hknown
    · exact stateAfter_ok hcall
    · simp only [Ledger.after, Ledger.noteRegister, outcome_ok hcall]
    · simp only [Ledger.after, Ledger.noteRegister, outcome_ok hcall]
  | @refused fat e calls hcall hr =>
    rw [stateAfter_error hr]
    have hkeeps := keeps_step (.resolve fat) s.calls
    rw [Step.after, stateAfter_error hcall] at hkeeps
    rw [← hl] at hcall
    refine ⟨_, told_event h (.step (.resolve fat)) ?_ ?_ hkeeps ?_ ?_⟩
    · intro id hid; cases hid
    · exact stateAfter_error hcall
    · simp only [Ledger.after, Ledger.noteResolve, outcome_error hcall, List.nil_append]
    · simp only [Ledger.after, Ledger.noteResolve, outcome_error hcall, List.append_nil]
  | resolved hcall hr => cases hquiet _ _ hr

/-- An action with a callback has resolved a call. -/
theorem resolve_of_called (h : s.Bound) {payload : Option (List UInt8)} {action : ScriptAction}
    {reply : Reply} {bytes : List UInt8} {callback : List ScriptAction} {s₁ : Session}
    (hr : perform payload action s = .ok (reply, some (bytes, callback)) s₁) :
    ∃ fat calls, resolve fat s.calls = .ok (bytes, callback) calls ∧ s₁ = { s with calls } := by
  cases effect h payload action with
  | plain hplain hr' => rw [hr'] at hr; cases hr
  | failed hplain hr' => rw [hr'] at hr; cases hr
  | registered haction hknown hcall hr' => rw [hr'] at hr; cases hr
  | refused hcall hr' => rw [hr'] at hr; cases hr
  | resolved hcall hr' => rw [hr'] at hr; cases hr; exact ⟨_, _, hcall, rfl⟩

/-- A callback that was run and whatever it has led to, once it has ended. -/
theorem told_called (hkept : Ledger.Kept l) (hl : l.calls = s.calls) {fat : Int}
    {bytes : List UInt8} {callback : List ScriptAction} {calls : AsyncCalls (List ScriptAction)}
    (hcall : resolve fat s.calls = .ok (bytes, callback) calls) {s₂ : Session}
    (hcallback : ∀ l₁ : Ledger (List ScriptAction), Ledger.Kept l₁ → l₁.calls = calls →
      ∃ l₂, Told l₁ l₂ (({ s with calls } : Session).emit (.payload bytes)) s₂) :
    ∃ l₂, Told l l₂ s s₂ := by
  rw [← hl] at hcall
  -- the callback starts with the number of its registration on top of the stack
  obtain ⟨n, _, hcalls, hinvoked, hrunning⟩ := hkept.resolved hcall
  have hfirst : l.Known (.step (.resolve fat)) := nofun
  obtain ⟨l₂, htold⟩ := hcallback _ (Ledger.kept_after hkept hfirst) hcalls
  obtain ⟨events, hknown, hrun⟩ := htold.reached
  obtain ⟨numbers, reported, hnew, hpayloads, hlength⟩ := htold.invoked
  refine ⟨l₂.after .finish, htold.bound, ?_, htold.calls, ?_, ?_⟩
  · refine ⟨.step (.resolve fat) :: (events ++ [.finish]), ⟨hfirst, ?_⟩, ?_⟩
    · exact Ledger.allKnown_append.mpr ⟨hknown, nofun, trivial⟩
    · rw [← hrun]
      exact Ledger.run_append (l.after (.step (.resolve fat))) events [.finish]
  · -- the callback is the innermost one again when it ends
    show l₂.running.tail = l.running
    rw [htold.running, hrunning, List.tail_cons]
  · refine ⟨n :: numbers, bytes :: reported, ?_, ?_, by simp [hlength]⟩
    · show l₂.invoked = l.invoked ++ n :: numbers
      rw [hnew, hinvoked, List.append_assoc, List.singleton_append]
    · rw [hpayloads, payloads_payload, List.append_assoc, List.singleton_append]
      rfl

/-- **Actions that are performed are a run of a ledger.** -/
theorem Performs.told {payload : Option (List UInt8)} {actions : List ScriptAction}
    (hperforms : Performs payload actions s s') (h : s.Bound) (hkept : Ledger.Kept l)
    (hl : l.calls = s.calls) : ∃ l', Told l l' s s' := by
  induction hperforms generalizing l with
  | nil => exact ⟨l, .refl h hl⟩
  | plain hr hrest ih =>
    obtain ⟨l₁, hfirst⟩ := told_quiet h hl fun r s₁ hr' => by rw [hr] at hr'; cases hr'; rfl
    rw [stateAfter_ok hr] at hfirst
    obtain ⟨l', hsecond⟩ := ih hfirst.bound (hfirst.kept hkept) hfirst.calls
    exact ⟨l', (told_answer_iff.mpr hfirst).trans hsecond⟩
  | failed hr hrest ih =>
    obtain ⟨l₁, hfirst⟩ := told_quiet h hl fun r s₁ hr' => by rw [hr] at hr'; cases hr'
    rw [stateAfter_error hr] at hfirst
    obtain ⟨l', hsecond⟩ := ih hfirst.bound (hfirst.kept hkept) hfirst.calls
    exact ⟨l', (told_answer_iff.mpr hfirst).trans hsecond⟩
  | called hr hcallback hrest ihcallback ihrest =>
    have hbound := h.of_perform hr
    obtain ⟨fat, calls, hcall, rfl⟩ := resolve_of_called h hr
    obtain ⟨l₂, hfirst⟩ := told_called hkept hl hcall fun l₁ hkept₁ hl₁ =>
      ihcallback hbound hkept₁ hl₁
    obtain ⟨l', hsecond⟩ := ihrest hfirst.bound (hfirst.kept hkept) hfirst.calls
    exact ⟨l', (told_answer_iff.mpr hfirst).trans hsecond⟩

theorem step_told (h : s.Bound) (hkept : Ledger.Kept l) (hl : l.calls = s.calls)
    (action : ScriptAction) :
    ∃ l', Told l l' { s with events := [] } (step action s).2 := by
  have hperforms := (performs_step_iff h action).mpr rfl
  obtain ⟨l', htold⟩ := hperforms.told h hkept hl
  exact ⟨l', told_answer_iff.mp htold⟩

/-- The payloads that the actions of a script report, each with all that it leads to, and the
session after them. -/
def runScript : List ScriptAction → Session → List (List UInt8) × Session
  | [], s => ([], s)
  | action :: actions, s =>
    let s₁ := (step action s).2
    let (reported, s') := runScript actions s₁
    (s₁.payloads ++ reported, s')

theorem exists_run (actions : List ScriptAction) (h : s.Bound) (hkept : Ledger.Kept l)
    (hl : l.calls = s.calls) :
    ∃ events, l.AllKnown events ∧ (l.run events).calls = (runScript actions s).2.calls
      ∧ (l.run events).running = l.running
      ∧ (l.run events).invoked.length = l.invoked.length + (runScript actions s).1.length := by
  induction actions generalizing s l with
  | nil => exact ⟨[], trivial, hl, rfl, rfl⟩
  | cons action actions ih =>
    obtain ⟨l₁, htold⟩ := step_told h hkept hl action
    obtain ⟨later, hknown', hcalls', hrunning', hinvoked'⟩ :=
      ih htold.bound (htold.kept hkept) htold.calls
    obtain ⟨events, hknown, rfl⟩ := htold.reached
    obtain ⟨numbers, reported, hnew, hpayloads, hlength⟩ := htold.invoked
    have hpayloads' : (step action s).2.payloads = reported := hpayloads
    refine ⟨events ++ later, Ledger.allKnown_append.mpr ⟨hknown, hknown'⟩, ?_, ?_, ?_⟩
    · rw [Ledger.run_append]; exact hcalls'
    · rw [Ledger.run_append]; exact hrunning'.trans htold.running
    · rw [Ledger.run_append, hinvoked', hnew, runScript, hpayloads', List.length_append,
        List.length_append, hlength, Nat.add_assoc]

/--
**Every script is a run of a ledger**, whose account is kept, in which the callbacks
that were run are as many as the payloads that were reported, and all have ended.
-/
theorem exists_run_of_start {format : PackFormat} {types : TypeMap Text} {size align : Int}
    (hstart : Session.start format types size align = .ok s) (actions : List ScriptAction) :
    ∃ events, ({ calls := s.calls } : Ledger _).AllKnown events
      ∧ ∃ l, ({ calls := s.calls } : Ledger _).run events = l ∧ Ledger.Kept l
        ∧ l.calls = (runScript actions s).2.calls ∧ l.running = []
        ∧ l.invoked.length = (runScript actions s).1.length := by
  obtain ⟨memory, _, heq⟩ := Outcome.bind_eq_ok.mp hstart
  cases heq
  have hbound : ({ format, types, calls := { memory } } : Session).Bound := nofun
  have hempty : ({ memory } : AsyncCalls (List ScriptAction)).pending = [] := rfl
  have hkept := Ledger.kept_start hempty
  obtain ⟨events, hknown, hcalls, hrunning, hinvoked⟩ := exists_run actions hbound hkept rfl
  refine ⟨events, hknown, _, rfl, Ledger.kept_run hkept hknown, hcalls, hrunning, ?_⟩
  simpa using hinvoked

end Session

end WasmBridge
