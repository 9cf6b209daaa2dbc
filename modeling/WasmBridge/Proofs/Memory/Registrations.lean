import Mathlib.Data.List.Nodup
import WasmBridge.Proofs.Memory.Steps

/-!
# Registrations

A registration waits until its call is resolved, and its callback is run then. The
callback may itself register, resolve and consume, so that resolving nests to any
depth; whoever is at it takes its steps on the state that the others have left.

To speak of one registration a ledger numbers them all in the order in which they
succeed. It notes where each number is: among those that wait, or among those that
were removed, and there among those whose callback was run. It also keeps the stack
of the callbacks that are still running, which take steps and end as they like.
None of this is looked at by the calls themselves.

The account is kept by every step: each number is in exactly one place, and leaves
the waiting ones for good. Nothing is assumed about the memory, so a record may be
freed, overwritten or handed out again while a call waits for it.
-/

namespace WasmBridge

open LinearMemory FatPtr AsyncCalls

variable {κ : Type}

/-! ## The ledger -/

/-- The calls with an account of the registrations, which are numbered as they come. -/
structure Ledger (κ : Type) where
  calls : AsyncCalls κ
  /-- How many registrations there were. -/
  registered : Nat := 0
  /-- The records and the numbers of the registrations that wait. -/
  waiting : List (Int × Nat) := []
  /-- The registrations that were taken out of the calls that wait. -/
  removed : List Nat := []
  /-- The registrations whose callback was run. -/
  invoked : List Nat := []
  /-- The registrations whose callback is running, the innermost first. -/
  running : List Nat := []

namespace Ledger

/-- What happens next. -/
inductive Event (κ : Type) where
  /-- The innermost callback, or whoever else is at it, takes a step. -/
  | step (step : Step κ)
  /-- The innermost callback ends, whether it returns or fails. -/
  | finish

/-- The numbers of the registrations for a record that wait. -/
def numbersOf (waiting : List (Int × Nat)) (fat : Int) : List Nat :=
  (waiting.filter fun w => w.1 = fat).map (·.2)

/-- The account of a registration that has succeeded or failed. -/
def noteRegister (l : Ledger κ) (id : Nat) (callback : κ) : Ledger κ :=
  match outcome (register id callback) l.calls with
  | .ok _ => { l with
      registered := l.registered + 1
      waiting := l.waiting ++ [((l.calls.handle id).fat, l.registered)] }
  | .error _ => l

/-- The account of an attempt to resolve. What no longer waits afterwards was removed, and the
callback was run if the attempt has succeeded. -/
def noteResolve (l : Ledger κ) (fat : Int) : Ledger κ :=
  let left := stateAfter (resolve fat) l.calls
  let invoked := match outcome (resolve fat) l.calls with
    | .ok _ => numbersOf l.waiting fat
    | .error _ => []
  { l with
    waiting := l.waiting.filter fun w => (left.pendingAt? w.1).isSome
    removed := l.removed
      ++ (l.waiting.filter fun w => !(left.pendingAt? w.1).isSome).map (·.2)
    invoked := l.invoked ++ invoked
    running := invoked ++ l.running }

/-- The ledger after an event. -/
def after (l : Ledger κ) : Event κ → Ledger κ
  | .step (.register id callback) =>
    { l.noteRegister id callback with calls := (Step.register id callback).after l.calls }
  | .step (.resolve fat) => { l.noteResolve fat with calls := (Step.resolve fat).after l.calls }
  | .step step => { l with calls := step.after l.calls }
  | .finish => { l with running := l.running.tail }

/-- The ledger after several events, one after the other. -/
def run (l : Ledger κ) (events : List (Event κ)) : Ledger κ :=
  events.foldl after l

/-- The handle that an event names. -/
def Event.handle? : Event κ → Option Nat
  | .step (.assign id _) | .step (.result id) | .step (.consume id) | .step (.register id _) =>
    some id
  | _ => none

/-- The event names only a handle that was given out. -/
def Known (l : Ledger κ) (event : Event κ) : Prop :=
  ∀ id ∈ event.handle?, id < l.calls.handles.length

/-- Each event names only a handle that was given out by then. -/
def AllKnown (l : Ledger κ) : List (Event κ) → Prop
  | [] => True
  | event :: events => l.Known event ∧ (l.after event).AllKnown events

instance (l : Ledger κ) (event : Event κ) : Decidable (l.Known event) :=
  inferInstanceAs (Decidable (∀ id ∈ event.handle?, id < l.calls.handles.length))

instance decidableAllKnown (l : Ledger κ) : (events : List (Event κ)) →
    Decidable (l.AllKnown events)
  | [] => inferInstanceAs (Decidable True)
  | event :: events =>
    haveI := decidableAllKnown (l.after event) events
    inferInstanceAs (Decidable (l.Known event ∧ (l.after event).AllKnown events))

/-! ## Plain steps -/

/-- The step neither registers nor resolves a call. -/
def Plain : Step κ → Prop
  | .register _ _ | .resolve _ => False
  | _ => True

/-- A plain step leaves the calls that wait as they are. -/
theorem pending_plain {step : Step κ} (h : Plain step) (s : AsyncCalls κ) :
    (step.after s).pending = s.pending := by
  cases step with
  | register id callback => exact h.elim
  | resolve fat => exact h.elim
  | memory call => rfl
  | attach fat => rfl
  | create =>
    rcases create_cases s with ⟨_, m, _, hafter⟩ | hafter
    · rw [Step.after, hafter]
    · rw [Step.after, hafter]
  | assign id fat => rw [Step.after, assign_after]
  | result id => rw [Step.after, result_after]
  | consume id =>
    rcases consume_cases id s with ⟨payload, m, _, hr⟩ | ⟨e, m, _, hr⟩
    · rw [Step.after, stateAfter_ok hr]
    · rw [Step.after, stateAfter_error hr]

/-- A plain step is not noted in the ledger. -/
theorem after_plain {step : Step κ} (h : Plain step) (l : Ledger κ) :
    l.after (.step step) = { l with calls := step.after l.calls } := by
  cases step with
  | register id callback => exact h.elim
  | resolve fat => exact h.elim
  | memory _ | attach _ | create | assign _ _ | result _ | consume _ => rfl

/-! ## The account is kept -/

/-- What the ledger says is true. -/
structure Kept (l : Ledger κ) : Prop where
  /-- The registrations that wait are those of the calls that wait. -/
  waiting : l.waiting.map (·.1) = l.calls.pending.map (·.fat)
  /-- No two calls wait for one record. -/
  distinct : (l.calls.pending.map (·.fat)).Nodup
  /-- Each registration is in exactly one place. -/
  placed : (l.waiting.map (·.2) ++ l.removed).Perm (List.range l.registered)
  invoked : l.invoked.Sublist l.removed
  running : l.running.reverse.Sublist l.invoked
  /-- A call waits for the record that its handle views. -/
  views : ∀ p ∈ l.calls.pending,
    p.handle < l.calls.handles.length ∧ (l.calls.handle p.handle).fat = p.fat

theorem kept_start {calls : AsyncCalls κ} (h : calls.pending = []) :
    Kept ({ calls } : Ledger κ) where
  waiting := by simp [h]
  distinct := by simp [h]
  placed := .refl _
  invoked := .refl _
  running := .refl _
  views := by simp [h]

/-- A step that leaves the calls that wait as they are keeps the account. -/
theorem Kept.of_pending {l : Ledger κ} (h : Kept l) {calls : AsyncCalls κ}
    (hpending : calls.pending = l.calls.pending) (hkeeps : Keeps l.calls calls) :
    Kept { l with calls } where
  waiting := h.waiting.trans (by rw [hpending])
  distinct := by rw [hpending]; exact h.distinct
  placed := h.placed
  invoked := h.invoked
  running := h.running
  views := fun p hp => by
    obtain ⟨hknown, hfat⟩ := h.views p (hpending ▸ hp)
    exact ⟨Nat.lt_of_lt_of_le hknown hkeeps.length, (hkeeps.fat _ hknown).trans hfat⟩

theorem kept_register {l : Ledger κ} (h : Kept l) {id : Nat}
    (hid : id < l.calls.handles.length) (callback : κ) :
    Kept (l.after (.step (.register id callback))) := by
  rcases register_cases id callback l.calls with ⟨hnone, hr⟩ | hr
  · have hnew := pendingAt?_eq_none_iff.mp hnone
    simp only [after, noteRegister, Step.after, outcome_ok hr, stateAfter_ok hr]
    refine ⟨?_, ?_, ?_, h.invoked, h.running, ?_⟩
    · simp [h.waiting]
    · rw [List.map_append, List.nodup_append]
      refine ⟨h.distinct, List.nodup_singleton _, ?_⟩
      rintro a ha b hb rfl
      obtain ⟨p, hp, rfl⟩ := List.mem_map.mp ha
      exact hnew p hp (List.mem_singleton.mp hb)
    · -- the number that is given out is the next one
      rw [List.map_append, List.range_succ]
      have hswap : (l.waiting.map (·.2) ++ [l.registered] ++ l.removed).Perm
          (l.waiting.map (·.2) ++ l.removed ++ [l.registered]) := by
        rw [List.append_assoc, List.append_assoc]
        exact List.perm_append_comm.append_left _
      exact hswap.trans (h.placed.append_right _)
    · intro p hp
      rcases List.mem_append.mp hp with hp | hp
      · exact h.views p hp
      · rw [List.mem_singleton] at hp
        subst hp
        exact ⟨hid, rfl⟩
  · simp only [after, noteRegister, Step.after, outcome_error hr, stateAfter_error hr]
    exact h

/-- For a record there is one registration at most that waits. -/
theorem exists_numbersOf {waiting : List (Int × Nat)} {fat : Int}
    (hnodup : (waiting.map (·.1)).Nodup) (hmem : fat ∈ waiting.map (·.1)) :
    ∃ n, (fat, n) ∈ waiting ∧ numbersOf waiting fat = [n] := by
  induction waiting with
  | nil => cases hmem
  | cons w waiting ih =>
    rw [List.map_cons, List.nodup_cons] at hnodup
    by_cases hw : w.1 = fat
    · have hrest : numbersOf waiting fat = [] := by
        refine List.map_eq_nil_iff.mpr (List.filter_eq_nil_iff.mpr fun v hv hfat => hnodup.1 ?_)
        rw [hw, ← of_decide_eq_true hfat]
        exact List.mem_map_of_mem hv
      refine ⟨w.2, by rw [← hw]; exact List.mem_cons_self, ?_⟩
      unfold numbersOf at hrest ⊢
      rw [List.filter_cons_of_pos (by simpa using hw), List.map_cons, hrest]
    · have hin : fat ∈ waiting.map (·.1) := by
        rcases List.mem_cons.mp hmem with rfl | hin
        · exact absurd rfl hw
        · exact hin
      obtain ⟨n, hn, hrest⟩ := ih hnodup.2 hin
      refine ⟨n, List.mem_cons_of_mem _ hn, ?_⟩
      unfold numbersOf at hrest ⊢
      rw [List.filter_cons_of_neg (by simpa using hw), hrest]

/-- What no longer waits once the call on a record is dropped. -/
theorem Kept.pendingAt?_drop {l : Ledger κ} (h : Kept l) {calls : AsyncCalls κ} {fat : Int}
    (hpending : calls.pending = l.calls.pending.filter fun p => p.fat ≠ fat) :
    ∀ w ∈ l.waiting, (calls.pendingAt? w.1).isSome = decide (w.1 ≠ fat) := by
  intro w hw
  have hin : w.1 ∈ l.calls.pending.map (·.fat) := by
    rw [← h.waiting]; exact List.mem_map_of_mem hw
  obtain ⟨p, hp, hfat⟩ := List.mem_map.mp hin
  by_cases hne : w.1 = fat
  · have hnone : calls.pendingAt? w.1 = none := by
      refine pendingAt?_eq_none_iff.mpr fun q hq => ?_
      rw [hpending] at hq
      rw [hne]
      simpa using (List.mem_filter.mp hq).2
    rw [hnone]
    simp [hne]
  · have hkept : p ∈ calls.pending := by
      rw [hpending]
      exact List.mem_filter.mpr ⟨hp, by simpa [hfat] using hne⟩
    cases hfind : calls.pendingAt? w.1 with
    | none => exact absurd hfat (pendingAt?_eq_none_iff.mp hfind p hkept)
    | some q => simp [hne]

/-- The account of a call that is dropped, whose callback is run or not. -/
theorem Kept.drop {l : Ledger κ} (h : Kept l) {calls : AsyncCalls κ} {fat : Int} {new : List Nat}
    (hpending : calls.pending = l.calls.pending.filter fun p => p.fat ≠ fat)
    (hkeeps : Keeps l.calls calls)
    (hnew : new = [] ∨ (fat ∈ l.waiting.map (·.1) ∧ new = numbersOf l.waiting fat)) :
    Kept { calls, registered := l.registered
           waiting := l.waiting.filter fun w => w.1 ≠ fat
           removed := l.removed ++ numbersOf l.waiting fat
           invoked := l.invoked ++ new
           running := new ++ l.running } where
  waiting := by
    have hleft := congrArg (List.filter fun a => decide (a ≠ fat)) h.waiting
    rw [List.filter_map, List.filter_map] at hleft
    rw [hpending]
    exact hleft
  distinct := by
    rw [hpending]
    exact h.distinct.sublist (List.filter_sublist.map _)
  placed := by
    -- the numbers that wait fall into those for this record and those for others
    have hsplit : ((l.waiting.filter fun w => w.1 ≠ fat).map (·.2)
        ++ numbersOf l.waiting fat).Perm (l.waiting.map (·.2)) := by
      have hparts := List.filter_append_perm (fun w : Int × Nat => decide (w.1 ≠ fat)) l.waiting
      have hmap := hparts.map (·.2)
      rw [List.map_append] at hmap
      simpa [numbersOf] using hmap
    have hswap : (l.removed ++ numbersOf l.waiting fat).Perm
        (numbersOf l.waiting fat ++ l.removed) := List.perm_append_comm
    have hleft := hswap.append_left ((l.waiting.filter fun w => w.1 ≠ fat).map (·.2))
    rw [← List.append_assoc _ (numbersOf l.waiting fat)] at hleft
    exact hleft.trans ((hsplit.append_right _).trans h.placed)
  invoked := by
    rcases hnew with rfl | ⟨_, rfl⟩
    · rw [List.append_nil]
      exact h.invoked.trans (List.sublist_append_left _ _)
    · exact h.invoked.append (.refl _)
  running := by
    rcases hnew with rfl | ⟨hmem, rfl⟩
    · rw [List.append_nil]; exact h.running
    · have hnodup : (l.waiting.map (·.1)).Nodup := by rw [h.waiting]; exact h.distinct
      obtain ⟨n, _, hn⟩ := exists_numbersOf hnodup hmem
      rw [hn, List.singleton_append, List.reverse_cons]
      exact h.running.append (.refl _)
  views := fun p hp => by
    rw [hpending] at hp
    obtain ⟨hknown, hfat⟩ := h.views p (List.mem_filter.mp hp).1
    exact ⟨Nat.lt_of_lt_of_le hknown hkeeps.length, (hkeeps.fat _ hknown).trans hfat⟩

/-- An attempt to resolve after which a call no longer waits has removed it. -/
theorem after_resolve {l : Ledger κ} (h : Kept l) {fat : Int} {calls : AsyncCalls κ}
    (hcalls : stateAfter (resolve fat) l.calls = calls)
    (hpending : calls.pending = l.calls.pending.filter fun p => p.fat ≠ fat) {new : List Nat}
    (hnew : (match outcome (resolve fat) l.calls with
      | .ok _ => numbersOf l.waiting fat
      | .error _ => []) = new) :
    l.after (.step (.resolve fat)) =
      { calls, registered := l.registered
        waiting := l.waiting.filter fun w => w.1 ≠ fat
        removed := l.removed ++ numbersOf l.waiting fat
        invoked := l.invoked ++ new
        running := new ++ l.running } := by
  have hstay := h.pendingAt?_drop hpending
  have hwaiting : (l.waiting.filter fun w => (calls.pendingAt? w.1).isSome)
      = l.waiting.filter fun w => w.1 ≠ fat := List.filter_congr hstay
  have hgone : (l.waiting.filter fun w => !(calls.pendingAt? w.1).isSome)
      = l.waiting.filter fun w => w.1 = fat :=
    List.filter_congr fun w hw => by rw [hstay w hw]; simp
  simp only [after, noteResolve, Step.after, hcalls, hnew, hwaiting, hgone]
  rfl

/-- An attempt to resolve that fails at once leaves the ledger as it is. -/
theorem after_resolve_failed {l : Ledger κ} (h : Kept l) {fat : Int} {e : BoundaryError}
    (hr : resolve fat l.calls = .error e l.calls) : l.after (.step (.resolve fat)) = l := by
  have hstay : ∀ w ∈ l.waiting, (l.calls.pendingAt? w.1).isSome = true := by
    intro w hw
    have hin : w.1 ∈ l.calls.pending.map (·.fat) := by
      rw [← h.waiting]; exact List.mem_map_of_mem hw
    obtain ⟨p, hp, hfat⟩ := List.mem_map.mp hin
    cases hfind : l.calls.pendingAt? w.1 with
    | none => exact absurd hfat (pendingAt?_eq_none_iff.mp hfind p hp)
    | some q => rfl
  have hwaiting : (l.waiting.filter fun w => (l.calls.pendingAt? w.1).isSome) = l.waiting :=
    List.filter_eq_self.mpr hstay
  have hgone : (l.waiting.filter fun w => !(l.calls.pendingAt? w.1).isSome) = [] :=
    List.filter_eq_nil_iff.mpr fun w hw => by rw [hstay w hw]; decide
  simp only [after, noteResolve, Step.after, stateAfter_error hr, outcome_error hr, hwaiting, hgone,
    List.map_nil, List.append_nil, List.nil_append]

/-- The registration of a call that waits has a number that waits. -/
theorem Kept.mem_waiting {l : Ledger κ} (h : Kept l) {p : Pending κ}
    (hp : p ∈ l.calls.pending) : p.fat ∈ l.waiting.map (·.1) := by
  rw [h.waiting]; exact List.mem_map_of_mem hp

theorem kept_resolve {l : Ledger κ} (h : Kept l) (fat : Int) :
    Kept (l.after (.step (.resolve fat))) := by
  have hkeeps := keeps_step (.resolve fat) l.calls
  rcases resolve_cases fat l.calls with
    ⟨e, hr⟩ | ⟨p, hp, _, ⟨payload, m, _, hr⟩ | ⟨e, m, _, hr⟩⟩
  · rw [after_resolve_failed h hr]; exact h
  · rw [Step.after, stateAfter_ok hr] at hkeeps
    obtain ⟨hmem, rfl⟩ := mem_of_pendingAt? hp
    rw [after_resolve h (stateAfter_ok hr) rfl rfl, outcome_ok hr]
    exact h.drop rfl hkeeps (.inr ⟨h.mem_waiting hmem, rfl⟩)
  · rw [Step.after, stateAfter_error hr] at hkeeps
    rw [after_resolve h (stateAfter_error hr) rfl rfl, outcome_error hr]
    exact h.drop rfl hkeeps (.inl rfl)

/-- The registration whose callback is run when a call is resolved. -/
theorem Kept.resolved {l : Ledger κ} (h : Kept l) {fat : Int} {payload : List UInt8} {callback : κ}
    {now : AsyncCalls κ} (hr : resolve fat l.calls = .ok (payload, callback) now) :
    ∃ n, (fat, n) ∈ l.waiting
      ∧ (l.after (.step (.resolve fat))).calls = now
      ∧ (l.after (.step (.resolve fat))).invoked = l.invoked ++ [n]
      ∧ (l.after (.step (.resolve fat))).running = n :: l.running := by
  rcases resolve_cases fat l.calls with
    ⟨e, hr'⟩ | ⟨p, hp, _, ⟨bytes, m, _, hr'⟩ | ⟨e, m, _, hr'⟩⟩
  · rw [hr'] at hr; cases hr
  · obtain ⟨hmem, rfl⟩ := mem_of_pendingAt? hp
    have hfats : (l.waiting.map (·.1)).Nodup := by rw [h.waiting]; exact h.distinct
    obtain ⟨n, hn, hnumbers⟩ := exists_numbersOf hfats (h.mem_waiting hmem)
    refine ⟨n, hn, ?_⟩
    simp [after, noteResolve, Step.after, outcome_ok hr, stateAfter_ok hr, hnumbers]
  · rw [hr'] at hr; cases hr

/-- **The account is kept by every event.** -/
theorem kept_after {l : Ledger κ} (h : Kept l) {event : Event κ} (hknown : l.Known event) :
    Kept (l.after event) := by
  cases event with
  | finish =>
    refine ⟨h.waiting, h.distinct, h.placed, h.invoked, ?_, h.views⟩
    exact (List.reverse_sublist.mpr (List.tail_sublist l.running)).trans h.running
  | step step =>
    have hkeeps := keeps_step step l.calls
    cases step with
    | register id callback => exact kept_register h (hknown id rfl) callback
    | resolve fat => exact kept_resolve h fat
    | memory _ | attach _ | create | assign _ _ | result _ | consume _ =>
      refine h.of_pending (pending_plain ?_ l.calls) hkeeps
      exact trivial

theorem kept_run {l : Ledger κ} (h : Kept l) {events : List (Event κ)}
    (hknown : l.AllKnown events) : Kept (l.run events) := by
  induction events generalizing l with
  | nil => exact h
  | cons event events ih =>
    obtain ⟨hfirst, hrest⟩ := hknown
    exact ih (kept_after h hfirst) hrest

/-! ## Running a callback -/

/--
What holds when the callback of a call is run: the call waited and waits no longer,
its record in the block `b` was ready when it was resolved and named a buffer in the
block `c`, the payload is what that buffer held, and both blocks have been given back.
-/
structure Fulfilled (before now : AsyncCalls κ) (fat : Int) (payload : List UInt8)
    (callback : κ) (b c : Block) : Prop where
  waited : ∃ p ∈ before.pending, p.fat = fat ∧ p.callback = callback
  left : ∀ p ∈ now.pending, p.fat ≠ fat
  record : ∃ length, Packs fat b.start length
  ready : before.memory.wordAt b.start = readyStatus
  pointer : before.memory.wordAt (b.start + 4) = c.start
  payload : payload
    = before.memory.bytesFrom c.start (before.memory.wordAt (b.start + 8)).toNat
  live : b ∈ before.memory.live ∧ c ∈ before.memory.live ∧ b ≠ c
  released : b ∉ now.memory.live ∧ c ∉ now.memory.live
    ∧ now.memory.freed = before.memory.freed ++ [c, b]

/-- Only a call that is resolved has its callback run. -/
theorem fulfilled_of_resolve {l : Ledger κ} (h : Kept l) {fat : Int} {payload : List UInt8}
    {callback : κ} {now : AsyncCalls κ}
    (hr : resolve fat l.calls = .ok (payload, callback) now) :
    ∃ b c, Fulfilled l.calls now fat payload callback b c := by
  rcases resolve_cases fat l.calls with
    ⟨e, hr'⟩ | ⟨p, hp, _, ⟨bytes, m, hconsume, hr'⟩ | ⟨e, m, _, hr'⟩⟩
  · rw [hr'] at hr; cases hr
  · rw [hr'] at hr
    cases hr
    obtain ⟨hmem, hfat⟩ := mem_of_pendingAt? hp
    obtain ⟨b, c, hdone⟩ := Handle.of_consume hconsume
    -- the handle still views the record that it was registered for
    have hview := (h.views p hmem).2.trans hfat
    have hne : b ≠ c := fun heq => hdone.apart (by rw [heq])
    refine ⟨b, c, ⟨p, hmem, hfat, rfl⟩, ?_, ?_, hdone.ready.status, hdone.ready.pointer,
      hdone.payload, ⟨hdone.record, hdone.buffer, hne⟩, ?_⟩
    · intro q hq
      simpa using (List.mem_filter.mp hq).2
    · rw [← hview]; exact hdone.within.packs
    · rw [hdone.after]
      refine ⟨fun hb => ?_, fun hc => ?_, ?_⟩
      · exact (mem_live_giveBack.mp hb).2 rfl
      · exact (mem_live_giveBack.mp (mem_live_giveBack.mp hc).1).2 rfl
      · simp [giveBack]
  · rw [hr'] at hr; cases hr

/--
**Every registration is fulfilled at most once.**

Start with any calls among which none waits, and let anything happen, callbacks that
run within callbacks included. At any moment the registrations are as many as the
calls that wait and those that were removed, and no number is in two places. No
callback is run twice, none whose registration still waits, and the callbacks that
are running at the moment are of different registrations. When a call is resolved
and its callback run, it is as `Fulfilled` says, and the callback is that of a
registration that waited and that no callback was run for.
-/
theorem registrations_fulfilled_once {calls : AsyncCalls κ} (hempty : calls.pending = [])
    {events : List (Event κ)} (hknown : ({ calls } : Ledger κ).AllKnown events) {l : Ledger κ}
    (hl : ({ calls } : Ledger κ).run events = l) :
    l.registered = l.calls.pending.length + l.removed.length
      ∧ l.waiting.map (·.1) = l.calls.pending.map (·.fat)
      ∧ (l.waiting.map (·.2) ++ l.removed).Nodup
      ∧ l.invoked.Nodup ∧ (∀ n ∈ l.invoked, n ∈ l.removed ∧ n ∉ l.waiting.map (·.2))
      ∧ l.running.Nodup ∧ (∀ n ∈ l.running, n ∈ l.invoked)
      ∧ ∀ fat payload callback now, resolve fat l.calls = .ok (payload, callback) now →
          (∃ b c, Fulfilled l.calls now fat payload callback b c)
          ∧ ∃ n, (fat, n) ∈ l.waiting ∧ n ∉ l.invoked
            ∧ (l.after (.step (.resolve fat))).calls = now
            ∧ (l.after (.step (.resolve fat))).invoked = l.invoked ++ [n]
            ∧ (l.after (.step (.resolve fat))).running = n :: l.running
            ∧ n ∉ (l.after (.step (.resolve fat))).waiting.map (·.2) := by
  have h : Kept l := by rw [← hl]; exact kept_run (kept_start hempty) hknown
  have hlength := h.placed.length_eq
  -- every number up to the last is in one place, which gives the count and keeps them apart
  have hnodup : (l.waiting.map (·.2) ++ l.removed).Nodup :=
    h.placed.nodup_iff.mpr List.nodup_range
  have hapart := (List.nodup_append.mp hnodup).2.2
  have hinvoked := (List.nodup_append.mp hnodup).2.1.sublist h.invoked
  have hwaiting : l.waiting.length = l.calls.pending.length := by
    simpa using congrArg List.length h.waiting
  refine ⟨?_, h.waiting, hnodup, hinvoked, ?_, ?_, ?_, ?_⟩
  · simp only [List.length_append, List.length_map, List.length_range] at hlength
    omega
  · intro n hn
    have hremoved := h.invoked.subset hn
    exact ⟨hremoved, fun hw => hapart n hw n hremoved rfl⟩
  · exact List.nodup_reverse.mp (hinvoked.sublist h.running)
  · exact fun n hn => h.running.subset (List.mem_reverse.mpr hn)
  · intro fat payload callback now hr
    obtain ⟨b, c, hfulfilled⟩ := fulfilled_of_resolve h hr
    refine ⟨⟨b, c, hfulfilled⟩, ?_⟩
    obtain ⟨n, hn, hcalls, hnew, hrunning⟩ := h.resolved hr
    have hnmem : n ∈ l.waiting.map (·.2) := List.mem_map_of_mem hn
    have hkept := kept_resolve h fat
    refine ⟨n, hn, fun hold => hapart n hnmem n (h.invoked.subset hold) rfl,
      hcalls, hnew, hrunning, fun hw => ?_⟩
    have hrun : n ∈ (l.after (.step (.resolve fat))).invoked := by
      rw [hnew]
      exact List.mem_append_right _ List.mem_cons_self
    have hgone := hkept.invoked.subset hrun
    have hplaced := hkept.placed.nodup_iff.mpr List.nodup_range
    exact (List.nodup_append.mp hplaced).2.2 n hw n hgone rfl

/-- The callback of one call registers its handle again and resolves another call, whose callback
runs inside. -/
theorem registrations_fulfilled_once_nested :
    let memory : LinearMemory :=
      { byteAt := fun _ => 0, size := 0, align := 8, next := 8, live := [], freed := [] }
    let events : List (Event Unit) :=
      [.step .create, .step (.memory (.malloc 4)), .step (.assign 0 103079215108),
       .step (.register 0 ()), .step .create, .step (.memory (.malloc 4)),
       .step (.assign 1 206158430212), .step (.register 1 ()), .step (.resolve 34359738380),
       .step (.register 0 ()), .step (.resolve 137438953484)]
    let l := ({ calls := { memory } } : Ledger Unit).run events
    ({ calls := { memory } } : Ledger Unit).AllKnown events
      ∧ l.registered = 3 ∧ l.calls.pending.length = 1 ∧ l.removed.length = 2
      ∧ l.running = [1, 0] ∧ l.invoked.Nodup := by
  intro memory events l
  have hempty : ({ memory } : AsyncCalls Unit).pending = [] := rfl
  have hknown : ({ calls := { memory } } : Ledger Unit).AllKnown events := by decide +kernel
  have honce := registrations_fulfilled_once hempty hknown rfl
  exact ⟨hknown, by decide +kernel, by decide +kernel, by decide +kernel, by decide +kernel,
    honce.2.2.2.1⟩

end Ledger

end WasmBridge
