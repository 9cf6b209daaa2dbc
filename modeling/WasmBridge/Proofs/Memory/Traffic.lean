import Mathlib.Logic.Function.Basic
import WasmBridge.Proofs.Memory.Effects
import WasmBridge.Proofs.Memory.Tiling

/-!
# Calls among other users of the memory

Any number of asynchronous calls share one memory, and other parties use it
meanwhile. Each call goes through six steps: its record is created, its callback
is registered, a buffer for its payload is requested, written and assigned to the
record, and at last the call is resolved. Between any two of these steps anything
else may happen: steps of other calls, requests, writes and frees of other
parties, and attempts to resolve what cannot be resolved.

This module says what the steps are and which of them may come next. Nothing here
restricts their order but the order within each call.
-/

namespace WasmBridge

open LinearMemory FatPtr AsyncCalls

variable {κ : Type}

/-! ## Steps -/

/-- How far a call has come whose record was created. -/
inductive Stage where
  | created
  | registered
  | allocated (result : Int)
  | written (result : Int)
  | assigned (result : Int)
  deriving DecidableEq

/-- Where a call stands. -/
inductive Phase where
  | idle
  | running (handle : Nat) (stage : Stage)
  | resolved
  deriving DecidableEq

/-- The payload that a callback is run with, and the call whose callback it is. -/
abbrev Ran (κ : Type) := List UInt8 × κ

/-- The next step of a call. -/
def nextStep (payload : List UInt8) (k : κ) : Phase → CallOp κ (Option (Ran κ) × Phase)
  | .idle => do
    let handle ← create
    return (none, .running handle .created)
  | .running handle .created => do
    register handle k
    return (none, .running handle .registered)
  | .running handle .registered => do
    let result ← onMemory (malloc payload.length)
    return (none, .running handle (.allocated result))
  | .running handle (.allocated result) => do
    onMemory (write result payload)
    return (none, .running handle (.written result))
  | .running handle (.written result) => do
    assign handle result
    return (none, .running handle (.assigned result))
  | .running handle (.assigned _) => do
    let s ← get
    let ran ← resolve (s.handle handle).fat
    return (some ran, .resolved)
  | .resolved => return (none, .resolved)

/-- The calls, where each of them stands, and where the buffers of other parties start. -/
structure Traffic (κ : Type) where
  calls : AsyncCalls κ
  phase : κ → Phase := fun _ => .idle
  held : List Int := []

/-- What can happen next. -/
inductive Move (κ : Type) where
  /-- A call takes its next step. -/
  | advance (k : κ)
  /-- Another party requests a buffer. -/
  | malloc (length : Int)
  /-- Another party gives back a buffer. -/
  | free (fat : Int)
  /-- Another party writes to a buffer. -/
  | write (fat : Int) (bytes : List UInt8)
  /-- Somebody tries to resolve a call out of turn. -/
  | stray (fat : Int)

/-- An operation on the calls alone. -/
def Traffic.onCalls {α : Type} (op : CallOp κ α) : EStateM BoundaryError (Traffic κ) α := fun s =>
  match op s.calls with
  | .ok a calls => .ok a { s with calls }
  | .error e calls => .error e { s with calls }

/-- Performs a move; the callback that it runs is its outcome. -/
def Traffic.perform [DecidableEq κ] (payload : κ → List UInt8) :
    Move κ → EStateM BoundaryError (Traffic κ) (Option (Ran κ))
  | .advance k => do
    let s ← get
    let (ran, phase) ← onCalls (nextStep (payload k) k (s.phase k))
    modify fun s => { s with phase := Function.update s.phase k phase }
    return ran
  | .malloc length => do
    let fat ← onCalls (onMemory (LinearMemory.malloc length))
    modify fun s => { s with held := fat / halfSize :: s.held }
    return none
  | .free fat => do
    onCalls (onMemory (LinearMemory.free fat))
    modify fun s => { s with held := s.held.erase (fat / halfSize) }
    return none
  | .write fat bytes => do
    onCalls (onMemory (LinearMemory.write fat bytes))
    return none
  | .stray fat => do
    let ran ← onCalls (resolve fat)
    return some ran

/-! ## Runs -/

/-- A request for `length` bytes returns. -/
def Returns (length : Int) (m : LinearMemory) : Prop :=
  ∃ fat m', malloc length m = .ok fat m'

/-- The length that the next step of a call requests, if it requests something. -/
def Phase.requested (payload : List UInt8) : Phase → Option Int
  | .idle => some recordSize
  | .running _ .registered => some payload.length
  | _ => none

/--
A move that may happen: every request returns, other parties free and write their
own buffers only, and nobody but the call itself resolves a call that is
registered and assigned.
-/
def Allows (payload : κ → List UInt8) (s : Traffic κ) : Move κ → Prop
  | .advance k => ∀ length, (s.phase k).requested (payload k) = some length →
      Returns length s.calls.memory
  | .malloc length => Returns length s.calls.memory
  | .free fat => ∃ pointer length, Packs fat pointer length ∧ pointer ∈ s.held
  | .write fat _ => ∃ pointer length, Packs fat pointer length
      ∧ ∃ b ∈ s.calls.memory.live, b.start ∈ s.held ∧ b.Holds pointer
  | .stray fat => ∀ p, s.calls.pendingAt? fat = some p →
      ∀ handle result, s.phase p.callback ≠ .running handle (.assigned result)

instance (length : Int) (m : LinearMemory) : Decidable (Returns length m) :=
  match h : malloc length m with
  | .ok fat m' => .isTrue ⟨fat, m', h⟩
  | .error _ _ => .isFalse fun ⟨_, _, h'⟩ => nomatch h.symm.trans h'

instance (phase : Phase) :
    Decidable (∃ handle result, phase = .running handle (.assigned result)) :=
  match phase with
  | .running handle (.assigned result) => .isTrue ⟨handle, result, rfl⟩
  | .idle | .resolved | .running _ .created | .running _ .registered
  | .running _ (.allocated _) | .running _ (.written _) => .isFalse nofun

instance (payload : κ → List UInt8) (s : Traffic κ) (move : Move κ) :
    Decidable (Allows payload s move) :=
  match move with
  | .advance k => inferInstanceAs (Decidable (∀ length ∈ (s.phase k).requested (payload k),
      Returns length s.calls.memory))
  | .malloc length => inferInstanceAs (Decidable (Returns length s.calls.memory))
  | .free _ => decidable_of_iff _ exists_packs_iff.symm
  | .write _ _ => decidable_of_iff _ exists_packs_iff.symm
  | .stray fat => decidable_of_iff (∀ p ∈ s.calls.pendingAt? fat,
      ¬ ∃ handle result, s.phase p.callback = .running handle (.assigned result))
      (by simp [Allows])

/-- A move together with its outcome. -/
abbrev Happened (κ : Type) := Move κ × Except BoundaryError (Option (Ran κ))

/-- The runs of calls over a fresh memory, with everything that happened in order. -/
inductive Runs [DecidableEq κ] (payload : κ → List UInt8) (fresh : LinearMemory) :
    Traffic κ → List (Happened κ) → Prop
  | start : Runs payload fresh { calls := { memory := fresh } } []
  | step {s : Traffic κ} {past : List (Happened κ)} (run : Runs payload fresh s past)
      (move : Move κ) (allowed : Allows payload s move) :
      Runs payload fresh (stateAfter (Traffic.perform payload move) s)
        (past ++ [(move, outcome (Traffic.perform payload move) s)])

/-- The payload of a callback of `k` that a move has run. -/
def payloadFor? [DecidableEq κ] (k : κ) : Happened κ → Option (List UInt8)
  | (_, .ok (some (payload, j))) => if j = k then some payload else none
  | _ => none

/-- The payloads that the callback of `k` was run with. -/
def payloadsFor [DecidableEq κ] (k : κ) (past : List (Happened κ)) : List (List UInt8) :=
  past.filterMap (payloadFor? k)

theorem payloadsFor_append [DecidableEq κ] (k : κ) (past : List (Happened κ))
    (happened : Happened κ) :
    payloadsFor k (past ++ [happened])
      = payloadsFor k past ++ (payloadFor? k happened).toList := by
  unfold payloadsFor
  rw [List.filterMap_append]
  cases h : payloadFor? k happened <;> simp [h]

end WasmBridge
