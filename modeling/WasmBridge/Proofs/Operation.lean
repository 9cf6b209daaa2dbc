import WasmBridge.Memory.AsyncCalls
import WasmBridge.Proofs.Outcome

/-!
# How operations run

An operation takes a state to an outcome and a state, and leaves a state behind
when it fails too. The lemmas here run the steps that operations are put
together from, so that the proofs about memory and calls never look at the monad
itself.
-/

namespace WasmBridge

variable {ε σ α β : Type}

/-- The state that an operation leaves behind, whether it succeeds or fails. -/
def stateAfter (op : EStateM ε σ α) (s : σ) : σ :=
  match op s with
  | .ok _ s' => s'
  | .error _ s' => s'

/-- The outcome of an operation without the state. -/
def outcome (op : EStateM ε σ α) (s : σ) : Except ε α :=
  match op s with
  | .ok a _ => .ok a
  | .error e _ => .error e

theorem stateAfter_ok {op : EStateM ε σ α} {s s' : σ} {a : α} (h : op s = .ok a s') :
    stateAfter op s = s' := by
  unfold stateAfter; rw [h]

theorem stateAfter_error {op : EStateM ε σ α} {s s' : σ} {e : ε} (h : op s = .error e s') :
    stateAfter op s = s' := by
  unfold stateAfter; rw [h]

theorem outcome_ok {op : EStateM ε σ α} {s s' : σ} {a : α} (h : op s = .ok a s') :
    outcome op s = .ok a := by
  unfold outcome; rw [h]

theorem outcome_error {op : EStateM ε σ α} {s s' : σ} {e : ε} (h : op s = .error e s') :
    outcome op s = .error e := by
  unfold outcome; rw [h]

/-- An operation whose outcome is a result has succeeded with it. -/
theorem eq_ok_of_outcome {op : EStateM ε σ α} {s : σ} {a : α} (h : outcome op s = .ok a) :
    op s = .ok a (stateAfter op s) := by
  cases hr : op s with
  | ok b s' =>
    rw [outcome_ok hr, Except.ok.injEq] at h
    rw [stateAfter_ok hr, h]
  | error e s' => rw [outcome_error hr] at h; cases h

namespace Operation

@[simp] theorem bind_apply (op : EStateM ε σ α) (f : α → EStateM ε σ β) (s : σ) :
    (op >>= f) s = match op s with
      | .ok a s' => f a s'
      | .error e s' => .error e s' := by
  simp only [bind, EStateM.bind]
  cases op s <;> rfl

/-- A chain leaves behind what its rest does, or what its first part does if that fails. -/
theorem stateAfter_bind (op : EStateM ε σ α) (f : α → EStateM ε σ β) (s : σ) :
    stateAfter (op >>= f) s = match op s with
      | .ok a s' => stateAfter (f a) s'
      | .error _ s' => s' := by
  simp only [stateAfter, bind_apply]
  cases op s <;> rfl

@[simp] theorem map_apply (f : α → β) (op : EStateM ε σ α) (s : σ) :
    (f <$> op) s = match op s with
      | .ok a s' => .ok (f a) s'
      | .error e s' => .error e s' := by
  simp only [Functor.map, EStateM.map]
  cases op s <;> rfl

@[simp] theorem pure_apply (a : α) (s : σ) : (pure a : EStateM ε σ α) s = .ok a s := rfl

@[simp] theorem throw_apply (e : ε) (s : σ) : (throw e : EStateM ε σ α) s = .error e s := rfl

@[simp] theorem get_apply (s : σ) : (get : EStateM ε σ σ) s = .ok s s := rfl

@[simp] theorem set_apply (s s' : σ) : (set s' : EStateM ε σ PUnit) s = .ok ⟨⟩ s' := rfl

@[simp] theorem modify_apply (f : σ → σ) (s : σ) :
    (modify f : EStateM ε σ PUnit) s = .ok ⟨⟩ (f s) := rfl

end Operation

namespace LinearMemory

@[simp] theorem orFail_ok (a : α) (m : LinearMemory) : orFail (.ok a) m = .ok a m := rfl

@[simp] theorem orFail_error (e : BoundaryError) (m : LinearMemory) :
    (orFail (.error e) : MemoryOp α) m = .error e m := rfl

theorem orFail_eq_ok_iff {r : Except BoundaryError α} {a : α} {m m' : LinearMemory} :
    orFail r m = .ok a m' ↔ r = .ok a ∧ m = m' := by
  cases r with
  | ok b => rw [orFail_ok, EStateM.Result.ok.injEq, Except.ok.injEq]
  | error e => rw [orFail_error]; exact ⟨nofun, nofun⟩

/-- What is left behind does not depend on the outcome that is given in the end. -/
theorem stateAfter_orFail {op : MemoryOp α} {r : Except BoundaryError α} {m m' : LinearMemory}
    (h : op m = orFail r m') : stateAfter op m = m' := by
  cases r with
  | ok a => exact stateAfter_ok h
  | error e => exact stateAfter_error h

end LinearMemory

end WasmBridge
