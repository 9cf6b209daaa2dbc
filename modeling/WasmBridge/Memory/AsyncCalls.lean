import WasmBridge.Memory.AsyncRecord

/-!
# Asynchronous calls

The calls that wait for their results. A handle is registered together with a callback; when its
record is ready the call is resolved: the registration is dropped, the record consumed, and the
callback is to be run with the payload. It is run last of all, so whatever it does happens on the
state that resolving left behind.

Handles are known by number, as several may view one record and each notes for itself that it was
consumed.
-/

namespace WasmBridge

/-- A call that waits for its result. -/
structure Pending (κ : Type) where
  fat : Int
  handle : Nat
  callback : κ

/-- Memory, handles and waiting calls with callbacks of type `κ`. -/
structure AsyncCalls (κ : Type) where
  memory : LinearMemory
  handles : List Handle := []
  pending : List (Pending κ) := []

/-- An operation on the calls; on failure too it leaves them behind. -/
abbrev CallOp (κ : Type) := EStateM BoundaryError (AsyncCalls κ)

namespace AsyncCalls

variable {κ : Type}

/-- An operation on the memory alone. -/
def onMemory {α : Type} (op : MemoryOp α) : CallOp κ α := fun s =>
  match op s.memory with
  | .ok a m => .ok a { s with memory := m }
  | .error e m => .error e { s with memory := m }

/-- A question to the memory. -/
def ask {α : Type} (question : LinearMemory → Except BoundaryError α) : CallOp κ α := fun s =>
  match question s.memory with
  | .ok a => .ok a s
  | .error e => .error e s

/-- The handle of a number; there are no others than those given out. -/
def handle (s : AsyncCalls κ) (id : Nat) : Handle := s.handles.getD id ⟨0, false⟩

/-- A handle on a record; it is given the next number. -/
def addHandle (h : Handle) : CallOp κ Nat := do
  let s ← get
  set { s with handles := s.handles ++ [h] }
  return s.handles.length

/-- A handle on a fresh record. -/
def create : CallOp κ Nat := do
  let h ← onMemory Handle.create
  addHandle h

/-- A further handle on a record. -/
def attach (fat : Int) : CallOp κ Nat := addHandle { fat }

/-- Assigns a result to the record of a handle. -/
def assign (id : Nat) (result : Int) : CallOp κ Unit := do
  let s ← get
  onMemory ((s.handle id).assign result)

/-- Consumes the record of a handle and notes it there. -/
def consume (id : Nat) : CallOp κ (List UInt8) := do
  let s ← get
  let payload ← onMemory (s.handle id).consume
  modify fun s => { s with handles := s.handles.modify id fun h => { h with consumed := true } }
  return payload

/-- The waiting call on a record. -/
def pendingAt? (s : AsyncCalls κ) (fat : Int) : Option (Pending κ) :=
  s.pending.find? fun p => p.fat = fat

/-- Registers a callback for the record of a handle. -/
def register (id : Nat) (callback : κ) : CallOp κ Unit := do
  let s ← get
  let fat := (s.handle id).fat
  if (s.pendingAt? fat).isSome then throw (.alreadyRegistered fat)
  let call : Pending κ := { fat, handle := id, callback }
  set { s with pending := s.pending ++ [call] }

/-- The payload of a waiting call whose record is ready, and the callback to run with it. -/
def resolve (fat : Int) : CallOp κ (List UInt8 × κ) := do
  let s ← get
  match s.pendingAt? fat with
  | none => throw .unknownPromise
  | some call =>
    let ready ← ask fun m => (s.handle call.handle).isReady m
    if !ready then throw .promiseNotReady
    set { s with pending := s.pending.filter fun p => p.fat ≠ fat }
    let payload ← consume call.handle
    return (payload, call.callback)

end AsyncCalls

end WasmBridge
