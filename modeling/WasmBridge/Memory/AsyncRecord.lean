import WasmBridge.Memory.Linear

/-!
# Asynchronous records

A call that is not finished at once is represented in memory by a record of three words: a status,
and the offset and the length of the result. A record is pending (status 0) until its result is
assigned, then ready (status 1), and consumed when both buffers have been given back. That last
step is noted in the handle it was made through; another handle on the same record does not know.
-/

namespace WasmBridge

/-- The number of bytes of a record. -/
def recordSize : Nat := 12

/-- The status of a record whose result is missing. -/
def pendingStatus : Int := 0

/-- The status of a record whose result is there. -/
def readyStatus : Int := 1

/-- A view of a record by its pointer. -/
structure Handle where
  fat : Int
  consumed : Bool := false
  deriving DecidableEq

namespace Handle

open LinearMemory

/-- A handle on a fresh record, which is zero. -/
def create : MemoryOp Handle := do
  let fat ← malloc recordSize
  write fat (List.replicate recordSize 0)
  return { fat }

/-- Where the record lies. -/
def offset (h : Handle) : Except BoundaryError Int := do
  let (pointer, _) ← FatPtr.unpack h.fat
  return pointer

/-- The status word of the record. -/
def status (h : Handle) (m : LinearMemory) : Except BoundaryError Int := do
  m.readWord (← h.offset)

/-- The record has a result. -/
def isReady (h : Handle) (m : LinearMemory) : Except BoundaryError Bool := do
  return (← h.status m) = readyStatus

/-- Records where the result lies, and then that it is there. -/
def assign (h : Handle) (result : Int) : MemoryOp Unit := do
  let status ← orFail (h.status (← get))
  if status ≠ pendingStatus then throw (.alreadyAssigned h.fat)
  let (pointer, length) ← orFail (FatPtr.unpack result)
  let offset ← orFail h.offset
  writeWord (offset + 4) pointer
  writeWord (offset + 8) length
  writeWord offset readyStatus

/-- The pointer to the result. -/
def result (h : Handle) (m : LinearMemory) : Except BoundaryError Int := do
  if h.consumed then .error (.alreadyConsumed h.fat)
  let status ← h.status m
  if status = pendingStatus then .error .notReady
  if status ≠ readyStatus then .error (.unexpectedStatus status)
  let offset ← h.offset
  let start ← m.wordStart (offset + 4)
  if m.size < start + 8 then .error .wordAccess
  let pointer ← m.readWord (offset + 4)
  let length ← m.readWord (offset + 8)
  FatPtr.pack pointer length

/-- The bytes of the result; both buffers are given back. -/
def consume (h : Handle) : MemoryOp (List UInt8) := do
  let m ← get
  let result ← orFail (h.result m)
  let payload ← orFail (m.read result)
  free result
  free h.fat
  return payload

end Handle

end WasmBridge
