import WasmBridge.Memory.Linear

/-!
# Passing values through memory

A value is handed over as its bytes in a fresh buffer. Whoever receives the buffer reads it once and
gives it back before looking into it.
-/

namespace WasmBridge

open LinearMemory

/-- The bytes of a value in a fresh buffer. -/
def exportValue (format : PackFormat) (types : TypeMap Text) (value : Value) (ident : TypeIdent) :
    MemoryOp Int :=
  match encode format types value ident with
  | .error e => throw (.codec e)
  | .ok payload => do
    let fat ← malloc payload.length
    write fat payload
    return fat

/-- The value in a buffer, which is given back. -/
def importValue (format : PackFormat) (types : TypeMap Text) (fat : Int) (ident : TypeIdent) :
    MemoryOp Value := do
  let payload ← orFail ((← get).read fat)
  free fat
  match decode format types payload ident with
  | .error e => throw (.codec e)
  | .ok value => return value

end WasmBridge
