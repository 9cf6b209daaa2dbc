/-!
# Crossing the boundary

Values of primitive types cross the boundary as themselves. Any other value crosses it as a pointer
to a buffer that holds its bytes.
-/

namespace WasmBridge

/-- How a value crosses the boundary; a target names primitive types in its own way. -/
inductive Crossing (α : Type) where
  | value (type : α)
  | pointer
  deriving DecidableEq

end WasmBridge
