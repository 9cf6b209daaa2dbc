import WasmBridge.Value

/-!
# Packing

Wire values become bytes, and bytes become wire values, in a library that is not part of this one.
The codec is given such a library and calls it; which bytes it writes, and what it says about bytes
that it cannot read, is its own affair.
-/

namespace WasmBridge

/-- Why a value cannot be packed. -/
inductive PackError where
  /-- The value is nested too deep. -/
  | tooDeep
  /-- The integer needs more than 64 bits. -/
  | integerRange
  /-- A variant has no packed form. -/
  | unpackable
  /-- A text with half of a surrogate pair has no bytes. -/
  | textWithoutBytes
  deriving DecidableEq

/-- Why bytes cannot be unpacked. -/
inductive UnpackError where
  /-- The bytes are not well formed, for the reason that is given. -/
  | malformed (reason : Text)
  /-- A list or a map stands where the key of a map should be. -/
  | unhashableKey
  | other
  deriving DecidableEq

/-- A library that packs and unpacks wire values. -/
structure PackFormat where
  pack : Value → Except PackError (List UInt8)
  unpack : List UInt8 → Except UnpackError Value

end WasmBridge
