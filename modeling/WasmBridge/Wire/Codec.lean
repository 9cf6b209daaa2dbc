import WasmBridge.Wire.Decode

/-!
# The codec

Values of a schema type as bytes: the wire value, packed. Bytes that are not well formed are a wire
error of the type that was expected.
-/

namespace WasmBridge

/-- The bytes of a value. -/
def encode (format : PackFormat) (types : TypeMap Text) (value : Value) (ident : TypeIdent)
    (room : Nat := callRoom) : Except CodecError (List UInt8) := do
  let wire ← toWire types room value ident
  match format.pack wire with
  | .ok bytes => .ok bytes
  | .error cause => .error (.pack cause)

/-- The wire value of some bytes. -/
def unpackFor (format : PackFormat) (room : Nat) (ident : TypeIdent) (bytes : List UInt8) :
    Except CodecError Value :=
  match format.unpack bytes with
  | .ok wire => .ok wire
  | .error (.malformed reason) => failWire room (.malformed ident reason)
  | .error .unhashableKey => .error .unhashableKey
  | .error .other => .error .unreadable

/-- The value of some bytes. -/
def decode (format : PackFormat) (types : TypeMap Text) (bytes : List UInt8) (ident : TypeIdent)
    (room : Nat := callRoom) : Except CodecError Value := do
  fromWire types room (← unpackFor format room ident bytes) ident

end WasmBridge
