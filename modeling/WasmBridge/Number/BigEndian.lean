/-!
# Bytes of a number

Numbers without sign as bytes, high bytes first.
-/

namespace WasmBridge

/-- The last `width` bytes of a number, high bytes first. -/
def bigEndian : (width : Nat) → (n : Nat) → List UInt8
  | 0, _ => []
  | w + 1, n => bigEndian w (n / 256) ++ [UInt8.ofNat n]

/-- The number that bytes spell, high bytes first. -/
def bigEndianValue (bytes : List UInt8) : Nat :=
  bytes.foldl (fun n b => n * 256 + b.toNat) 0

end WasmBridge
