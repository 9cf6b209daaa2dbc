import WasmBridge.Memory.Error

/-!
# Fat pointers

A buffer crosses the boundary as one number of 64 bits: its offset in the high half, its length in
the low half.
-/

namespace WasmBridge.FatPtr

/-- Where the numbers of 32 bits end. -/
def halfSize : Int := 0x100000000

/-- The number for an offset and a length, both of 32 bits. -/
def pack (pointer length : Int) : Except BoundaryError Int :=
  if pointer < 0 ∨ halfSize ≤ pointer then .error (.pointerRange pointer)
  else if length < 0 ∨ halfSize ≤ length then .error (.lengthRange length)
  else .ok (pointer * halfSize + length)

/-- The offset and the length of a number of 64 bits. -/
def unpack (fat : Int) : Except BoundaryError (Int × Int) :=
  if fat < 0 ∨ halfSize * halfSize ≤ fat then .error (.fatPointerRange fat)
  else .ok (fat / halfSize, fat % halfSize)

end WasmBridge.FatPtr
