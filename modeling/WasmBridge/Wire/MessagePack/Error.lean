import WasmBridge.Text.Basic

/-!
# MessagePack errors

Why bytes are not well formed.
-/

namespace WasmBridge.MessagePack

/-- Why bytes are not well formed. -/
inductive Malformation where
  /-- A byte that begins nothing. -/
  | unusedByte
  /-- Too many arrays and maps are open. -/
  | tooDeep
  | incomplete
  | extraData
  | arrayTooLong (count limit : Nat)
  | mapTooLong (count limit : Nat)
  | invalidText
  | timestampLength (length : Nat)
  | timestampNanoseconds
  | extensionCode
  deriving DecidableEq

/-- The wording of the causes; the first two have none. -/
def Malformation.message : Malformation → Text
  | unusedByte | tooDeep => ""
  | incomplete => "Unpack failed: incomplete input"
  | extraData => "unpack(b) received extra data."
  | arrayTooLong count limit => toString count ++ " exceeds max_array_len(" ++ toString limit ++ ")"
  | mapTooLong count limit => toString count ++ " exceeds max_map_len(" ++ toString limit ++ ")"
  | invalidText => "invalid UTF-8"
  | timestampLength length => "invalid timestamp data (length " ++ toString length ++ ")"
  | timestampNanoseconds =>
    "nanoseconds must be a non-negative integer not greater than 999999999."
  | extensionCode => "code must be 0~127"

end WasmBridge.MessagePack
