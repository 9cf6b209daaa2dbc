import WasmBridge.Schema.Error
import WasmBridge.Wire.Packing
import WasmBridge.Value.Describe

/-!
# Codec errors

Why a value cannot be encoded or decoded. A wire error says that a value does not fit the type it
is taken as. The other causes lie elsewhere: in the schema, in a map that cannot be built, in
numbers that are out of reach, or in types and values that are nested too deep. An error whose
wording would take more room than is left is itself an error of the last kind.
-/

namespace WasmBridge

open Text

/-- How a value fails to fit the type it is taken as. -/
inductive WireError where
  /-- The value is of another kind than the type. -/
  | kind (expected : TypeIdent) (got : Value)
  /-- The value is no number of the type. -/
  | number (expected : TypeIdent) (got : Value)
  | expectedNone (expected : TypeIdent) (got : Value)
  | expectedNil (expected : TypeIdent) (got : Value)
  | outOfRange (value : Int) (expected : TypeIdent)
  | beyondIntegers (value : Int)
  | itemCount (expected : TypeIdent) (wanted got : Nat)
  | unknownFields (type : Text) (names : List Value)
  | missingField (type field : Text)
  | reusedKey (type field key : Text)
  | unitPayload (variant : Text)
  | unsupportedPayload (variant : Text)
  | unknownVariant (name : Value) (enum : Text)
  | payloadNotMap (enum variant : Text)
  | noVariant (enum : Text)
  | notOneKey (enum : Text)
  | missingTag (tag enum : Text)
  | unboundParameter (name : Text)
  | malformed (expected : TypeIdent) (reason : Text)

/-- The wording of the causes. -/
def WireError.message : WireError → Text
  | kind expected got =>
    "Expected " ++ expected.text ++ ", got " ++ got.kind ++ ": " ++ got.describe
  | number expected got => "Expected " ++ expected.text ++ ", got " ++ got.describe
  | expectedNone expected got => "Expected None for " ++ expected.text ++ ", got " ++ got.describe
  | expectedNil expected got => "Expected nil for " ++ expected.text ++ ", got " ++ got.describe
  | outOfRange value expected => toString value ++ " out of range for " ++ expected.text
  | beyondIntegers value => toString value ++ " exceeds the MessagePack integer range"
  | itemCount expected wanted got =>
    "Expected " ++ toString wanted ++ " items for " ++ expected.text ++ ", got " ++ toString got
  | unknownFields type names =>
    "Unknown field(s) for " ++ type ++ ": " ++ bracketed "[" "]" (Value.describeAll names)
  | missingField type field => "Missing field " ++ type ++ "." ++ field
  | reusedKey type field key =>
    "Field " ++ type ++ "." ++ field ++ " reuses wire key " ++ quote key
  | unitPayload variant => "Unexpected payload for unit variant " ++ variant
  | unsupportedPayload variant => "Unsupported payload for variant " ++ variant
  | unknownVariant name enum => "Unknown variant " ++ name.describe ++ " for enum " ++ enum
  | payloadNotMap enum variant =>
    "Internally tagged variant " ++ enum ++ "::" ++ variant ++ " needs a map payload"
  | noVariant enum => "Data did not match any variant of untagged enum " ++ enum
  | notOneKey enum => "Externally tagged " ++ enum ++ " must have exactly one key"
  | missingTag tag enum => "Missing tag " ++ quote tag ++ " for enum " ++ enum
  | unboundParameter name => "Unbound generic argument: " ++ name
  | malformed expected reason =>
    "Invalid MessagePack payload for " ++ expected.text ++ ": " ++ reason

/-- The room that the wording of a cause takes. -/
def WireError.messageRoom : WireError → Nat
  | kind expected got | number expected got | expectedNone expected got
  | expectedNil expected got => 3 + Nat.max expected.textRoom got.describeRoom
  | outOfRange _ expected | itemCount expected _ _ | malformed expected _ => 3 + expected.textRoom
  | unknownFields _ names => 3 + Value.describeRoomAll names
  | unknownVariant name _ => 3 + name.describeRoom
  | _ => 0

/-- Why a value cannot be encoded or decoded. -/
inductive CodecError where
  | schema (cause : SchemaError)
  | wire (cause : WireError)
  | pack (cause : PackError)
  /-- A list or a map stands where the key of a map should be. -/
  | unhashableKey
  /-- Bytes cannot be unpacked, for another reason than that they are not well formed. -/
  | unreadable
  /-- The keys that do not belong to a struct cannot be put in order. -/
  | unorderedKeys
  /-- An integer is greater than every float. -/
  | floatRange
  /-- There is no room to go on. -/
  | tooDeep

/-- A cause that is a wire error, where `room` calls are left to word it in. -/
def failWire {α : Type} (room : Nat) (cause : WireError) : Except CodecError α :=
  .error (if cause.messageRoom ≤ room then .wire cause else .tooDeep)

end WasmBridge
