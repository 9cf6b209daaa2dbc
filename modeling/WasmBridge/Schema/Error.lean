import WasmBridge.TypeIdent.Basic

/-!
# Schema errors

Why a schema cannot be used: an ident does not resolve, an enum asks for an impossible encoding, a
function is declared twice, a label is of no use, or a target cannot express what it is given. The
causes that belong to a target name it in front of their wording.
-/

namespace WasmBridge

open Text

/-- Why a target rejects a schema that is otherwise sound. -/
inductive Rejection where
  /-- The name stays reserved even as a raw identifier. -/
  | reservedName (name : Text)
  | importedAndExported (names : List Text)
  /-- Two members of one kind come out under the same name. -/
  | collision (kind first second rendered : Text)
  | emptyTuple (enum variant : Text)
  | positionalPayloads (enum variant : Text) (count : Nat)
  /-- The payload is neither a unit nor a struct nor a tuple. It is shown in full if there is room
  to show it. -/
  | payloadKind (enum variant : Text) (shown : Option Text)
  | reservedMethod (function method : Text)
  | sharedMethod (first second method : Text)
  | environmentArgument (function : Text)
  deriving DecidableEq

namespace Rejection

/-- The wording of the causes, if there is room for it. -/
def message? : Rejection → Option Text
  | reservedName name => some ("`" ++ name ++ "` cannot be used as an identifier")
  | importedAndExported names =>
    some ("Functions declared as both import and export: " ++ separated ", " names)
  | collision kind first second rendered =>
    some (kind ++ "s " ++ first ++ " and " ++ second ++ " both render as `" ++ rendered ++ "`")
  | emptyTuple enum variant => some ("Empty tuple payload in " ++ enum ++ "::" ++ variant)
  | positionalPayloads enum variant count =>
    some ("Variant " ++ enum ++ "::" ++ variant ++
      " must have exactly one positional payload, found " ++ toString count)
  | payloadKind enum variant shown =>
    shown.map fun shown =>
      "Unsupported type for enum variant " ++ enum ++ "::" ++ variant ++ ": " ++ shown
  | reservedMethod function method =>
    some ("Export " ++ function ++ " collides with Runtime::" ++ method)
  | sharedMethod first second method =>
    some ("Exports " ++ first ++ " and " ++ second ++ " both define Runtime::" ++ method)
  | environmentArgument function =>
    some ("Import " ++ function ++ " cannot take an argument named `env`")

end Rejection

/-- How a label that is no text is of no use. -/
inductive LabelFault where
  /-- Only a text can stand there. -/
  | notText
  /-- What can be no key can be no identifier. -/
  | notKey
  /-- Labels of different sorts have no order. -/
  | unordered
  deriving DecidableEq

/-- Why a schema cannot be used. -/
inductive SchemaError where
  | unresolved (ident : TypeIdent)
  | appliedParameter (name : Text)
  | wrongArity (ident : TypeIdent) (expected : Nat)
  | contentWithoutTag
  | untaggedWithTag
  | duplicateFunction (name : Text)
  | label (fault : LabelFault)
  /-- A type is written with an argument that is not there. -/
  | missingArgument
  | rejected (target : Text) (cause : Rejection)
  /-- There is no room to go on. -/
  | tooDeep
  deriving DecidableEq

/-- The room that the wording of a cause takes. -/
def SchemaError.messageRoom : SchemaError → Nat
  | unresolved ident | wrongArity ident _ => ident.textRoom
  | _ => 0

/-- A cause where `room` calls are left to word it in. -/
def SchemaError.within (room : Nat) (cause : SchemaError) : SchemaError :=
  if cause.messageRoom ≤ room then cause else .tooDeep

/-- The wording of the causes that have one, if there is room for it. -/
def SchemaError.message? : SchemaError → Option Text
  | unresolved ident => ident.text?.map fun shown => "Unresolved type: " ++ shown
  | appliedParameter name => some ("Generic argument " ++ name ++ " cannot take arguments")
  | wrongArity ident expected =>
    ident.text?.map fun shown =>
      "Type " ++ ident.name ++ " expects " ++ toString expected ++
        " generic argument(s), got " ++ shown
  | contentWithoutTag => some "Enum content property requires a tag property"
  | untaggedWithTag => some "Untagged enums cannot declare a tag property"
  | duplicateFunction name => some ("Duplicate function: " ++ name)
  | label _ | missingArgument | tooDeep => none
  | rejected target cause => cause.message?.map fun why => "[" ++ target ++ "] " ++ why

end WasmBridge
