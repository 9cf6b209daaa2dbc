import WasmBridge.Casing
import WasmBridge.JsonText.Error
import WasmBridge.Schema.Error
import WasmBridge.TypeIdent.Parser
import WasmBridge.Value.Describe

/-!
# Interface document errors

Why a text is no interface document. Most causes have a wording of their own; the last four say only
that something of another kind stands where a text, an object or a list of names belongs, or that
the document is nested too deep.
-/

namespace WasmBridge

open Text

/-- What is wrong with a part of a document. -/
inductive DocumentFault where
  | missing (key : Text)
  /-- What is taken apart has no parts, or none by name. -/
  | shape
  | ident (cause : TypeIdentError)
  | casing (name : Text)
  deriving DecidableEq

/-- The wording of the faults. -/
def DocumentFault.message : DocumentFault → Text
  | missing key => "KeyError(" ++ quote key ++ ")"
  | shape => "TypeError(...)"
  | ident cause => "ValueError(" ++ quote cause.message ++ ")"
  | casing name => "ValueError(" ++ quote (Casing.unknownMessage name) ++ ")"

/-- Why a text is no interface document. -/
inductive LoadError where
  | json (fault : JsonText.Fault) (place : JsonText.Place)
  | notObject
  | malformed (fault : DocumentFault)
  | unknownKind (kind name : Value)
  /-- The options of an enum do not fit together. -/
  | options (enum : Value) (cause : SchemaError)
  | unknownTypes (list : Text) (names : List Value)
  | duplicateFunction (cause : SchemaError)
  | longInteger (digits : Nat)
  | notText
  | notMembers
  | notNames
  | tooDeep

/-- The wording of the causes that have one. -/
def LoadError.message? : LoadError → Option Text
  | json fault place =>
    (JsonText.JsonError.misplaced fault place).message?.map ("Invalid IR document: " ++ ·)
  | notObject => some "IR document must be a JSON object"
  | malformed fault => some ("Malformed IR document: " ++ fault.message)
  | unknownKind kind name =>
    some ("Unknown type kind " ++ kind.describe ++ " for " ++ name.display)
  | options enum cause => cause.message?.map fun why => "Enum " ++ enum.display ++ ": " ++ why
  | unknownTypes list names =>
    some ("Unknown type(s) in " ++ list ++ ": " ++ bracketed "[" "]" (Value.describeAll names))
  | duplicateFunction cause => cause.message?
  | longInteger digits => (JsonText.JsonError.longInteger digits).message?
  | notText | notMembers | notNames | tooDeep => none

end WasmBridge
