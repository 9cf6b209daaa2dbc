import WasmBridge.Bindings.Crossing
import WasmBridge.Schema.TypeMap

/-!
# Types and names in TypeScript

How TypeScript code refers to a type, in full and at the boundary, and how it writes the name of a
property.
-/

namespace WasmBridge.TypeScript

open Text

variable {ν : Type} [Label ν]

/-- The type of the values of a primitive; integers of 64 bits and more need big integers. -/
def primitiveType (p : Primitive) : Text :=
  if p = .bool then "boolean"
  else if p.isWide && !p.isFloat then "bigint"
  else "number"

/-- The code point may begin an identifier. -/
def isIdentifierStart (c : Code) : Bool := c.isLetter || c = .char '_' || c = .char '$'

/-- The code point may continue an identifier. -/
def isIdentifierRest (c : Code) : Bool := c.isAlphanum || c = .char '_' || c = .char '$'

/-- The text is an identifier. -/
def isIdentifier : Text → Bool
  | [] => false
  | c :: rest => isIdentifierStart c && rest.all isIdentifierRest

/-- A property name: an identifier as it is, anything else in quotes. -/
def propertyName (key : Text) : Text :=
  if isIdentifier key then key else "\"" ++ key ++ "\""

/-- The property name of a struct field, which is its wire key. -/
def fieldName (name : Text) : Text := propertyName (fieldWireKey name)

/-- A name applied to arguments. -/
def applied (name : Text) (args : List Text) : Text :=
  if args.isEmpty then name else name ++ bracketed "<" ">" args

/-- A resolved type with its arguments in TypeScript. Some types can be applied to texts only. -/
def typeText (type : TypeDef ν) (args : List ν) : Except SchemaError ν :=
  match type with
  | .synonym name _ | .struct name .. | .enum name .. =>
    if args.isEmpty then .ok name
    else return Label.ofText (applied (Label.display name) (← Label.texts args))
  | .container .. => return Label.ofText ((← Label.displayAt args 0) ++ " | null")
  | .list .. => return Label.ofText ("Array<" ++ (← Label.displayAt args 0) ++ ">")
  | .map .. =>
    return Label.ofText
      ("Record" ++ bracketed "<" ">" [← Label.displayAt args 0, ← Label.displayAt args 1])
  | .custom _ _ _ typescript => .ok typescript
  | .generic name => .ok (Label.ofText name)
  | .primitive kind => .ok (Label.ofText (primitiveType kind))
  | .string _ => .ok (Label.ofText "string")
  | .tuple _ => return Label.ofText (bracketed "[" "]" (← Label.texts args))
  | .unit _ => .ok (Label.ofText "void")

mutual

/-- A type as user code sees it, where `room` calls are left. A step down takes two of them, and so
does finding out what an ident stands for; an error is worded three calls further down. -/
def typeWithin (types : TypeMap ν) (scope : List ν) :
    (room : Nat) → (ident : TypeIdent) → Except SchemaError ν
  | room, ⟨name, args⟩ =>
    if room < 2 then .error .tooDeep
    else do
      let type ← (types.resolve ⟨name, args⟩ scope).mapError (.within (room - 3))
      let args ← typesWithin types scope (room - 2) args
      typeText type args

/-- Several types as user code sees them, where `room` calls are left to each. -/
def typesWithin (types : TypeMap ν) (scope : List ν) :
    (room : Nat) → (idents : List TypeIdent) → Except SchemaError (List ν)
  | _, [] => .ok []
  | room, a :: as =>
    return (← typeWithin types scope room a) :: (← typesWithin types scope room as)

end

/-- A type as user code sees it. -/
def typeOf (types : TypeMap ν) (scope : List ν) (ident : TypeIdent) : Except SchemaError ν :=
  typeWithin types scope callRoom ident

/-- A type as it stands in user code. -/
def shownType (types : TypeMap ν) (scope : List ν) (ident : TypeIdent) :
    Except SchemaError Text :=
  Label.display <$> typeOf types scope ident

/-- How values of a type cross the boundary. -/
def crossingOf (types : TypeMap ν) (ident : TypeIdent) :
    Except SchemaError (Crossing Primitive) := do
  match ← types.resolve ident with
  | .primitive kind => return .value kind
  | _ => return .pointer

/-- The type of what crosses the boundary. -/
def crossingText : Crossing Primitive → Text
  | .value kind => primitiveType kind
  | .pointer => "FatPtr"

/-- A type at the boundary. -/
def wasmTypeOf (types : TypeMap ν) (ident : TypeIdent) : Except SchemaError Text :=
  crossingText <$> crossingOf types ident

end WasmBridge.TypeScript
