import WasmBridge.Bindings.Crossing
import WasmBridge.Schema.TypeMap

/-!
# Types and names in Rust

How Rust code refers to a type: in full where user code sees it, by its representation at the
boundary, where primitives cross by value and all else as a pointer to a buffer, and as raw bytes in
between. Names that Rust reserves are written as raw identifiers, as far as that is allowed.
-/

namespace WasmBridge.Rust

open Text

variable {ν : Type} [Label ν]

/-- The words that Rust reserves. -/
def keywords : List Text := Text.ofStrings [
  "as", "async", "await", "break", "const", "continue", "crate", "dyn", "else", "enum", "extern",
  "false", "fn", "for", "if", "impl", "in", "let", "loop", "match", "mod", "move", "mut", "pub",
  "ref", "return", "self", "static", "struct", "super", "trait", "true", "type", "unsafe", "use",
  "where", "while"]

/-- The words that stay reserved as raw identifiers. -/
def pathKeywords : List Text := ["crate", "self", "Self", "super"]

/-- A text as an identifier. -/
def escapeText (name : Text) : Except SchemaError Text :=
  if pathKeywords.contains name then .error (.rejected "rust" (.reservedName name))
  else if keywords.contains name then .ok ("r#" ++ name)
  else .ok name

/-- A name as an identifier; what is no text stays as it is. -/
def escape (name : ν) : Except SchemaError ν :=
  match Label.text? name with
  | some text => Label.ofText <$> escapeText text
  | none => if Label.isKey name then .ok name else .error (.label .notKey)

/-- The identifier of a struct field. -/
def fieldName (name : Text) : Except SchemaError Text := escapeText (Casing.snakeCase.format name)

/-- The identifier of an enum variant. -/
def variantName (name : Text) : Text := Casing.pascalCase.format name

/-- A name applied to arguments. -/
def applied (name : Text) (args : List Text) : Text :=
  if args.isEmpty then name else name ++ bracketed "<" ">" args

/-- A resolved type with its arguments in Rust. Some types can be applied to texts only. -/
def typeText (type : TypeDef ν) (args : List ν) : Except SchemaError ν :=
  match type with
  | .synonym name _ | .struct name .. | .enum name .. =>
    if args.isEmpty then .ok name
    else return Label.ofText (applied (Label.display name) (← Label.texts args))
  | .container .. => return Label.ofText ("Option<" ++ (← Label.displayAt args 0) ++ ">")
  | .list .. => return Label.ofText ("Vec<" ++ (← Label.displayAt args 0) ++ ">")
  | .map name .. =>
    return Label.ofText
      (name ++ bracketed "<" ">" [← Label.displayAt args 0, ← Label.displayAt args 1])
  | .custom _ _ rust _ => .ok rust
  | .generic name => .ok (Label.ofText name)
  | .primitive kind => .ok (Label.ofText kind.name)
  | .string _ => .ok (Label.ofText "String")
  | .tuple _ =>
    if args.length = 1 then .ok (Label.ofText (tupled (args.map Label.display)))
    else return Label.ofText (tupled (← Label.texts args))
  | .unit _ => .ok (Label.ofText "()")

mutual

/-- A type as user code sees it, where `room` calls are left. A step down takes two of them, and so
does finding out what an ident stands for; an error is worded three calls further down. -/
def typeWithin (types : TypeMap ν) (scope : List ν) :
    (room : Nat) → (ident : TypeIdent) → Except SchemaError ν
  | room, ⟨name, args⟩ =>
    if room < 2 then .error .tooDeep
    else do
      let type ← (types.resolve ⟨name, args⟩ scope).mapError (.within (room - 3))
      let args ← typesWithin types scope (room - 2) args
      typeText type args

/-- Several types as user code sees them, where `room` calls are left to each. -/
def typesWithin (types : TypeMap ν) (scope : List ν) :
    (room : Nat) → (idents : List TypeIdent) → Except SchemaError (List ν)
  | _, [] => .ok []
  | room, a :: as =>
    return (← typeWithin types scope room a) :: (← typesWithin types scope room as)

end

/-- A type as user code sees it. -/
def typeOf (types : TypeMap ν) (scope : List ν) (ident : TypeIdent) : Except SchemaError ν :=
  typeWithin types scope callRoom ident

/-- A type as it stands in user code. -/
def shownType (types : TypeMap ν) (scope : List ν) (ident : TypeIdent) :
    Except SchemaError Text :=
  Label.display <$> typeOf types scope ident

/-- A type whose values have been serialized, unless they are primitive. -/
def rawTypeOf (types : TypeMap ν) (ident : TypeIdent) : Except SchemaError Text := do
  if types.isPrimitive ident then shownType types [] ident
  else
    let _ ← types.resolve ident
    return "Vec<u8>"

/-- How values of a type cross the boundary; a primitive type is known there by the name in the
ident. -/
def crossingOf (types : TypeMap ν) (ident : TypeIdent) : Except SchemaError (Crossing Text) := do
  if types.isPrimitive ident then return .value ident.name
  else
    let _ ← types.resolve ident
    return .pointer

/-- The type of what crosses the boundary. -/
def crossingText : Crossing Text → Text
  | .value name => "<" ++ name ++ " as WasmAbi>::AbiType"
  | .pointer => "FatPtr"

/-- A type at the boundary. -/
def wasmTypeOf (types : TypeMap ν) (ident : TypeIdent) : Except SchemaError Text :=
  crossingText <$> crossingOf types ident

end WasmBridge.Rust
