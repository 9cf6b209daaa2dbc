import WasmBridge.Bindings.Distinct
import WasmBridge.Bindings.Lines
import WasmBridge.Bindings.TypeScriptType

/-!
# Type declarations in TypeScript

The declared types as types of the serialized form: a struct by its wire keys, an enum as a union
with one member for each variant. An optional field may be left out.
-/

namespace WasmBridge.TypeScript

variable {ν : Type} [Label ν]

/-- A property of an object type. -/
structure Property where
  doc : List Text
  name : Text
  /-- The property may be left out. -/
  optional : Bool
  type : Text

/-- A property with its type. -/
def Property.text (p : Property) : Text :=
  p.name ++ (if p.optional then "?: " else ": ") ++ p.type

/-- The lines of a property. -/
def Property.lines (p : Property) : List Text :=
  let line : Text := p.text ++ ";"
  Lines.blockDoc "" p.doc ++ [line]

/-- A piece of a type: a property name or a literal that a variant puts there, or anything else. -/
inductive Token where
  | name (text : Text)
  | literal (text : Text)
  | code (text : Text)
  deriving DecidableEq

/-- The text of a piece. -/
def Token.text : Token → Text
  | name text => text
  | literal text => "\"" ++ text ++ "\""
  | code text => text

/-- What a variant carries, as a type. -/
inductive PayloadType where
  | none
  | object (properties : List Property)
  | item (type : Text)

/-- A member of the union that an enum is. -/
structure Member where
  doc : List Text
  encoding : Encoding Text
  /-- The wire key of the variant. -/
  key : Text
  payload : PayloadType

/-- Properties in a row. -/
def propertiesText (properties : List Property) : Text :=
  Text.separated "; " (properties.map (·.text))

/-- An object type. -/
def braces (inner : List Token) : List Token :=
  [.code "\x7b "] ++ inner ++ [.code " \x7d"]

/-- The tag of a variant. -/
def tagTokens (tag key : Text) : List Token := [.name tag, .code ": ", .literal key]

/-- The type of a payload that stands alone. -/
def PayloadType.tokens : PayloadType → List Token
  | none => [.code "null"]
  | object properties => braces [.code (propertiesText properties)]
  | item type => [.code type]

/-- The pieces of a member. -/
def Member.tokens (m : Member) : List Token :=
  match m.encoding, m.payload with
  | .untagged, payload => payload.tokens
  | .external, .none => [.literal m.key]
  | .external, payload => braces ([.name m.key, .code ": "] ++ payload.tokens)
  | .adjacent tag _, .none | .internal tag, .none => braces (tagTokens tag m.key)
  | .adjacent tag content, payload =>
    braces (tagTokens tag m.key ++ [.code "; ", .name content, .code ": "] ++ payload.tokens)
  | .internal tag, .object properties =>
    braces (tagTokens tag m.key ++ [.code ("; " ++ propertiesText properties)])
  | .internal tag, .item type => braces (tagTokens tag m.key) ++ [.code (" & " ++ type)]

/-- The text of a member. -/
def Member.text (m : Member) : Text := Text.concat (m.tokens.map (·.text))

/-- A type as it is declared. -/
inductive TypeDecl where
  | synonym (name type : Text)
  | struct (name : Text) (generics doc : List Text) (properties : List Property)
  | enum (name : Text) (generics doc : List Text) (members : List Member)

/-- The lines of the members of a union, of which the last ends the declaration. A union without
members is empty. -/
def memberLines : List Member → List Text
  | [] => ["never;"]
  | [m] => Lines.blockDoc "" m.doc ++ [("| " : Text) ++ m.text ++ ";"]
  | m :: rest => Lines.blockDoc "" m.doc ++ [("| " : Text) ++ m.text] ++ memberLines rest

/-- The lines of a type. -/
def TypeDecl.lines : TypeDecl → List Text
  | synonym name type => ["export type " ++ name ++ " = " ++ type ++ ";"]
  | struct name generics doc properties =>
    Lines.blockDoc "" doc ++
      Lines.block ("export type " ++ applied name generics ++ " =")
        (properties.flatMap (·.lines)) ";"
  | enum name generics doc members =>
    Lines.blockDoc "" doc ++ [("export type " : Text) ++ applied name generics ++ " ="] ++
      Lines.nested (memberLines members)

/-- The declared name. -/
def TypeDecl.name : TypeDecl → Text
  | synonym name _ | struct name .. | enum name .. => name

/-- The property of a field. Of an optional field it has the type that is there if it is present. -/
def property (types : TypeMap ν) (scope : List ν) (f : Field ν) :
    Except SchemaError Property := do
  let name := fieldName (← Label.text f.name)
  let doc := f.doc.map Label.display
  let resolved ← types.resolve f.type scope
  if resolved.isContainer then
    let type ← shownType types scope (f.type.args.headD default)
    return { doc, name, optional := true, type }
  else
    let type ← shownType types scope f.type
    return { doc, name, optional := false, type }

/-- The member of a variant. A payload has one item at most. -/
def member (target : Text) (types : TypeMap ν) (enum : ν) (generics : List ν)
    (options : EnumOptions ν) (v : Variant ν) : Except SchemaError Member := do
  let payload ← v.expressible target enum true
  let label ← Label.text v.name
  let payload ← match payload with
    | .unit => pure PayloadType.none
    | .fields fields => PayloadType.object <$> fields.mapM (property types generics)
    | .items items => PayloadType.item <$> shownType types generics (items.headD default)
  return {
    doc := v.doc.map Label.display, encoding := options.encoding.map Label.display
    key := variantWireKey label options.variantCasing, payload }

/-- The declaration of a type; some types need none. -/
def typeDecl? (target : Text) (types : TypeMap ν) (type : TypeDef ν) :
    Except SchemaError (Option TypeDecl) := do
  match type with
  | .synonym name aliased =>
    return some (.synonym (Label.display name) (← shownType types [] aliased))
  | .struct name generics fields doc =>
    let parameters ← Label.texts generics
    let properties ← fields.mapM (property types generics)
    return some
      (.struct (Label.display name) parameters (doc.map Label.display) properties)
  | .enum name generics variants options doc =>
    let parameters ← Label.texts generics
    let members ← variants.mapM (member target types name generics options)
    return some (.enum (Label.display name) parameters (doc.map Label.display) members)
  | _ => return none

/-- The declarations of all types that cross the boundary. -/
def typeDecls (target : Text) (s : BindingSource ν) : Except SchemaError (List TypeDecl) := do
  return (← (← s.declared).mapM (typeDecl? target s.types)).filterMap id

/-- The file of declarations. -/
def typesFile (decls : List TypeDecl) : Text :=
  Lines.join ([Lines.notice, Lines.blank] ++ decls.flatMap fun d => d.lines ++ [Lines.blank])

end WasmBridge.TypeScript
