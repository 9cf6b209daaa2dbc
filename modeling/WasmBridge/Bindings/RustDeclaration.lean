import WasmBridge.Bindings.Distinct
import WasmBridge.Bindings.Lines
import WasmBridge.Bindings.RustType

/-!
# Type declarations in Rust

The declared types as Rust declares them, with the attributes that make their serialized form that
of the codec: a field or variant whose identifier is not its wire key is renamed, and an optional
field is left out while it is absent. Guest and host differ in what they derive only, since one
sends what the other receives.
-/

namespace WasmBridge.Rust

variable {ν : Type} [Label ν]

/-- A field as it is declared. -/
structure FieldDecl where
  doc : List Text
  name : Text
  /-- Left out when absent, and absent when left out. -/
  optional : Bool
  /-- The wire key, where it differs from the identifier. -/
  rename : Option Text
  type : Text

/-- What a variant carries, as it is declared. -/
inductive PayloadDecl where
  | unit
  | fields (fields : List FieldDecl)
  | items (types : List Text)

/-- A variant as it is declared. -/
structure VariantDecl where
  doc : List Text
  name : Text
  /-- The wire key, where it differs from the identifier. -/
  rename : Option Text
  payload : PayloadDecl

/-- Whether a type can be written and read. -/
structure Derives where
  serialize : Bool
  deserialize : Bool
  deriving DecidableEq

/-- A type as it is declared. -/
inductive TypeDecl where
  | synonym (name type : Text)
  | struct (name : Text) (generics : List Text) (derives : Derives) (doc : List Text)
      (fields : List FieldDecl)
  | enum (name : Text) (generics : List Text) (derives : Derives) (doc : List Text)
      (encoding : Encoding Text) (variants : List VariantDecl)

/-- A text in double quotes. -/
def quoted (s : Text) : Text := "\"" ++ s ++ "\""

/-- An attribute about serialization. -/
def serdeLine (items : List Text) : Text := "#[serde(" ++ Text.separated ", " items ++ ")]"

/-- The attribute that gives a name on the wire. -/
def renameItem (key : Text) : Text := "rename = " ++ quoted key

/-- An identifier without the mark of raw identifiers. -/
def plainName (name : Text) : Text :=
  match name with
  | .char 'r' :: .char '#' :: rest => rest
  | _ => name

/-- The attributes of a field. -/
def FieldDecl.attributes (f : FieldDecl) : List Text :=
  let optional (item : Text) : List Text := if f.optional then [item] else []
  optional "default" ++ (f.rename.map renameItem).toList ++
    optional ("skip_serializing_if = " ++ quoted "Option::is_none")

/-- The lines of a field. -/
def FieldDecl.lines (visibility : Text) (f : FieldDecl) : List Text :=
  Lines.rustDoc f.doc ++
    (if f.attributes.isEmpty then [] else [serdeLine f.attributes]) ++
    [visibility ++ f.name ++ ": " ++ f.type ++ ","]

/-- The lines of a variant. -/
def VariantDecl.lines (v : VariantDecl) : List Text :=
  Lines.rustDoc v.doc ++ (v.rename.map fun key => serdeLine [renameItem key]).toList ++
    match v.payload with
    | .unit => [v.name ++ ","]
    | .fields fields => Lines.block v.name (fields.flatMap (·.lines "")) ","
    | .items types => [v.name ++ Text.bracketed "(" ")" types ++ ","]

/-- The line that says what is derived. -/
def Derives.line (d : Derives) : Text :=
  let derived := ["Clone", "Debug"] ++ (if d.deserialize then ["Deserialize"] else []) ++
    ["PartialEq"] ++ if d.serialize then ["Serialize"] else []
  "#[derive" ++ Text.bracketed "(" ")" (Text.ofStrings derived) ++ "]"

/-- The attribute that says how variants are told apart. -/
def encodingLines : Encoding Text → List Text
  | .external => []
  | .adjacent tag content => [serdeLine ["tag = " ++ quoted tag, "content = " ++ quoted content]]
  | .internal tag => [serdeLine ["tag = " ++ quoted tag]]
  | .untagged => [serdeLine ["untagged"]]

/-- The lines of a type. -/
def TypeDecl.lines : TypeDecl → List Text
  | synonym name type => ["pub type " ++ name ++ " = " ++ type ++ ";"]
  | struct name generics derives doc fields =>
    Lines.rustDoc doc ++ [derives.line] ++
      Lines.block ("pub struct " ++ applied name generics) (fields.flatMap (·.lines "pub "))
  | enum name generics derives doc encoding variants =>
    Lines.rustDoc doc ++ [derives.line] ++ encodingLines encoding ++
      Lines.block ("pub enum " ++ applied name generics) (variants.flatMap (·.lines))

/-- The declaration of a field of a type with some parameters. -/
def fieldDecl (types : TypeMap ν) (scope : List ν) (f : Field ν) :
    Except SchemaError FieldDecl := do
  let label ← Label.text f.name
  let name ← fieldName label
  let resolved ← types.resolve f.type scope
  let type ← shownType types scope f.type
  let key := fieldWireKey label
  return {
    doc := f.doc.map Label.line, name, optional := resolved.isContainer
    rename := if plainName name = key then none else some key, type }

/-- The declaration of a variant. The fields of a payload can be merged with a tag, several items
cannot. -/
def variantDecl (target : Text) (types : TypeMap ν) (enum : ν) (generics : List ν)
    (options : EnumOptions ν) (v : Variant ν) : Except SchemaError VariantDecl := do
  let encoding := options.encoding.map Label.display
  let single := match encoding with
    | .internal _ => true
    | _ => false
  let payload ← v.expressible target enum single
  let label ← Label.text v.name
  let name := variantName label
  let key := variantWireKey label options.variantCasing
  let payload ← match payload with
    | .unit => pure PayloadDecl.unit
    | .fields fields => PayloadDecl.fields <$> fields.mapM (fieldDecl types generics)
    | .items items => do
      let items ← items.mapM (typeOf types generics)
      PayloadDecl.items <$> Label.texts items
  return {
    doc := v.doc.map Label.line, name
    rename := if name = key ∨ encoding = .untagged then none else some key, payload }

/-- The declaration of a type; some types need none. -/
def typeDecl? (target : Text) (types : TypeMap ν) (derives : ν → Derives) (type : TypeDef ν) :
    Except SchemaError (Option TypeDecl) := do
  match type with
  | .synonym name aliased =>
    return some (.synonym (Label.display name) (← shownType types [] aliased))
  | .struct name generics fields doc =>
    let parameters ← Label.texts generics
    let fields ← fields.mapM (fieldDecl types generics)
    return some
      (.struct (Label.display name) parameters (derives name) (doc.map Label.line) fields)
  | .enum name generics variants options doc =>
    let parameters ← Label.texts generics
    let variants ← variants.mapM (variantDecl target types name generics options)
    let encoding := options.encoding.map Label.display
    return some
      (.enum (Label.display name) parameters (derives name) (doc.map Label.line) encoding variants)
  | _ => return none

/-- The declarations of all types that cross the boundary. -/
def typeDecls (target : Text) (s : BindingSource ν) (derives : ν → Derives) :
    Except SchemaError (List TypeDecl) := do
  return (← (← s.declared).mapM (typeDecl? target s.types derives)).filterMap id

/-- The file of declarations. -/
def typesFile (decls : List TypeDecl) : Text :=
  let opening : List Text := [
    Lines.notice,
    "#![allow(unused_imports)]",
    "use serde::\x7bDeserialize, Serialize\x7d;",
    "use std::collections::\x7bBTreeMap, HashMap\x7d;",
    ""]
  Lines.join (opening ++ decls.flatMap fun d => d.lines ++ [Lines.blank])

end WasmBridge.Rust
