import WasmBridge.Casing
import WasmBridge.Schema.Label
import WasmBridge.Schema.Primitive

/-!
# Type definitions

What a type name can stand for. Definitions refer to each other by idents only, so a set of them
may be recursive. The payload of an enum variant is a definition of its own: a unit, a tuple or a
struct is usual, and a target may reject any other.
-/

namespace WasmBridge

/-- A member of a struct. -/
structure Field (ν : Type) where
  name : ν
  type : TypeIdent
  doc : List ν := []
  deriving DecidableEq

/-- How the variants of an enum appear in a serialized payload. -/
inductive Encoding (ν : Type) where
  /-- The name of a variant without payload, else a map from the name to the payload. -/
  | external
  /-- A map with the name under the tag and the payload under the content name. -/
  | adjacent (tag content : ν)
  /-- The payload's own map, with the name added under the tag. -/
  | internal (tag : ν)
  /-- The payload alone. -/
  | untagged
  deriving DecidableEq

/-- The name of an encoding. -/
def Encoding.name {ν : Type} : Encoding ν → Text
  | external => "external"
  | adjacent .. => "adjacent"
  | internal .. => "internal"
  | untagged => "untagged"

/-- The encoding with other labels in the place of its own. -/
def Encoding.map {ν μ : Type} (f : ν → μ) : Encoding ν → Encoding μ
  | external => .external
  | adjacent tag content => .adjacent (f tag) (f content)
  | internal tag => .internal (f tag)
  | untagged => .untagged

/-- What an enum declares about its encoding. -/
structure EnumOptions (ν : Type) where
  variantCasing : Casing := .verbatim
  tag : Option ν := none
  content : Option ν := none
  untagged : Bool := false
  deriving DecidableEq

namespace EnumOptions

variable {ν : Type} [Label ν]

/-- A property name that is given. -/
def given? (label : Option ν) : Option ν := label.filter Label.isGiven

/-- The options of an enum, provided that they fit together. -/
def make (variantCasing : Casing) (tag content : Option ν) (untagged : Bool) :
    Except SchemaError (EnumOptions ν) :=
  if (given? content).isSome && (given? tag).isNone then .error .contentWithoutTag
  else if untagged && (given? tag).isSome then .error .untaggedWithTag
  else .ok { variantCasing, tag, content, untagged }

/-- The encoding that the options select. -/
def encoding (options : EnumOptions ν) : Encoding ν :=
  if options.untagged then .untagged
  else
    match given? options.tag, given? options.content with
    | some tag, some content => .adjacent tag content
    | some tag, none => .internal tag
    | none, _ => .external

end EnumOptions

mutual

/-- What a type name stands for. -/
inductive TypeDef (ν : Type) where
  | synonym (name : ν) (aliased : TypeIdent)
  /-- An optional value of its one parameter. -/
  | container (name : Text) (inner : TypeIdent)
  /-- A type whose text is given for each language and whose values are passed on as they are. -/
  | custom (name : ν) (args : List TypeIdent) (rust typescript : ν)
  | enum (name : ν) (generics : List ν) (variants : List (Variant ν))
      (options : EnumOptions ν) (doc : List ν)
  /-- A parameter of the declaration that the ident stands in. -/
  | generic (name : Text)
  | list (name : Text) (inner : TypeIdent)
  | map (name : Text) (key value : TypeIdent)
  | primitive (kind : Primitive)
  | string (name : Text)
  | struct (name : ν) (generics : List ν) (fields : List (Field ν)) (doc : List ν)
  | tuple (items : List TypeIdent)
  | unit (name : Text)

/-- One of the cases of an enum. -/
inductive Variant (ν : Type) where
  | mk (name : ν) (payload : TypeDef ν) (doc : List ν)

end

namespace Variant

variable {ν : Type}

/-- The declared name of a variant. -/
def name : Variant ν → ν
  | mk name _ _ => name

/-- What a variant carries. -/
def payload : Variant ν → TypeDef ν
  | mk _ payload _ => payload

/-- The documentation of a variant. -/
def doc : Variant ν → List ν
  | mk _ _ doc => doc

end Variant

namespace TypeDef

variable {ν : Type}

/-- The name that a definition goes by. -/
def name [Label ν] : TypeDef ν → ν
  | synonym name _ | custom name .. | enum name .. | struct name .. => name
  | container name _ | generic name | list name _ | map name .. | string name | unit name =>
    Label.ofText name
  | primitive kind => Label.ofText kind.name
  | tuple items => Label.ofText (TypeIdent.mk TypeIdent.tupleName items).text

/-- The names of the parameters that a definition is declared with. -/
def generics [Label ν] : TypeDef ν → List ν
  | struct _ generics .. | enum _ generics .. => generics
  | container _ inner | list _ inner => [Label.ofText inner.name]
  | map _ key value => [Label.ofText key.name, Label.ofText value.name]
  | _ => []

/-- The word for a kind of definition. -/
def kind : TypeDef ν → Text
  | synonym .. => "Alias"
  | container .. => "Container"
  | custom .. => "Custom"
  | enum .. => "Enum"
  | generic .. => "GenericArgument"
  | list .. => "List"
  | map .. => "Map"
  | primitive .. => "PrimitiveType"
  | string .. => "String"
  | struct .. => "Struct"
  | tuple .. => "Tuple"
  | unit .. => "Unit"

/-- The value may be left out. -/
def isContainer : TypeDef ν → Bool
  | container .. => true
  | _ => false

/-- The type is the unit. -/
def isUnit : TypeDef ν → Bool
  | unit .. => true
  | _ => false

end TypeDef

end WasmBridge
