import WasmBridge.Schema.TypeDef

/-!
# Definitions shown in full

A message about a payload that no target can express shows the whole definition: the kind and, in
brackets, every part of it by name. A record takes three calls, and a list of parts one more for its
brackets.
-/

namespace WasmBridge

open Text

variable {ν : Type} [Label ν]

/-- A record by its kind and its named parts. -/
def describeRecord (kind : Text) (parts : List (Text × Text)) : Text :=
  kind ++ bracketed "(" ")" (parts.map fun (label, shown) => label ++ "=" ++ shown)

/-- Something that may be absent. -/
def describeOptional : Option ν → Text
  | some label => Label.describe label
  | none => "None"

/-- A truth value. -/
def describeBool : Bool → Text
  | true => "True"
  | false => "False"

/-- Several labels in round brackets. -/
def describeLabels (labels : List ν) : Text := tupled (labels.map Label.describe)

mutual

/-- An ident in full. -/
def TypeIdent.describe : TypeIdent → Text
  | ⟨name, args⟩ =>
    describeRecord "TypeIdent" [("name", quote name), ("generic_args", tupled (describeAll args))]

/-- Several idents in full. -/
def TypeIdent.describeAll : List TypeIdent → List Text
  | [] => []
  | a :: as => TypeIdent.describe a :: TypeIdent.describeAll as

end

/-- A field in full. -/
def Field.describe (f : Field ν) : Text :=
  describeRecord "Field" [
    ("name", Label.describe f.name), ("ty", f.type.describe), ("doc_lines", describeLabels f.doc)]

/-- A member of an enumeration: its label and its value. -/
def describeMember (kind label value : Text) : Text :=
  "<" ++ kind ++ "." ++ label ++ ": " ++ quote value ++ ">"

/-- The options of an enum in full. -/
def EnumOptions.describe (o : EnumOptions ν) : Text :=
  describeRecord "EnumOptions" [
    ("variant_casing", describeMember "Casing" o.variantCasing.label o.variantCasing.name),
    ("tag_prop_name", describeOptional o.tag), ("content_prop_name", describeOptional o.content),
    ("untagged", describeBool o.untagged)]

mutual

/-- A definition in full. -/
def TypeDef.describe : TypeDef ν → Text
  | .synonym name aliased =>
    describeRecord "Alias" [("name", Label.describe name), ("aliased", aliased.describe)]
  | .container name inner =>
    describeRecord "Container" [("name", quote name), ("inner", inner.describe)]
  | .custom name args rust typescript =>
    let ident := describeRecord "TypeIdent" [
      ("name", Label.describe name), ("generic_args", tupled (TypeIdent.describeAll args))]
    describeRecord "Custom" [
      ("ident", ident), ("rs_ty", Label.describe rust), ("ts_ty", Label.describe typescript)]
  | .enum name generics variants options doc =>
    describeRecord "Enum" [
      ("name", Label.describe name), ("generics", describeLabels generics),
      ("variants", tupled (Variant.describeAll variants)), ("options", options.describe),
      ("doc_lines", describeLabels doc)]
  | .generic name => describeRecord "GenericArgument" [("name", quote name)]
  | .list name inner => describeRecord "List" [("name", quote name), ("inner", inner.describe)]
  | .map name key value =>
    describeRecord "Map" [("name", quote name), ("key", key.describe), ("value", value.describe)]
  | .primitive kind =>
    describeRecord "PrimitiveType" [("kind", describeMember "Primitive" kind.label kind.name)]
  | .string name => describeRecord "String" [("name", quote name)]
  | .struct name generics fields doc =>
    describeRecord "Struct" [
      ("name", Label.describe name), ("generics", describeLabels generics),
      ("fields", tupled (fields.map Field.describe)), ("doc_lines", describeLabels doc)]
  | .tuple items => describeRecord "Tuple" [("items", tupled (TypeIdent.describeAll items))]
  | .unit name => describeRecord "Unit" [("name", quote name)]

/-- A variant in full. -/
def Variant.describe : Variant ν → Text
  | .mk name payload doc =>
    describeRecord "Variant" [
      ("name", Label.describe name), ("ty", payload.describe), ("doc_lines", describeLabels doc)]

/-- Several variants in full. -/
def Variant.describeAll : List (Variant ν) → List Text
  | [] => []
  | v :: vs => v.describe :: Variant.describeAll vs

end

mutual

/-- The room that it takes to show an ident in full. -/
def TypeIdent.describeRoom : TypeIdent → Nat
  | ⟨_, args⟩ => 3 + TypeIdent.describeRoomAll args

/-- The room that it takes to show a list of idents in full. -/
def TypeIdent.describeRoomAll : List TypeIdent → Nat
  | [] => 0
  | a :: as => Nat.max (1 + TypeIdent.describeRoom a) (TypeIdent.describeRoomAll as)

end

/-- The room that it takes to show a field in full. -/
def Field.describeRoom (f : Field ν) : Nat := 3 + f.type.describeRoom

mutual

/-- The room that it takes to show a definition in full. -/
def TypeDef.describeRoom : TypeDef ν → Nat
  | .synonym _ aliased => 3 + aliased.describeRoom
  | .container _ inner | .list _ inner => 3 + inner.describeRoom
  | .custom _ args _ _ => 6 + TypeIdent.describeRoomAll args
  | .enum _ _ variants _ _ => 3 + Variant.describeRoomAll variants
  | .map _ key value => 3 + Nat.max key.describeRoom value.describeRoom
  | .struct _ _ fields _ => 4 + fields.foldl (fun room f => Nat.max room f.describeRoom) 0
  | .tuple items => 3 + TypeIdent.describeRoomAll items
  | .primitive _ | .generic _ | .string _ | .unit _ => 3

/-- The room that it takes to show a variant in full. -/
def Variant.describeRoom : Variant ν → Nat
  | .mk _ payload _ => 3 + payload.describeRoom

/-- The room that it takes to show a list of variants in full. -/
def Variant.describeRoomAll : List (Variant ν) → Nat
  | [] => 0
  | v :: vs => Nat.max (1 + v.describeRoom) (Variant.describeRoomAll vs)

end

/-- A definition in full, if there is room to show it. -/
def TypeDef.describe? (type : TypeDef ν) : Option Text :=
  if type.describeRoom ≤ callRoom then some type.describe else none

end WasmBridge
