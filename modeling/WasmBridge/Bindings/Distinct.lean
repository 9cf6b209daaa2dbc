import WasmBridge.Bindings.Source
import WasmBridge.Schema.TypeDef.Describe

/-!
# What a target can express

A target rejects an interface in which two names come out the same. Imports and exports share one
space of symbols. Fields and variants must stay apart both as identifiers and as wire keys. The
payload of a variant must be a unit, a struct or a tuple that is not empty, and some encodings allow
one item only. The names of functions, fields and variants must be texts; the first fault wins.
-/

namespace WasmBridge

variable {ν : Type} [Label ν]

/-- A target's reason to reject an interface. -/
def reject {α : Type} (target : Text) (cause : Rejection) : Except SchemaError α :=
  .error (.rejected target cause)

/-- The first label whose rendered form has been seen: the earlier label, the label and the form. -/
def firstClash (seen : List (Text × Text)) : List (Text × Text) → Option (Text × Text × Text)
  | [] => none
  | (label, rendered) :: rest =>
    match seen.lookup rendered with
    | some earlier => some (earlier, label, rendered)
    | none => firstClash ((rendered, label) :: seen) rest

/-- No two labels of a kind come out under one name. -/
def checkDistinct (target kind : Text) (entries : List (Text × Text)) : Except SchemaError Unit :=
  match firstClash [] entries with
  | some (first, second, rendered) => reject target (.collision kind first second rendered)
  | none => .ok ()

/-- Labels with the forms that their names come out in, up to the first name that is no text, and
whether all names are texts. -/
def rendered (render : Text → Text) :
    List (Text × ν) → List (Text × Text) × Except SchemaError Unit
  | [] => ([], .ok ())
  | (label, name) :: rest =>
    match Label.text name with
    | .error e => ([], .error e)
    | .ok name =>
      let (entries, result) := rendered render rest
      ((label, render name) :: entries, result)

/-- The names of some members come out distinct. -/
def checkMembers (target kind : Text) (render : Text → Text) (members : List (Text × ν)) :
    Except SchemaError Unit := do
  let (entries, result) := rendered render members
  checkDistinct target kind entries
  result

/-- A member by the name of what it belongs to. -/
def memberLabel (owner mark : Text) (name : ν) : Text := owner ++ mark ++ Label.display name

/-- The fields of a struct stay apart. -/
def checkFieldNames (target owner : Text) (fields : List (Field ν)) : Except SchemaError Unit := do
  let members := fields.map fun f => (memberLabel owner "." f.name, f.name)
  checkMembers target "Field" Casing.snakeCase.format members
  checkMembers target "Field" fieldWireKey members

/-- The variants of an enum stay apart, and the fields of each. -/
def checkVariantNames (target enum : Text) (casing : Casing) (variants : List (Variant ν)) :
    Except SchemaError Unit := do
  let members := variants.map fun v => (memberLabel enum "::" v.name, v.name)
  checkMembers target "Variant" Casing.pascalCase.format members
  checkMembers target "Variant" (variantWireKey · casing) members
  variants.forM fun v =>
    match v.payload with
    | .struct _ _ fields _ => checkFieldNames target (memberLabel enum "::" v.name) fields
    | _ => .ok ()

/-- The members of a declared type stay apart. -/
def checkMemberNames (target : Text) : TypeDef ν → Except SchemaError Unit
  | .struct name _ fields _ => checkFieldNames target (Label.display name) fields
  | .enum name _ variants options _ =>
    checkVariantNames target (Label.display name) options.variantCasing variants
  | _ => .ok ()

/-- The functions of one direction stay apart. -/
def checkFunctionNames (target : Text) (functions : FunctionList ν) : Except SchemaError Unit := do
  let names ← Label.texts functions.names
  checkDistinct target "Function" (names.map fun name => (name, Casing.camelCase.format name))

/-- All names stay apart. -/
def BindingSource.checkNames (s : BindingSource ν) (target : Text) : Except SchemaError Unit := do
  let shared := s.imports.names.filter s.exports.contains
  if !shared.isEmpty then reject target (.importedAndExported (← Label.texts shared))
  checkFunctionNames target s.imports
  checkFunctionNames target s.exports
  (← s.declared).forM (checkMemberNames target)

/-- A payload that targets can express. -/
inductive Payload (ν : Type) where
  | unit
  | fields (fields : List (Field ν))
  | items (items : List TypeIdent)

/-- The payload of a variant as a target can express it; `single` allows no more than one item. -/
def Variant.expressible (target : Text) (enum : ν) (single : Bool) (v : Variant ν) :
    Except SchemaError (Payload ν) :=
  match v.payload with
  | .unit _ => .ok .unit
  | .struct _ _ fields _ => .ok (.fields fields)
  | .tuple items =>
    if items.isEmpty then reject target (.emptyTuple (Label.display enum) (Label.display v.name))
    else if single && items.length ≠ 1 then
      reject target
        (.positionalPayloads (Label.display enum) (Label.display v.name) items.length)
    else .ok (.items items)
  | payload =>
    reject target (.payloadKind (Label.display enum) (Label.display v.name) payload.describe?)

end WasmBridge
