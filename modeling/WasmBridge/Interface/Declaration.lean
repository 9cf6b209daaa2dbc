import WasmBridge.Interface.Error
import WasmBridge.Schema.Function
import WasmBridge.Schema.TypeDef

/-!
# Declarations in documents

How the members of a document's objects make up types and functions. Documents are read leniently:
where a list belongs a text stands for its characters and an object for its keys, where a truth
value belongs anything that is not empty or zero counts as true, and a label may be anything. An
ident must be a text.
-/

namespace WasmBridge

/-- The result of reading a part of a document. -/
abbrev Read := Except LoadError

namespace Document

/-- A member that must be there. -/
def member (v : Value) (key : Text) : Read Value :=
  match v with
  | .map entries =>
    match Entries.findName? entries key with
    | some v => .ok v
    | none => .error (.malformed (.missing key))
  | _ => .error (.malformed .shape)

/-- A member that may be left out. -/
def memberOr (v : Value) (key : Text) (fallback : Value) : Read Value :=
  match v with
  | .map entries => .ok ((Entries.findName? entries key).getD fallback)
  | _ => .error .notMembers

/-- An object has a member. -/
def hasMember (v : Value) (key : Text) : Bool :=
  match v with
  | .map entries => (Entries.findName? entries key).isSome
  | _ => false

/-- The items of a list, the characters of a text or the keys of an object. -/
def items? : Value → Option (List Value)
  | .list items => some items
  | .str s => some (s.map fun c => .str [c])
  | .map entries => some (entries.map (·.1))
  | _ => none

/-- The items of a member that may be left out. -/
def itemsOf (v : Value) (key : Text) : Read (List Value) := do
  match items? (← memberOr v key (.list [])) with
  | some items => return items
  | none => .error (.malformed .shape)

/-- An ident. -/
def readIdent : Value → Read TypeIdent
  | .str s =>
    (TypeIdent.parse s).mapError fun e => if e = .tooDeep then .tooDeep else .malformed (.ident e)
  | _ => .error .notText

/-- A convention by its name. -/
def readCasing : Value → Read Casing
  | .str s =>
    match Casing.ofName? s with
    | some casing => .ok casing
    | none => .error (.malformed (.casing s))
  | _ => .error .notText

/-- A field of a struct. -/
def readField (v : Value) : Read (Field Value) := do
  let name ← member v "name"
  let type ← readIdent (← member v "type")
  return { name, type, doc := ← itemsOf v "doc" }

/-- Something that may be left out; null says that it is. -/
def optional (v : Value) : Option Value := if v.isNull then none else some v

/-- The options of an enum. -/
def readOptions (enum : Value) (v : Value) : Read (EnumOptions Value) := do
  let casing ← readCasing (← memberOr v "variant_casing" (.str "original"))
  let tag ← memberOr v "tag" .null
  let content ← memberOr v "content" .null
  let untagged ← memberOr v "untagged" (.bool false)
  (EnumOptions.make casing (optional tag) (optional content) untagged.isSet).mapError
    fun e => .options enum e

/-- A variant: its payload is a struct if it has fields, else a tuple if it has items, else a
unit. -/
def readVariant (v : Value) : Read (Variant Value) := do
  let payload ←
    if hasMember v "fields" then do
      let name ← member v "name"
      pure (TypeDef.struct name [] (← (← itemsOf v "fields").mapM readField) [])
    else if hasMember v "tuple" then do
      pure (TypeDef.tuple (← (← itemsOf v "tuple").mapM readIdent))
    else pure (TypeDef.unit TypeIdent.unitName)
  let name ← member v "name"
  return .mk name payload (← itemsOf v "doc")

/-- A declared type. -/
def readType (v : Value) : Read (TypeDef Value) := do
  let kind ← member v "kind"
  let name ← member v "name"
  let doc ← itemsOf v "doc"
  let generics ← itemsOf v "generics"
  if kind.isName "struct" then
    return .struct name generics (← (← itemsOf v "fields").mapM readField) doc
  else if kind.isName "enum" then
    let options ← readOptions name (← memberOr v "options" (.map []))
    let variants ← (← itemsOf v "variants").mapM readVariant
    return .enum name generics variants options doc
  else if kind.isName "alias" then
    return .synonym name (← readIdent (← member v "type"))
  else if kind.isName "custom" then
    let rust ← member v "rs_ty"
    let typescript ← member v "ts_ty"
    return .custom name [] rust typescript
  else throw (.unknownKind kind name)

/-- A parameter of a function. -/
def readArgument (v : Value) : Read (Argument Value) := do
  let name ← member v "name"
  return { name, type := ← readIdent (← member v "type") }

/-- A function. -/
def readFunction (v : Value) : Read (Function Value) := do
  let returns ← memberOr v "return" .null
  let name ← member v "name"
  let args ← (← itemsOf v "args").mapM readArgument
  let returns ← if returns.isSet then some <$> readIdent returns else pure none
  let isAsync ← memberOr v "async" (.bool false)
  return {
    name, args, returns, isAsync := isAsync.isSet
    doc := ← itemsOf v "doc", modifiers := ← itemsOf v "modifiers" }

/-- The functions of a member, each read and added before the next. -/
def readFunctions (v : Value) (key : Text) : Read (FunctionList Value) := do
  (← itemsOf v key).foldlM (fun functions v => do
    let function ← readFunction v
    (functions.add function).mapError .duplicateFunction) FunctionList.empty

end Document

end WasmBridge
