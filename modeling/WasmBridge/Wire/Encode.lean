import WasmBridge.Schema.TypeMap
import WasmBridge.Wire.Error

/-!
# From logical to wire values

Structs become maps by wire keys, with absent options left out. The variants of an enum take the
form that its encoding gives them. Tuples become lists. The values of a custom type are passed on
as they are.

Encoding goes down the type and the value together, and every step down is a call: from a type to
what it stands for, to its parts all together, and to each of them. Each call leaves one less to the
calls within it. So encoding comes to an end whatever the types are, and one that would go on
through aliases for ever is too deep.
-/

namespace WasmBridge

/-- What an ident stands for, where `room` calls are left to word an error in. -/
def resolveWithin (types : TypeMap Text) (room : Nat) (ident : TypeIdent) :
    Except CodecError (TypeDef Text) :=
  match types.resolve ident with
  | .ok type => .ok type
  | .error cause => .error (if cause.messageRoom ≤ room then .schema cause else .tooDeep)

/-- The parameters of a declaration with the arguments that an ident applies it to. Of two
parameters with one name the later counts. -/
def bindings (generics : List Text) (ident : TypeIdent) : List (Text × TypeIdent) :=
  (generics.zip ident.args).reverse

/-- The nearest float. -/
def toFloat (n : Int) : Except CodecError Value :=
  match Binary64.ofInt? n with
  | some x => .ok (.float x)
  | none => .error .floatRange

/-- A value of a primitive type. Integers must fit the type and the 64 bits that MessagePack has
for them; floats may be given as integers. -/
def checkPrimitive (room : Nat) (p : Primitive) (ident : TypeIdent) (value : Value) :
    Except CodecError Value :=
  if p = .bool then
    match value with
    | .bool b => .ok (.bool b)
    | value => failWire room (.kind ident value)
  else if p.isFloat then
    match value with
    | .float x => .ok (.float x)
    | .int n => toFloat n
    | value => failWire room (.number ident value)
  else
    match value with
    | .int n =>
      if n < p.least ∨ p.greatest < n then failWire room (.outOfRange n ident)
      else if n < -0x8000000000000000 ∨ 0x10000000000000000 ≤ n then
        failWire room (.beyondIntegers n)
      else .ok (.int n)
    | value => failWire room (.number ident value)

/-- A value of the type of texts. -/
def checkText (room : Nat) (ident : TypeIdent) : Value → Except CodecError Value
  | .str s => .ok (.str s)
  | value => failWire room (.kind ident value)

/-- Entries with a key stored, if it can be one. -/
def storeKey (key value : Value) (entries : Entries) : Except CodecError Entries :=
  if key.isKey then .ok (entries.put key value) else .error .unhashableKey

/-- Every name among the keys is one of `known`. -/
def checkFields (room : Nat) (type : Text) (known : List Text) (entries : Entries) :
    Except CodecError Unit :=
  let unknown := (entries.map (·.1)).filter fun key => !known.any key.isName
  if unknown.isEmpty then .ok ()
  else
    match Value.sort? unknown with
    | some names => failWire room (.unknownFields type names)
    | none => .error .unorderedKeys

/-- What is to be stored for a field, by its wire key, and the type it has; nothing for an option
that is absent. -/
def fieldToStore (types : TypeMap Text) (room : Nat) (name : Text)
    (bindings : List (Text × TypeIdent)) (entries stored : Entries) (field : Field Text) :
    Except CodecError (Option (Text × Value × TypeIdent)) :=
  let type := field.type.substitute bindings
  let item := entries.findName? field.name
  if (item.getD .null).isNull && types.isOptional type then .ok none
  else
    match item with
    | none => failWire room (.missingField name field.name)
    | some item =>
      let key := fieldWireKey field.name
      if (stored.findName? key).isSome then failWire room (.reusedKey name field.name key)
      else .ok (some (key, item, type))

/-- The variant of a name. -/
def findVariant (room : Nat) (enum : Text) (variants : List (Variant Text)) (name : Text) :
    Except CodecError (Variant Text) :=
  match variants.find? (·.name == name) with
  | some variant => .ok variant
  | none => failWire room (.unknownVariant (.str name) enum)

/-- An encoded payload in the form that an encoding gives it. -/
def wrapVariant (room : Nat) (enum : Text) (encoding : Encoding Text) (variant : Variant Text)
    (key : Text) (payload : Value) : Except CodecError Value :=
  let isUnit := variant.payload.isUnit
  match encoding with
  | .untagged => .ok payload
  | .external => .ok (if isUnit then .str key else .map [(.str key, payload)])
  | .adjacent tag content =>
    let tagged : Entries := [(.str tag, .str key)]
    .ok (.map (if isUnit then tagged else tagged.put (.str content) payload))
  | .internal tag =>
    let tagged : Entries := [(.str tag, .str key)]
    if isUnit then .ok (.map tagged)
    else
      match payload with
      | .map entries => .ok (.map (tagged.putAll entries))
      | _ => failWire room (.payloadNotMap enum variant.name)

mutual

/-- The wire value of a logical value of some type, where `room` calls are left. -/
def toWire (types : TypeMap Text) :
    (room : Nat) → (value : Value) → (ident : TypeIdent) → Except CodecError Value
  | 0, _, _ => .error .tooDeep
  | room + 1, value, ident => do
    match ← resolveWithin types room ident with
    | .primitive p => checkPrimitive room p ident value
    | .string _ => checkText room ident value
    | .unit _ => if value.isNull then .ok .null else failWire room (.expectedNone ident value)
    | .synonym _ aliased => toWire types room value aliased
    | .container .. =>
      if value.isNull then .ok .null else toWire types room value (ident.args.headD default)
    | .custom .. => .ok value
    | .list .. =>
      match value.items? with
      | some items => itemsToWire types room items (ident.args.headD default)
      | none => failWire room (.kind ident value)
    | .map .. =>
      match value with
      | .map entries =>
        entriesToWire types room entries (ident.args.headD default)
          ((ident.args.drop 1).headD default)
      | value => failWire room (.kind ident value)
    | .tuple items => tupleToWire types room value items ident
    | .struct name generics fields _ =>
      structToWire types room value name fields (bindings generics ident)
    | .enum name generics variants options _ =>
      match value with
      | .variant variant payload =>
        enumToWire types room variant payload name variants options (bindings generics ident)
      | value => failWire room (.kind ident value)
    | .generic name => failWire room (.unboundParameter name)

/-- The wire value of a list whose items are of one type. -/
def itemsToWire (types : TypeMap Text) :
    (room : Nat) → (items : List Value) → (inner : TypeIdent) → Except CodecError Value
  | 0, _, _ => .error .tooDeep
  | room + 1, items, inner => do
    return .list (← items.mapM fun item => toWire types room item inner)

/-- The wire value of a list whose items are of one type each. -/
def eachToWire (types : TypeMap Text) :
    (room : Nat) → (items : List (Value × TypeIdent)) → Except CodecError Value
  | 0, _ => .error .tooDeep
  | room + 1, items => do
    return .list (← items.mapM fun (item, type) => toWire types room item type)

/-- The wire value of a map: its entries, stored one after the other. -/
def entriesToWire (types : TypeMap Text) :
    (room : Nat) → (entries : Entries) → (key inner : TypeIdent) → Except CodecError Value
  | 0, _, _, _ => .error .tooDeep
  | room + 1, entries, key, inner => do
    let store (stored : Entries) (entry : Value × Value) : Except CodecError Entries := do
      let k ← toWire types room entry.1 key
      let v ← toWire types room entry.2 inner
      storeKey k v stored
    return .map (← entries.foldlM store [])

/-- The wire value of a tuple. -/
def tupleToWire (types : TypeMap Text) :
    (room : Nat) → (value : Value) → (idents : List TypeIdent) → (ident : TypeIdent) →
      Except CodecError Value
  | 0, _, _, _ => .error .tooDeep
  | room + 1, value, idents, ident =>
    match value.items? with
    | some items =>
      if items.length = idents.length then eachToWire types room (items.zip idents)
      else failWire room (.itemCount ident idents.length items.length)
    | none => failWire room (.kind ident value)

/-- The wire value of a struct: its fields, stored one after the other. -/
def structToWire (types : TypeMap Text) :
    (room : Nat) → (value : Value) → (name : Text) → (fields : List (Field Text)) →
      (bindings : List (Text × TypeIdent)) → Except CodecError Value
  | 0, _, _, _, _ => .error .tooDeep
  | room + 1, value, name, fields, bindings =>
    match value with
    | .map entries => do
      checkFields room name (fields.map (·.name)) entries
      let store (stored : Entries) (field : Field Text) : Except CodecError Entries := do
        match ← fieldToStore types room name bindings entries stored field with
        | none => return stored
        | some (key, item, type) => return stored ++ [(.str key, ← toWire types room item type)]
      return .map (← fields.foldlM store [])
    | value => failWire room (.kind ⟨name, []⟩ value)

/-- The wire value of a variant of an enum. -/
def enumToWire (types : TypeMap Text) :
    (room : Nat) → (variant : Text) → (payload : Value) → (enum : Text) →
      (variants : List (Variant Text)) → (options : EnumOptions Text) →
      (bindings : List (Text × TypeIdent)) → Except CodecError Value
  | 0, _, _, _, _, _, _ => .error .tooDeep
  | room + 1, variant, payload, enum, variants, options, bindings => do
    let variant ← findVariant room enum variants variant
    let payload ← payloadToWire types room payload variant bindings
    let key := variantWireKey variant.name options.variantCasing
    wrapVariant room enum options.encoding variant key payload

/-- The wire value of what a variant carries. -/
def payloadToWire (types : TypeMap Text) :
    (room : Nat) → (payload : Value) → (variant : Variant Text) →
      (bindings : List (Text × TypeIdent)) → Except CodecError Value
  | 0, _, _, _ => .error .tooDeep
  | room + 1, payload, variant, bindings =>
    match variant.payload with
    | .unit _ => .ok .null
    | .struct name _ fields _ => structToWire types room payload name fields bindings
    | .tuple [item] => toWire types room payload (item.substitute bindings)
    | .tuple items =>
      tupleToWire types room payload (items.map (·.substitute bindings)) ⟨variant.name, []⟩
    | _ => failWire room (.unsupportedPayload variant.name)

end

end WasmBridge
