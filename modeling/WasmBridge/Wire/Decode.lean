import WasmBridge.Wire.Encode

/-!
# From wire to logical values

Decoding goes down the type and the wire value together, and every step down is a call, as it is
when values are encoded. An untagged enum tries the payloads of its variants in the order of their
declaration and takes the first that fits; what does not fit is a wire error, and any other error
ends the search. A variant with one item hands the whole value on to the item's type, so enums may
follow each other without end; such a chain is too deep.
-/

namespace WasmBridge

/-- The variant whose wire key a value is. -/
def findWireVariant (room : Nat) (enum : Text) (variants : List (Variant Text)) (casing : Casing)
    (key : Value) : Except CodecError (Variant Text) :=
  match variants.find? fun variant => key.isName (variantWireKey variant.name casing) with
  | some variant => .ok variant
  | none => failWire room (.unknownVariant key enum)

/-- The first of some variants whose payload can be had. -/
def firstFit (room : Nat) (enum : Text) (payloadOf : Variant Text → Except CodecError Value) :
    List (Variant Text) → Except CodecError Value
  | [] => failWire room (.noVariant enum)
  | variant :: rest =>
    match payloadOf variant with
    | .ok payload => .ok (.variant variant.name payload)
    | .error (.wire _) => firstFit room enum payloadOf rest
    | .error e => .error e

mutual

/-- The logical value of a wire value of some type, where `room` calls are left. -/
def fromWire (types : TypeMap Text) :
    (room : Nat) → (data : Value) → (ident : TypeIdent) → Except CodecError Value
  | 0, _, _ => .error .tooDeep
  | room + 1, data, ident => do
    match ← resolveWithin types room ident with
    | .primitive p => checkPrimitive room p ident data
    | .string _ => checkText room ident data
    | .unit _ => if data.isNull then .ok .null else failWire room (.expectedNil ident data)
    | .synonym _ aliased => fromWire types room data aliased
    | .container .. =>
      if data.isNull then .ok .null else fromWire types room data (ident.args.headD default)
    | .custom .. => .ok data
    | .list .. =>
      match data with
      | .list items => itemsFromWire types room items (ident.args.headD default)
      | data => failWire room (.kind ident data)
    | .map .. =>
      match data with
      | .map entries =>
        entriesFromWire types room entries (ident.args.headD default)
          ((ident.args.drop 1).headD default)
      | data => failWire room (.kind ident data)
    | .tuple items => tupleFromWire types room data items ident
    | .struct name generics fields _ =>
      structFromWire types room data name fields (bindings generics ident)
    | .enum name generics variants options _ =>
      enumFromWire types room data ident name variants options (bindings generics ident)
    | .generic name => failWire room (.unboundParameter name)

/-- The logical value of a list whose items are of one type. -/
def itemsFromWire (types : TypeMap Text) :
    (room : Nat) → (items : List Value) → (inner : TypeIdent) → Except CodecError Value
  | 0, _, _ => .error .tooDeep
  | room + 1, items, inner => do
    return .list (← items.mapM fun item => fromWire types room item inner)

/-- The logical value of a tuple whose items are of one type each. -/
def eachFromWire (types : TypeMap Text) :
    (room : Nat) → (items : List (Value × TypeIdent)) → Except CodecError Value
  | 0, _ => .error .tooDeep
  | room + 1, items => do
    return .tuple (← items.mapM fun (item, type) => fromWire types room item type)

/-- The logical value of a map: its entries, stored one after the other. -/
def entriesFromWire (types : TypeMap Text) :
    (room : Nat) → (entries : Entries) → (key inner : TypeIdent) → Except CodecError Value
  | 0, _, _, _ => .error .tooDeep
  | room + 1, entries, key, inner => do
    let store (stored : Entries) (entry : Value × Value) : Except CodecError Entries := do
      let k ← fromWire types room entry.1 key
      let v ← fromWire types room entry.2 inner
      storeKey k v stored
    return .map (← entries.foldlM store [])

/-- The logical value of a list taken as a tuple. -/
def tupleFromWire (types : TypeMap Text) :
    (room : Nat) → (data : Value) → (idents : List TypeIdent) → (ident : TypeIdent) →
      Except CodecError Value
  | 0, _, _, _ => .error .tooDeep
  | room + 1, data, idents, ident =>
    match data with
    | .list items =>
      if items.length = idents.length then eachFromWire types room (items.zip idents)
      else failWire room (.itemCount ident idents.length items.length)
    | data => failWire room (.kind ident data)

/-- The logical value of a map taken as a struct: its fields, stored one after the other. What
stands under other keys is not looked at. -/
def structFromWire (types : TypeMap Text) :
    (room : Nat) → (data : Value) → (name : Text) → (fields : List (Field Text)) →
      (bindings : List (Text × TypeIdent)) → Except CodecError Value
  | 0, _, _, _, _ => .error .tooDeep
  | room + 1, data, name, fields, bindings =>
    match data with
    | .map entries => do
      let store (stored : Entries) (field : Field Text) : Except CodecError Entries := do
        let type := field.type.substitute bindings
        let key := fieldWireKey field.name
        match Entries.findName? entries key with
        | some item => return stored.put (.str field.name) (← fromWire types room item type)
        | none =>
          if types.isOptional type then return stored.put (.str field.name) .null
          else failWire room (.missingField name key)
      return .map (← fields.foldlM store [])
    | data => failWire room (.kind ⟨name, []⟩ data)

/-- The variant that a wire value stands for. -/
def enumFromWire (types : TypeMap Text) :
    (room : Nat) → (data : Value) → (ident : TypeIdent) → (enum : Text) →
      (variants : List (Variant Text)) → (options : EnumOptions Text) →
      (bindings : List (Text × TypeIdent)) → Except CodecError Value
  | 0, _, _, _, _, _, _ => .error .tooDeep
  | room + 1, data, ident, enum, variants, options, bindings =>
    match options.encoding with
    | .untagged =>
      firstFit room enum (fun variant => payloadFromWire types room data variant bindings) variants
    | .external =>
      match data with
      | .str key => do
        let variant ← findWireVariant room enum variants options.variantCasing (.str key)
        return .variant variant.name (← payloadFromWire types room .null variant bindings)
      | .map [(key, payload)] => do
        let variant ← findWireVariant room enum variants options.variantCasing key
        return .variant variant.name (← payloadFromWire types room payload variant bindings)
      | .map _ => failWire room (.notOneKey enum)
      | data => failWire room (.kind ident data)
    | .adjacent tag content =>
      match data with
      | .map entries =>
        match Entries.findName? entries tag with
        | none => failWire room (.missingTag tag enum)
        | some key => do
          let variant ← findWireVariant room enum variants options.variantCasing key
          let payload := (Entries.findName? entries content).getD .null
          return .variant variant.name (← payloadFromWire types room payload variant bindings)
      | data => failWire room (.kind ident data)
    | .internal tag =>
      match data with
      | .map entries =>
        match Entries.findName? entries tag with
        | none => failWire room (.missingTag tag enum)
        | some key => do
          let variant ← findWireVariant room enum variants options.variantCasing key
          if variant.payload.isUnit then return .variant variant.name .null
          else
            let payload := .map (Entries.withoutName entries tag)
            return .variant variant.name (← payloadFromWire types room payload variant bindings)
      | data => failWire room (.kind ident data)

/-- What a variant carries, from its wire value. -/
def payloadFromWire (types : TypeMap Text) :
    (room : Nat) → (data : Value) → (variant : Variant Text) →
      (bindings : List (Text × TypeIdent)) → Except CodecError Value
  | 0, _, _, _ => .error .tooDeep
  | room + 1, data, variant, bindings =>
    match variant.payload with
    | .unit _ => if data.isNull then .ok .null else failWire room (.unitPayload variant.name)
    | .struct name _ fields _ => structFromWire types room data name fields bindings
    | .tuple [item] => fromWire types room data (item.substitute bindings)
    | .tuple items =>
      tupleFromWire types room data (items.map (·.substitute bindings)) ⟨variant.name, []⟩
    | _ => failWire room (.unsupportedPayload variant.name)

end

end WasmBridge
