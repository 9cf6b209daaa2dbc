import Mathlib.Logic.Relation
import WasmBridge.Proofs.Outcome
import WasmBridge.Wire.Decode

/-!
# Where the codec goes

The codec calls itself in two places only: at a type, and at what a variant carries.
From each place it goes on to others, with parts of the value that it has there. All
that can be said about a run of the codec by looking at one call after the other is
said here once, for both directions: which places and which parts a call goes on to.
What a call may fail with is the subject of the next module.
-/

namespace WasmBridge

/-- Where a call of the codec stands. -/
inductive Place where
  | type (ident : TypeIdent)
  /-- What a variant carries, where the parameters of its enum are bound. -/
  | payload (variant : Variant Text) (bindings : List (Text × TypeIdent))

namespace Place

/-- The places that the codec goes on to, whatever the value. -/
def inner (types : TypeMap Text) : Place → List Place
  | type ident =>
    match types.resolve ident with
    | .ok (.synonym _ aliased) => [type aliased]
    | .ok (.container ..) | .ok (.list ..) => [type (ident.args.headD default)]
    | .ok (.map ..) =>
      [type (ident.args.headD default), type ((ident.args.drop 1).headD default)]
    | .ok (.tuple items) => items.map type
    | .ok (.struct _ generics fields _) =>
      fields.map fun f => type (f.type.substitute (bindings generics ident))
    | .ok (.enum _ generics variants _ _) => variants.map (payload · (bindings generics ident))
    | _ => []
  | payload variant bs =>
    match variant.payload with
    | .struct _ _ fields _ => fields.map fun f => type (f.type.substitute bs)
    | .tuple items => items.map fun item => type (item.substitute bs)
    | _ => []

/-- From one place the codec can get to another. -/
def Reaches (types : TypeMap Text) : Place → Place → Prop :=
  Relation.ReflTransGen fun a b => b ∈ a.inner types

end Place

/-- The direction of a run. -/
inductive Direction where
  | encoding
  | decoding
  deriving DecidableEq

namespace Direction

/-- A run of the codec from a place, where `room` calls are left. -/
def run (types : TypeMap Text) : Direction → (room : Nat) → Value → Place → Except CodecError Value
  | encoding, room, v, .type ident => toWire types room v ident
  | encoding, room, v, .payload variant bs => payloadToWire types room v variant bs
  | decoding, room, v, .type ident => fromWire types room v ident
  | decoding, room, v, .payload variant bs => payloadFromWire types room v variant bs

/-- The items of a sequence; only the encoder takes anything but a list for one. -/
def items : Direction → Value → List Value
  | encoding, v => v.items?.getD []
  | decoding, v =>
    match v with
    | .list items => items
    | _ => []

/-- What a value has for a field. -/
def fieldItem? : Direction → Entries → Field Text → Option Value
  | encoding, entries, f => entries.findName? f.name
  | decoding, entries, f => entries.findName? (fieldWireKey f.name)

/-- What a value has for some fields, each with the type that it has there. -/
def fieldParts (d : Direction) (fields : List (Field Text)) (bs : List (Text × TypeIdent)) :
    Value → List (Place × Value)
  | .map entries =>
    fields.filterMap fun f =>
      (d.fieldItem? entries f).map fun item => (.type (f.type.substitute bs), item)
  | _ => []

/-- What a value has for the items of a tuple. -/
def itemParts (d : Direction) (idents : List TypeIdent) (v : Value) : List (Place × Value) :=
  ((d.items v).zip idents).map fun (item, ident) => (.type ident, item)

/-- The variants that a wire value is tried as, each with what it would carry. -/
def wireVariants (variants : List (Variant Text)) (options : EnumOptions Text) (data : Value) :
    List (Variant Text × Value) :=
  let find (key : Value) : Option (Variant Text) :=
    variants.find? fun variant => key.isName (variantWireKey variant.name options.variantCasing)
  match options.encoding, data with
  | .untagged, data => variants.map (·, data)
  | .external, .str key => (find (.str key)).toList.map (·, .null)
  | .external, .map [(key, payload)] => (find key).toList.map (·, payload)
  | .adjacent tag content, .map entries =>
    ((Entries.findName? entries tag).bind find).toList.map
      (·, (Entries.findName? entries content).getD .null)
  | .internal tag, .map entries =>
    ((Entries.findName? entries tag).bind find).toList.map
      (·, .map (Entries.withoutName entries tag))
  | _, _ => []

/-- The variants that a value is tried as, each with what it carries. -/
def variantParts : Direction → List (Variant Text) → EnumOptions Text → Value →
    List (Variant Text × Value)
  | encoding, variants, _, v =>
    match v with
    | .variant name payload => (variants.find? (·.name == name)).toList.map (·, payload)
    | _ => []
  | decoding, variants, options, data => wireVariants variants options data

/-- The parts of a value that the codec goes on to from a place, each where it goes with it. -/
def parts (types : TypeMap Text) (d : Direction) : Place → Value → List (Place × Value)
  | .type ident, v =>
    match types.resolve ident with
    | .ok (.synonym _ aliased) => [(.type aliased, v)]
    | .ok (.container ..) => if v.isNull then [] else [(.type (ident.args.headD default), v)]
    | .ok (.list ..) => (d.items v).map (.type (ident.args.headD default), ·)
    | .ok (.map ..) =>
      match v with
      | .map entries => entries.flatMap fun e =>
          [(.type (ident.args.headD default), e.1),
            (.type ((ident.args.drop 1).headD default), e.2)]
      | _ => []
    | .ok (.tuple items) => d.itemParts items v
    | .ok (.struct _ generics fields _) => d.fieldParts fields (bindings generics ident) v
    | .ok (.enum _ generics variants options _) =>
      (d.variantParts variants options v).map fun (variant, payload) =>
        (.payload variant (bindings generics ident), payload)
    | _ => []
  | .payload variant bs, v =>
    match variant.payload with
    | .struct _ _ fields _ => d.fieldParts fields bs v
    | .tuple [item] => [(.type (item.substitute bs), v)]
    | .tuple items => d.itemParts (items.map (·.substitute bs)) v
    | _ => []

end Direction

/-! ## Parts stand in places that can be reached -/

variable {types : TypeMap Text} {d : Direction} {place : Place} {v : Value} {part : Place × Value}

theorem mem_fieldParts {fields : List (Field Text)} {bs : List (Text × TypeIdent)}
    (h : part ∈ d.fieldParts fields bs v) :
    ∃ entries, v = .map entries ∧ ∃ f ∈ fields,
      d.fieldItem? entries f = some part.2 ∧ part.1 = .type (f.type.substitute bs) := by
  unfold Direction.fieldParts at h
  split at h
  · rename_i entries
    obtain ⟨f, hf, hpart⟩ := List.mem_filterMap.mp h
    obtain ⟨item, hitem, rfl⟩ := Option.map_eq_some_iff.mp hpart
    exact ⟨entries, rfl, f, hf, hitem, rfl⟩
  · cases h

theorem mem_itemParts {idents : List TypeIdent} (h : part ∈ d.itemParts idents v) :
    part.2 ∈ d.items v ∧ ∃ ident ∈ idents, part.1 = .type ident := by
  obtain ⟨⟨item, ident⟩, hmem, rfl⟩ := List.mem_map.mp h
  obtain ⟨hitem, hident⟩ := List.of_mem_zip hmem
  exact ⟨hitem, ident, hident, rfl⟩

theorem mem_of_mem_wireVariants {variants : List (Variant Text)} {options : EnumOptions Text}
    {found : Variant Text × Value} (h : found ∈ Direction.wireVariants variants options v) :
    found.1 ∈ variants := by
  unfold Direction.wireVariants at h
  dsimp only at h
  split at h
  · obtain ⟨variant, hmem, rfl⟩ := List.mem_map.mp h
    exact hmem
  · obtain ⟨variant, hfind, rfl⟩ := List.mem_map.mp h
    exact List.mem_of_find?_eq_some (Option.mem_toList.mp hfind)
  · obtain ⟨variant, hfind, rfl⟩ := List.mem_map.mp h
    exact List.mem_of_find?_eq_some (Option.mem_toList.mp hfind)
  · obtain ⟨variant, hfind, rfl⟩ := List.mem_map.mp h
    obtain ⟨_, -, hfind⟩ := Option.bind_eq_some_iff.mp (Option.mem_toList.mp hfind)
    exact List.mem_of_find?_eq_some hfind
  · obtain ⟨variant, hfind, rfl⟩ := List.mem_map.mp h
    obtain ⟨_, -, hfind⟩ := Option.bind_eq_some_iff.mp (Option.mem_toList.mp hfind)
    exact List.mem_of_find?_eq_some hfind
  · cases h

theorem mem_of_mem_variantParts {variants : List (Variant Text)} {options : EnumOptions Text}
    {found : Variant Text × Value} (h : found ∈ d.variantParts variants options v) :
    found.1 ∈ variants := by
  cases d with
  | encoding =>
    simp only [Direction.variantParts] at h
    split at h
    · obtain ⟨variant, hfind, rfl⟩ := List.mem_map.mp h
      exact List.mem_of_find?_eq_some (Option.mem_toList.mp hfind)
    · cases h
  | decoding => exact mem_of_mem_wireVariants h

/-- **Each part stands in a place that the codec goes on to.** -/
theorem place_mem_inner (h : part ∈ d.parts types place v) : part.1 ∈ place.inner types := by
  cases place with
  | type ident =>
    cases hresolve : types.resolve ident with
    | error cause => simp only [Direction.parts, hresolve] at h; cases h
    | ok type =>
      simp only [Direction.parts, hresolve] at h
      simp only [Place.inner, hresolve]
      cases type with
      | synonym name aliased => cases List.mem_singleton.mp h; exact List.mem_singleton_self _
      | container name inner =>
        dsimp only at h
        split at h
        · cases h
        · cases List.mem_singleton.mp h; exact List.mem_singleton_self _
      | list name inner =>
        obtain ⟨item, _, rfl⟩ := List.mem_map.mp h
        exact List.mem_singleton_self _
      | map name key value =>
        dsimp only at h
        split at h
        · obtain ⟨e, _, hpart⟩ := List.mem_flatMap.mp h
          rcases List.mem_pair.mp hpart with rfl | rfl <;> simp
        · cases h
      | tuple items =>
        obtain ⟨_, ident, hident, hplace⟩ := mem_itemParts h
        rw [hplace]
        exact List.mem_map_of_mem hident
      | struct name generics fields doc =>
        obtain ⟨_, _, f, hf, _, hplace⟩ := mem_fieldParts h
        rw [hplace]
        exact List.mem_map_of_mem (f := fun f : Field Text => Place.type (f.type.substitute _)) hf
      | enum name generics variants options doc =>
        obtain ⟨found, hfound, rfl⟩ := List.mem_map.mp h
        exact List.mem_map_of_mem (f := (Place.payload · _)) (mem_of_mem_variantParts hfound)
      | _ => cases h
  | payload variant bs =>
    simp only [Direction.parts] at h
    simp only [Place.inner]
    split at h
    · rename_i hpayload
      obtain ⟨_, _, f, hf, _, hplace⟩ := mem_fieldParts h
      rw [hpayload, hplace]
      exact List.mem_map_of_mem (f := fun f : Field Text => Place.type (f.type.substitute bs)) hf
    · rename_i hpayload
      cases List.mem_singleton.mp h
      rw [hpayload]
      exact List.mem_singleton_self _
    · rename_i hpayload
      obtain ⟨_, ident, hident, hplace⟩ := mem_itemParts h
      obtain ⟨item, hitem, rfl⟩ := List.mem_map.mp hident
      rw [hpayload, hplace]
      exact List.mem_map_of_mem (f := fun item : TypeIdent => Place.type (item.substitute bs)) hitem
    · cases h

end WasmBridge
