import WasmBridge.Proofs.Wire.Places

/-!
# More room

A run that is left more calls comes to the same result, or to the same error, unless it ran
out of room before. For every call is left one less than the call it is made by, and the room
that is left is looked at for nothing else than to make a call or to word an error. This is
so even where variants are tried one after the other: only a wire error makes the search go
on, and to have run out of room is none.
-/

namespace WasmBridge

open Outcome

variable {types : TypeMap Text} {room more : Nat} {v : Value} {ident : TypeIdent}

/-- Whatever is run with `room` calls comes to the same with one more, if there was room. -/
def MoreRoom (d : Direction) (types : TypeMap Text) (room : Nat) : Prop :=
  ∀ place v, CutShort .tooDeep (d.run types room v place) (d.run types (room + 1) v place)

/-- From one more call to any number of them. -/
theorem more_of_moreRoom {d : Direction} (hstep : ∀ room, MoreRoom d types room) (place : Place)
    (v : Value) (h : room ≤ more) :
    CutShort .tooDeep (d.run types room v place) (d.run types more v place) := by
  induction h with
  | refl => exact cutShort_refl _
  | step _ ih => exact ih.trans (hstep _ place v)

/-! ## Errors -/

theorem failWire_more {α : Type} (cause : WireError) :
    CutShort .tooDeep (failWire room cause : Except CodecError α) (failWire (room + 1) cause) := by
  unfold failWire
  split
  · rename_i hroom
    rw [if_pos (Nat.le_succ_of_le hroom)]
    exact cutShort_refl _
  · exact cutShort_error _

theorem resolveWithin_more :
    CutShort .tooDeep (resolveWithin types room ident) (resolveWithin types (room + 1) ident) := by
  unfold resolveWithin
  cases types.resolve ident with
  | ok type => exact cutShort_refl _
  | error cause =>
    dsimp only
    split
    · rename_i hroom
      rw [if_pos (Nat.le_succ_of_le hroom)]
      exact cutShort_refl _
    · exact cutShort_error _

theorem checkText_more :
    CutShort .tooDeep (checkText room ident v) (checkText (room + 1) ident v) := by
  cases v with
  | str s => exact cutShort_refl _
  | _ => exact failWire_more _

theorem checkPrimitive_more {p : Primitive} :
    CutShort .tooDeep (checkPrimitive room p ident v) (checkPrimitive (room + 1) p ident v) := by
  unfold checkPrimitive
  refine cutShort_ite ?_ (cutShort_ite ?_ ?_)
  · cases v with
    | bool b => exact cutShort_refl _
    | _ => exact failWire_more _
  · cases v with
    | float x => exact cutShort_refl _
    | int n => exact cutShort_refl _
    | _ => exact failWire_more _
  · cases v with
    | int n =>
      exact cutShort_ite (failWire_more _) (cutShort_ite (failWire_more _) (cutShort_refl _))
    | _ => exact failWire_more _

/-! ## Parts -/

section Parts

variable {bs : List (Text × TypeIdent)} {enum : Text} {variants : List (Variant Text)}
  {options : EnumOptions Text}

theorem items_more (ih : ∀ r < room, MoreRoom .decoding types r) {items : List Value}
    {inner : TypeIdent} :
    CutShort .tooDeep (itemsFromWire types room items inner)
      (itemsFromWire types (room + 1) items inner) := by
  cases room with
  | zero => exact cutShort_error _
  | succ room =>
    unfold itemsFromWire
    have hitems : CutShort .tooDeep (items.mapM fun item => fromWire types room item inner)
        (items.mapM fun item => fromWire types (room + 1) item inner) :=
      cutShort_mapM fun item => ih room (Nat.lt_succ_self _) (.type inner) item
    exact hitems.bind fun _ => cutShort_refl _

theorem each_more (ih : ∀ r < room, MoreRoom .decoding types r)
    {items : List (Value × TypeIdent)} :
    CutShort .tooDeep (eachFromWire types room items) (eachFromWire types (room + 1) items) := by
  cases room with
  | zero => exact cutShort_error _
  | succ room =>
    unfold eachFromWire
    have hitems : CutShort .tooDeep (items.mapM fun x => fromWire types room x.1 x.2)
        (items.mapM fun x => fromWire types (room + 1) x.1 x.2) :=
      cutShort_mapM fun x => ih room (Nat.lt_succ_self _) (.type x.2) x.1
    exact hitems.bind fun _ => cutShort_refl _

theorem entries_more (ih : ∀ r < room, MoreRoom .decoding types r) {entries : Entries}
    {key inner : TypeIdent} :
    CutShort .tooDeep (entriesFromWire types room entries key inner)
      (entriesFromWire types (room + 1) entries key inner) := by
  cases room with
  | zero => exact cutShort_error _
  | succ room =>
    have ih := ih room (Nat.lt_succ_self _)
    unfold entriesFromWire
    refine CutShort.bind (cutShort_foldlM fun stored e => ?_) fun _ => cutShort_refl _
    exact (ih (.type key) e.1).bind fun k => (ih (.type inner) e.2).bind fun c => cutShort_refl _

theorem tuple_more (ih : ∀ r < room, MoreRoom .decoding types r) {idents : List TypeIdent} :
    CutShort .tooDeep (tupleFromWire types room v idents ident)
      (tupleFromWire types (room + 1) v idents ident) := by
  cases room with
  | zero => exact cutShort_error _
  | succ room =>
    unfold tupleFromWire
    cases v with
    | list items =>
      exact cutShort_ite (each_more fun r hr => ih r (Nat.lt_succ_of_lt hr)) (failWire_more _)
    | _ => exact failWire_more _

theorem struct_more (ih : ∀ r < room, MoreRoom .decoding types r) {name : Text}
    {fields : List (Field Text)} :
    CutShort .tooDeep (structFromWire types room v name fields bs)
      (structFromWire types (room + 1) v name fields bs) := by
  cases room with
  | zero => exact cutShort_error _
  | succ room =>
    unfold structFromWire
    cases v with
    | map entries =>
      refine CutShort.bind (cutShort_foldlM fun stored field => ?_) fun _ => cutShort_refl _
      dsimp only
      cases Entries.findName? entries (fieldWireKey field.name) with
      | some item =>
        have hitem := ih room (Nat.lt_succ_self _) (.type (field.type.substitute bs)) item
        exact hitem.bind fun _ => cutShort_refl _
      | none => exact cutShort_ite (cutShort_refl _) (failWire_more _)
    | _ => exact failWire_more _

/-! ## Enums -/

theorem findWireVariant_more {casing : Casing} {key : Value} :
    CutShort .tooDeep (findWireVariant room enum variants casing key)
      (findWireVariant (room + 1) enum variants casing key) := by
  unfold findWireVariant
  cases variants.find? fun variant => key.isName (variantWireKey variant.name casing) with
  | some variant => exact cutShort_refl _
  | none => exact failWire_more _

/-- A search that goes on after a wire error goes on after the same one with more room. -/
theorem firstFit_more {f g : Variant Text → Except CodecError Value}
    (h : ∀ variant, CutShort .tooDeep (f variant) (g variant)) :
    CutShort .tooDeep (firstFit room enum f variants) (firstFit (room + 1) enum g variants) := by
  induction variants with
  | nil => exact failWire_more _
  | cons variant rest ih =>
    unfold firstFit
    obtain hshort | heq := h variant
    · rw [hshort]
      exact cutShort_error _
    · rw [← heq]
      cases f variant with
      | ok payload => exact cutShort_refl _
      | error e =>
        cases e with
        | wire cause => exact ih
        | _ => exact cutShort_refl _

theorem enum_more (ih : ∀ r < room, MoreRoom .decoding types r) :
    CutShort .tooDeep (enumFromWire types room v ident enum variants options bs)
      (enumFromWire types (room + 1) v ident enum variants options bs) := by
  cases room with
  | zero => exact cutShort_error _
  | succ room =>
    have hpayload : ∀ payload variant, CutShort .tooDeep
        (payloadFromWire types room payload variant bs)
        (payloadFromWire types (room + 1) payload variant bs) :=
      fun payload variant => ih room (Nat.lt_succ_self _) (.payload variant bs) payload
    -- once the variant is found, what it carries is decoded
    have hfound : ∀ key payload, CutShort .tooDeep
        (do
          let variant ← findWireVariant room enum variants options.variantCasing key
          return Value.variant variant.name (← payloadFromWire types room payload variant bs))
        (do
          let variant ← findWireVariant (room + 1) enum variants options.variantCasing key
          return Value.variant variant.name
            (← payloadFromWire types (room + 1) payload variant bs)) :=
      fun key payload => findWireVariant_more.bind fun variant =>
        (hpayload payload variant).bind fun _ => cutShort_refl _
    unfold enumFromWire
    cases options.encoding with
    | untagged => exact firstFit_more fun variant => hpayload v variant
    | external =>
      cases v with
      | str key => exact hfound _ _
      | map entries =>
        match entries with
        | [] => exact failWire_more _
        | [(key, payload)] => exact hfound _ _
        | _ :: _ :: _ => exact failWire_more _
      | _ => exact failWire_more _
    | adjacent tag content =>
      cases v with
      | map entries =>
        dsimp only
        cases Entries.findName? entries tag with
        | none => exact failWire_more _
        | some key => exact hfound _ _
      | _ => exact failWire_more _
    | internal tag =>
      cases v with
      | map entries =>
        dsimp only
        cases Entries.findName? entries tag with
        | none => exact failWire_more _
        | some key =>
          exact findWireVariant_more.bind fun variant =>
            cutShort_ite (cutShort_refl _) ((hpayload _ _).bind fun _ => cutShort_refl _)
      | _ => exact failWire_more _

end Parts

/-! ## Runs -/

theorem type_more (ih : ∀ r < room, MoreRoom .decoding types r) :
    CutShort .tooDeep (fromWire types room v ident) (fromWire types (room + 1) v ident) := by
  cases room with
  | zero => exact cutShort_error _
  | succ room =>
    have ihBelow : ∀ r < room, MoreRoom .decoding types r :=
      fun r hr => ih r (Nat.lt_succ_of_lt hr)
    have htype : ∀ ident, CutShort .tooDeep (fromWire types room v ident)
        (fromWire types (room + 1) v ident) :=
      fun ident => ih room (Nat.lt_succ_self _) (.type ident) v
    unfold fromWire
    refine resolveWithin_more.bind fun type => ?_
    cases type with
    | primitive p => exact checkPrimitive_more
    | string name => exact checkText_more
    | unit name => exact cutShort_ite (cutShort_refl _) (failWire_more _)
    | synonym name aliased => exact htype aliased
    | container name inner => exact cutShort_ite (cutShort_refl _) (htype _)
    | custom name args rust typescript => exact cutShort_refl _
    | list name inner =>
      cases v with
      | list items => exact items_more ihBelow
      | _ => exact failWire_more _
    | map name key value =>
      cases v with
      | map entries => exact entries_more ihBelow
      | _ => exact failWire_more _
    | tuple items => exact tuple_more ihBelow
    | struct name generics fields doc => exact struct_more ihBelow
    | enum name generics variants options doc => exact enum_more ihBelow
    | generic name => exact failWire_more _

theorem payload_more (ih : ∀ r < room, MoreRoom .decoding types r) {variant : Variant Text}
    {bs : List (Text × TypeIdent)} :
    CutShort .tooDeep (payloadFromWire types room v variant bs)
      (payloadFromWire types (room + 1) v variant bs) := by
  cases room with
  | zero => exact cutShort_error _
  | succ room =>
    have ihBelow : ∀ r < room, MoreRoom .decoding types r :=
      fun r hr => ih r (Nat.lt_succ_of_lt hr)
    unfold payloadFromWire
    cases variant.payload with
    | unit name => exact cutShort_ite (cutShort_refl _) (failWire_more _)
    | struct name generics fields doc => exact struct_more ihBelow
    | tuple items =>
      match items with
      | [item] => exact ih room (Nat.lt_succ_self _) (.type (item.substitute bs)) v
      | [] | _ :: _ :: _ => exact tuple_more ihBelow
    | _ => exact failWire_more _

theorem moreRoom (room : Nat) : MoreRoom .decoding types room := by
  induction room using Nat.strongRecOn with
  | ind room ih =>
    intro place v
    cases place with
    | type ident => exact type_more ih
    | payload variant bs => exact payload_more ih

/-- **With more room a run comes to the same, unless there was no room.** -/
theorem run_more (place : Place) (v : Value) (h : room ≤ more) :
    CutShort .tooDeep (Direction.decoding.run types room v place)
      (Direction.decoding.run types more v place) :=
  more_of_moreRoom moreRoom place v h

end WasmBridge
