import WasmBridge.Proofs.Wire.MoreRoom
import WasmBridge.Proofs.Wire.Parts

/-!
# More room to encode in

A value is encoded to the same with more calls left, or refused for the same reason, unless
there was no room before. Encoding tries nothing out, so each function passes on what the
calls it makes come to, and the room it has itself is for errors only.
-/

namespace WasmBridge

open Outcome

variable {types : TypeMap Text} {room more : Nat} {v : Value} {ident : TypeIdent} {name : Text}
  {fields : List (Field Text)} {bs : List (Text × TypeIdent)} {entries : Entries}

/-! ## Fields and variants -/

theorem checkFields_more {known : List Text} :
    CutShort .tooDeep (checkFields room name known entries)
      (checkFields (room + 1) name known entries) := by
  unfold checkFields
  refine cutShort_ite (cutShort_refl _) ?_
  cases Value.sort? ((entries.map (·.1)).filter fun key => !known.any key.isName) with
  | some names => exact failWire_more _
  | none => exact cutShort_refl _

theorem fieldToStore_more {stored : Entries} {field : Field Text} :
    CutShort .tooDeep (fieldToStore types room name bs entries stored field)
      (fieldToStore types (room + 1) name bs entries stored field) := by
  unfold fieldToStore
  refine cutShort_ite (cutShort_refl _) ?_
  cases entries.findName? field.name with
  | none => exact failWire_more _
  | some item => exact cutShort_ite (failWire_more _) (cutShort_refl _)

theorem storeField_more (ih : MoreRoom .encoding types room) {stored : Entries}
    {field : Field Text} :
    CutShort .tooDeep (storeField types room name bs entries stored field)
      (storeField types (room + 1) name bs entries stored field) := by
  unfold storeField
  refine fieldToStore_more.bind fun found => ?_
  cases found with
  | none => exact cutShort_refl _
  | some found => exact (ih (.type found.2.2) found.2.1).bind fun _ => cutShort_refl _

theorem findVariant_more {enum : Text} {variants : List (Variant Text)} :
    CutShort .tooDeep (findVariant room enum variants name)
      (findVariant (room + 1) enum variants name) := by
  unfold findVariant
  cases variants.find? (·.name == name) with
  | some variant => exact cutShort_refl _
  | none => exact failWire_more _

theorem wrapVariant_more {enum key : Text} {encoding : Encoding Text} {variant : Variant Text} :
    CutShort .tooDeep (wrapVariant room enum encoding variant key v)
      (wrapVariant (room + 1) enum encoding variant key v) := by
  unfold wrapVariant
  cases encoding with
  | internal tag =>
    refine cutShort_ite (cutShort_refl _) ?_
    cases v with
    | map entries => exact cutShort_refl _
    | _ => exact failWire_more _
  | _ => exact cutShort_refl _

/-! ## Parts -/

theorem itemsToWire_more (ih : ∀ r < room, MoreRoom .encoding types r) {items : List Value}
    {inner : TypeIdent} :
    CutShort .tooDeep (itemsToWire types room items inner)
      (itemsToWire types (room + 1) items inner) := by
  cases room with
  | zero => exact cutShort_error _
  | succ room =>
    unfold itemsToWire
    have hitems : CutShort .tooDeep (items.mapM fun item => toWire types room item inner)
        (items.mapM fun item => toWire types (room + 1) item inner) :=
      cutShort_mapM fun item => ih room (Nat.lt_succ_self _) (.type inner) item
    exact hitems.bind fun _ => cutShort_refl _

theorem eachToWire_more (ih : ∀ r < room, MoreRoom .encoding types r)
    {items : List (Value × TypeIdent)} :
    CutShort .tooDeep (eachToWire types room items) (eachToWire types (room + 1) items) := by
  cases room with
  | zero => exact cutShort_error _
  | succ room =>
    unfold eachToWire
    have hitems : CutShort .tooDeep (items.mapM fun x => toWire types room x.1 x.2)
        (items.mapM fun x => toWire types (room + 1) x.1 x.2) :=
      cutShort_mapM fun x => ih room (Nat.lt_succ_self _) (.type x.2) x.1
    exact hitems.bind fun _ => cutShort_refl _

theorem entriesToWire_more (ih : ∀ r < room, MoreRoom .encoding types r)
    {key inner : TypeIdent} :
    CutShort .tooDeep (entriesToWire types room entries key inner)
      (entriesToWire types (room + 1) entries key inner) := by
  cases room with
  | zero => exact cutShort_error _
  | succ room =>
    have ih := ih room (Nat.lt_succ_self _)
    unfold entriesToWire
    refine CutShort.bind (cutShort_foldlM fun stored e => ?_) fun _ => cutShort_refl _
    exact (ih (.type key) e.1).bind fun k => (ih (.type inner) e.2).bind fun c => cutShort_refl _

theorem tupleToWire_more (ih : ∀ r < room, MoreRoom .encoding types r) {idents : List TypeIdent} :
    CutShort .tooDeep (tupleToWire types room v idents ident)
      (tupleToWire types (room + 1) v idents ident) := by
  cases room with
  | zero => exact cutShort_error _
  | succ room =>
    unfold tupleToWire
    cases v.items? with
    | some items =>
      exact cutShort_ite (eachToWire_more fun r hr => ih r (Nat.lt_succ_of_lt hr)) (failWire_more _)
    | none => exact failWire_more _

theorem structToWire_more (ih : ∀ r < room, MoreRoom .encoding types r) :
    CutShort .tooDeep (structToWire types room v name fields bs)
      (structToWire types (room + 1) v name fields bs) := by
  cases room with
  | zero => exact cutShort_error _
  | succ room =>
    unfold structToWire
    cases v with
    | map entries =>
      refine checkFields_more.bind fun _ => CutShort.bind ?_ fun _ => cutShort_refl _
      exact cutShort_foldlM fun stored field => storeField_more (ih room (Nat.lt_succ_self _))
    | _ => exact failWire_more _

theorem enumToWire_more (ih : ∀ r < room, MoreRoom .encoding types r) {variant enum : Text}
    {variants : List (Variant Text)} {options : EnumOptions Text} :
    CutShort .tooDeep (enumToWire types room variant v enum variants options bs)
      (enumToWire types (room + 1) variant v enum variants options bs) := by
  cases room with
  | zero => exact cutShort_error _
  | succ room =>
    unfold enumToWire
    refine findVariant_more.bind fun found => ?_
    exact (ih room (Nat.lt_succ_self _) (.payload found bs) v).bind fun _ => wrapVariant_more

/-! ## Runs -/

theorem toWire_more (ih : ∀ r < room, MoreRoom .encoding types r) :
    CutShort .tooDeep (toWire types room v ident) (toWire types (room + 1) v ident) := by
  cases room with
  | zero => exact cutShort_error _
  | succ room =>
    have ihBelow : ∀ r < room, MoreRoom .encoding types r :=
      fun r hr => ih r (Nat.lt_succ_of_lt hr)
    have htype : ∀ ident, CutShort .tooDeep (toWire types room v ident)
        (toWire types (room + 1) v ident) :=
      fun ident => ih room (Nat.lt_succ_self _) (.type ident) v
    unfold toWire
    refine resolveWithin_more.bind fun type => ?_
    cases type with
    | primitive p => exact checkPrimitive_more
    | string name => exact checkText_more
    | unit name => exact cutShort_ite (cutShort_refl _) (failWire_more _)
    | synonym name aliased => exact htype aliased
    | container name inner => exact cutShort_ite (cutShort_refl _) (htype _)
    | custom name args rust typescript => exact cutShort_refl _
    | list name inner =>
      dsimp only
      cases v.items? with
      | some items => exact itemsToWire_more ihBelow
      | none => exact failWire_more _
    | map name key value =>
      cases v with
      | map entries => exact entriesToWire_more ihBelow
      | _ => exact failWire_more _
    | tuple items => exact tupleToWire_more ihBelow
    | struct name generics fields doc => exact structToWire_more ihBelow
    | enum name generics variants options doc =>
      cases v with
      | variant carried payload => exact enumToWire_more ihBelow
      | _ => exact failWire_more _
    | generic name => exact failWire_more _

theorem payloadToWire_more (ih : ∀ r < room, MoreRoom .encoding types r)
    {variant : Variant Text} :
    CutShort .tooDeep (payloadToWire types room v variant bs)
      (payloadToWire types (room + 1) v variant bs) := by
  cases room with
  | zero => exact cutShort_error _
  | succ room =>
    have ihBelow : ∀ r < room, MoreRoom .encoding types r :=
      fun r hr => ih r (Nat.lt_succ_of_lt hr)
    unfold payloadToWire
    cases variant.payload with
    | unit name => exact cutShort_refl _
    | struct name generics fields doc => exact structToWire_more ihBelow
    | tuple items =>
      rcases items with _ | ⟨item, _ | ⟨second, rest⟩⟩
      · exact tupleToWire_more ihBelow
      · exact ih room (Nat.lt_succ_self _) (.type (item.substitute bs)) v
      · exact tupleToWire_more ihBelow
    | _ => exact failWire_more _

theorem moreRoom_encoding (room : Nat) : MoreRoom .encoding types room := by
  induction room using Nat.strongRecOn with
  | ind room ih =>
    intro place v
    cases place with
    | type ident => exact toWire_more ih
    | payload variant bs => exact payloadToWire_more ih

/-- **With more room a value is encoded to the same, unless there was no room.** -/
theorem encoding_more (place : Place) (v : Value) (h : room ≤ more) :
    CutShort .tooDeep (Direction.encoding.run types room v place)
      (Direction.encoding.run types more v place) :=
  more_of_moreRoom moreRoom_encoding place v h

end WasmBridge
