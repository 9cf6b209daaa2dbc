import WasmBridge.Proofs.Wire.Faults
import WasmBridge.Proofs.Wire.Packed
import WasmBridge.Proofs.Wire.Parts
import WasmBridge.Wire.Codec

/-!
# Bytes add nothing

A value is encoded in two stages: what the schema makes of it, and the bytes of that.
`bytes_transparent` says that the second stage can be forgotten. Whatever the schema
makes of a value is portable, so a library that restores what it packs does so here, and
decoding the bytes is decoding what was packed.

A custom type is where this could break, for its values are passed on as they are. So it
is assumed that those hold bytes, in whatever part of the value one of them is reached.
Everything else follows by going through the encoder call by call: each of them puts
together something portable from the portable things that the calls within it give.
-/

namespace WasmBridge

open Outcome

variable {types : TypeMap Text}

/-! ## Portable entries -/

/-- Entries of a map that is portable. -/
structure PortableEntries (entries : Entries) : Prop where
  distinct : DistinctKeys (entries.map (·.1))
  each : ∀ e ∈ entries, e.1.isKey = true ∧ e.1.Portable ∧ e.2.Portable

namespace PortableEntries

variable {entries : Entries} {key value : Value}

theorem nil : PortableEntries [] := ⟨List.Pairwise.nil, nofun⟩

theorem map (h : PortableEntries entries) : (Value.map entries).Portable :=
  .map (fun e he => (h.each e he).1) h.distinct (fun e he => (h.each e he).2.1)
    (fun e he => (h.each e he).2.2)

theorem of_map (h : (Value.map entries).Portable) : PortableEntries entries := by
  cases h with
  | map keys distinct keys_portable values_portable =>
    exact ⟨distinct, fun e he => ⟨keys e he, keys_portable e he, values_portable e he⟩⟩

/-- An entry whose key is new goes to the end. -/
theorem append (h : PortableEntries entries) (hnew : ∀ e ∈ entries, e.1.same key = false)
    (hkey : key.isKey = true) (hportable : key.Portable) (hvalue : value.Portable) :
    PortableEntries (entries ++ [(key, value)]) := by
  constructor
  · rw [List.map_append]
    refine List.pairwise_append.mpr ⟨h.distinct, List.pairwise_singleton _ _, ?_⟩
    intro k hk k' hk'
    obtain ⟨e, he, rfl⟩ := List.mem_map.mp hk
    cases List.mem_singleton.mp hk'
    exact hnew e he
  · intro e he
    rcases List.mem_append.mp he with he | he
    · exact h.each e he
    · cases List.mem_singleton.mp he
      exact ⟨hkey, hportable, hvalue⟩

theorem mem_keys_put {k : Value} (h : k ∈ (entries.put key value).map (·.1)) :
    k ∈ entries.map (·.1) ∨ k = key := by
  induction entries with
  | nil => exact .inr (List.mem_singleton.mp h)
  | cons first rest ih =>
    rw [Entries.put] at h
    split at h
    · exact .inl h
    · rcases List.mem_cons.mp h with rfl | h
      · exact .inl List.mem_cons_self
      · exact (ih h).imp_left (List.mem_cons_of_mem _)

theorem put (h : PortableEntries entries) (hkey : key.isKey = true) (hportable : key.Portable)
    (hvalue : value.Portable) : PortableEntries (entries.put key value) := by
  induction entries with
  | nil => exact nil.append nofun hkey hportable hvalue
  | cons first rest ih =>
    obtain ⟨hfirst, hrest⟩ := List.forall_mem_cons.mp h.each
    obtain ⟨hnew, hdistinct⟩ := List.pairwise_cons.mp h.distinct
    rw [Entries.put]
    split
    · -- the key stays as it was stored first
      exact ⟨h.distinct, List.forall_mem_cons.mpr ⟨⟨hfirst.1, hfirst.2.1, hvalue⟩, hrest⟩⟩
    · rename_i hother
      have hput := ih ⟨hdistinct, hrest⟩
      refine ⟨List.pairwise_cons.mpr ⟨fun k hk => ?_, hput.distinct⟩,
        List.forall_mem_cons.mpr ⟨hfirst, hput.each⟩⟩
      rcases mem_keys_put hk with hk | rfl
      · exact hnew k hk
      · exact Bool.not_eq_true _ ▸ hother

theorem putAll {more : Entries} (h : PortableEntries entries) (hmore : PortableEntries more) :
    PortableEntries (entries.putAll more) := by
  have heach := hmore.each
  clear hmore
  induction more generalizing entries with
  | nil => exact h
  | cons e more ih =>
    obtain ⟨hfirst, hrest⟩ := List.forall_mem_cons.mp heach
    exact ih (h.put hfirst.1 hfirst.2.1 hfirst.2.2) hrest

end PortableEntries

/-! ## What the encoder gives -/

/-- The parts of a value that stand where a custom type does are bytes. -/
def CustomBytes (types : TypeMap Text) (place : Place) (v : Value) : Prop :=
  ∀ found u, Relation.ReflTransGen (fun a b => b ∈ Direction.encoding.parts types a.1 a.2)
      (place, v) (.type found, u) →
    ∀ name args rust typescript,
      types.resolve found = .ok (.custom name args rust typescript) → ∃ bs, u = .bytes bs

theorem CustomBytes.part {place : Place} {v : Value} {part : Place × Value}
    (h : CustomBytes types place v) (hpart : part ∈ Direction.encoding.parts types place v) :
    CustomBytes types part.1 part.2 := fun found u hreach => h found u (.head hpart hreach)

/-- All runs with less than `room` calls give portable values. -/
def Portably (room : Nat) (run : Nat → Except CodecError Value) : Prop :=
  ∀ r < room, Yields Value.Portable (run r)

section Encoding

variable {room r : Nat} {ident : TypeIdent} {v : Value} {name : Text} {fields : List (Field Text)}
  {bs : List (Text × TypeIdent)}

theorem yields_failWire {α : Type} {P : α → Prop} {cause : WireError} :
    Yields P (failWire room cause : Except CodecError α) := yields_error

theorem checkPrimitive_portable (p : Primitive) :
    Yields Value.Portable (checkPrimitive room p ident v) := by
  unfold checkPrimitive
  split
  · split
    · exact yields_ok (.bool _)
    · exact yields_failWire
  split
  · split
    · exact yields_ok (.float _)
    · unfold toFloat
      split
      · exact yields_ok (.float _)
      · exact yields_error
    · exact yields_failWire
  · split
    · split
      · exact yields_failWire
      split
      · exact yields_failWire
      · exact yields_ok (.int (by omega) (by omega))
    · exact yields_failWire

theorem checkText_portable : Yields Value.Portable (checkText room ident v) := by
  unfold checkText
  split
  · exact yields_ok (.str _)
  · exact yields_failWire

theorem itemsToWire_portable {items : List Value} {inner : TypeIdent} (hlt : r < room)
    (h : ∀ item ∈ items, Portably room (toWire types · item inner)) :
    Yields Value.Portable (itemsToWire types r items inner) := by
  cases r with
  | zero => rw [itemsToWire]; exact yields_error
  | succ r =>
    rw [itemsToWire]
    have hitems : ∀ item ∈ items, Yields Value.Portable (toWire types r item inner) :=
      fun item hmem => h item hmem r (by omega)
    exact (yields_mapM hitems).bind fun _ hall => yields_ok (.list hall)

theorem eachToWire_portable {items : List (Value × TypeIdent)} (hlt : r < room)
    (h : ∀ e ∈ items, Portably room (toWire types · e.1 e.2)) :
    Yields Value.Portable (eachToWire types r items) := by
  cases r with
  | zero => rw [eachToWire]; exact yields_error
  | succ r =>
    rw [eachToWire]
    have hitems : ∀ e ∈ items, Yields Value.Portable (toWire types r e.1 e.2) :=
      fun e hmem => h e hmem r (by omega)
    exact (yields_mapM hitems).bind fun _ hall => yields_ok (.list hall)

theorem entriesToWire_portable {entries : Entries} {key inner : TypeIdent} (hlt : r < room)
    (hkeys : ∀ e ∈ entries, Portably room (toWire types · e.1 key))
    (hvalues : ∀ e ∈ entries, Portably room (toWire types · e.2 inner)) :
    Yields Value.Portable (entriesToWire types r entries key inner) := by
  cases r with
  | zero => rw [entriesToWire]; exact yields_error
  | succ r =>
    rw [entriesToWire]
    refine Yields.bind (P := PortableEntries) (yields_foldlM .nil fun e hmem stored hstored => ?_)
      fun _ hall => yields_ok hall.map
    refine (hkeys e hmem r (by omega)).bind fun k hk => ?_
    refine (hvalues e hmem r (by omega)).bind fun x hx => ?_
    intro out hout
    obtain ⟨hkey, rfl⟩ := storeKey_eq_ok hout
    exact hstored.put hkey hk hx

theorem tupleToWire_portable {idents : List TypeIdent} (hlt : r < room)
    (h : ∀ part ∈ Direction.encoding.itemParts idents v,
      Portably room (Direction.encoding.run types · part.2 part.1)) :
    Yields Value.Portable (tupleToWire types r v idents ident) := by
  cases r with
  | zero => rw [tupleToWire]; exact yields_error
  | succ r =>
    rw [tupleToWire]
    split
    · rename_i items hitems
      have hsame : Direction.encoding.items v = items := by simp [Direction.items, hitems]
      split
      · refine eachToWire_portable (Nat.lt_of_succ_lt hlt) fun e hmem => ?_
        refine h (.type e.2, e.1) (List.mem_map.mpr ⟨e, ?_, rfl⟩)
        rwa [hsame]
      · exact yields_failWire
    · exact yields_failWire

/-- What is stored for a field goes under a new key. -/
theorem new_of_toStore {entries stored : Entries} {field : Field Text} {key : Text} {item : Value}
    {type : TypeIdent}
    (h : fieldToStore types r name bs entries stored field = .ok (some (key, item, type))) :
    stored.findName? key = none := by
  unfold fieldToStore at h
  dsimp only at h
  split at h
  · cases h
  split at h
  · exact nomatch h
  split at h
  · exact nomatch h
  · rename_i hnew
    cases h
    simpa using hnew

theorem structToWire_portable (hlt : r < room)
    (h : ∀ part ∈ Direction.encoding.fieldParts fields bs v,
      Portably room (Direction.encoding.run types · part.2 part.1)) :
    Yields Value.Portable (structToWire types r v name fields bs) := by
  cases r with
  | zero => rw [structToWire]; exact yields_error
  | succ r =>
    cases v with
    | map entries =>
      rw [structToWire]
      refine Yields.bind (P := fun _ => True) (fun _ _ => trivial) fun _ _ => ?_
      refine Yields.bind (P := PortableEntries)
        (yields_foldlM .nil fun field hmem stored hstored => ?_) fun _ hall => yields_ok hall.map
      intro out hout
      obtain ⟨stored?, hstore, hout⟩ := bind_eq_ok.mp hout
      cases stored? with
      | none => cases hout; exact hstored
      | some found =>
        obtain ⟨key, item, type⟩ := found
        obtain ⟨w, hw, hout⟩ := bind_eq_ok.mp hout
        cases hout
        have hpart := h _ (mem_fieldParts_of_toStore hmem hstore)
        have hnew := Entries.findName?_eq_none_iff.mp (new_of_toStore hstore)
        refine hstored.append (fun e he => ?_) rfl (.str key) (hpart r (by omega) w hw)
        rw [← Bool.not_eq_true, Value.same_to_str]
        exact hnew e he
    | _ =>
      rw [structToWire]
      · exact yields_failWire
      · intro entries heq
        cases heq

theorem wrapVariant_portable {enum key : Text} {encoding : Encoding Text} {variant : Variant Text}
    (hv : v.Portable) : Yields Value.Portable (wrapVariant r enum encoding variant key v) := by
  have hsingle : ∀ (s : Text) (u : Value), u.Portable → PortableEntries [(.str s, u)] :=
    fun s u hu => PortableEntries.nil.append nofun rfl (.str s) hu
  unfold wrapVariant
  dsimp only
  split
  · exact yields_ok hv
  · split
    · exact yields_ok (.str _)
    · exact yields_ok (hsingle _ _ hv).map
  · split
    · exact yields_ok (hsingle _ _ (.str _)).map
    · exact yields_ok ((hsingle _ _ (.str _)).put rfl (.str _) hv).map
  · split
    · exact yields_ok (hsingle _ _ (.str _)).map
    · split
      · exact yields_ok ((hsingle _ _ (.str _)).putAll (.of_map hv)).map
      · exact yields_failWire

theorem enumToWire_portable {enum : Text} {variants : List (Variant Text)}
    {options : EnumOptions Text} (hlt : r < room)
    (h : ∀ found ∈ Direction.encoding.variantParts variants options (.variant name v),
      Portably room (payloadToWire types · found.2 found.1 bs)) :
    Yields Value.Portable (enumToWire types r name v enum variants options bs) := by
  cases r with
  | zero => rw [enumToWire]; exact yields_error
  | succ r =>
    rw [enumToWire]
    have hfound : Yields
        (fun variant => (variant, v) ∈ Direction.encoding.variantParts variants options
          (.variant name v)) (findVariant r enum variants name) := fun variant hvariant => by
      simp [Direction.variantParts, findVariant_eq_ok hvariant]
    refine hfound.bind fun variant hmem => ?_
    exact (h _ hmem r (by omega)).bind fun payload hpayload => wrapVariant_portable hpayload

/-! ## One call -/

variable {ident : TypeIdent} {variant : Variant Text}

theorem toWire_portable (hcustom : CustomBytes types (.type ident) v)
    (hparts : ∀ part ∈ Direction.encoding.parts types (.type ident) v,
      Portably room (Direction.encoding.run types · part.2 part.1)) :
    Yields Value.Portable (toWire types room v ident) := by
  cases room with
  | zero => rw [toWire]; exact yields_error
  | succ r =>
    unfold toWire
    have hresolved : Yields (types.resolve ident = .ok ·) (resolveWithin types r ident) :=
      fun type hwithin => resolveWithin_eq_ok.mp hwithin
    refine hresolved.bind fun type hresolve => ?_
    simp only [Direction.parts, hresolve] at hparts
    have hlt : r < r + 1 := Nat.lt_succ_self r
    cases type with
    | primitive p => exact checkPrimitive_portable p
    | string name => exact checkText_portable
    | unit name =>
      dsimp only
      split
      · exact yields_ok .null
      · exact yields_failWire
    | synonym name aliased => exact hparts (.type aliased, v) (List.mem_singleton_self _) r hlt
    | container name inner =>
      dsimp only at hparts ⊢
      split
      · exact yields_ok .null
      · rename_i hnull
        rw [if_neg hnull] at hparts
        exact hparts _ (List.mem_singleton_self _) r hlt
    | custom name args rust typescript =>
      obtain ⟨bytes, rfl⟩ := hcustom ident v .refl name args rust typescript hresolve
      exact yields_ok (.bytes bytes)
    | list name inner =>
      dsimp only
      split
      · rename_i items hitems
        refine itemsToWire_portable hlt fun item hmem => ?_
        refine hparts (_, item) (List.mem_map.mpr ⟨item, ?_, rfl⟩)
        simpa [Direction.items, hitems] using hmem
      · exact yields_failWire
    | map name key value =>
      dsimp only at hparts ⊢
      split
      · refine entriesToWire_portable hlt (fun e hmem => ?_) fun e hmem => ?_
        · exact hparts (_, e.1) (List.mem_flatMap.mpr ⟨e, hmem, List.mem_cons_self⟩)
        · exact hparts (_, e.2) (List.mem_flatMap.mpr ⟨e, hmem, List.mem_of_mem_getLast? rfl⟩)
      · exact yields_failWire
    | tuple items => exact tupleToWire_portable hlt hparts
    | struct name generics fields doc => exact structToWire_portable hlt hparts
    | enum name generics variants options doc =>
      dsimp only
      split
      · refine enumToWire_portable hlt fun found hfound => ?_
        exact hparts (_, found.2) (List.mem_map.mpr ⟨found, hfound, rfl⟩)
      · exact yields_failWire
    | generic name => exact yields_failWire

theorem payloadToWire_portable
    (hparts : ∀ part ∈ Direction.encoding.parts types (.payload variant bs) v,
      Portably room (Direction.encoding.run types · part.2 part.1)) :
    Yields Value.Portable (payloadToWire types room v variant bs) := by
  cases room with
  | zero => rw [payloadToWire]; exact yields_error
  | succ r =>
    unfold payloadToWire
    dsimp only [Direction.parts] at hparts
    have hlt : r < r + 1 := Nat.lt_succ_self r
    cases hpayload : variant.payload with
    | unit name => exact yields_ok .null
    | struct name generics fields doc =>
      rw [hpayload] at hparts
      exact structToWire_portable hlt hparts
    | tuple items =>
      rw [hpayload] at hparts
      rcases items with _ | ⟨item, _ | ⟨second, rest⟩⟩
      · exact tupleToWire_portable hlt hparts
      · exact hparts _ (List.mem_singleton_self _) r hlt
      · exact tupleToWire_portable hlt hparts
    | _ => exact yields_failWire

/-- **What the encoder gives can be packed.** -/
theorem run_portable {place : Place} (hcustom : CustomBytes types place v) :
    Yields Value.Portable (Direction.encoding.run types room v place) := by
  induction room using Nat.strongRecOn generalizing place v with
  | ind room ih =>
    have hparts : ∀ part ∈ Direction.encoding.parts types place v,
        Portably room (Direction.encoding.run types · part.2 part.1) :=
      fun part hpart r hr => ih r hr (hcustom.part hpart)
    cases place with
    | type ident => exact toWire_portable hcustom hparts
    | payload variant bs => exact payloadToWire_portable hparts

end Encoding

/--
**Bytes add nothing.** If the custom types within a value hold bytes, then whatever the
value is encoded to is portable. So with a library that restores what it packs it is
packed without fail, unless it is too large for the format, and to decode the bytes is to
decode what was packed.
-/
theorem bytes_transparent {format : PackFormat} {depthLimit : Nat}
    (hrestores : format.Restores depthLimit) {room : Nat} {ident : TypeIdent} {v w : Value}
    (hcustom : CustomBytes types (.type ident) v) (h : toWire types room v ident = .ok w) :
    w.Portable
      ∧ (MessagePack.fits w = true → w.depth < 2 * depthLimit →
        ∃ bytes, encode format types v ident room = .ok bytes
          ∧ ∀ room', decode format types bytes ident room' = fromWire types room' w ident) := by
  have hrun : Yields Value.Portable (Direction.encoding.run types room v (.type ident)) :=
    run_portable hcustom
  have hportable := hrun w h
  refine ⟨hportable, fun hfits hdepth => ?_⟩
  obtain ⟨bytes, hpack, hunpack⟩ := hrestores w hportable hfits hdepth
  refine ⟨bytes, ?_, fun room' => ?_⟩
  · rw [encode, h, bind_ok, hpack]
  · have hread : unpackFor format room' ident bytes = .ok w := by rw [unpackFor, hunpack]
    rw [decode, hread, bind_ok]

/-! ## Pieces of a file -/

/-- It is enough to look at parts that have no parts but each other. -/
theorem customBytes_of_closed {S : List (Place × Value)} {place : Place} {v : Value}
    (hstart : (place, v) ∈ S)
    (hclosed : ∀ a ∈ S, ∀ b ∈ Direction.encoding.parts types a.1 a.2, b ∈ S)
    (hbytes : ∀ found u, (.type found, u) ∈ S → ∀ name args rust typescript,
      types.resolve found = .ok (.custom name args rust typescript) → ∃ bs, u = .bytes bs) :
    CustomBytes types place v := by
  have hmem : ∀ a, Relation.ReflTransGen
      (fun a b => b ∈ Direction.encoding.parts types a.1 a.2) (place, v) a → a ∈ S := by
    intro a hreach
    induction hreach with
    | refl => exact hstart
    | tail _ hpart ih => exact hclosed _ ih _ hpart
  exact fun found u hreach => hbytes found u (hmem _ hreach)

namespace Pieces

/-- A piece of a file, with its size. -/
def filled : Variant Text := .mk "Filled" (.tuple [⟨"u64", []⟩, ⟨"Bytes", []⟩]) []

def known : TypeMap Text := .ofTypes [.enum "Piece" [] [filled] {} []]

/-- The type of pieces by their places. -/
def byPlace : TypeIdent := ⟨"HashMap", [⟨"u64", []⟩, ⟨"Piece", []⟩]⟩

/-- One piece of two bytes. -/
def small : Value := .map [(.int 7, .variant "Filled" (.tuple [.int 2, .bytes [0, 255]]))]

/-- What is reached from it. -/
def reached : List (Place × Value) := [
  (.type byPlace, small),
  (.type ⟨"u64", []⟩, .int 7),
  (.type ⟨"Piece", []⟩, .variant "Filled" (.tuple [.int 2, .bytes [0, 255]])),
  (.payload filled [], .tuple [.int 2, .bytes [0, 255]]),
  (.type ⟨"u64", []⟩, .int 2),
  (.type ⟨"Bytes", []⟩, .bytes [0, 255])]

theorem customBytes : CustomBytes known (.type byPlace) small := by
  refine customBytes_of_closed (S := reached) List.mem_cons_self ?_ ?_
  · intro a ha b hb
    simp only [reached, List.mem_cons, List.not_mem_nil, or_false] at ha ⊢
    rcases ha with rfl | rfl | rfl | rfl | rfl | rfl
    · rcases List.mem_pair.mp hb with rfl | rfl
      · exact .inr (.inl rfl)
      · exact .inr (.inr (.inl rfl))
    · cases hb
    · cases List.mem_singleton.mp hb
      exact .inr (.inr (.inr (.inl rfl)))
    · rcases List.mem_pair.mp hb with rfl | rfl
      · exact .inr (.inr (.inr (.inr (.inl rfl))))
      · exact .inr (.inr (.inr (.inr (.inr rfl))))
    · cases hb
    · cases hb
  · intro found u hmem name args rust typescript hresolve
    simp only [reached, List.mem_cons, List.not_mem_nil, or_false, Prod.mk.injEq,
      Place.type.injEq, reduceCtorEq, false_and, false_or] at hmem
    rcases hmem with ⟨rfl, rfl⟩ | ⟨rfl, rfl⟩ | ⟨rfl, rfl⟩ | ⟨rfl, rfl⟩ | ⟨rfl, rfl⟩
    · cases hresolve
    · cases hresolve
    · cases hresolve
    · cases hresolve
    · exact ⟨_, rfl⟩

/-- The name of the variant stands around what it carries, which is a list now. -/
def packed : Value := .map [(.int 7, .map [(.str "Filled", .list [.int 2, .bytes [0, 255]])])]

theorem toWire_small : toWire known callRoom small byPlace = .ok packed := by rfl

end Pieces

/-- Pieces are packed, and are read from the bytes as they are from what was packed. -/
theorem bytes_transparent_pieces :
    CustomBytes Pieces.known (.type Pieces.byPlace) Pieces.small
      ∧ toWire Pieces.known callRoom Pieces.small Pieces.byPlace = .ok Pieces.packed
      ∧ MessagePack.format.Restores MessagePack.depthLimit
      ∧ MessagePack.fits Pieces.packed = true
      ∧ Pieces.packed.depth < 2 * MessagePack.depthLimit
      ∧ Pieces.packed.Portable
      ∧ ∃ bytes, encode MessagePack.format Pieces.known Pieces.small Pieces.byPlace callRoom
          = .ok bytes
        ∧ ∀ room', decode MessagePack.format Pieces.known bytes Pieces.byPlace room'
          = fromWire Pieces.known room' Pieces.packed Pieces.byPlace := by
  have hfits : MessagePack.fits Pieces.packed = true := by decide +kernel
  have hdepth : Pieces.packed.depth < 2 * MessagePack.depthLimit := by decide +kernel
  obtain ⟨hportable, htransparent⟩ :=
    bytes_transparent MessagePack.restores Pieces.customBytes Pieces.toWire_small
  exact ⟨Pieces.customBytes, Pieces.toWire_small, MessagePack.restores, hfits, hdepth, hportable,
    htransparent hfits hdepth⟩

end WasmBridge
