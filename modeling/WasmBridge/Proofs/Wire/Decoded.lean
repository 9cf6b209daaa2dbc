import WasmBridge.Proofs.Wire.MapKeys
import WasmBridge.Proofs.Wire.SharedKeys
import WasmBridge.Proofs.Wire.Untrusted

/-!
# What has been decoded

The decoder takes more than the encoder makes: unknown keys, nil for an option that is
absent, integers for floats, a unit variant as a map. What it returns has nothing of all
this, so that it can be encoded, and what that gives is decoded to the same value again.
As for values that are encoded first, this is shown part by part, and of the parts no more
is asked than that it holds of them where there is less room.

The wire value that comes of it is not the one that was there before. Where it is put
behind the tag of a variant, it must be a map, and the tag must not stand in it. Two things
could go wrong there. A unit variant may have been given as a map and be encoded as a mere
name; and a content may be stored that was missing before.
-/

namespace WasmBridge

open Outcome

variable {types : TypeMap Text} {room : Nat} {d v w : Value}

/-! ## Wire values -/

/-- No map that the decoder can come upon in a value has a key twice. -/
def Value.HasDistinctKeys (v : Value) : Prop :=
  ∀ entries, Relation.ReflTransGen (fun a b => b.Below a) v (.map entries) →
    DistinctKeys (entries.map (·.1))

namespace Value.HasDistinctKeys

theorem self {entries : Entries} (h : (Value.map entries).HasDistinctKeys) :
    DistinctKeys (entries.map (·.1)) :=
  h entries .refl

theorem below {inner : Value} (h : v.HasDistinctKeys) (hinner : inner.Below v) :
    inner.HasDistinctKeys :=
  fun entries hreach => h entries (.head hinner hreach)

end Value.HasDistinctKeys

/-- A value that the decoder does not take apart. -/
def Value.IsFlat : Value → Prop
  | .list _ | .map _ => False
  | _ => True

theorem Value.IsFlat.below {inner : Value} (h : v.IsFlat) (hinner : inner.Below v) :
    inner.IsFlat := by
  cases hinner with
  | named => trivial
  | absent | item | key | value | rest => cases h

/-- A map of values that are not taken apart has no maps in it but what is left of it. -/
theorem hasDistinctKeys_of_flat {entries : Entries} (hdistinct : DistinctKeys (entries.map (·.1)))
    (hflat : ∀ e ∈ entries, e.1.IsFlat ∧ e.2.IsFlat) : (Value.map entries).HasDistinctKeys := by
  intro found hreach
  -- what is come upon is not taken apart, or it is the map without some of its entries
  have hkeeps : ∀ {a b : Value},
      a.IsFlat ∨ (∃ kept : Entries, a = .map kept ∧ kept.Sublist entries) → b.Below a →
      b.IsFlat ∨ ∃ kept : Entries, b = .map kept ∧ kept.Sublist entries := by
    rintro a b (ha | ⟨kept, rfl, hkept⟩) hbelow
    · exact .inl (ha.below hbelow)
    · cases hbelow with
      | absent => exact .inl trivial
      | key he => exact .inl (hflat _ (hkept.subset he)).1
      | value he => exact .inl (hflat _ (hkept.subset he)).2
      | rest _ => exact .inr ⟨_, rfl, List.filter_sublist.trans hkept⟩
  have hfound : (Value.map found).IsFlat ∨
      ∃ kept : Entries, Value.map found = .map kept ∧ kept.Sublist entries := by
    generalize Value.map found = last at hreach
    induction hreach with
    | refl => exact .inr ⟨entries, rfl, List.Sublist.refl _⟩
    | tail _ hbelow ih => exact hkeeps ih hbelow
  obtain hflat | ⟨kept, heq, hkept⟩ := hfound
  · cases hflat
  · cases heq
    exact hdistinct.sublist (hkept.map _)

/-! ## What is put behind a tag -/

/-- A content may be stored under the name in the map that a value is encoded to. -/
inductive Place.Content (types : TypeMap Text) : Place → Text → Prop where
  | adjacent {ident : TypeIdent} {enum tag content : Text} {generics doc : List Text}
      {variants : List (Variant Text)} {options : EnumOptions Text}
      (h : types.resolve ident = .ok (.enum enum generics variants options doc))
      (hencoding : options.encoding = .adjacent tag content) :
      Content types (.type ident) content
  /-- The entries of the payload stand beside the tag. -/
  | internal {ident : TypeIdent} {enum tag name : Text} {generics doc : List Text}
      {variants : List (Variant Text)} {options : EnumOptions Text} {variant : Variant Text}
      (h : types.resolve ident = .ok (.enum enum generics variants options doc))
      (hencoding : options.encoding = .internal tag) (hmem : variant ∈ variants)
      (hname : Content types (.payload variant (bindings generics ident)) name) :
      Content types (.type ident) name
  | passesOn {place next : Place} {name : Text} (h : place.PassesOn types next)
      (hname : Content types next name) : Content types place name

/-- The value is a variant without payload that is encoded to its mere name. -/
inductive Bare (types : TypeMap Text) : Place → Value → Prop where
  | unit {ident : TypeIdent} {enum name : Text} {generics doc : List Text}
      {variants : List (Variant Text)} {options : EnumOptions Text} {variant : Variant Text}
      {payload : Value} (h : types.resolve ident = .ok (.enum enum generics variants options doc))
      (hencoding : options.encoding = .external)
      (hfound : variants.find? (·.name == name) = some variant)
      (hunit : variant.payload.isUnit = true) : Bare types (.type ident) (.variant name payload)
  | passesOn {place next : Place} {v : Value} (h : place.PassesOn types next)
      (hbare : Bare types next v) : Bare types place v

/-- The tag of an enum is not the name of a content that comes to stand beside it. -/
def Slot.TagsApart (types : TypeMap Text) : Slot → Prop
  | .type ident =>
    ∀ enum generics variants options doc tag variant,
      types.resolve ident = .ok (.enum enum generics variants options doc) →
      options.encoding = .internal tag → variant ∈ variants →
      ¬Place.Content types (.payload variant (bindings generics ident)) tag
  | _ => True

/-- No tag in the values of a type is the name of a content that comes to stand beside it. -/
def TagsApart (types : TypeMap Text) (ident : TypeIdent) : Prop :=
  ∀ slot, Relation.ReflTransGen (Leads types) (.type ident) slot → slot.TagsApart types

/-- What a variant carries beside its tag is a mere name. -/
def CarriesBare (types : TypeMap Text) : Slot → Value → Prop
  | .type ident, .variant name payload =>
    ∃ enum generics variants options doc tag variant,
      types.resolve ident = .ok (.enum enum generics variants options doc)
        ∧ options.encoding = .internal tag ∧ variants.find? (·.name == name) = some variant
        ∧ Bare types (.payload variant (bindings generics ident)) payload
  | _, _ => False

/-- Everything that a decoded value visits can be encoded and read again. -/
structure Resendable (types : TypeMap Text) (slot : Slot) (v : Value) : Prop where
  readable : ∀ s u, Visits types (slot, v) (s, u) → s.Readable types
  tags : ∀ s u, Visits types (slot, v) (s, u) → s.TagsApart types
  carries : ∀ s u, Visits types (slot, v) (s, u) → ¬CarriesBare types s u

theorem Resendable.part {slot s : Slot} {u : Value} (h : Resendable types slot v)
    (hpart : Part types (slot, v) (s, u)) : Resendable types s u where
  readable s' u' hvisits := h.readable s' u' (.head hpart hvisits)
  tags s' u' hvisits := h.tags s' u' (.head hpart hvisits)
  carries s' u' hvisits := h.carries s' u' (.head hpart hvisits)

theorem Resendable.one {slot s : Slot} {u : Value} (h : Resendable types slot v)
    (hshape : shape? types slot v = some (.one s u)) : Resendable types s u :=
  h.part ⟨_, _, hshape, List.mem_singleton_self _⟩

/-! ## What is sent again -/

/-- The slot of what stands at a place. -/
def Place.slot : Place → Slot
  | type ident => .type ident
  | payload variant bs => .payload variant bs

/-- A value is encoded to `w`, with one call more than there was, and `w` is decoded to it. -/
structure Repeats (types : TypeMap Text) (room : Nat) (place : Place) (v w : Value) : Prop where
  encodes : ∀ more, room < more → Direction.encoding.run types more v place = .ok w
  decodes : ∀ more, room ≤ more → Direction.decoding.run types more w place = .ok v

/-- A value that `d` was decoded to is encoded to `w`, as far as it depends on them where. -/
structure Resent (types : TypeMap Text) (room : Nat) (place : Place) (d v w : Value) : Prop
    extends Repeats types room place v w where
  present : w = .null → v = .null
  keys : ∀ entries, w = .map entries → DistinctKeys (entries.map (·.1))
  /-- What was a map is a map again. -/
  isMap : ∀ entries, d = .map entries → ¬Bare types place v → ∃ stored, w = .map stored
  /-- Only a content may stand there under a name that was not there. -/
  names : ∀ (entries stored : Entries) name, d = .map entries → w = .map stored →
    entries.findName? name = none → ¬place.Content types name → stored.findName? name = none

/-- Whatever is decoded within `room` calls is sent again. -/
def Resends (types : TypeMap Text) (room : Nat) : Prop :=
  ∀ place d v, Resendable types place.slot v → d.HasDistinctKeys →
    Direction.decoding.run types room d place = .ok v → ∃ w, Resent types room place d v w

theorem Resends.repeats {ident : TypeIdent} (h : Resends types room)
    (hsafe : Resendable types (.type ident) v) (hd : d.HasDistinctKeys)
    (hv : fromWire types room d ident = .ok v) : ∃ w, Repeats types room (.type ident) v w := by
  obtain ⟨w, hw⟩ := h (.type ident) d v hsafe hd hv
  exact ⟨w, hw.toRepeats⟩

/-- With one call more than some, or as many, there is a call. -/
theorem forall_succ {P : Nat → Prop} (h : ∀ more, room < more → P (more + 1)) :
    ∀ more, room + 1 < more → P more
  | 0, hmore => by omega
  | more + 1, hmore => h more (by omega)

theorem forall_succ_le {P : Nat → Prop} (h : ∀ more, room ≤ more → P (more + 1)) :
    ∀ more, room + 1 ≤ more → P more
  | 0, hmore => by omega
  | more + 1, hmore => h more (by omega)

theorem Repeats.ofType {ident : TypeIdent}
    (hencodes : ∀ more, room < more → toWire types (more + 1) v ident = .ok w)
    (hdecodes : ∀ more, room ≤ more → fromWire types (more + 1) w ident = .ok v) :
    Repeats types (room + 1) (.type ident) v w :=
  ⟨forall_succ hencodes, forall_succ_le hdecodes⟩

theorem Repeats.ofPayload {variant : Variant Text} {bs : List (Text × TypeIdent)}
    (hencodes : ∀ more, room < more → payloadToWire types (more + 1) v variant bs = .ok w)
    (hdecodes : ∀ more, room ≤ more → payloadFromWire types (more + 1) w variant bs = .ok v) :
    Repeats types (room + 1) (.payload variant bs) v w :=
  ⟨forall_succ hencodes, forall_succ_le hdecodes⟩

/-! ## Null -/

theorem exists_variant_of_enumFromWire {ident : TypeIdent} {enum : Text}
    {variants : List (Variant Text)} {options : EnumOptions Text} {bs : List (Text × TypeIdent)}
    (h : enumFromWire types room d ident enum variants options bs = .ok v) :
    ∃ name c, v = .variant name c := by
  cases room with
  | zero => cases h
  | succ room =>
    unfold enumFromWire at h
    split at h
    · obtain ⟨variant, -, payload, -, heq⟩ := firstFit_eq_ok h
      exact ⟨_, _, heq⟩
    · split at h
      · obtain ⟨variant, -, hrest⟩ := bind_eq_ok.mp h
        obtain ⟨c, -, heq⟩ := bind_eq_ok.mp hrest
        exact ⟨_, _, (Except.ok.inj heq).symm⟩
      · obtain ⟨variant, -, hrest⟩ := bind_eq_ok.mp h
        obtain ⟨c, -, heq⟩ := bind_eq_ok.mp hrest
        exact ⟨_, _, (Except.ok.inj heq).symm⟩
      · cases h
      · cases h
    · split at h
      · split at h
        · cases h
        · obtain ⟨variant, -, hrest⟩ := bind_eq_ok.mp h
          obtain ⟨c, -, heq⟩ := bind_eq_ok.mp hrest
          exact ⟨_, _, (Except.ok.inj heq).symm⟩
      · cases h
    · split at h
      · split at h
        · cases h
        · obtain ⟨variant, -, hrest⟩ := bind_eq_ok.mp h
          split at hrest
          · exact ⟨_, _, (Except.ok.inj hrest).symm⟩
          · obtain ⟨c, -, heq⟩ := bind_eq_ok.mp hrest
            exact ⟨_, _, (Except.ok.inj heq).symm⟩
      · cases h

/-- **Nothing but null is decoded to null.** -/
theorem null_of_fromWire : ∀ (room : Nat) {d : Value} {ident : TypeIdent},
    fromWire types room d ident = .ok .null → d = .null
  | 0, _, _, h => by cases h
  | room + 1, d, ident, h => by
    unfold fromWire at h
    obtain ⟨type, -, h⟩ := bind_eq_ok.mp h
    cases type with
    | primitive p => exact absurd rfl (primitive_returns h).2.2.1
    | string name => obtain ⟨_, -, heq⟩ := checkText_eq_ok h; cases heq
    | unit name =>
      dsimp only at h
      split at h
      · rename_i hnull; exact Value.isNull_iff.mp hnull
      · cases h
    | synonym name aliased => exact null_of_fromWire room h
    | container name inner =>
      dsimp only at h
      split at h
      · rename_i hnull; exact Value.isNull_iff.mp hnull
      · exact null_of_fromWire room h
    | custom name args rust typescript => exact Except.ok.inj h
    | enum name generics variants options doc =>
      obtain ⟨_, _, heq⟩ := exists_variant_of_enumFromWire h
      cases heq
    -- the others give a list or a map
    | list name inner =>
      cases d with
      | list items =>
        cases room with
        | zero => cases h
        | succ room => obtain ⟨_, -, heq⟩ := bind_eq_ok.mp h; cases heq
      | _ => cases h
    | map name key value =>
      cases d with
      | map entries =>
        cases room with
        | zero => cases h
        | succ room => obtain ⟨_, -, heq⟩ := bind_eq_ok.mp h; cases heq
      | _ => cases h
    | tuple items =>
      cases room with
      | zero => cases h
      | succ room =>
        cases d with
        | list values =>
          dsimp only [tupleFromWire] at h
          split at h
          · cases room with
            | zero => cases h
            | succ room => obtain ⟨_, -, heq⟩ := bind_eq_ok.mp h; cases heq
          · cases h
        | _ => cases h
    | struct name generics fields doc =>
      cases room with
      | zero => cases h
      | succ room =>
        cases d with
        | map entries => obtain ⟨_, -, heq⟩ := bind_eq_ok.mp h; cases heq
        | _ => cases h
    | generic name => cases h

/-! ## Sequences -/

theorem items_sent {inner : TypeIdent} {items : List Value} (ih : ∀ r < room, Resends types r)
    (hitems : ∀ item ∈ items, item.HasDistinctKeys)
    (hsafe : ∀ cs, v = .list cs → ∀ c ∈ cs, Resendable types (.type inner) c)
    (h : itemsFromWire types room items inner = .ok v) :
    ∃ cs ws, v = .list cs
      ∧ (∀ more, room < more → itemsToWire types more cs inner = .ok (.list ws))
      ∧ ∀ more, room ≤ more → itemsFromWire types more ws inner = .ok (.list cs) := by
  cases room with
  | zero => cases h
  | succ room =>
    unfold itemsFromWire at h
    obtain ⟨cs, hcs, heq⟩ := bind_eq_ok.mp h
    cases heq
    have hback : ∀ c ∈ cs, ∃ w, Repeats types room (.type inner) c w := by
      intro c hc
      obtain ⟨item, hitem, hread⟩ := exists_of_mem_results hcs hc
      exact (ih room (Nat.lt_succ_self _)).repeats (hsafe cs rfl c hc) (hitems item hitem) hread
    obtain ⟨ws, hws⟩ := exists_forall₂ hback
    refine ⟨cs, ws, rfl, forall_succ fun more hmore => ?_, forall_succ_le fun more hmore => ?_⟩
    · unfold itemsToWire
      exact bind_eq_ok.mpr
        ⟨ws, mapM_eq_ok_iff.mpr (hws.imp fun _ _ hw => hw.encodes more hmore), rfl⟩
    · unfold itemsFromWire
      refine bind_eq_ok.mpr ⟨cs, mapM_eq_ok_iff.mpr ?_, rfl⟩
      exact (List.Forall₂.flip hws).imp fun _ _ hw => hw.decodes more hmore

/-- Two of three lists go together through the third. -/
theorem forall₂_swap {α β τ : Type} {P : α → τ → β → Prop} {as : List α} {ts : List τ} {bs : List β}
    (hlength : as.length = ts.length)
    (h : List.Forall₂ (fun x b => P x.1 x.2 b) (as.zip ts) bs) :
    List.Forall₂ (fun y a => P a y.2 y.1) (bs.zip ts) as := by
  induction as generalizing ts bs with
  | nil => cases h; exact .nil
  | cons a as ih =>
    cases ts with
    | nil => cases hlength
    | cons t ts =>
      cases h with
      | cons hhead hrest => exact .cons hhead (ih (Nat.succ.inj hlength) hrest)

theorem each_sent {items : List Value} {idents : List TypeIdent}
    (ih : ∀ r < room, Resends types r) (hlength : items.length = idents.length)
    (hitems : ∀ item ∈ items, item.HasDistinctKeys)
    (hsafe : ∀ cs, v = .tuple cs → cs.length = idents.length →
      ∀ x ∈ cs.zip idents, Resendable types (.type x.2) x.1)
    (h : eachFromWire types room (items.zip idents) = .ok v) :
    ∃ cs ws, v = .tuple cs ∧ cs.length = idents.length ∧ ws.length = idents.length
      ∧ (∀ more, room < more → eachToWire types more (cs.zip idents) = .ok (.list ws))
      ∧ ∀ more, room ≤ more → eachFromWire types more (ws.zip idents) = .ok (.tuple cs) := by
  cases room with
  | zero => cases h
  | succ room =>
    unfold eachFromWire at h
    obtain ⟨cs, hcs, heq⟩ := bind_eq_ok.mp h
    cases heq
    have hreads := mapM_eq_ok_iff.mp hcs
    have hcount : cs.length = idents.length := by
      rw [← hreads.length_eq, List.length_zip, hlength, Nat.min_self]
    -- what each item was read from
    have hread := forall₂_swap (P := fun item ident c => fromWire types room item ident = .ok c)
      hlength hreads
    have hback : ∀ x ∈ cs.zip idents, ∃ w, Repeats types room (.type x.2) x.1 w := by
      intro x hx
      obtain ⟨item, hmem⟩ := exists_mem_zip hread.length_eq hx
      have hitem := hitems item (List.of_mem_zip hmem).2
      exact (ih room (Nat.lt_succ_self _)).repeats (hsafe cs rfl hcount x hx) hitem
        ((List.forall₂_iff_zip.mp hread).2 hmem)
    obtain ⟨ws, hws⟩ := exists_forall₂ hback
    have hwcount : ws.length = idents.length := by
      rw [← hws.length_eq, List.length_zip, hcount, Nat.min_self]
    refine ⟨cs, ws, rfl, hcount, hwcount, forall_succ fun more hmore => ?_,
      forall_succ_le fun more hmore => ?_⟩
    · unfold eachToWire
      exact bind_eq_ok.mpr
        ⟨ws, mapM_eq_ok_iff.mpr (hws.imp fun _ _ hw => hw.encodes more hmore), rfl⟩
    · unfold eachFromWire
      refine bind_eq_ok.mpr ⟨cs, mapM_eq_ok_iff.mpr ?_, rfl⟩
      exact (forall₂_swap (P := fun c ident w => Repeats types room (.type ident) c w)
        hcount hws).imp fun _ _ hw => hw.decodes more hmore

theorem tuple_sent {idents : List TypeIdent} {ident : TypeIdent}
    (ih : ∀ r < room, Resends types r) (hsafe : Resendable types (.items idents) v)
    (hd : d.HasDistinctKeys) (h : tupleFromWire types room d idents ident = .ok v) :
    ∃ items cs ws, d = .list items ∧ v = .tuple cs
      ∧ (∀ more, room < more → tupleToWire types more v idents ident = .ok (.list ws))
      ∧ ∀ more, room ≤ more → tupleFromWire types more (.list ws) idents ident = .ok v := by
  cases room with
  | zero => cases h
  | succ room =>
    unfold tupleFromWire at h
    split at h
    · rename_i items
      split at h
      · rename_i hlength
        have hitems : ∀ item ∈ items, item.HasDistinctKeys :=
          fun item hitem => hd.below (.item hitem)
        have hparts : ∀ cs, v = .tuple cs → cs.length = idents.length →
            ∀ x ∈ cs.zip idents, Resendable types (.type x.2) x.1 := by
          rintro cs rfl hcount x hx
          have hshape : shape? types (.items idents) (.tuple cs) = some (.made
              ((cs.zip idents).map fun x => (.type x.2, x.1)) .tuple) := by
            simp [shape?, Value.items?, hcount]
          exact hsafe.part ⟨_, _, hshape, List.mem_map_of_mem hx⟩
        obtain ⟨cs, ws, rfl, hcount, hwcount, hencode, hdecode⟩ :=
          each_sent (fun r hr => ih r (Nat.lt_succ_of_lt hr)) hlength hitems hparts h
        refine ⟨items, cs, ws, rfl, rfl, forall_succ fun more hmore => ?_,
          forall_succ_le fun more hmore => ?_⟩
        · unfold tupleToWire
          simp only [Value.items?, hcount, if_true]
          exact hencode more hmore
        · unfold tupleFromWire
          simp only [hwcount, if_true]
          exact hdecode more hmore
      · cases h
    · cases h

/-! ## Maps -/

/-- How much room is left plays no part in what a primitive value is taken for. -/
theorem checkPrimitive_again {p : Primitive} {ident : TypeIdent} (more : Nat)
    (h : checkPrimitive room p ident v = .ok w) : checkPrimitive more p ident v = .ok w := by
  unfold checkPrimitive at h ⊢
  split at h
  · rename_i hp
    rw [if_pos hp]
    cases v with
    | bool b => exact h
    | _ => cases h
  rename_i hp
  rw [if_neg hp]
  split at h
  · rename_i hfloat
    rw [if_pos hfloat]
    cases v with
    | float x => exact h
    | int n => exact h
    | _ => cases h
  · rename_i hfloat
    rw [if_neg hfloat]
    cases v with
    | int n =>
      dsimp only at h ⊢
      split at h
      · cases h
      rename_i hrange
      rw [if_neg hrange]
      split at h
      · cases h
      rename_i hwide
      rw [if_neg hwide]
      exact h
    | _ => cases h

/-- **A key stays what it is when it is decoded first.** -/
theorem Scalar.fromWire_eq {ident : TypeIdent} (hscalar : Scalar types ident) {k : Value}
    (h : fromWire types room v ident = .ok k) :
    k = v ∧ v.isKey = true ∧ ∀ more, room ≤ more →
      toWire types more v ident = .ok v ∧ fromWire types more v ident = .ok v := by
  induction hscalar generalizing room with
  | text hresolve =>
    cases room with
    | zero => cases h
    | succ room =>
      unfold fromWire at h
      rw [resolveWithin_eq_ok.mpr hresolve, bind_ok] at h
      obtain ⟨s, rfl, rfl⟩ := checkText_eq_ok h
      refine ⟨rfl, rfl, forall_succ_le fun more _ => ?_⟩
      unfold toWire fromWire
      rw [resolveWithin_eq_ok.mpr hresolve, bind_ok, bind_ok]
      exact ⟨rfl, rfl⟩
  | primitive hresolve hp =>
    cases room with
    | zero => cases h
    | succ room =>
      unfold fromWire at h
      rw [resolveWithin_eq_ok.mpr hresolve, bind_ok] at h
      obtain ⟨rfl, hkey⟩ := checkPrimitive_unchanged hp h
      refine ⟨rfl, hkey, forall_succ_le fun more _ => ?_⟩
      unfold toWire fromWire
      rw [resolveWithin_eq_ok.mpr hresolve, bind_ok, bind_ok]
      exact ⟨checkPrimitive_again more h, checkPrimitive_again more h⟩
  | synonym hresolve _ ih =>
    cases room with
    | zero => cases h
    | succ room =>
      unfold fromWire at h
      rw [resolveWithin_eq_ok.mpr hresolve, bind_ok] at h
      obtain ⟨rfl, hkey, hagain⟩ := ih h
      refine ⟨rfl, hkey, forall_succ_le fun more hmore => ?_⟩
      unfold toWire fromWire
      rw [resolveWithin_eq_ok.mpr hresolve, bind_ok, bind_ok]
      exact hagain more hmore

theorem distinctKeys_put {entries : Entries} {key : Value} (value : Value)
    (h : DistinctKeys (entries.map (·.1))) : DistinctKeys ((entries.put key value).map (·.1)) := by
  obtain hnew | hpresent := Entries.new_or_present entries key
  · rw [Entries.put_new value hnew, List.map_append]
    refine List.pairwise_append.mpr ⟨h, List.pairwise_singleton _ _, fun k hk k' hk' => ?_⟩
    obtain ⟨e, he, rfl⟩ := List.mem_map.mp hk
    cases List.mem_singleton.mp hk'
    exact hnew e he
  · rwa [Entries.keys_put_present value hpresent]

/-- What holds of the keys and of the values of some entries holds with one more of each. -/
theorem forall_mem_put {P Q : Value → Prop} {entries : Entries} {key value : Value}
    (h : ∀ e ∈ entries, P e.1 ∧ Q e.2) (hkey : P key) (hvalue : Q value) :
    ∀ e ∈ entries.put key value, P e.1 ∧ Q e.2 := by
  induction entries with
  | nil => simpa [Entries.put] using ⟨hkey, hvalue⟩
  | cons first rest ih =>
    obtain ⟨hfirst, hrest⟩ := List.forall_mem_cons.mp h
    rw [Entries.put]
    split
    · exact List.forall_mem_cons.mpr ⟨⟨hfirst.1, hvalue⟩, hrest⟩
    · exact List.forall_mem_cons.mpr ⟨hfirst, ih hrest⟩

/-- Entries that were read from others: each has the key of one and the value of one. -/
structure ReadFrom (types : TypeMap Text) (room : Nat) (key inner : TypeIdent)
    (entries out : Entries) : Prop where
  distinct : DistinctKeys (out.map (·.1))
  each : ∀ e ∈ out, ((∃ x ∈ entries, x.1 = e.1) ∧ fromWire types room e.1 key = .ok e.1)
    ∧ ∃ x ∈ entries, fromWire types room x.2 inner = .ok e.2

theorem readFrom_of_stored {key inner : TypeIdent} {entries : Entries}
    (hscalar : Scalar types key) :
    Yields (ReadFrom types room key inner entries)
      (entries.foldlM (storeConverted (fromWire types room · key) (fromWire types room · inner))
        []) := by
  refine yields_foldlM ⟨List.Pairwise.nil, nofun⟩ fun x hx stored hstored next hnext => ?_
  obtain ⟨k, hk, hnext⟩ := bind_eq_ok.mp hnext
  obtain ⟨c, hc, hnext⟩ := bind_eq_ok.mp hnext
  obtain ⟨-, rfl⟩ := storeKey_eq_ok hnext
  obtain ⟨rfl, -, -⟩ := hscalar.fromWire_eq hk
  exact ⟨distinctKeys_put c hstored.distinct,
    forall_mem_put (P := fun k => (∃ x ∈ entries, x.1 = k) ∧ fromWire types room k key = .ok k)
      (Q := fun c => ∃ x ∈ entries, fromWire types room x.2 inner = .ok c)
      hstored.each ⟨⟨x, hx, rfl⟩, hk⟩ ⟨x, hx, hc⟩⟩

theorem entries_sent {key inner : TypeIdent} {entries : Entries}
    (ih : ∀ r < room, Resends types r) (hscalar : Scalar types key)
    (hentries : ∀ e ∈ entries, e.2.HasDistinctKeys)
    (hsafe : ∀ out, v = .map out → ∀ e ∈ out, Resendable types (.type inner) e.2)
    (h : entriesFromWire types room entries key inner = .ok v) :
    ∃ (out : Entries) (ws : List Value), v = .map out ∧ ws.length = out.length
      ∧ DistinctKeys (out.map (·.1)) ∧ (∀ e ∈ out, ∃ x ∈ entries, x.1 = e.1)
      ∧ (∀ more, room < more → entriesToWire types more out key inner
          = .ok (.map ((out.map (·.1)).zip ws)))
      ∧ ∀ more, room ≤ more → entriesFromWire types more ((out.map (·.1)).zip ws) key inner
          = .ok (.map out) := by
  cases room with
  | zero => cases h
  | succ room =>
    unfold entriesFromWire at h
    obtain ⟨out, hout, heq⟩ := bind_eq_ok.mp h
    cases heq
    have hread := readFrom_of_stored hscalar out hout
    have hback : ∀ e ∈ out, ∃ w, Repeats types room (.type inner) e.2 w
        ∧ fromWire types room e.1 key = .ok e.1 := by
      intro e he
      obtain ⟨⟨-, hkey⟩, x, hx, hvalue⟩ := hread.each e he
      obtain ⟨w, hw⟩ :=
        (ih room (Nat.lt_succ_self _)).repeats (hsafe out rfl e he) (hentries x hx) hvalue
      exact ⟨w, hw, hkey⟩
    obtain ⟨ws, hws⟩ := exists_forall₂ hback
    have hlength := hws.length_eq
    have hkeys : ((out.map (·.1)).zip ws).map (·.1) = out.map (·.1) :=
      List.map_fst_zip (by rw [List.length_map]; exact Nat.le_of_eq hlength)
    refine ⟨out, ws, rfl, hlength.symm, hread.distinct, fun e he => (hread.each e he).1.1,
      forall_succ fun more hmore => ?_, forall_succ_le fun more hmore => ?_⟩
    · unfold entriesToWire
      refine bind_eq_ok.mpr ⟨_, foldlM_store (hws.imp fun e w hw => ?_) hread.distinct, rfl⟩
      obtain ⟨-, hiskey, hagain⟩ := hscalar.fromWire_eq hw.2
      exact storeConverted_eq (fun k => toWire types more k key)
        (fun v => toWire types more v inner)
        (hagain more (Nat.le_of_lt hmore)).1 (hw.1.encodes more hmore) hiskey
    · have hkeyReads : List.Forall₂ (fun k _ => fromWire types more k key = .ok k ∧ k.isKey = true)
          (out.map (·.1)) ws := by
        rw [List.forall₂_map_left_iff]
        refine hws.imp fun e w hw => ?_
        obtain ⟨-, hiskey, hagain⟩ := hscalar.fromWire_eq hw.2
        exact ⟨(hagain more hmore).2, hiskey⟩
      have hvalueReads : List.Forall₂ (fun w c => fromWire types more w inner = .ok c) ws
          (out.map (·.2)) := by
        rw [List.forall₂_map_right_iff]
        exact (List.Forall₂.flip hws).imp fun w e hw => hw.1.decodes more hmore
      have hstores := (forall₂_zip_left hkeyReads hvalueReads).imp fun e c he =>
        storeConverted_eq (fun k => fromWire types more k key)
          (fun v => fromWire types more v inner)
          he.1.1 he.2 he.1.2
      have hfold := foldlM_store hstores (by rw [hkeys]; exact hread.distinct)
      rw [hkeys, ← List.zip_of_prod rfl rfl] at hfold
      unfold entriesFromWire
      exact bind_eq_ok.mpr ⟨_, hfold, rfl⟩

/-! ## Structs -/

section Structs

variable {fields : List (Field Text)} {bs : List (Text × TypeIdent)} {name : Text}
  {entries stored : Entries}

/-- What is stored for fields with keys of their own. -/
theorem storeFields_eq (stored : Entries) {items : List (Option Value)}
    (h : List.Forall₂ (fun field item? => (entries.findName? field.name).isSome = true
      ∧ StoredAs types room (field.type.substitute bs) (fieldValue entries field) item?)
      fields items) (hfree : KeysFree stored (presentKeys types bs entries fields)) :
    fields.foldlM (storeField types room name bs entries) stored
      = .ok (stored ++ storedFields fields items) := by
  induction h generalizing stored with
  | nil => simp [storedFields]
  | @cons field item? fields items hfield _ ih =>
    obtain ⟨hsome, hstored⟩ := hfield
    rw [List.foldlM_cons, storedFields_cons]
    cases item? with
    | none =>
      have habsent : field.isAbsent types bs entries = true := hstored
      rw [presentKeys_absent habsent] at hfree
      rw [storeField_absent habsent, bind_ok, ih _ hfree]
      rfl
    | some w =>
      obtain ⟨hpresent, hw⟩ := hstored
      have hhere : field.isAbsent types bs entries = false := hpresent
      rw [presentKeys_present hhere, keysFree_cons w] at hfree
      obtain ⟨item, hitem⟩ := Option.isSome_iff_exists.mp hsome
      rw [fieldValue, hitem, Option.getD_some] at hw
      rw [storeField_present hhere, hitem]
      simp only [hfree.1, Option.isSome_none, Bool.false_eq_true, if_false, hw, bind_ok]
      rw [ih _ hfree.2]
      simp

/-- What is read for fields with keys of their own stands under their names. -/
theorem restoreFields_eq (name : Text) (hkeys : (fields.map fun f => fieldWireKey f.name).Nodup)
    {read : Field Text → Value} (h : ∀ f ∈ fields, ReadAs types room (f.type.substitute bs) (read f)
      (entries.findName? (fieldWireKey f.name))) :
    fields.foldlM (restoreField types room name bs entries) []
      = .ok ((fields.map fun f => .str f.name).zip (fields.map read)) := by
  refine foldlM_store (List.forall₂_map_right_iff.mpr ?_) (distinctKeys_fields hkeys)
  exact List.forall₂_same.mpr fun f hf => restoreField_of_readAs (h f hf)

/-- An option that is absent was read from nothing or from null, and nothing is stored for it. -/
theorem member_sent {ident : TypeIdent} {item? : Option Value} (hresends : Resends types room)
    (hsafe : Resendable types (.member ident) v) (hitem : ∀ item, item? = some item →
      item.HasDistinctKeys) (h : ReadAs types room ident v item?) :
    ∃ stored?, (∀ more, room < more → StoredAs types more ident v stored?)
      ∧ (∀ more, room ≤ more → ReadAs types more ident v stored?)
      ∧ (item? = none → stored? = none) := by
  cases habsent : v.isNull && types.isOptional ident with
  | true =>
    obtain ⟨hnull, hoptional⟩ := Bool.and_eq_true_iff.mp habsent
    exact ⟨none, fun _ _ => habsent, fun _ _ => ⟨hoptional, Value.isNull_iff.mp hnull⟩,
      fun _ => rfl⟩
  | false =>
    cases item? with
    | none =>
      obtain ⟨hoptional, rfl⟩ := h
      rw [hoptional] at habsent
      cases habsent
    | some item =>
      have hshape : shape? types (.member ident) v = some (.one (.type ident) v) := by
        simp only [shape?, habsent, Bool.false_eq_true, if_false]
      obtain ⟨w, hw⟩ := hresends.repeats (hsafe.one hshape) (hitem item rfl) h
      exact ⟨some w, fun more hmore => ⟨habsent, hw.encodes more hmore⟩, hw.decodes, by simp⟩

theorem struct_sent (ih : ∀ r < room, Resends types r)
    (hsafe : Resendable types (.fields fields bs) v) (hd : d.HasDistinctKeys)
    (h : structFromWire types room d name fields bs = .ok v) :
    ∃ entries out stored : Entries, d = .map entries ∧ v = .map out
      ∧ DistinctKeys (stored.map (·.1))
      ∧ (∀ other, entries.findName? other = none → stored.findName? other = none)
      ∧ (∀ more, room < more → structToWire types more v name fields bs = .ok (.map stored))
      ∧ ∀ more, room ≤ more → structFromWire types more (.map stored) name fields bs = .ok v := by
  cases room with
  | zero => cases h
  | succ room =>
    unfold structFromWire at h
    cases d with
    | map entries =>
      obtain ⟨out, hout, heq⟩ := bind_eq_ok.mp h
      cases heq
      have hkeys : (fields.map fun f => fieldWireKey f.name).Nodup := hsafe.readable _ _ .refl
      have hread := (of_restoreFields (nodup_names hkeys) hout).2
      have hreadAs : ∀ f ∈ fields, ReadAs types room (f.type.substitute bs) (fieldValue out f)
          (Entries.findName? entries (fieldWireKey f.name)) := by
        intro f hf
        obtain ⟨c, hc, hreadAs⟩ := hread f hf
        rwa [fieldValue, hc]
      have hshape : shape? types (.fields fields bs) (.map out) = some (.made
          (fields.map fun f => (.member (f.type.substitute bs), fieldValue out f))
          fun forms => .map ((fields.map fun f => .str f.name).zip forms)) := rfl
      have hmembers : ∀ f ∈ fields, ∃ stored?,
          (∀ more, room < more →
            StoredAs types more (f.type.substitute bs) (fieldValue out f) stored?)
          ∧ (∀ more, room ≤ more →
            ReadAs types more (f.type.substitute bs) (fieldValue out f) stored?)
          ∧ (Entries.findName? entries (fieldWireKey f.name) = none → stored? = none) :=
        fun f hf => member_sent (ih room (Nat.lt_succ_self _))
          (hsafe.part ⟨_, _, hshape, List.mem_map_of_mem hf⟩)
          (fun item hitem => hd.below (below_of_findName? hitem)) (hreadAs f hf)
      obtain ⟨items, hitems⟩ := exists_forall₂ hmembers
      obtain ⟨hlength, hzipped⟩ := List.forall₂_iff_zip.mp hitems
      -- what was decoded has the fields and nothing else
      have houtEq := restoreFields_eq name hkeys hreadAs
      have hzip : out = (fields.map fun f => .str f.name).zip (fields.map (fieldValue out)) :=
        Except.ok.inj (hout.symm.trans houtEq)
      have hknown : ∀ e ∈ out, ∃ f ∈ fields, e.1 = .str f.name := by
        intro e he
        rw [hzip] at he
        obtain ⟨f, hf, heq⟩ := List.mem_map.mp (List.of_mem_zip he).1
        exact ⟨f, hf, heq.symm⟩
      have hfree : KeysFree [] (presentKeys types bs out fields) :=
        ⟨hkeys.sublist (List.filter_sublist.map _), fun _ _ => rfl⟩
      refine ⟨entries, out, storedFields fields items, rfl, rfl, distinctKeys_storedFields hkeys,
        fun other hother => ?_, forall_succ fun more hmore => ?_,
        forall_succ_le fun more hmore => ?_⟩
      · by_contra hsome
        obtain ⟨x, hx⟩ := Option.ne_none_iff_exists'.mp hsome
        obtain ⟨⟨field, item?⟩, hmem, he⟩ := List.mem_filterMap.mp (Entries.mem_of_findName? hx)
        obtain ⟨w, hw, heq⟩ := Option.map_eq_some_iff.mp he
        obtain rfl : fieldWireKey field.name = other := by simpa using congrArg Prod.fst heq
        have hnone : item? = none := (hzipped hmem).2.2 hother
        rw [hnone] at hw
        cases hw
      · rw [structToWire_map hknown]
        refine bind_eq_ok.mpr ⟨storedFields fields items, ?_, rfl⟩
        refine storeFields_eq [] (List.forall₂_iff_zip.mpr
          ⟨hlength, fun hmem => ⟨?_, (hzipped hmem).1 more hmore⟩⟩) hfree
        obtain ⟨c, hc, -⟩ := hread _ (List.of_mem_zip hmem).1
        rw [hc]
        rfl
      · unfold structFromWire
        refine bind_eq_ok.mpr ⟨out, ?_, rfl⟩
        refine (restoreFields_eq name hkeys fun f hf => ?_).trans (congrArg _ hzip.symm)
        obtain ⟨item?, hmem⟩ := exists_mem_zip hlength hf
        rw [findName?_storedFields hkeys hmem]
        exact (hzipped hmem).2.1 more hmore
    | _ => cases h

end Structs

end WasmBridge
