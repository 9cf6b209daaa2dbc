import WasmBridge.Proofs.Wire.SentAgain

/-!
# What cannot be sent again

Not all that the decoder returns can be encoded. A variant without payload that stands for
itself is read from its name as well as from a map of one entry, but it is encoded to its
name. Beside an internal tag there is only room for a map; so a variant that carries such a
mere name was decoded, and cannot be encoded. This is all that stands in the way: where a
value visits no such variant, it is encoded, and what it is encoded to is decoded to it.
-/

namespace WasmBridge

open Outcome

variable {types : TypeMap Text} {room : Nat} {d v w u : Value} {ident : TypeIdent} {slot s : Slot}
  {place : Place}

/-! ## Parts of what is encoded -/

/-- What stands in a slot can be encoded, with room enough. -/
def Slot.Encodes (types : TypeMap Text) : Slot → Value → Prop
  | .type ident, v => ∃ room w, toWire types room v ident = .ok w
  | .items idents, v => ∃ room ident w, tupleToWire types room v idents ident = .ok w
  | .fields members bs, v => ∃ room name w, structToWire types room v name members bs = .ok w
  | .member ident, v =>
    (v.isNull && types.isOptional ident) = true ∨ ∃ room w, toWire types room v ident = .ok w
  | .payload variant bs, v => ∃ room w, payloadToWire types room v variant bs = .ok w

/-- The parts of a value of a type, whatever kind of type it is. -/
theorem encodes_part_of_type {part : Slot × Value} (h : toWire types room v ident = .ok w)
    (hpart : Part types (.type ident, v) part) : part.1.Encodes types part.2 := by
  obtain ⟨parts, build, hshape, hmem⟩ := hpart
  cases room with
  | zero => cases h
  | succ room =>
    unfold toWire at h
    obtain ⟨type, hresolve, h⟩ := bind_eq_ok.mp h
    rw [shape?_type (resolveWithin_eq_ok.mp hresolve)] at hshape
    cases type with
    | primitive p =>
      simp only [shapeOf?] at hshape
      split at hshape
      · obtain ⟨_, -, heq⟩ := Option.map_eq_some_iff.mp hshape; cases heq
      · cases hshape
    | string name => cases hshape
    | unit name => cases hshape
    | synonym name aliased =>
      cases hshape
      cases List.mem_singleton.mp hmem
      exact ⟨room, w, h⟩
    | container name inner =>
      simp only [shapeOf?] at hshape
      dsimp only at h
      split at h
      · rename_i hnull
        rw [if_pos hnull] at hshape
        cases hshape
      · rename_i hnull
        rw [if_neg hnull] at hshape
        cases hshape
        cases List.mem_singleton.mp hmem
        exact ⟨room, w, h⟩
    | custom name args rust typescript => cases hshape
    | list name inner =>
      obtain ⟨items, hitems, heq⟩ := Option.map_eq_some_iff.mp hshape
      cases heq
      obtain ⟨item, hitem, rfl⟩ := List.mem_map.mp hmem
      simp only [hitems] at h
      cases room with
      | zero => cases h
      | succ room =>
        obtain ⟨ws, hws, -⟩ := bind_eq_ok.mp h
        obtain ⟨w', hw'⟩ := exists_of_mem_mapM hws hitem
        exact ⟨room, w', hw'⟩
    | map name key value =>
      cases v with
      | map entries =>
        cases hshape
        obtain ⟨e, he, rfl⟩ := List.mem_map.mp hmem
        cases room with
        | zero => cases h
        | succ room =>
          obtain ⟨out, hout, -⟩ := bind_eq_ok.mp h
          have hstores : entries.foldlM (storeConverted
              (fun k => toWire types room k (ident.args.headD default))
              (fun v => toWire types room v ((ident.args.drop 1).headD default))) [] = .ok out :=
            hout
          obtain ⟨converted, hconverted⟩ := exists_converted hstores
          obtain ⟨c, hc⟩ := exists_of_mem_mapM hconverted he
          obtain ⟨_, -, hc⟩ := bind_eq_ok.mp hc
          obtain ⟨w', hw', -⟩ := bind_eq_ok.mp hc
          exact ⟨room, w', hw'⟩
      | _ => cases hshape
    | tuple items =>
      cases hshape
      cases List.mem_singleton.mp hmem
      exact ⟨room, ident, w, h⟩
    | struct name generics fields doc =>
      cases hshape
      cases List.mem_singleton.mp hmem
      exact ⟨room, name, w, h⟩
    | enum name generics variants options doc =>
      cases v with
      | variant vname payload =>
        obtain ⟨variant, hfound, heq⟩ := Option.map_eq_some_iff.mp hshape
        cases heq
        cases List.mem_singleton.mp hmem
        cases room with
        | zero => cases h
        | succ room =>
          obtain ⟨variant', hvariant, h⟩ := bind_eq_ok.mp h
          obtain ⟨p, hp, -⟩ := bind_eq_ok.mp h
          cases (findVariant_eq_ok hvariant).symm.trans hfound
          exact ⟨room, p, hp⟩
      | _ => cases hshape
    | generic name => cases hshape

/-- The items of a tuple. -/
theorem encodes_part_of_items {idents : List TypeIdent} {part : Slot × Value}
    (h : tupleToWire types room v idents ident = .ok w)
    (hpart : Part types (.items idents, v) part) : part.1.Encodes types part.2 := by
  obtain ⟨parts, build, hshape, hmem⟩ := hpart
  obtain ⟨items, hitems, hshape⟩ := Option.bind_eq_some_iff.mp hshape
  split at hshape
  · rename_i hlength
    cases hshape
    obtain ⟨x, hx, rfl⟩ := List.mem_map.mp hmem
    cases room with
    | zero => cases h
    | succ room =>
      simp only [tupleToWire, hitems, if_pos hlength] at h
      cases room with
      | zero => cases h
      | succ room =>
        obtain ⟨ws, hws, -⟩ := bind_eq_ok.mp h
        obtain ⟨w', hw'⟩ := exists_of_mem_mapM hws hx
        exact ⟨room, w', hw'⟩
  · cases hshape

/-- The fields of a struct; an option that is absent need not be encoded. -/
theorem encodes_part_of_fields {members : List (Field Text)} {bs : List (Text × TypeIdent)}
    {name : Text} {part : Slot × Value} (h : structToWire types room v name members bs = .ok w)
    (hpart : Part types (.fields members bs, v) part) : part.1.Encodes types part.2 := by
  obtain ⟨parts, build, hshape, hmem⟩ := hpart
  cases v with
  | map entries =>
    cases hshape
    obtain ⟨f, hf, rfl⟩ := List.mem_map.mp hmem
    cases room with
    | zero => cases h
    | succ room =>
      obtain ⟨_, -, h⟩ := bind_eq_ok.mp h
      obtain ⟨out, hout, -⟩ := bind_eq_ok.mp h
      obtain ⟨items, -, hitems⟩ := of_storeFields hout
      obtain ⟨hlength, hzip⟩ := List.forall₂_iff_zip.mp hitems
      obtain ⟨item?, hitem⟩ := exists_mem_zip hlength hf
      have hstored := hzip hitem
      cases item? with
      | none => exact .inl hstored
      | some w' => exact .inr ⟨room, w', hstored.2⟩
  | _ => cases hshape

/-- **What can be encoded has parts that can.** -/
theorem Slot.Encodes.part (h : slot.Encodes types v) (hpart : Part types (slot, v) (s, u)) :
    s.Encodes types u := by
  cases slot with
  | type ident =>
    obtain ⟨room, w, h⟩ := h
    exact encodes_part_of_type h hpart
  | items idents =>
    obtain ⟨room, ident, w, h⟩ := h
    exact encodes_part_of_items h hpart
  | fields members bs =>
    obtain ⟨room, name, w, h⟩ := h
    exact encodes_part_of_fields h hpart
  | member ident =>
    obtain ⟨parts, build, hshape, hmem⟩ := hpart
    cases habsent : v.isNull && types.isOptional ident with
    | true =>
      simp only [shape?, habsent, if_true] at hshape
      cases hshape
    | false =>
      simp only [shape?, habsent, Bool.false_eq_true, if_false] at hshape
      cases hshape
      cases List.mem_singleton.mp hmem
      obtain habsent' | h := h
      · rw [habsent] at habsent'
        cases habsent'
      · exact h
  | payload variant bs =>
    obtain ⟨parts, build, hshape, hmem⟩ := hpart
    obtain ⟨room, w, h⟩ := h
    cases room with
    | zero => cases h
    | succ room =>
      unfold payloadToWire at h
      simp only [shape?] at hshape
      split at h
      · rename_i hpayload
        rw [hpayload] at hshape
        cases hshape
      · rename_i name generics members doc hpayload
        rw [hpayload] at hshape
        cases hshape
        cases List.mem_singleton.mp hmem
        exact ⟨room, name, w, h⟩
      · rename_i item hpayload
        rw [hpayload] at hshape
        cases hshape
        cases List.mem_singleton.mp hmem
        exact ⟨room, w, h⟩
      · rename_i items hmany hpayload
        simp only [hpayload] at hshape
        cases hshape
        cases List.mem_singleton.mp hmem
        exact ⟨room, _, w, h⟩
      · cases h

/-- What can be encoded visits only what can. -/
theorem Slot.Encodes.visits {a b : Slot × Value} (h : a.1.Encodes types a.2)
    (hvisits : Visits types a b) : b.1.Encodes types b.2 := by
  induction hvisits with
  | refl => exact h
  | tail _ hpart ih => exact ih.part hpart

/-! ## Mere names -/

theorem Bare.exists_variant (h : Bare types place v) :
    ∃ name payload, v = .variant name payload := by
  induction h with
  | unit => exact ⟨_, _, rfl⟩
  | passesOn _ _ ih => exact ih

/-- A mere name is no map. -/
theorem Bare.encoded (h : Bare types place v)
    (hw : Direction.encoding.run types room v place = .ok w) : ∃ name, w = .str name := by
  induction h generalizing room with
  | unit h hencoding hfound hunit =>
    obtain ⟨_, variant, _, _, heq, hfound', -, hwrap⟩ := toWire_enum h hw
    cases heq
    cases hfound'.symm.trans hfound
    simp only [wrapVariant, hencoding, hunit, if_true] at hwrap
    exact ⟨_, (Except.ok.inj hwrap).symm⟩
  | passesOn hpasses hbare ih =>
    obtain ⟨name, payload, rfl⟩ := hbare.exists_variant
    cases room with
    | zero =>
      rw [run_zero] at hw
      cases hw
    | succ room =>
      have hthere : ¬(Value.variant name payload).isNull = true := Bool.false_ne_true
      rw [run_passed hpasses hthere] at hw
      exact ih hw

/-- A variant that carries a mere name beside its tag is not encoded. -/
theorem Slot.Encodes.not_carriesBare (h : slot.Encodes types v) : ¬CarriesBare types slot v := by
  intro hcarries
  cases slot with
  | type ident =>
    cases v with
    | variant name payload =>
      obtain ⟨enum, generics, variants, options, doc, tag, variant, hresolve, hencoding, hfound,
        hbare⟩ := hcarries
      obtain ⟨room, w, h⟩ := h
      obtain ⟨_, _, r, p, heq, hfound', hpayload, hwrap⟩ := toWire_enum hresolve h
      cases heq
      cases hfound'.symm.trans hfound
      obtain ⟨s, rfl⟩ := hbare.encoded
        (show Direction.encoding.run types r _ (.payload variant _) = .ok p from hpayload)
      have hunit : variant.payload.isUnit = false := by
        cases hbare with
        | passesOn hpasses _ =>
          cases hpasses with
          | item h => rw [h]; rfl
      simp only [wrapVariant, hencoding, hunit, Bool.false_eq_true, if_false] at hwrap
      cases hwrap
    | _ => exact hcarries
  | _ => cases v <;> exact hcarries

/--
**Whatever has been decoded can be sent again, if it can be encoded at all.** Let a type be
one whose values can be read again, and let no tag be the name of a content beside it. Then
a value that has been decoded there can be encoded exactly if no variant in it carries a mere
name beside an internal tag, which wants a map. In that case it is encoded with one call more
than it took to decode it, and what that gives is decoded to the same value.
-/
theorem decoded_values_return (hreadable : Readable types ident)
    (htags : TagsApart types ident) (hd : d.HasDistinctKeys)
    (h : fromWire types room d ident = .ok v) :
    ((∃ more w, toWire types more v ident = .ok w)
        ↔ ∀ s u, Visits types (.type ident, v) (s, u) → ¬CarriesBare types s u)
      ∧ ((∀ s u, Visits types (.type ident, v) (s, u) → ¬CarriesBare types s u) →
        ∃ w, (∀ more, room < more → toWire types more v ident = .ok w)
          ∧ ∀ more, room ≤ more → fromWire types more w ident = .ok v) := by
  have hsent : (∀ s u, Visits types (.type ident, v) (s, u) → ¬CarriesBare types s u) →
      ∃ w, (∀ more, room < more → toWire types more v ident = .ok w)
        ∧ ∀ more, room ≤ more → fromWire types more w ident = .ok v := by
    intro hcarries
    have hsafe : Resendable types (.type ident) v :=
      ⟨fun s _ hvisits => hreadable s hvisits.leads, fun s _ hvisits => htags s hvisits.leads,
        hcarries⟩
    obtain ⟨w, hw⟩ := all_sent room (.type ident) d v hsafe hd h
    exact ⟨w, hw.encodes, hw.decodes⟩
  refine ⟨⟨fun hencodes s u hvisits => ?_, fun hcarries => ?_⟩, hsent⟩
  · have hstart : (Slot.type ident).Encodes types v := hencodes
    exact (Slot.Encodes.visits (a := (.type ident, v)) hstart hvisits).not_carriesBare
  · obtain ⟨w, hw, -⟩ := hsent hcarries
    exact ⟨room + 1, w, hw _ (Nat.lt_succ_self room)⟩

/-! ## A mode beside a tag -/

namespace Switches

open Modes

/-- The only variant of an event sets a mode. -/
def set : Variant Text := .mk "Set" (.tuple [⟨"Mode", []⟩]) []

/-- A mode stands for itself, and an event has its tag beside the mode it sets. -/
def known : TypeMap Text :=
  .ofTypes [.enum "Mode" [] [off, named] {} [], .enum "Event" [] [set] { tag := some "type" } []]

/-- All that an event leads to. -/
def slots : List Slot :=
  [.type ⟨"Event", []⟩, .payload set [], .type ⟨"Mode", []⟩, .payload off [], .payload named [],
    .type ⟨"String", []⟩]

theorem resolve_event :
    known.resolve ⟨"Event", []⟩ = .ok (.enum "Event" [] [set] { tag := some "type" } []) := by
  rfl

theorem resolve_mode : known.resolve ⟨"Mode", []⟩ = .ok (.enum "Mode" [] [off, named] {} []) := by
  rfl

theorem resolve_string : known.resolve ⟨"String", []⟩ = .ok (.string "String") := by rfl

theorem leads {a b : Slot} (ha : a ∈ slots) (h : Leads known a b) : b ∈ slots := by
  obtain ⟨u, u', parts, build, hshape, hmem⟩ := h
  simp only [slots, List.mem_cons, List.not_mem_nil, or_false] at ha ⊢
  rcases ha with rfl | rfl | rfl | rfl | rfl | rfl
  · rw [shape?_type resolve_event] at hshape
    cases u with
    | variant name payload =>
      obtain ⟨variant, hfound, heq⟩ := Option.map_eq_some_iff.mp hshape
      cases heq
      obtain ⟨rfl, -⟩ := Prod.mk.inj (List.mem_singleton.mp hmem)
      cases List.mem_singleton.mp (List.mem_of_find?_eq_some hfound)
      exact .inr (.inl rfl)
    | _ => cases hshape
  · cases hshape
    obtain ⟨rfl, -⟩ := Prod.mk.inj (List.mem_singleton.mp hmem)
    exact .inr (.inr (.inl rfl))
  · rw [shape?_type resolve_mode] at hshape
    cases u with
    | variant name payload =>
      obtain ⟨variant, hfound, heq⟩ := Option.map_eq_some_iff.mp hshape
      cases heq
      obtain ⟨rfl, -⟩ := Prod.mk.inj (List.mem_singleton.mp hmem)
      rcases List.mem_pair.mp (List.mem_of_find?_eq_some hfound) with rfl | rfl
      · exact .inr (.inr (.inr (.inl rfl)))
      · exact .inr (.inr (.inr (.inr (.inl rfl))))
    | _ => cases hshape
  · cases hshape
  · cases hshape
    obtain ⟨rfl, -⟩ := Prod.mk.inj (List.mem_singleton.mp hmem)
    exact .inr (.inr (.inr (.inr (.inr rfl))))
  · rw [shape?_type resolve_string] at hshape
    cases hshape

theorem readable : Readable known ⟨"Event", []⟩ := by
  refine readable_of_closed (S := (· ∈ slots)) List.mem_cons_self (fun _ _ => leads)
    fun slot hslot => ?_
  simp only [slots, List.mem_cons, List.not_mem_nil, or_false] at hslot
  rcases hslot with rfl | rfl | rfl | rfl | rfl | rfl
  · simp only [Slot.Readable, resolve_event]
    exact ⟨by decide +kernel, trivial⟩
  · trivial
  · simp only [Slot.Readable, resolve_mode]
    exact ⟨by decide +kernel, trivial⟩
  · trivial
  · trivial
  · simp only [Slot.Readable, resolve_string]

/-- A mode has no content, so nothing is stored for it under a name of its own. -/
theorem not_content {place : Place} {name : Text} (h : place.Content known name) :
    place ≠ .payload set [] ∧ place ≠ .type ⟨"Mode", []⟩ := by
  induction h with
  | adjacent h hencoding =>
    refine ⟨nofun, fun heq => ?_⟩
    cases heq
    cases resolve_mode.symm.trans h
    cases hencoding
  | internal h hencoding _ _ _ =>
    refine ⟨nofun, fun heq => ?_⟩
    cases heq
    cases resolve_mode.symm.trans h
    cases hencoding
  | passesOn h _ ih =>
    cases h with
    | synonym h =>
      refine ⟨nofun, fun heq => ?_⟩
      cases heq
      cases resolve_mode.symm.trans h
    | optional h =>
      refine ⟨nofun, fun heq => ?_⟩
      cases heq
      cases resolve_mode.symm.trans h
    | item h =>
      refine ⟨fun heq => ?_, nofun⟩
      cases heq
      cases h
      exact ih.2 rfl

theorem tagsApart : TagsApart known ⟨"Event", []⟩ := by
  intro slot hreaches
  have hslot : slot ∈ slots :=
    mem_of_leads (S := (· ∈ slots)) List.mem_cons_self (fun _ _ => leads) hreaches
  simp only [slots, List.mem_cons, List.not_mem_nil, or_false] at hslot
  rcases hslot with rfl | rfl | rfl | rfl | rfl | rfl
  · intro enum generics variants options doc tag variant hresolve _ hmem hcontent
    cases resolve_event.symm.trans hresolve
    cases List.mem_singleton.mp hmem
    exact (not_content hcontent).1 rfl
  · trivial
  · intro enum generics variants options doc tag variant hresolve hencoding
    cases resolve_mode.symm.trans hresolve
    cases hencoding
  · trivial
  · trivial
  · intro enum generics variants options doc tag variant hresolve
    cases resolve_string.symm.trans hresolve

/-- What an event that sets a mode may look like: the mode has its name and a payload. -/
def event (mode : Text) (payload : Value) : Value :=
  .map [(.str "type", .str "Set"), (.str mode, payload)]

theorem carriesBare_off :
    CarriesBare known (.type ⟨"Event", []⟩) (.variant "Set" (.variant "Off" .null)) :=
  ⟨_, _, _, _, _, "type", set, resolve_event, rfl, rfl,
    .passesOn (.item rfl) (.unit resolve_mode rfl rfl rfl)⟩

end Switches

/-- A mode that has a text comes back beside the tag of the event. -/
theorem decoded_values_return_named :
    Readable Switches.known ⟨"Event", []⟩ ∧ TagsApart Switches.known ⟨"Event", []⟩
      ∧ (Switches.event "Named" (.str "x")).HasDistinctKeys
      ∧ ∃ v w, fromWire Switches.known callRoom (Switches.event "Named" (.str "x")) ⟨"Event", []⟩
          = .ok v
        ∧ toWire Switches.known (callRoom + 1) v ⟨"Event", []⟩ = .ok w
        ∧ fromWire Switches.known callRoom w ⟨"Event", []⟩ = .ok v := by
  have hd : (Switches.event "Named" (.str "x")).HasDistinctKeys :=
    hasDistinctKeys_of_flat
      (distinctKeys_names (show (["type", "Named"] : List Text).Nodup by decide))
      (by simp [Value.IsFlat])
  have hv : fromWire Switches.known callRoom (Switches.event "Named" (.str "x")) ⟨"Event", []⟩
      = .ok (.variant "Set" (.variant "Named" (.str "x"))) := by rfl
  have hw : toWire Switches.known callRoom (.variant "Set" (.variant "Named" (.str "x")))
      ⟨"Event", []⟩ = .ok (Switches.event "Named" (.str "x")) := by rfl
  obtain ⟨hiff, hreturns⟩ :=
    decoded_values_return Switches.readable Switches.tagsApart hd hv
  obtain ⟨w, hencodes, hdecodes⟩ := hreturns (hiff.mp ⟨callRoom, _, hw⟩)
  exact ⟨Switches.readable, Switches.tagsApart, hd, _, w, hv, hencodes _ (Nat.lt_succ_self _),
    hdecodes _ (Nat.le_refl _)⟩

namespace Echoes

/-- The variant of the inner enum, whose payload may be absent. -/
def inner : Variant Text := .mk "A" (.tuple [⟨"Option", [⟨"u8", []⟩]⟩]) []

/-- The variant of the outer enum has the same name. -/
def outer : Variant Text := .mk "A" (.tuple [⟨"Inner", []⟩]) []

/-- The outer enum has its content where it has its tag. -/
def known : TypeMap Text :=
  .ofTypes [.enum "Inner" [] [inner] {} [],
    .enum "Outer" [] [outer] { tag := some "t", content := some "t" } []]

end Echoes

/--
A mode that is given as a map is decoded beside the tag of the event, and no room is enough to
encode it there again. And where a content stands under the name of the tag, a mere name is
taken for both, and a map for neither.
-/
theorem decoded_mode_is_unsent :
    (Readable Switches.known ⟨"Event", []⟩ ∧ TagsApart Switches.known ⟨"Event", []⟩
      ∧ (Switches.event "Off" .null).HasDistinctKeys
      ∧ ∃ v, fromWire Switches.known callRoom (Switches.event "Off" .null) ⟨"Event", []⟩ = .ok v
        ∧ ∀ room w, toWire Switches.known room v ⟨"Event", []⟩ ≠ .ok w)
    ∧ ∃ v w, fromWire Echoes.known callRoom (.map [(.str "t", .str "A")]) ⟨"Outer", []⟩ = .ok v
        ∧ toWire Echoes.known callRoom v ⟨"Outer", []⟩ = .ok w
        ∧ ∃ e, fromWire Echoes.known callRoom w ⟨"Outer", []⟩ = .error e := by
  refine ⟨⟨Switches.readable, Switches.tagsApart, ?_, .variant "Set" (.variant "Off" .null), rfl,
    fun room w h => ?_⟩, .variant "A" (.variant "A" .null),
    .map [(.str "t", .map [(.str "A", .null)])], rfl, rfl, _, rfl⟩
  · exact hasDistinctKeys_of_flat
      (distinctKeys_names (show (["type", "Off"] : List Text).Nodup by decide))
      (by simp [Value.IsFlat])
  · have hencodes : (Slot.type ⟨"Event", []⟩).Encodes Switches.known
        (.variant "Set" (.variant "Off" .null)) := ⟨room, w, h⟩
    exact hencodes.not_carriesBare Switches.carriesBare_off

end WasmBridge
