import WasmBridge.Proofs.Bindings.Distinct
import WasmBridge.Proofs.Wire.RoundTrip

/-!
# Tags

An enum that is tagged within a map shares that map with what its variants carry. The
wire key of the variant goes in first, under the tag, and then come the payload under the
content name, or all entries of the payload. Nothing keeps these names apart, and of two
things under one name the later stays. So a variant has its wire key under the tag
exactly if nothing else comes to stand there. It is the only thing that can be lost:
a content stays, and a tag that is there leads back to the variant.
-/

namespace WasmBridge

open Outcome

/-- The name under which an encoding puts the wire key of a variant. -/
def Encoding.tag? : Encoding Text → Option Text
  | .adjacent tag _ | .internal tag => some tag
  | .external | .untagged => none

/-- What an encoding stores in the map of a variant when the tag is there. -/
def Encoding.beside (encoding : Encoding Text) (variant : Variant Text) (payload : Value) :
    Entries :=
  if variant.payload.isUnit then []
  else
    match encoding, payload with
    | .adjacent _ content, payload => [(.str content, payload)]
    | .internal _, .map entries => entries
    | _, _ => []

/-- Nothing but the wire key comes to stand under the tag. -/
def LeavesTag (tag key : Text) (beside : Entries) : Prop :=
  ∀ x, Entries.findName? beside.reverse tag = some x → x = .str key

variable {types : TypeMap Text} {ident : TypeIdent} {enum tag key : Text}
  {generics : List Text} {variants : List (Variant Text)} {options : EnumOptions Text}
  {doc : List Text} {variant : Variant Text} {room : Nat} {v w payload : Value}

/-! ## Encoding -/

/-- A value that is encoded at an enum is one of its variants, and its payload is wrapped. -/
theorem toWire_enum
    (hresolve : types.resolve ident = .ok (.enum enum generics variants options doc))
    (h : toWire types room v ident = .ok w) :
    ∃ carried variant r payload, v = .variant variant.name carried
      ∧ variants.find? (·.name == variant.name) = some variant
      ∧ payloadToWire types r carried variant (bindings generics ident) = .ok payload
      ∧ wrapVariant r enum options.encoding variant
          (variantWireKey variant.name options.variantCasing) payload = .ok w := by
  cases room with
  | zero => cases h
  | succ room =>
    unfold toWire at h
    rw [resolveWithin_eq_ok.mpr hresolve, bind_ok] at h
    cases v with
    | variant name carried =>
      cases room with
      | zero => cases h
      | succ r =>
        dsimp only at h
        unfold enumToWire at h
        obtain ⟨variant, hvariant, h⟩ := bind_eq_ok.mp h
        obtain ⟨payload, hpayload, hwrap⟩ := bind_eq_ok.mp h
        have hfound := findVariant_eq_ok hvariant
        have hname : variant.name = name := by simpa using List.find?_some hfound
        exact ⟨carried, variant, r, payload, by rw [hname], by rw [hname]; exact hfound,
          hpayload, hwrap⟩
    | _ => cases h

/-- The map of a variant: the tag, and then what is stored beside it. -/
theorem wrapVariant_tagged (htag : options.encoding.tag? = some tag)
    (h : wrapVariant room enum options.encoding variant key payload = .ok w) :
    w = .map (Entries.putAll [(.str tag, .str key)] (options.encoding.beside variant payload)) := by
  unfold wrapVariant at h
  unfold Encoding.beside
  generalize options.encoding = encoding at h htag
  cases hunit : variant.payload.isUnit with
  | true =>
    cases encoding with
    | adjacent | internal =>
      cases htag
      simp only [hunit, if_true] at h
      cases h
      rfl
    | _ => cases htag
  | false =>
    cases encoding with
    | adjacent _ content =>
      cases htag
      simp only [hunit, Bool.false_eq_true, if_false] at h
      cases h
      rfl
    | internal =>
      cases htag
      simp only [hunit, Bool.false_eq_true, if_false] at h
      cases payload with
      | map entries => cases h; rfl
      | _ => cases h
    | _ => cases htag

/-- **The wire key stands under the tag exactly if nothing else comes to stand there.** -/
theorem findName?_tag (beside : Entries) :
    (Entries.putAll [(.str tag, .str key)] beside).findName? tag = some (.str key)
      ↔ LeavesTag tag key beside := by
  rw [Entries.findName?_putAll, Entries.findName?_head]
  unfold LeavesTag
  cases Entries.findName? beside.reverse tag with
  | none => simp
  | some x => simp

theorem findName?_content {content : Text} (hunit : variant.payload.isUnit = false) :
    (Entries.putAll [(.str tag, .str key)]
        ((Encoding.adjacent tag content).beside variant payload)).findName? content
      = some payload := by
  have hbeside : (Encoding.adjacent tag content).beside variant payload
      = [(.str content, payload)] := by
    simp [Encoding.beside, hunit]
  rw [hbeside, Entries.findName?_putAll, List.reverse_singleton, Entries.findName?_head]
  rfl

/-! ## Decoding -/

/-- **A tag that is there leads back to the variant.** Whatever its payload is taken for, no other
variant is. -/
theorem variant_of_tag {d : Value} {entries : Entries}
    (hresolve : types.resolve ident = .ok (.enum enum generics variants options doc))
    (htag : options.encoding.tag? = some tag)
    (hkeys : (variants.map fun v => variantWireKey v.name options.variantCasing).Nodup)
    (hmem : variant ∈ variants)
    (hfind : entries.findName? tag
      = some (.str (variantWireKey variant.name options.variantCasing)))
    (h : fromWire types room (.map entries) ident = .ok d) :
    ∃ c, d = .variant variant.name c := by
  cases room with
  | zero => cases h
  | succ room =>
    unfold fromWire at h
    rw [resolveWithin_eq_ok.mpr hresolve, bind_ok] at h
    cases room with
    | zero => cases h
    | succ r =>
      have hvariant : findWireVariant r enum variants options.variantCasing
          (.str (variantWireKey variant.name options.variantCasing)) = .ok variant :=
        findWireVariant_eq r enum hkeys hmem
      dsimp only at h
      unfold enumFromWire at h
      cases hencoding : options.encoding with
      | adjacent tag' content =>
        rw [hencoding] at htag
        cases htag
        simp only [hencoding, hfind, hvariant, bind_ok] at h
        obtain ⟨c, _, hc⟩ := bind_eq_ok.mp h
        cases hc
        exact ⟨c, rfl⟩
      | internal tag' =>
        rw [hencoding] at htag
        cases htag
        simp only [hencoding, hfind, hvariant, bind_ok] at h
        split at h
        · cases h
          exact ⟨.null, rfl⟩
        · obtain ⟨c, _, hc⟩ := bind_eq_ok.mp h
          cases hc
          exact ⟨c, rfl⟩
      | _ => rw [hencoding] at htag; cases htag

/-- A tag is left alone where it differs from the content name and no payload has it. -/
theorem leavesTag_of_clean {carried : Value} {r : Nat}
    (hresolve : types.resolve ident = .ok (.enum enum generics variants options doc))
    (htag : options.encoding.tag? = some tag) (hapart : options.encoding.TellsApart)
    (hfree : TagFree types (.type ident) (.variant variant.name carried))
    (hfound : variants.find? (·.name == variant.name) = some variant)
    (hpayload : payloadToWire types r carried variant (bindings generics ident) = .ok payload) :
    LeavesTag tag key (options.encoding.beside variant payload) := by
  intro x hx
  unfold Encoding.beside at hx
  split at hx
  · cases hx
  cases hencoding : options.encoding with
  | adjacent tag' content =>
    rw [hencoding] at htag hapart hx
    cases htag
    rw [List.reverse_singleton, Entries.findName?_tail] at hx
    · cases hx
    · intro heq
      injection heq with heq
      exact absurd heq.symm hapart
  | internal tag' =>
    rw [hencoding] at htag hx
    cases htag
    cases payload with
    | map entries =>
      have hnone := hfree _ _ _ _ _ _ _ _ _ hresolve hencoding hfound hpayload
      rw [Entries.findName?_eq_none_iff] at hnone
      have hnone' : Entries.findName? entries.reverse tag = none :=
        Entries.findName?_eq_none_iff.mpr fun e he => hnone e (List.mem_reverse.mp he)
      rw [hnone'] at hx
      cases hx
    | _ => cases hx
  | _ => rw [hencoding] at htag; cases htag

/-! ## All together -/

/--
**What is kept of a variant in a map.** An enum whose names a target has checked is encoded
with a tag. Whatever can be encoded becomes a map, in which

* the wire key stands under the tag exactly if nothing that is stored beside it has the
  tag for a name, or that is the wire key itself;
* an adjacent payload stands under the content name, as the second of two entries if that
  is not the tag;
* a tag that is there is decoded to the same variant or to none;
* and to the same variant it is, if nothing within the payload is lost or without a tag.
-/
theorem tag_kept_iff {target : Text}
    (hnames : checkMemberNames target (.enum enum generics variants options doc) = .ok ())
    (hresolve : types.resolve ident = .ok (.enum enum generics variants options doc))
    (htag : options.encoding.tag? = some tag) (h : toWire types room v ident = .ok w) :
    ∃ variant ∈ variants, ∃ carried payload r entries, v = .variant variant.name carried
      ∧ payloadToWire types r carried variant (bindings generics ident) = .ok payload
      ∧ w = .map entries
      ∧ let key := variantWireKey variant.name options.variantCasing
        let beside := options.encoding.beside variant payload
        (Entries.findName? entries tag = some (.str key) ↔ LeavesTag tag key beside)
        ∧ (∀ content, options.encoding = .adjacent tag content → variant.payload.isUnit = false →
            Entries.findName? entries content = some payload
            ∧ (tag ≠ content → entries = [(.str tag, .str key), (.str content, payload)]))
        ∧ (LeavesTag tag key beside → ∀ room d, fromWire types room w ident = .ok d →
            ∃ c, d = .variant variant.name c)
        ∧ (Readable types ident → Clean types ident v →
            ∃ c, fromWire types room w ident = .ok (.variant variant.name c)) := by
  obtain ⟨carried, variant, r, payload, rfl, hfound, hpayload, hwrap⟩ := toWire_enum hresolve h
  obtain rfl := wrapVariant_tagged htag hwrap
  have hmem := List.mem_of_find?_eq_some hfound
  -- the map can only be decoded to the variant that its tag leads back to
  have hback : LeavesTag tag (variantWireKey variant.name options.variantCasing)
      (options.encoding.beside variant payload) → ∀ room d,
        fromWire types room (.map (Entries.putAll
          [(.str tag, .str (variantWireKey variant.name options.variantCasing))]
          (options.encoding.beside variant payload))) ident = .ok d →
        ∃ c, d = .variant variant.name c := by
    intro hleaves room d
    exact variant_of_tag hresolve htag (nodup_variantWireKeys hnames) hmem
      ((findName?_tag _).mpr hleaves)
  refine ⟨variant, hmem, carried, payload, r, _, rfl, hpayload, rfl, findName?_tag _, ?_,
    hback, fun hreadable hclean => ?_⟩
  · intro content hencoding hunit
    rw [hencoding]
    refine ⟨findName?_content hunit, fun hother => ?_⟩
    have hnames : DistinctKeys [.str tag, .str content] :=
      distinctKeys_names (show [tag, content].Nodup by simpa using hother)
    simp only [Encoding.beside, hunit, Bool.false_eq_true, if_false]
    exact Entries.putAll_new hnames
  · obtain ⟨-, d, hd, -⟩ := all_return room ident _ _ (safe_of_readable hreadable hclean) h
    have hapart : options.encoding.TellsApart := by
      have hslot := hreadable _ .refl
      simp only [Slot.Readable, hresolve] at hslot
      exact hslot.2
    obtain ⟨c, rfl⟩ := hback
      (leavesTag_of_clean hresolve htag hapart (hclean _ _ .refl).2 hfound hpayload) room d hd
    exact ⟨c, hd⟩

/-! ## A tag that is lost -/

namespace Events

/-- A variant with a field that goes by the name of the tag. -/
def named : Variant Text :=
  .mk "Named" (.struct "Named" [] [{ name := "type", type := ⟨"String", []⟩ }] []) []

/-- An event has its tag under `type`. -/
def event : TypeDef Text := .enum "Event" [] [named] { tag := some "type" } []

def known : TypeMap Text := .ofTypes [event]

end Events

/-- The name of the event is replaced by what the event is about. -/
theorem tag_kept_iff_event :
    let v : Value := .variant "Named" (.map [(.str "type", .str "x")])
    checkMemberNames "rust-plugin" Events.event = .ok ()
      ∧ Events.known.resolve ⟨"Event", []⟩ = .ok Events.event
      ∧ toWire Events.known callRoom v ⟨"Event", []⟩ = .ok (.map [(.str "type", .str "x")])
      ∧ ∃ payload, ¬LeavesTag "type" "Named"
          (Encoding.beside (.internal "type") Events.named payload) := by
  have hnames : checkMemberNames "rust-plugin" Events.event = .ok () := by rfl
  have hresolve : Events.known.resolve ⟨"Event", []⟩ = .ok Events.event := by rfl
  have hwire : toWire Events.known callRoom (.variant "Named" (.map [(.str "type", .str "x")]))
      ⟨"Event", []⟩ = .ok (.map [(.str "type", .str "x")]) := by rfl
  have htag : ({ tag := some "type" } : EnumOptions Text).encoding.tag? = some "type" := rfl
  obtain ⟨variant, hmem, _, payload, _, entries, _, _, hentries, hiff, _⟩ :=
    tag_kept_iff hnames hresolve htag hwire
  refine ⟨hnames, hresolve, hwire, payload, fun hleaves => ?_⟩
  cases hentries
  obtain rfl := List.mem_singleton.mp hmem
  cases hiff.mpr hleaves

end WasmBridge
