import WasmBridge.Proofs.Wire.Decoded
import WasmBridge.Proofs.Wire.Tags

/-!
# Decoded values are sent again

What has been decoded is encoded, and decoded to the same value again. The proof goes by the
number of calls that the first decoding was left. For an enum there is one lemma for each
encoding: what the variant carried is sent again, and it is then put where the decoder looks
for it. What is known of the keys that it is encoded to says that the tag is still free there.
-/

namespace WasmBridge

open Outcome

variable {types : TypeMap Text} {room : Nat} {d v w c : Value} {ident : TypeIdent} {enum : Text}
  {generics doc : List Text} {variants : List (Variant Text)} {options : EnumOptions Text}
  {bs : List (Text × TypeIdent)} {variant : Variant Text}

/-! ## Payloads -/

theorem exists_of_isUnit (h : variant.payload.isUnit = true) :
    ∃ name, variant.payload = .unit name := by
  cases hpayload : variant.payload with
  | unit name => exact ⟨name, rfl⟩
  | _ => rw [hpayload] at h; cases h

theorem payloadToWire_unit (h : variant.payload.isUnit = true) {more : Nat} (hmore : room < more) :
    payloadToWire types more v variant bs = .ok .null := by
  obtain ⟨name, hpayload⟩ := exists_of_isUnit h
  cases more with
  | zero => omega
  | succ more => rw [payloadToWire, hpayload]

theorem payloadFromWire_unit (h : variant.payload.isUnit = true) (more : Nat) :
    payloadFromWire types (more + 1) .null variant bs = .ok .null := by
  obtain ⟨name, hpayload⟩ := exists_of_isUnit h
  rw [payloadFromWire, hpayload]
  rfl

/-- A value that is handed on is sent again as it is where it comes to. -/
theorem Resent.passesOn {place next : Place} (hpasses : place.PassesOn types next)
    (h : Resent types room next d v w)
    (hencodes : ∀ more, Direction.encoding.run types (more + 1) v place
      = Direction.encoding.run types more v next)
    (hdecodes : ∀ more, Direction.decoding.run types (more + 1) w place
      = Direction.decoding.run types more w next) :
    Resent types (room + 1) place d v w where
  encodes := forall_succ fun more hmore => (hencodes more).trans (h.encodes more hmore)
  decodes := forall_succ_le fun more hmore => (hdecodes more).trans (h.decodes more hmore)
  present := h.present
  keys := h.keys
  isMap entries hd hbare := h.isMap entries hd fun hnext => hbare (.passesOn hpasses hnext)
  names entries stored name hd hw hnone hcontent :=
    h.names entries stored name hd hw hnone fun hnext => hcontent (.passesOn hpasses hnext)

theorem Resent.noMap {place : Place} (h : Repeats types room place v w)
    (hpresent : w = .null → v = .null)
    (hd : ∀ entries, d ≠ .map entries) (hw : ∀ entries, w ≠ .map entries) :
    Resent types room place d v w where
  toRepeats := h
  present := hpresent
  keys entries heq := absurd heq (hw entries)
  isMap entries heq := absurd heq (hd entries)
  names _ stored _ _ heq := absurd heq (hw stored)

theorem Resent.ofMap {place : Place} {entries stored : Entries}
    (h : Repeats types room place v (.map stored))
    (hkeys : DistinctKeys (stored.map (·.1)))
    (hnames : ∀ other, entries.findName? other = none → stored.findName? other = none) :
    Resent types room place (.map entries) v (.map stored) where
  toRepeats := h
  present := by simp
  keys _ heq := by cases heq; exact hkeys
  isMap _ _ _ := ⟨stored, rfl⟩
  names _ _ other hd hw hnone _ := by
    cases hd
    cases hw
    exact hnames other hnone

theorem payload_sent (ih : ∀ r < room, Resends types r)
    (hsafe : Resendable types (.payload variant bs) v) (hd : d.HasDistinctKeys)
    (h : payloadFromWire types room d variant bs = .ok v) :
    ∃ w, Resent types room (.payload variant bs) d v w := by
  cases room with
  | zero => cases h
  | succ room =>
    have ihBelow : ∀ r < room, Resends types r := fun r hr => ih r (Nat.lt_succ_of_lt hr)
    unfold payloadFromWire at h
    split at h
    · rename_i name hpayload
      split at h
      · rename_i hnull
        cases h
        obtain rfl := Value.isNull_iff.mp hnull
        have hunit : variant.payload.isUnit = true := by rw [hpayload]; rfl
        have hrepeats : Repeats types (room + 1) (.payload variant bs) .null .null :=
          ⟨fun _ hmore => payloadToWire_unit hunit hmore,
            forall_succ_le fun more _ => payloadFromWire_unit hunit more⟩
        exact ⟨.null, .noMap hrepeats id (by simp) (by simp)⟩
      · cases h
    · rename_i name generics fields doc hpayload
      have hshape : shape? types (.payload variant bs) v = some (.one (.fields fields bs) v) := by
        simp only [shape?, hpayload]
      obtain ⟨entries, out, stored, rfl, rfl, hkeys, hnames, hencode, hdecode⟩ :=
        struct_sent ihBelow (hsafe.one hshape) hd h
      refine ⟨.map stored, .ofMap (.ofPayload (fun more hmore => ?_) fun more hmore => ?_)
        hkeys hnames⟩
      · rw [payloadToWire, hpayload]
        exact hencode more hmore
      · rw [payloadFromWire, hpayload]
        exact hdecode more hmore
    · rename_i item hpayload
      have hshape : shape? types (.payload variant bs) v
          = some (.one (.type (item.substitute bs)) v) := by
        simp only [shape?, hpayload]
      obtain ⟨w, hw⟩ := ih room (Nat.lt_succ_self _) (.type (item.substitute bs)) d v
        (hsafe.one hshape) hd h
      exact ⟨w, hw.passesOn (.item hpayload) (fun _ => run_item hpayload)
        fun _ => run_item hpayload⟩
    · rename_i items hmany hpayload
      have hshape : shape? types (.payload variant bs) v
          = some (.one (.items (items.map (·.substitute bs))) v) := by
        simp only [shape?, hpayload]
      obtain ⟨_, cs, ws, rfl, rfl, hencode, hdecode⟩ := tuple_sent ihBelow (hsafe.one hshape) hd h
      refine ⟨.list ws, .noMap (.ofPayload (fun more hmore => ?_) fun more hmore => ?_)
        (by simp) (by simp) (by simp)⟩
      · unfold payloadToWire
        simp only [hpayload]
        exact hencode more hmore
      · unfold payloadFromWire
        simp only [hpayload]
        exact hdecode more hmore
    · cases h

/-! ## Enums -/

theorem findWireVariant_eq_ok {casing : Casing} {key : Value}
    (h : findWireVariant room enum variants casing key = .ok variant) :
    variant ∈ variants ∧ key = .str (variantWireKey variant.name casing) := by
  unfold findWireVariant at h
  split at h
  · rename_i hfound
    cases h
    have hname : key.isName (variantWireKey variant.name casing) = true := by
      simpa using List.find?_some hfound
    exact ⟨List.mem_of_find?_eq_some hfound, Value.isName_iff.mp hname⟩
  · cases h

theorem find?_of_nodup_names (hnames : (variants.map (·.name)).Nodup) (hmem : variant ∈ variants) :
    variants.find? (·.name == variant.name) = some variant := by
  rw [← find?_of_nodup (·.name) hnames hmem]
  congr 1
  funext other
  rw [Value.isName, Bool.beq_comm]

/-- Variants that have wire keys of their own have names of their own. -/
theorem find?_name_of_nodup
    (hkeys : (variants.map fun v => variantWireKey v.name options.variantCasing).Nodup)
    (hmem : variant ∈ variants) : variants.find? (·.name == variant.name) = some variant := by
  refine find?_of_nodup_names (List.Nodup.of_map (variantWireKey · options.variantCasing) ?_) hmem
  rw [List.map_map]
  exact hkeys

/-- The variant that a wire value was taken for, and what it was found to carry. -/
theorem enumFromWire_cases (htells : options.encoding.TellsApart)
    (h : enumFromWire types (room + 1) d ident enum variants options bs = .ok v) :
    ∃ variant ∈ variants, ∃ c, v = .variant variant.name c
      ∧ ((∃ payload, options.encoding = .external
          ∧ (d = .str (variantWireKey variant.name options.variantCasing) ∧ payload = .null
            ∨ d = .map [(.str (variantWireKey variant.name options.variantCasing), payload)])
          ∧ payloadFromWire types room payload variant bs = .ok c)
        ∨ (∃ tag content entries, options.encoding = .adjacent tag content ∧ d = .map entries
          ∧ Entries.findName? entries tag
            = some (.str (variantWireKey variant.name options.variantCasing))
          ∧ payloadFromWire types room ((Entries.findName? entries content).getD .null) variant bs
            = .ok c)
        ∨ ∃ tag entries, options.encoding = .internal tag ∧ d = .map entries
          ∧ Entries.findName? entries tag
            = some (.str (variantWireKey variant.name options.variantCasing))
          ∧ (variant.payload.isUnit = true ∧ c = .null
            ∨ variant.payload.isUnit = false
              ∧ payloadFromWire types room (.map (Entries.withoutName entries tag)) variant bs
                = .ok c)) := by
  unfold enumFromWire at h
  split at h
  · rename_i hencoding
    rw [hencoding] at htells
    cases htells
  · rename_i hencoding
    split at h
    · obtain ⟨variant, hfind, h⟩ := bind_eq_ok.mp h
      obtain ⟨c, hc, heq⟩ := bind_eq_ok.mp h
      cases heq
      obtain ⟨hmem, hkey⟩ := findWireVariant_eq_ok hfind
      exact ⟨variant, hmem, c, rfl, .inl ⟨.null, hencoding, .inl ⟨hkey, rfl⟩, hc⟩⟩
    · obtain ⟨variant, hfind, h⟩ := bind_eq_ok.mp h
      obtain ⟨c, hc, heq⟩ := bind_eq_ok.mp h
      cases heq
      obtain ⟨hmem, rfl⟩ := findWireVariant_eq_ok hfind
      exact ⟨variant, hmem, c, rfl, .inl ⟨_, hencoding, .inr rfl, hc⟩⟩
    · cases h
    · cases h
  · rename_i tag content hencoding
    split at h
    · rename_i entries
      split at h
      · cases h
      · rename_i key hkey
        obtain ⟨variant, hfind, h⟩ := bind_eq_ok.mp h
        obtain ⟨c, hc, heq⟩ := bind_eq_ok.mp h
        cases heq
        obtain ⟨hmem, rfl⟩ := findWireVariant_eq_ok hfind
        exact ⟨variant, hmem, c, rfl, .inr (.inl ⟨tag, content, entries, hencoding, rfl, hkey, hc⟩)⟩
    · cases h
  · rename_i tag hencoding
    split at h
    · rename_i entries
      split at h
      · cases h
      · rename_i key hkey
        obtain ⟨variant, hfind, hrest⟩ := bind_eq_ok.mp h
        obtain ⟨hmem, rfl⟩ := findWireVariant_eq_ok hfind
        refine ⟨variant, hmem, ?_⟩
        split at hrest
        · rename_i hunit
          cases hrest
          exact ⟨.null, rfl, .inr (.inr ⟨tag, entries, hencoding, rfl, hkey, .inl ⟨hunit, rfl⟩⟩)⟩
        · rename_i hunit
          obtain ⟨c, hc, heq⟩ := bind_eq_ok.mp hrest
          cases heq
          exact ⟨c, rfl, .inr (.inr ⟨tag, entries, hencoding, rfl, hkey,
            .inr ⟨by simpa using hunit, hc⟩⟩)⟩
    · cases h

/-- A variant is wrapped once its payload is encoded. -/
theorem toWire_variant {p : Value}
    (hresolve : types.resolve ident = .ok (.enum enum generics variants options doc))
    (hfound : variants.find? (·.name == variant.name) = some variant)
    (hpayload : payloadToWire types room c variant (bindings generics ident) = .ok p) :
    toWire types (room + 2) (.variant variant.name c) ident
      = wrapVariant room enum options.encoding variant
          (variantWireKey variant.name options.variantCasing) p := by
  have hvariant : findVariant room enum variants variant.name = .ok variant := by
    rw [findVariant, hfound]
  unfold toWire
  rw [resolveWithin_eq_ok.mpr hresolve, bind_ok]
  dsimp only
  unfold enumToWire
  rw [hvariant, bind_ok, hpayload, bind_ok]

theorem fromWire_enum
    (hresolve : types.resolve ident = .ok (.enum enum generics variants options doc)) :
    fromWire types (room + 1) w ident
      = enumFromWire types room w ident enum variants options (bindings generics ident) := by
  unfold fromWire
  rw [resolveWithin_eq_ok.mpr hresolve, bind_ok]

/-- Under another name than the tag there is what stands beside it. -/
theorem findName?_tagged_none {tag other : Text} {key : Value} {beside : Entries}
    (hother : other ≠ tag) (hbeside : beside.findName? other = none) :
    (Entries.putAll [(.str tag, key)] beside).findName? other = none := by
  have hreverse : Entries.findName? beside.reverse other = none :=
    Entries.findName?_eq_none_iff.mpr fun e he =>
      Entries.findName?_eq_none_iff.mp hbeside e (List.mem_reverse.mp he)
  have htag : Value.str tag ≠ .str other := fun heq => hother (Value.str.inj heq).symm
  rw [Entries.findName?_putAll, hreverse, Entries.findName?_tail htag]
  rfl

theorem findName?_withoutName (entries : Entries) (tag : Text) :
    (entries.withoutName tag).findName? tag = none := by
  refine Entries.findName?_eq_none_iff.mpr fun e he heq => ?_
  obtain ⟨k, x⟩ := e
  obtain rfl : k = .str tag := heq
  have hname := (List.mem_filter.mp he).2
  simp only [Value.isName_iff.mpr] at hname
  cases hname

/-- A name that is not there is not there without another one either. -/
theorem findName?_withoutName_none {entries : Entries} {tag other : Text}
    (h : entries.findName? other = none) : (entries.withoutName tag).findName? other = none :=
  Entries.findName?_eq_none_iff.mpr fun e he =>
    Entries.findName?_eq_none_iff.mp h e (List.mem_of_mem_filter he)

section Enums

variable {p : Value}

theorem Resent.carried (h : Resent types room (.payload variant bs) d c p) {more : Nat}
    (hmore : room ≤ more) : Carried types more variant bs p c where
  back := h.decodes more hmore
  keys := h.keys
  unit hunit := by
    have hp : p = .null := by
      have hencodes := h.encodes (room + 1) (Nat.lt_succ_self _)
      exact Except.ok.inj (hencodes.symm.trans (payloadToWire_unit hunit (Nat.lt_succ_self room)))
    exact ⟨hp, h.present hp⟩

variable (hresolve : types.resolve ident = .ok (.enum enum generics variants options doc))
  (hkeys : (variants.map fun v => variantWireKey v.name options.variantCasing).Nodup)
  (hmem : variant ∈ variants)

include hresolve hkeys hmem

/-- A variant is sent again if its payload is, and if the encoding gives it back. -/
theorem variant_repeats (hpayload : ∀ more, room < more →
      payloadToWire types more c variant (bindings generics ident) = .ok p)
    (hwrap : ∀ more, wrapVariant more enum options.encoding variant
      (variantWireKey variant.name options.variantCasing) p = .ok w)
    (hunwraps : ∀ more, room ≤ more →
      Unwraps types more ident enum variants options (bindings generics ident) variant w c) :
    Repeats types (room + 2) (.type ident) (.variant variant.name c) w where
  encodes := forall_succ <| forall_succ fun more hmore =>
    (toWire_variant hresolve (find?_name_of_nodup hkeys hmem) (hpayload more hmore)).trans
      (hwrap more)
  decodes := forall_succ_le <| forall_succ_le fun more hmore =>
    (fromWire_enum hresolve).trans (hunwraps more hmore).back

theorem external_sent {payload : Value} (hencoding : options.encoding = .external)
    (hd : d = .str (variantWireKey variant.name options.variantCasing)
      ∨ d = .map [(.str (variantWireKey variant.name options.variantCasing), payload)])
    (hpayload : Resent types room (.payload variant (bindings generics ident)) payload c p) :
    ∃ w, Resent types (room + 2) (.type ident) d (.variant variant.name c) w := by
  have hfind : ∀ more, findWireVariant more enum variants options.variantCasing
      (.str (variantWireKey variant.name options.variantCasing)) = .ok variant :=
    fun more => findWireVariant_eq more enum hkeys hmem
  cases hunit : variant.payload.isUnit with
  | true =>
    have hwrap : ∀ more, wrapVariant more enum options.encoding variant
        (variantWireKey variant.name options.variantCasing) p
          = .ok (.str (variantWireKey variant.name options.variantCasing)) :=
      fun more => by simp [wrapVariant, hencoding, hunit]
    exact ⟨_, {
      toRepeats := variant_repeats hresolve hkeys hmem hpayload.encodes hwrap fun more hmore =>
        external_unwraps (hfind more) (hpayload.carried hmore) (hwrap more) hencoding
      present := by simp
      keys := by simp
      isMap := fun _ _ hbare =>
        absurd (.unit hresolve hencoding (find?_name_of_nodup hkeys hmem) hunit) hbare
      names := by simp }⟩
  | false =>
    have hwrap : ∀ more, wrapVariant more enum options.encoding variant
        (variantWireKey variant.name options.variantCasing) p
          = .ok (.map [(.str (variantWireKey variant.name options.variantCasing), p)]) :=
      fun more => by simp [wrapVariant, hencoding, hunit]
    refine ⟨_, {
      toRepeats := variant_repeats hresolve hkeys hmem hpayload.encodes hwrap fun more hmore =>
        external_unwraps (hfind more) (hpayload.carried hmore) (hwrap more) hencoding
      present := by simp
      keys := fun _ heq => by cases heq; exact List.pairwise_singleton _ _
      isMap := fun _ _ _ => ⟨_, rfl⟩
      names := fun entries stored other hentries hstored hnone _ => ?_ }⟩
    cases hstored
    obtain rfl | rfl := hd
    · cases hentries
    · cases hentries
      rw [Entries.findName?_eq_none_iff] at hnone ⊢
      simpa using hnone

theorem adjacent_sent {tag content : Text} {entries : Entries} {payload key : Value}
    (hencoding : options.encoding = .adjacent tag content) (hother : tag ≠ content)
    (hkey : entries.findName? tag = some key)
    (hpayload : Resent types room (.payload variant (bindings generics ident)) payload c p) :
    ∃ w, Resent types (room + 2) (.type ident) (.map entries) (.variant variant.name c) w := by
  obtain ⟨w, hwrap⟩ : ∃ w, ∀ more, wrapVariant more enum options.encoding variant
      (variantWireKey variant.name options.variantCasing) p = .ok w :=
    ⟨_, fun more => by simp only [wrapVariant, hencoding]; rfl⟩
  have hunwraps : ∀ more, room ≤ more →
      Unwraps types more ident enum variants options (bindings generics ident) variant w c :=
    fun more hmore => adjacent_unwraps (findWireVariant_eq more enum hkeys hmem)
      (hpayload.carried hmore) (hwrap more) hencoding hother
  have htagged := wrapVariant_tagged (by rw [hencoding]; rfl) (hwrap room)
  refine ⟨w, {
    toRepeats := variant_repeats hresolve hkeys hmem hpayload.encodes hwrap hunwraps
    present := fun heq => absurd heq (hunwraps room (Nat.le_refl _)).present
    keys := (hunwraps room (Nat.le_refl _)).keys
    isMap := fun _ _ _ => ⟨_, htagged⟩
    names := fun entries stored other hentries hstored hnone hcontent => ?_ }⟩
  cases hentries
  cases htagged.symm.trans hstored
  have htag : other ≠ tag := by
    rintro rfl
    rw [hkey] at hnone
    cases hnone
  have hcontent : content ≠ other := by
    rintro rfl
    exact hcontent (.adjacent hresolve hencoding)
  refine findName?_tagged_none htag (Entries.findName?_eq_none_iff.mpr fun e he => ?_)
  rw [hencoding, Encoding.beside] at he
  split at he
  · cases he
  · cases List.mem_singleton.mp he
    exact fun heq => hcontent (Value.str.inj heq)

/-- An internally tagged variant without payload is its tag alone, whatever stood beside it. -/
theorem internal_unit_sent {tag : Text} {entries : Entries} {key : Value}
    (hencoding : options.encoding = .internal tag) (hunit : variant.payload.isUnit = true)
    (hkey : entries.findName? tag = some key) :
    ∃ w, Resent types (room + 2) (.type ident) (.map entries) (.variant variant.name .null) w := by
  have hwrap : ∀ more, wrapVariant more enum options.encoding variant
      (variantWireKey variant.name options.variantCasing) .null
        = .ok (.map [(.str tag, .str (variantWireKey variant.name options.variantCasing))]) :=
    fun more => by simp [wrapVariant, hencoding, hunit]
  have hunwraps : ∀ more, room ≤ more → Unwraps types more ident enum variants options
      (bindings generics ident) variant
      (.map [(.str tag, .str (variantWireKey variant.name options.variantCasing))]) .null :=
    fun more _ => {
      back := by
        simp only [enumFromWire, hencoding, Entries.findName?_head,
          findWireVariant_eq more enum hkeys hmem, hunit, if_true, bind_ok, pure_eq]
      present := by simp
      keys := fun _ heq => by cases heq; exact List.pairwise_singleton _ _ }
  refine ⟨_, {
    toRepeats :=
      variant_repeats hresolve hkeys hmem (fun _ => payloadToWire_unit hunit) hwrap hunwraps
    present := by simp
    keys := (hunwraps room (Nat.le_refl _)).keys
    isMap := fun _ _ _ => ⟨_, rfl⟩
    names := fun entries stored other hentries hstored hnone _ => ?_ }⟩
  cases hentries
  cases hstored
  refine Entries.findName?_eq_none_iff.mpr fun e he heq => ?_
  cases List.mem_singleton.mp he
  obtain rfl : tag = other := Value.str.inj heq
  rw [hkey] at hnone
  cases hnone

theorem internal_sent {tag : Text} {entries : Entries} {key : Value}
    (hencoding : options.encoding = .internal tag) (hunit : variant.payload.isUnit = false)
    (hapart : ¬Place.Content types (.payload variant (bindings generics ident)) tag)
    (hbare : ¬Bare types (.payload variant (bindings generics ident)) c)
    (hkey : entries.findName? tag = some key)
    (hpayload : Resent types room (.payload variant (bindings generics ident))
      (.map (entries.withoutName tag)) c p) :
    ∃ w, Resent types (room + 2) (.type ident) (.map entries) (.variant variant.name c) w := by
  obtain ⟨inner, rfl⟩ := hpayload.isMap _ rfl hbare
  have hfree : ∀ inner', Value.map inner = .map inner' → Entries.findName? inner' tag = none :=
    fun inner' heq => hpayload.names _ inner' tag rfl heq (findName?_withoutName entries tag) hapart
  obtain ⟨w, hwrap⟩ : ∃ w, ∀ more, wrapVariant more enum options.encoding variant
      (variantWireKey variant.name options.variantCasing) (.map inner) = .ok w :=
    ⟨_, fun more => by
      simp only [wrapVariant, hencoding, hunit, Bool.false_eq_true, if_false]
      rfl⟩
  have hunwraps : ∀ more, room ≤ more →
      Unwraps types more ident enum variants options (bindings generics ident) variant w c :=
    fun more hmore => internal_unwraps (findWireVariant_eq more enum hkeys hmem)
      (hpayload.carried hmore) (hwrap more) hencoding hfree
  have htagged := wrapVariant_tagged (by rw [hencoding]; rfl) (hwrap room)
  refine ⟨w, {
    toRepeats := variant_repeats hresolve hkeys hmem hpayload.encodes hwrap hunwraps
    present := fun heq => absurd heq (hunwraps room (Nat.le_refl _)).present
    keys := (hunwraps room (Nat.le_refl _)).keys
    isMap := fun _ _ _ => ⟨_, htagged⟩
    names := fun entries stored other hentries hstored hnone hcontent => ?_ }⟩
  cases hentries
  cases htagged.symm.trans hstored
  have htag : other ≠ tag := by
    rintro rfl
    rw [hkey] at hnone
    cases hnone
  have hbeside : options.encoding.beside variant (.map inner) = inner := by
    simp [Encoding.beside, hencoding, hunit]
  rw [hbeside]
  exact findName?_tagged_none htag (hpayload.names _ inner other rfl rfl
    (findName?_withoutName_none hnone)
    fun hinner => hcontent (.internal hresolve hencoding hmem hinner))

end Enums

theorem enum_sent
    (hresolve : types.resolve ident = .ok (.enum enum generics variants options doc))
    (ih : ∀ r < room, Resends types r) (hsafe : Resendable types (.type ident) v)
    (hd : d.HasDistinctKeys)
    (h : enumFromWire types room d ident enum variants options (bindings generics ident) = .ok v) :
    ∃ w, Resent types (room + 1) (.type ident) d v w := by
  cases room with
  | zero => cases h
  | succ room =>
    have hreadable : Slot.Readable types (.type ident) := hsafe.readable _ _ .refl
    simp only [Slot.Readable, hresolve] at hreadable
    obtain ⟨hkeys, htells⟩ := hreadable
    obtain ⟨variant, hmem, c, rfl, hcases⟩ := enumFromWire_cases htells h
    have hfound := find?_name_of_nodup hkeys hmem
    have hshape : shape? types (.type ident) (.variant variant.name c) = some (.made
        [(.payload variant (bindings generics ident), c)]
        fun forms => .variant variant.name (forms.headD .null)) := by
      rw [shape?_type hresolve]
      simp only [shapeOf?, hfound, Option.map_some]
    have hpayload : ∀ d', d'.HasDistinctKeys →
        payloadFromWire types room d' variant (bindings generics ident) = .ok c →
        ∃ p, Resent types room (.payload variant (bindings generics ident)) d' c p :=
      fun d' hd' h => ih room (Nat.lt_succ_self _) (.payload variant (bindings generics ident)) d' c
        (hsafe.part ⟨_, _, hshape, List.mem_singleton_self _⟩) hd' h
    obtain ⟨payload, hencoding, hform, hc⟩ | ⟨tag, content, entries, hencoding, rfl, hkey, hc⟩
      | ⟨tag, entries, hencoding, rfl, hkey, ⟨hunit, rfl⟩ | ⟨hunit, hc⟩⟩ := hcases
    · have hd' : payload.HasDistinctKeys := by
        obtain ⟨rfl, rfl⟩ | rfl := hform
        · exact hd.below (.named _)
        · exact hd.below (.value (e := (_, _)) (List.mem_singleton_self _))
      obtain ⟨p, hp⟩ := hpayload payload hd' hc
      exact external_sent hresolve hkeys hmem hencoding (hform.imp_left And.left) hp
    · have hd' : ((Entries.findName? entries content).getD .null).HasDistinctKeys := by
        cases hfind : Entries.findName? entries content with
        | none => exact hd.below (.absent _)
        | some payload => exact hd.below (below_of_findName? hfind)
      rw [hencoding] at htells
      obtain ⟨p, hp⟩ := hpayload _ hd' hc
      exact adjacent_sent hresolve hkeys hmem hencoding htells hkey hp
    · exact internal_unit_sent hresolve hkeys hmem hencoding hunit hkey
    · obtain ⟨p, hp⟩ := hpayload _ (hd.below (.rest hkey)) hc
      have hapart := hsafe.tags _ _ .refl _ _ _ _ _ _ _ hresolve hencoding hmem
      have hbare : ¬Bare types (.payload variant (bindings generics ident)) c := fun hbare =>
        hsafe.carries _ _ .refl ⟨_, _, _, _, _, _, _, hresolve, hencoding, hfound, hbare⟩
      exact internal_sent hresolve hkeys hmem hencoding hunit hapart hbare hkey hp

/-! ## All places -/

/-- What is taken as it is, is sent again as it is. -/
theorem Resent.whole {place : Place}
    (h : Repeats types room place v v) (hkeys : ∀ entries, v = .map entries →
      DistinctKeys (entries.map (·.1))) : Resent types room place v v v where
  toRepeats := h
  present := id
  keys := hkeys
  isMap entries hd _ := ⟨entries, hd⟩
  names entries stored other hd hw hnone _ := by
    cases hd.symm.trans hw
    exact hnone

section Types

variable {name : Text} {inner : TypeIdent}

theorem primitive_sent {p : Primitive} (hresolve : types.resolve ident = .ok (.primitive p))
    (h : checkPrimitive room p ident d = .ok v) :
    ∃ w, Resent types (room + 1) (.type ident) d v w := by
  obtain ⟨hback, -, -, hmap⟩ := primitive_returns h
  have hd : ∀ entries, d ≠ .map entries := by
    rintro entries rfl
    obtain ⟨-, b, heq, -⟩ | ⟨-, x, rfl, heq | ⟨n, heq, -⟩⟩ | ⟨-, -, n, heq, -⟩ :=
      checkPrimitive_eq_ok h <;> cases heq
  refine ⟨v, .noMap (.ofType (fun more _ => ?_) fun more _ => ?_) id hd hmap⟩
  · unfold toWire
    rw [resolveWithin_eq_ok.mpr hresolve, bind_ok]
    exact checkPrimitive_again more hback
  · unfold fromWire
    rw [resolveWithin_eq_ok.mpr hresolve, bind_ok]
    exact checkPrimitive_again more hback

theorem container_sent (hresolve : types.resolve ident = .ok (.container name inner))
    (ih : Resends types room) (hsafe : Resendable types (.type ident) v) (hd : d.HasDistinctKeys)
    (hpresent : ¬d.isNull = true)
    (h : fromWire types room d (ident.args.headD default) = .ok v) :
    ∃ w, Resent types (room + 1) (.type ident) d v w := by
  have hv : ¬v.isNull = true := by
    intro hnull
    rw [Value.isNull_iff.mp hnull] at h
    exact hpresent (Value.isNull_iff.mpr (null_of_fromWire room h))
  have hone : shape? types (.type ident) v
      = some (.one (.type (ident.args.headD default)) v) := by
    rw [shape?_type hresolve]
    simp only [shapeOf?, hv, Bool.false_eq_true, if_false]
  obtain ⟨w, hw⟩ := ih (.type (ident.args.headD default)) d v (hsafe.one hone) hd h
  -- what is there is taken for something absent in neither direction
  have hw' : ¬w.isNull = true := fun hnull =>
    hv (Value.isNull_iff.mpr (hw.present (Value.isNull_iff.mp hnull)))
  exact ⟨w, hw.passesOn (.optional hresolve) (fun _ => run_optional hresolve hv)
    fun _ => run_optional hresolve hw'⟩

theorem list_sent {items : List Value} (hresolve : types.resolve ident = .ok (.list name inner))
    (ih : ∀ r < room, Resends types r) (hsafe : Resendable types (.type ident) v)
    (hd : (Value.list items).HasDistinctKeys)
    (h : itemsFromWire types room items (ident.args.headD default) = .ok v) :
    ∃ w, Resent types (room + 1) (.type ident) (.list items) v w := by
  have hparts : ∀ cs, v = .list cs → ∀ c ∈ cs,
      Resendable types (.type (ident.args.headD default)) c := by
    rintro cs rfl c hc
    exact hsafe.part ⟨_, _, shape?_type hresolve, List.mem_map_of_mem hc⟩
  obtain ⟨cs, ws, rfl, hencode, hdecode⟩ :=
    items_sent ih (fun item hitem => hd.below (.item hitem)) hparts h
  refine ⟨.list ws, .noMap (.ofType (fun more hmore => ?_) fun more hmore => ?_)
    (by simp) (by simp) (by simp)⟩
  · unfold toWire
    rw [resolveWithin_eq_ok.mpr hresolve]
    exact hencode more hmore
  · unfold fromWire
    rw [resolveWithin_eq_ok.mpr hresolve]
    exact hdecode more hmore

theorem map_sent {key : TypeIdent} {entries : Entries}
    (hresolve : types.resolve ident = .ok (.map name key inner))
    (ih : ∀ r < room, Resends types r) (hsafe : Resendable types (.type ident) v)
    (hd : (Value.map entries).HasDistinctKeys)
    (h : entriesFromWire types room entries (ident.args.headD default)
      ((ident.args.drop 1).headD default) = .ok v) :
    ∃ w, Resent types (room + 1) (.type ident) (.map entries) v w := by
  have hscalar : Slot.Readable types (.type ident) := hsafe.readable _ _ .refl
  simp only [Slot.Readable, hresolve] at hscalar
  have hparts : ∀ out, v = .map out → ∀ e ∈ out,
      Resendable types (.type ((ident.args.drop 1).headD default)) e.2 := by
    rintro out rfl e he
    exact hsafe.part ⟨_, _, shape?_type hresolve, List.mem_map_of_mem he⟩
  obtain ⟨out, ws, rfl, hlength, hdistinct, hread, hencode, hdecode⟩ :=
    entries_sent ih hscalar (fun e he => hd.below (.value he)) hparts h
  have hkeys : ((out.map (·.1)).zip ws).map (·.1) = out.map (·.1) :=
    List.map_fst_zip (by rw [List.length_map, hlength])
  have hrepeats : Repeats types (room + 1) (.type ident) (.map out)
      (.map ((out.map (·.1)).zip ws)) := by
    refine .ofType (fun more hmore => ?_) fun more hmore => ?_
    · unfold toWire
      rw [resolveWithin_eq_ok.mpr hresolve]
      exact hencode more hmore
    · unfold fromWire
      rw [resolveWithin_eq_ok.mpr hresolve]
      exact hdecode more hmore
  refine ⟨_, .ofMap hrepeats (by rw [hkeys]; exact hdistinct) fun other hother => ?_⟩
  -- no key is there that was not there
  refine Entries.findName?_eq_none_iff.mpr fun e he heq => ?_
  obtain ⟨e', he', hkey⟩ := List.mem_map.mp (List.of_mem_zip he).1
  obtain ⟨x, hx, hxkey⟩ := hread e' he'
  exact Entries.findName?_eq_none_iff.mp hother x hx (hxkey.trans (hkey.trans heq))

end Types

theorem type_sent (ih : ∀ r < room, Resends types r) (hsafe : Resendable types (.type ident) v)
    (hd : d.HasDistinctKeys) (h : fromWire types room d ident = .ok v) :
    ∃ w, Resent types room (.type ident) d v w := by
  cases room with
  | zero => cases h
  | succ room =>
    have ihBelow : ∀ r < room, Resends types r := fun r hr => ih r (Nat.lt_succ_of_lt hr)
    unfold fromWire at h
    obtain ⟨type, hresolve, h⟩ := bind_eq_ok.mp h
    have hresolve := resolveWithin_eq_ok.mp hresolve
    have hshape := shape?_type (v := v) hresolve
    -- for each kind of type, what the calls for it come to
    cases type with
    | primitive p => exact primitive_sent hresolve h
    | string name =>
      obtain ⟨s, rfl, rfl⟩ := checkText_eq_ok h
      refine ⟨.str s, .noMap (.ofType (fun more _ => ?_) fun more _ => ?_)
        (by simp) (by simp) (by simp)⟩
      · unfold toWire
        rw [resolveWithin_eq_ok.mpr hresolve]
        rfl
      · unfold fromWire
        rw [resolveWithin_eq_ok.mpr hresolve]
        rfl
    | unit name =>
      dsimp only at h
      split at h
      · rename_i hnull
        cases h
        obtain rfl := Value.isNull_iff.mp hnull
        refine ⟨.null, .noMap (.ofType (fun more _ => ?_) fun more _ => ?_)
          id (by simp) (by simp)⟩
        · unfold toWire
          rw [resolveWithin_eq_ok.mpr hresolve]
          rfl
        · unfold fromWire
          rw [resolveWithin_eq_ok.mpr hresolve]
          rfl
      · cases h
    | synonym name aliased =>
      obtain ⟨w, hw⟩ := ih room (Nat.lt_succ_self _) (.type aliased) d v (hsafe.one hshape) hd h
      exact ⟨w, hw.passesOn (.synonym hresolve) (fun _ => run_synonym hresolve)
        fun _ => run_synonym hresolve⟩
    | container name inner =>
      dsimp only at h
      split at h
      · rename_i hnull
        cases h
        obtain rfl := Value.isNull_iff.mp hnull
        refine ⟨.null, .noMap (.ofType (fun more _ => ?_) fun more _ => ?_)
          id (by simp) (by simp)⟩
        · unfold toWire
          rw [resolveWithin_eq_ok.mpr hresolve]
          rfl
        · unfold fromWire
          rw [resolveWithin_eq_ok.mpr hresolve]
          rfl
      · rename_i hpresent
        exact container_sent hresolve (ih room (Nat.lt_succ_self _)) hsafe hd hpresent h
    | custom name args rust typescript =>
      cases h
      refine ⟨d, .whole (.ofType (fun more _ => ?_) fun more _ => ?_) fun entries heq => ?_⟩
      · unfold toWire
        rw [resolveWithin_eq_ok.mpr hresolve]
        rfl
      · unfold fromWire
        rw [resolveWithin_eq_ok.mpr hresolve]
        rfl
      · subst heq
        exact hd.self
    | list name inner =>
      cases d with
      | list items => exact list_sent hresolve ihBelow hsafe hd h
      | _ => cases h
    | map name key value =>
      cases d with
      | map entries => exact map_sent hresolve ihBelow hsafe hd h
      | _ => cases h
    | tuple items =>
      obtain ⟨_, cs, ws, rfl, rfl, hencode, hdecode⟩ :=
        tuple_sent ihBelow (hsafe.one hshape) hd h
      refine ⟨.list ws, .noMap (.ofType (fun more hmore => ?_) fun more hmore => ?_)
        (by simp) (by simp) (by simp)⟩
      · unfold toWire
        rw [resolveWithin_eq_ok.mpr hresolve]
        exact hencode more hmore
      · unfold fromWire
        rw [resolveWithin_eq_ok.mpr hresolve]
        exact hdecode more hmore
    | struct name generics fields doc =>
      obtain ⟨entries, out, stored, rfl, rfl, hkeys, hnames, hencode, hdecode⟩ :=
        struct_sent ihBelow (hsafe.one hshape) hd h
      refine ⟨.map stored, .ofMap (.ofType (fun more hmore => ?_) fun more hmore => ?_)
        hkeys hnames⟩
      · unfold toWire
        rw [resolveWithin_eq_ok.mpr hresolve]
        exact hencode more hmore
      · unfold fromWire
        rw [resolveWithin_eq_ok.mpr hresolve]
        exact hdecode more hmore
    | enum name generics variants options doc => exact enum_sent hresolve ihBelow hsafe hd h
    | generic name => cases h

theorem all_sent (room : Nat) : Resends types room := by
  induction room using Nat.strong_induction_on with
  | _ room ih =>
    intro place d v hsafe hd h
    cases place with
    | type ident => exact type_sent ih hsafe hd h
    | payload variant bs => exact payload_sent ih hsafe hd h

end WasmBridge
