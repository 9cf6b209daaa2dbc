import WasmBridge.Proofs.Bindings.MemberText
import WasmBridge.Proofs.Schema.Declared
import WasmBridge.Proofs.Wire.Tags

/-!
# One key for each member

Guest, host and codec are made apart from each other: the first two read the keys of members off
generated files, the codec has them from the schema. They talk to each other only if all three know
each field and each variant by one key. They do, though Rust code names a key only where it is not
the identifier already: what is left out there is the same.

Two things can come between. The documentation of a member is printed above its key, and no one
sees to it that it stays documentation: behind a line end Rust reads on, and in TypeScript the
comment can end early. And a variant that shares a map with what it carries has its key there only
as long as nothing else is stored under the tag.
-/

namespace WasmBridge

open Outcome Text

variable {types : TypeMap Text} {scope : List Text}

/-! ## Names -/

/-- The fields that a variant carries. -/
def Variant.fields (variant : Variant Text) : List (Field Text) :=
  match variant.payload with
  | .struct _ _ fields _ => fields
  | _ => []

/-- The names of the members of a definition. -/
def TypeDef.memberNames : TypeDef Text → List Text
  | .struct _ _ fields _ => fields.map (·.name)
  | .enum _ _ variants _ _ =>
    variants.flatMap fun variant => variant.name :: variant.fields.map (·.name)
  | _ => []

/-! ## Fields -/

/-- Under its key stands what a value has for a field, encoded; or nothing, if that is an option
that is absent. -/
def FieldStored (types : TypeMap Text) (bs : List (Text × TypeIdent)) (f : Field Text) (key : Text)
    (v w : Value) : Prop :=
  ∃ entries stored room, v = .map entries ∧ w = .map stored
    ∧ StoredAs types room (f.type.substitute bs) (fieldValue entries f)
        (Entries.findName? stored key)

/-- What is encoded as the fields of a struct has each value under the key of its field, and has no
other keys, nor any of them twice. -/
theorem of_structToWire {room : Nat} {name : Text} {fields : List (Field Text)}
    {bs : List (Text × TypeIdent)} {v w : Value}
    (hkeys : (fields.map fun f => fieldWireKey f.name).Nodup)
    (h : structToWire types room v name fields bs = .ok w) :
    (∀ f ∈ fields, FieldStored types bs f (fieldWireKey f.name) v w)
      ∧ ∃ stored, w = .map stored ∧ DistinctKeys (stored.map (·.1))
          ∧ ∀ e ∈ stored, ∃ f ∈ fields, e.1 = .str (fieldWireKey f.name) := by
  cases room with
  | zero => cases h
  | succ room =>
    unfold structToWire at h
    cases v with
    | map entries =>
      obtain ⟨_, _, h⟩ := bind_eq_ok.mp h
      obtain ⟨out, hout, heq⟩ := bind_eq_ok.mp h
      cases heq
      obtain ⟨items, rfl, hitems⟩ := of_storeFields hout
      obtain ⟨hlength, hzip⟩ := List.forall₂_iff_zip.mp hitems
      refine ⟨fun f hf => ?_, _, rfl, distinctKeys_storedFields hkeys,
        fun e he => mem_storedFields he⟩
      obtain ⟨item?, hmem⟩ := exists_mem_zip hlength hf
      refine ⟨entries, _, room, rfl, rfl, ?_⟩
      rw [findName?_storedFields hkeys hmem]
      exact hzip hmem
    | _ => cases h

/-- What both languages have in a file about a member. -/
structure ShownMember where
  rust : Text
  typeScript : Text

/-- Both languages, by what they show of some fields, and the codec, by what it encodes, have one
key for each field. -/
structure FieldsAgree (types : TypeMap Text) (fields : List (Field Text))
    (members : List ShownMember) (rustShows tsShows : (doc : List Text) → (shown key : Text) → Prop)
    (encodes : List (Text × TypeIdent) → Value → Value → Prop) : Prop where
  keys : List.Forall₂ (fun f m => rustShows f.doc m.rust (fieldWireKey f.name)
    ∧ tsShows f.doc m.typeScript (fieldWireKey f.name)) fields members
  stored : ∀ f ∈ fields, ∀ bs v w, encodes bs v w →
    FieldStored types bs f (fieldWireKey f.name) v w
  /-- The codec has no keys that are not shown. -/
  declared : ∀ bs v w, encodes bs v w → ∃ stored, w = .map stored
    ∧ ∀ e ∈ stored, ∃ f ∈ fields, e.1 = .str (fieldWireKey f.name)

section Names

variable {f : Field Text} {decl : Rust.FieldDecl} {p : TypeScript.Property}

/-- What a Rust field goes by is the key of the field. -/
theorem spells_of_fieldDecl (hname : Unmarked f.name)
    (h : Rust.fieldDecl types scope f = .ok decl) :
    ∃ plain, Unmarked plain ∧ Rust.Spells plain decl.name
      ∧ decl.rename.getD plain = fieldWireKey f.name ∧ ∀ key ∈ decl.rename, Unmarked key := by
  have hdecl := Rust.fieldDecl_eq_ok h
  have hspells := Rust.spells_of_escapeText hdecl.name
  have hplain := Casing.unmarked_format .snakeCase hname
  have hkey : Unmarked (fieldWireKey f.name) := Casing.unmarked_format .camelCase hname
  refine ⟨_, hplain, hspells, ?_, ?_⟩
  · rw [hdecl.rename, hspells.plainName_eq hplain]
    split
    · -- no attribute: the identifier is the key already
      rename_i heq
      exact heq
    · rfl
  · rw [hdecl.rename]
    split
    · exact nofun
    · rintro key ⟨⟩
      exact hkey

theorem rust_showsKey_field (hname : Unmarked f.name)
    (h : Rust.fieldDecl types scope f = .ok decl) :
    Rust.ShowsKey "pub " f.doc (memberText (decl.lines "pub ")) (fieldWireKey f.name) := by
  obtain ⟨plain, hplain, hspells, hgetD, hkey⟩ := spells_of_fieldDecl hname h
  rw [← hgetD, ← (Rust.fieldDecl_eq_ok h).doc]
  exact Rust.showsKey_field (.inr rfl) hspells hplain hkey

theorem rust_showsKey_variantField (hname : Unmarked f.name)
    (h : Rust.fieldDecl types scope f = .ok decl) :
    Rust.ShowsKey "" f.doc (memberText (Lines.nested (decl.lines ""))) (fieldWireKey f.name) := by
  obtain ⟨plain, hplain, hspells, hgetD, hkey⟩ := spells_of_fieldDecl hname h
  rw [← hgetD, ← (Rust.fieldDecl_eq_ok h).doc]
  exact Rust.showsKey_variantField hspells hplain hkey

theorem typeScript_showsProperty (hname : Unmarked f.name)
    (h : TypeScript.property types scope f = .ok p) :
    TypeScript.ShowsProperty f.doc (memberText p.lines) (fieldWireKey f.name) := by
  have hdecl := TypeScript.property_eq_ok h
  rw [TypeScript.ShowsProperty, ← hdecl.doc]
  exact TypeScript.propertyKey?_eq (Casing.unmarked_format .camelCase hname) hdecl.name

theorem keyIn_of_property (hname : Unmarked f.name)
    (h : TypeScript.property types scope f = .ok p) :
    TypeScript.keyIn p.text = fieldWireKey f.name := by
  have hkey : TypeScript.keyIn (p.text ++ []) = fieldWireKey f.name :=
    TypeScript.keyIn_property (Casing.unmarked_format .camelCase hname)
      (TypeScript.property_eq_ok h).name
  rwa [List.append_nil] at hkey

end Names

/-! ### What the codec encodes -/

/-- The codec encodes a value at an ident that stands for a definition. -/
def EncodedAs (types : TypeMap Text) (type : TypeDef Text) (bs : List (Text × TypeIdent))
    (v w : Value) : Prop :=
  ∃ room ident, types.resolve ident = .ok type ∧ bs = bindings type.generics ident
    ∧ toWire types room v ident = .ok w

/-- The codec encodes what a variant carries. -/
def CarriedAs (types : TypeMap Text) (variant : Variant Text) (bs : List (Text × TypeIdent))
    (v w : Value) : Prop :=
  ∃ room, payloadToWire types room v variant bs = .ok w

theorem EncodedAs.fieldsToWire {name : Text} {generics doc : List Text}
    {fields : List (Field Text)} {bs : List (Text × TypeIdent)} {v w : Value}
    (h : EncodedAs types (.struct name generics fields doc) bs v w) :
    ∃ room name, structToWire types room v name fields bs = .ok w := by
  obtain ⟨room, ident, hresolve, rfl, hw⟩ := h
  cases room with
  | zero => cases hw
  | succ room =>
    unfold toWire at hw
    rw [resolveWithin_eq_ok.mpr hresolve, bind_ok] at hw
    exact ⟨room, name, hw⟩

theorem CarriedAs.fieldsToWire {variant : Variant Text} {carried : Text}
    {parameters doc : List Text} {fields : List (Field Text)} {bs : List (Text × TypeIdent)}
    {v w : Value} (hpayload : variant.payload = .struct carried parameters fields doc)
    (h : CarriedAs types variant bs v w) :
    ∃ room name, structToWire types room v name fields bs = .ok w := by
  obtain ⟨room, hw⟩ := h
  cases room with
  | zero => cases hw
  | succ room =>
    unfold payloadToWire at hw
    rw [hpayload] at hw
    exact ⟨room, carried, hw⟩

/-! ### Agreement -/

/-- What two languages show of things one by one, put together. -/
theorem exists_shownMembers {α : Type} {R T : α → Text → Prop} {items : List α}
    {rust typeScript : List Text} (hrust : List.Forall₂ R items rust)
    (hts : List.Forall₂ T items typeScript) :
    ∃ members : List ShownMember, members.map (·.rust) = rust
      ∧ members.map (·.typeScript) = typeScript
      ∧ List.Forall₂ (fun a m => R a m.rust ∧ T a m.typeScript) items members := by
  induction hrust generalizing typeScript with
  | nil =>
    cases hts
    exact ⟨[], rfl, rfl, .nil⟩
  | @cons a text items rust hfirst _ ih =>
    cases hts with
    | @cons _ text' _ typeScript hfirst' hrest' =>
      obtain ⟨members, rfl, rfl, hmembers⟩ := ih hrest'
      exact ⟨⟨text, text'⟩ :: members, rfl, rfl, .cons ⟨hfirst, hfirst'⟩ hmembers⟩

theorem forall₂_comp {α β γ : Type} {P : α → β → Prop} {Q : β → γ → Prop} {xs : List α}
    {ys : List β} {zs : List γ} (hP : List.Forall₂ P xs ys) (hQ : List.Forall₂ Q ys zs) :
    List.Forall₂ (fun x z => ∃ y, P x y ∧ Q y z) xs zs := by
  induction hP generalizing zs with
  | nil =>
    cases hQ
    exact .nil
  | cons hx _ ih =>
    cases hQ with
    | cons hy hrest => exact .cons ⟨_, hx, hy⟩ (ih hrest)

/-- What is declared of things one by one is shown one by one. -/
theorem forall₂_shown {α β : Type} {declare : α → Except SchemaError β} {items : List α}
    {decls : List β} {text : β → Text} {P : α → Prop} {R : α → Text → Prop}
    (hitems : ∀ a ∈ items, P a) (h : items.mapM declare = .ok decls)
    (hshown : ∀ a d, P a → declare a = .ok d → R a (text d)) :
    List.Forall₂ R items (decls.map text) := by
  have hdeclared := (List.forall₂_and_left items decls).mpr ⟨hitems, mapM_eq_ok_iff.mp h⟩
  exact List.forall₂_map_right_iff.mpr (hdeclared.imp fun a d had => hshown a d had.1 had.2)

/-- What both languages show of some fields agrees with a codec that encodes them as fields. -/
theorem fieldsAgree {fields : List (Field Text)} {members : List ShownMember}
    {rustShows tsShows : List Text → Text → Text → Prop}
    {encodes : List (Text × TypeIdent) → Value → Value → Prop}
    (hkeys : (fields.map fun f => fieldWireKey f.name).Nodup)
    (hshown : List.Forall₂ (fun f m => rustShows f.doc m.rust (fieldWireKey f.name)
      ∧ tsShows f.doc m.typeScript (fieldWireKey f.name)) fields members)
    (hencodes : ∀ bs v w, encodes bs v w →
      ∃ room name, structToWire types room v name fields bs = .ok w) :
    FieldsAgree types fields members rustShows tsShows encodes := by
  refine ⟨hshown, fun f hf bs v w hencoded => ?_, fun bs v w hencoded => ?_⟩
  · obtain ⟨room, name, hw⟩ := hencodes bs v w hencoded
    exact (of_structToWire hkeys hw).1 f hf
  · obtain ⟨room, name, hw⟩ := hencodes bs v w hencoded
    obtain ⟨-, stored, hstored, -, honly⟩ := of_structToWire hkeys hw
    exact ⟨stored, hstored, honly⟩

/-! ## Variants -/

/-- The wire key of a variant, read off what one of its values is encoded as. -/
def Value.variantKey? (encoding : Encoding Text) (w : Value) : Option Text :=
  match encoding.tag?, w with
  | some tag, .map entries => (Entries.findName? entries tag).bind Label.text?
  | none, .str key => some key
  | none, .map [(.str key, _)] => some key
  | _, _ => none

/-- What a variant carries has its place in what the variant is encoded as. -/
def PlacedIn (encoding : Encoding Text) (w payload : Value) : Prop :=
  match encoding with
  | .untagged => w = payload
  | .external => ∃ key, w = .map [(key, payload)]
  | .adjacent _ content => ∃ entries, w = .map entries
      ∧ Entries.findName? entries content = some payload
  | .internal tag => ∃ entries stored, w = .map entries ∧ payload = .map stored
      ∧ (∀ x, Entries.findName? stored tag = some x → Entries.findName? entries tag = some x)
      ∧ ∀ name, name ≠ tag → Entries.findName? entries name = Entries.findName? stored name

/-- Both languages and the codec have one key for a variant, unless only payloads are encoded, and
one for each field that it carries. -/
structure VariantAgrees (types : TypeMap Text) (enum : Text) (generics : List Text)
    (variants : List (Variant Text)) (options : EnumOptions Text) (doc : List Text)
    (variant : Variant Text) (m : ShownMember) : Prop where
  shown : options.encoding ≠ .untagged →
    let key := variantWireKey variant.name options.variantCasing
    Rust.ShowsKey "" variant.doc m.rust key
      ∧ TypeScript.ShowsVariant options.encoding variant.doc m.typeScript key
  /-- The key is read off whatever the variant is encoded as, unless something else has come to
  stand under the tag. -/
  encoded : options.encoding ≠ .untagged → ∀ room carried ident w,
    types.resolve ident = .ok (.enum enum generics variants options doc) →
    toWire types room (.variant variant.name carried) ident = .ok w →
    let key := variantWireKey variant.name options.variantCasing
    ∃ payload, CarriedAs types variant (bindings generics ident) carried payload
      ∧ (w.variantKey? options.encoding = some key
        ↔ ∀ tag ∈ options.encoding.tag?,
            LeavesTag tag key (options.encoding.beside variant payload))
  /-- The codec finds the variant again by its key. -/
  found : options.encoding ≠ .untagged → ∀ room,
    findWireVariant room enum variants options.variantCasing
      (.str (variantWireKey variant.name options.variantCasing)) = .ok variant
  fields : ∀ carried parameters fields doc',
    variant.payload = .struct carried parameters fields doc' →
    ∃ members : List ShownMember, Rust.HoldsFields variant (members.map (·.rust)) m.rust
      ∧ TypeScript.HoldsRow (members.map (·.typeScript)) m.typeScript
      ∧ FieldsAgree types fields members (Rust.ShowsKey "")
          (fun _ shown key => TypeScript.keyIn shown = key) (CarriedAs types variant)
  /-- What a variant carries as fields has its place in what the variant is encoded as. -/
  placed : ∀ carried parameters fields doc',
    variant.payload = .struct carried parameters fields doc' →
    ∀ room carried ident w, types.resolve ident = .ok (.enum enum generics variants options doc) →
      toWire types room (.variant variant.name carried) ident = .ok w →
      ∃ payload, CarriedAs types variant (bindings generics ident) carried payload
        ∧ PlacedIn options.encoding w payload

section Variants

variable {target target' enum : Text} {generics : List Text} {variants : List (Variant Text)}
  {options : EnumOptions Text} {doc : List Text} {variant : Variant Text}
  {decl : Rust.VariantDecl} {member : TypeScript.Member}

theorem rust_showsKey_variant (hname : Unmarked variant.name)
    (hencoding : options.encoding ≠ .untagged)
    (h : Rust.variantDecl target types enum scope options variant = .ok decl) :
    Rust.ShowsKey "" variant.doc (memberText decl.lines)
      (variantWireKey variant.name options.variantCasing) := by
  have hdecl := Rust.variantDecl_eq_ok h
  have hkey := Casing.unmarked_format options.variantCasing hname
  have hplain : Unmarked decl.name := by
    rw [hdecl.name]
    exact Casing.unmarked_format .pascalCase hname
  have hrename : ∀ key ∈ decl.rename, Unmarked key := by
    rw [hdecl.rename]
    dsimp only
    split
    · exact nofun
    · rintro key ⟨⟩
      exact hkey
  have hgetD : decl.rename.getD decl.name = variantWireKey variant.name options.variantCasing := by
    rw [hdecl.rename]
    dsimp only
    split
    · rename_i heq
      exact heq.resolve_right hencoding
    · rfl
  rw [← hgetD, ← hdecl.doc]
  exact Rust.showsKey_variant hplain hrename

theorem typeScript_showsVariant (hname : Unmarked variant.name)
    (hencoding : options.encoding ≠ .untagged)
    (h : TypeScript.member target types enum scope options variant = .ok member) (closing : Text) :
    TypeScript.ShowsVariant options.encoding variant.doc
      (member.unionText closing) (variantWireKey variant.name options.variantCasing) := by
  have hmember := TypeScript.member_eq_ok h
  have hkey : Unmarked member.key := by
    rw [hmember.key]
    exact Casing.unmarked_format options.variantCasing hname
  rw [← hmember.encoding] at hencoding
  intro hdoc
  rw [← hmember.doc] at hdoc
  rw [← hmember.encoding, ← hmember.key]
  exact TypeScript.unionKey?_eq hencoding hkey hdoc closing

/-- A value of a variant is wrapped under the key of this variant and of no other. -/
theorem wrapped_of_toWire {room : Nat} {carried w : Value} {ident : TypeIdent}
    (hkeys : (variants.map fun v => variantWireKey v.name options.variantCasing).Nodup)
    (hvariant : variant ∈ variants)
    (hresolve : types.resolve ident = .ok (.enum enum generics variants options doc))
    (h : toWire types room (.variant variant.name carried) ident = .ok w) :
    ∃ r payload, payloadToWire types r carried variant (bindings generics ident) = .ok payload
      ∧ wrapVariant r enum options.encoding variant
          (variantWireKey variant.name options.variantCasing) payload = .ok w := by
  obtain ⟨carried', found, r, payload, heq, hfound, hpayload, hwrap⟩ := toWire_enum hresolve h
  injection heq with hname hcarried
  -- the codec looks for the name, but variants of one name would have one key
  have hsame : found = variant :=
    List.inj_on_of_nodup_map hkeys (List.mem_of_find?_eq_some hfound) hvariant (by rw [hname])
  rw [← hcarried, hsame] at hpayload
  rw [hsame] at hwrap
  exact ⟨r, payload, hpayload, hwrap⟩

theorem bind_text?_iff {x? : Option Value} {key : Text} :
    x?.bind Label.text? = some key ↔ x? = some (.str key) := by
  rw [Option.bind_eq_some_iff]
  constructor
  · rintro ⟨x, rfl, hx⟩
    cases x with
    | str t =>
      cases hx
      rfl
    | _ => cases hx
  · rintro rfl
    exact ⟨_, rfl, rfl⟩

/-- **The key of a variant is read off what it is encoded as,** if it is still there. -/
theorem variantKey?_of_wrapVariant {room : Nat} {key : Text} {payload w : Value}
    (hencoding : options.encoding ≠ .untagged)
    (h : wrapVariant room enum options.encoding variant key payload = .ok w) :
    w.variantKey? options.encoding = some key
      ↔ ∀ tag ∈ options.encoding.tag?,
          LeavesTag tag key (options.encoding.beside variant payload) := by
  cases htag : options.encoding.tag? with
  | some tag =>
    have hread : Value.variantKey? options.encoding w
        = (Entries.findName? (Entries.putAll [(.str tag, .str key)]
            (options.encoding.beside variant payload)) tag).bind Label.text? := by
      rw [wrapVariant_tagged htag h]
      unfold Value.variantKey?
      rw [htag]
    rw [hread, bind_text?_iff, findName?_tag]
    exact ⟨fun hleaves _ htag => Option.mem_some.mp htag ▸ hleaves, fun hleaves => hleaves tag rfl⟩
  | none =>
    -- without a tag the key has its place to itself
    refine iff_of_true ?_ nofun
    cases hexternal : options.encoding with
    | external =>
      rw [hexternal] at h
      unfold wrapVariant at h
      dsimp only at h
      split at h
      · cases h
        rfl
      · cases h
        rfl
    | untagged => exact absurd hexternal hencoding
    | _ =>
      rw [hexternal] at htag
      cases htag

/-- What stands under a name that is there once is found from either end. -/
theorem findName?_reverse {entries : Entries} (h : DistinctKeys (entries.map (·.1))) (name : Text) :
    Entries.findName? entries.reverse name = entries.findName? name := by
  induction entries with
  | nil => rfl
  | cons e rest ih =>
    obtain ⟨hnew, hrest⟩ := List.pairwise_cons.mp h
    rw [List.reverse_cons, Entries.findName?_append, ih hrest]
    by_cases hname : e.1 = .str name
    · have hnone : Entries.findName? rest name = none := by
        refine Entries.findName?_eq_none_iff.mpr fun e' he' heq => ?_
        have hother : e.1.same e'.1 = false := hnew _ (List.mem_map_of_mem he')
        rw [hname, heq, Value.same_str.mpr rfl] at hother
        cases hother
      rw [hnone, Option.none_or]
      obtain ⟨k, x⟩ := e
      cases hname
      rw [Entries.findName?_head, Entries.findName?_head]
    · rw [Entries.findName?_tail hname, Entries.findName?_tail hname]
      exact Option.or_none

/-- **The fields that a variant carries have their place in what it is encoded as.** -/
theorem placedIn_of_wrapVariant {room : Nat} {key : Text} {stored : Entries} {w : Value}
    (hunit : variant.payload.isUnit = false) (hdistinct : DistinctKeys (stored.map (·.1)))
    (h : wrapVariant room enum options.encoding variant key (.map stored) = .ok w) :
    PlacedIn options.encoding w (.map stored) := by
  unfold wrapVariant at h
  generalize options.encoding = encoding at h
  cases encoding with
  | untagged =>
    cases h
    rfl
  | external =>
    simp only [hunit, Bool.false_eq_true, if_false] at h
    cases h
    exact ⟨_, rfl⟩
  | adjacent tag content =>
    simp only [hunit, Bool.false_eq_true, if_false] at h
    cases h
    refine ⟨_, rfl, ?_⟩
    rw [Entries.findName?_put, if_pos (Value.isName_iff.mpr rfl)]
  | internal tag =>
    simp only [hunit, Bool.false_eq_true, if_false] at h
    cases h
    -- fields are put behind the tag, so one of its name takes its place
    refine ⟨_, stored, rfl, rfl, fun x hx => ?_, fun name hname => ?_⟩
    · rw [Entries.findName?_putAll, findName?_reverse hdistinct, hx]
      rfl
    · have htag : Value.str tag ≠ .str name := fun heq => hname (Value.str.inj heq).symm
      rw [Entries.findName?_putAll, findName?_reverse hdistinct, Entries.findName?_tail htag]
      exact Option.or_none

/-- The codec has one key for a variant whose keys a target has checked. -/
theorem encoded_of_nodup (hencoding : options.encoding ≠ .untagged)
    (hkeys : (variants.map fun v => variantWireKey v.name options.variantCasing).Nodup)
    (hvariant : variant ∈ variants) {room : Nat} {carried w : Value} {ident : TypeIdent}
    (hresolve : types.resolve ident = .ok (.enum enum generics variants options doc))
    (h : toWire types room (.variant variant.name carried) ident = .ok w) :
    ∃ payload, CarriedAs types variant (bindings generics ident) carried payload
      ∧ (w.variantKey? options.encoding
          = some (variantWireKey variant.name options.variantCasing)
        ↔ ∀ tag ∈ options.encoding.tag?,
            LeavesTag tag (variantWireKey variant.name options.variantCasing)
              (options.encoding.beside variant payload)) := by
  obtain ⟨r, payload, hpayload, hwrap⟩ := wrapped_of_toWire hkeys hvariant hresolve h
  exact ⟨payload, ⟨r, hpayload⟩, variantKey?_of_wrapVariant hencoding hwrap⟩

theorem placed_of_nodup {carriedName : Text} {parameters doc' : List Text}
    {fields : List (Field Text)}
    (hkeys : (variants.map fun v => variantWireKey v.name options.variantCasing).Nodup)
    (hvariant : variant ∈ variants)
    (hpayload : variant.payload = .struct carriedName parameters fields doc')
    (hfields : (fields.map fun f => fieldWireKey f.name).Nodup) {room : Nat} {carried w : Value}
    {ident : TypeIdent}
    (hresolve : types.resolve ident = .ok (.enum enum generics variants options doc))
    (h : toWire types room (.variant variant.name carried) ident = .ok w) :
    ∃ payload, CarriedAs types variant (bindings generics ident) carried payload
      ∧ PlacedIn options.encoding w payload := by
  obtain ⟨r, payload, hencoded, hwrap⟩ := wrapped_of_toWire hkeys hvariant hresolve h
  have hcarried : CarriedAs types variant (bindings generics ident) carried payload :=
    ⟨r, hencoded⟩
  obtain ⟨_, _, hfieldsToWire⟩ := hcarried.fieldsToWire hpayload
  obtain ⟨-, stored, rfl, hdistinct, -⟩ := of_structToWire hfields hfieldsToWire
  have hunit : variant.payload.isUnit = false := by rw [hpayload]; rfl
  exact ⟨_, hcarried, placedIn_of_wrapVariant hunit hdistinct hwrap⟩

/-- What both languages show of the fields that a variant carries. -/
theorem exists_variantFields {carried : Text} {parameters doc' : List Text}
    {fields : List (Field Text)} {closing : Text}
    (hpayload : variant.payload = .struct carried parameters fields doc')
    (hnames : ∀ f ∈ fields, Unmarked f.name)
    (hfields : (fields.map fun f => fieldWireKey f.name).Nodup)
    (hrust : Rust.variantDecl target types enum scope options variant = .ok decl)
    (hts : TypeScript.member target' types enum scope options variant = .ok member) :
    ∃ members : List ShownMember,
      Rust.HoldsFields variant (members.map (·.rust)) (memberText decl.lines)
        ∧ TypeScript.HoldsRow (members.map (·.typeScript)) (member.unionText closing)
        ∧ FieldsAgree types fields members (Rust.ShowsKey "")
            (fun _ shown key => TypeScript.keyIn shown = key) (CarriedAs types variant) := by
  have hrust := Rust.variantDecl_eq_ok hrust
  have hts := TypeScript.member_eq_ok hts
  have hrustPayload := hrust.payload
  have htsPayload := hts.payload
  rw [hpayload] at hrustPayload htsPayload
  generalize hdeclared : decl.payload = declared, hcarried : member.payload = shown
    at hrustPayload htsPayload
  rcases hrustPayload with _ | @⟨_, _, _, _, decls, hfieldDecls⟩ | _
  rcases htsPayload with _ | @⟨_, _, _, _, properties, hproperties⟩ | _
  have hrustShown : List.Forall₂
      (fun f shown => Rust.ShowsKey "" f.doc shown (fieldWireKey f.name)) fields
      (decls.map fun d => memberText (Lines.nested (d.lines ""))) :=
    forall₂_shown hnames hfieldDecls fun _ _ => rust_showsKey_variantField
  have htsShown : List.Forall₂ (fun f shown => TypeScript.keyIn shown = fieldWireKey f.name) fields
      (properties.map (·.text)) :=
    forall₂_shown hnames hproperties fun _ _ => keyIn_of_property
  obtain ⟨members, hrustTexts, htsTexts, hmembers⟩ := exists_shownMembers hrustShown htsShown
  refine ⟨members, ?_, ?_, fieldsAgree hfields hmembers fun _ _ _ h => h.fieldsToWire hpayload⟩
  · rw [hrustTexts]
    exact Rust.holdsFields hrust.name hdeclared
  · rw [htsTexts]
    exact TypeScript.holdsRow_unionText hcarried closing

/-- Both languages and the codec have one key for a variant that is declared under checked names. -/
theorem variantAgrees (closing : Text)
    (hchecked : checkMemberNames target (.enum enum generics variants options doc) = .ok ())
    (hnames : ∀ name ∈ (TypeDef.enum enum generics variants options doc).memberNames, Unmarked name)
    (hvariant : variant ∈ variants)
    (hrust : Rust.variantDecl target types enum scope options variant = .ok decl)
    (hts : TypeScript.member target' types enum scope options variant = .ok member) :
    VariantAgrees types enum generics variants options doc variant
      ⟨memberText decl.lines, member.unionText closing⟩ := by
  have hkeys := nodup_variantWireKeys hchecked
  have hown : ∀ name ∈ variant.name :: variant.fields.map (·.name), Unmarked name :=
    fun name h => hnames name (List.mem_flatMap.mpr ⟨variant, hvariant, h⟩)
  obtain ⟨hname, hfieldNames⟩ := List.forall_mem_cons.mp hown
  refine ⟨fun hencoding => ?_, fun hencoding room carried ident w hresolve hw => ?_,
    fun hencoding room => ?_, fun carried parameters fields doc' hpayload => ?_,
    fun carried parameters fields doc' hpayload room carried ident w hresolve hw => ?_⟩
  · exact ⟨rust_showsKey_variant hname hencoding hrust,
      typeScript_showsVariant hname hencoding hts closing⟩
  · exact encoded_of_nodup hencoding hkeys hvariant hresolve hw
  · exact findWireVariant_eq room enum hkeys hvariant
  · have hcarried : variant.fields = fields := by rw [Variant.fields, hpayload]
    rw [hcarried] at hfieldNames
    exact exists_variantFields hpayload (List.forall_mem_map.mp hfieldNames)
      (nodup_payloadWireKeys hchecked hvariant hpayload) hrust hts
  · exact placed_of_nodup hkeys hvariant hpayload (nodup_payloadWireKeys hchecked hvariant hpayload)
      hresolve hw

end Variants

/-! ## Declarations -/

/-- Both languages and the codec have one key for each member of a type. -/
def KeysAgree (types : TypeMap Text) (type : TypeDef Text) (members : List ShownMember) : Prop :=
  match type with
  | .struct _ _ fields _ =>
    FieldsAgree types fields members (Rust.ShowsKey "pub ") TypeScript.ShowsProperty
      (EncodedAs types type)
  | .enum enum generics variants options doc =>
    List.Forall₂ (VariantAgrees types enum generics variants options doc) variants members
  | _ => False

section Accepted

variable {s : BindingSource Text} {target target' : Text} {derives : Text → Rust.Derives}
  {declared : List (TypeDef Text)} {rust : List Rust.TypeDecl} {ts : List TypeScript.TypeDecl}
  {name : Text} {generics doc : List Text}

theorem struct_keysAgree {fields : List (Field Text)} (hdeclared : s.declared = .ok declared)
    (hrust : Rust.typeDecls target s derives = .ok rust)
    (hts : TypeScript.typeDecls target' s = .ok ts)
    (hchecked : checkMemberNames target (.struct name generics fields doc) = .ok ())
    (htype : .struct name generics fields doc ∈ declared)
    (hnames : ∀ f ∈ fields, Unmarked f.name) :
    ∃ members : List ShownMember,
      Rust.Holds (.struct name generics fields doc) (members.map (·.rust)) (Rust.typesFile rust)
        ∧ TypeScript.Holds (.struct name generics fields doc) (members.map (·.typeScript))
            (TypeScript.typesFile ts)
        ∧ KeysAgree s.types (.struct name generics fields doc) members := by
  obtain ⟨decls, hdecls, hrustMem⟩ := Rust.struct_declared hdeclared hrust htype
  obtain ⟨properties, hproperties, htsMem⟩ := TypeScript.struct_declared hdeclared hts htype
  have hrustShown : List.Forall₂
      (fun f shown => Rust.ShowsKey "pub " f.doc shown (fieldWireKey f.name)) fields
      (decls.map fun d => memberText (d.lines "pub ")) :=
    forall₂_shown hnames hdecls fun _ _ => rust_showsKey_field
  have htsShown : List.Forall₂
      (fun f shown => TypeScript.ShowsProperty f.doc shown (fieldWireKey f.name)) fields
      (properties.map fun p => memberText p.lines) :=
    forall₂_shown hnames hproperties fun _ _ => typeScript_showsProperty
  obtain ⟨members, hrustTexts, htsTexts, hmembers⟩ := exists_shownMembers hrustShown htsShown
  refine ⟨members, ?_, ?_, fieldsAgree (nodup_fieldWireKeys hchecked) hmembers
    fun _ _ _ h => h.fieldsToWire⟩
  · rw [hrustTexts]
    exact Rust.holds_struct fields hrustMem
  · rw [htsTexts]
    exact TypeScript.holds_struct fields htsMem

theorem enum_keysAgree {variants : List (Variant Text)} {options : EnumOptions Text}
    (hdeclared : s.declared = .ok declared)
    (hrust : Rust.typeDecls target s derives = .ok rust)
    (hts : TypeScript.typeDecls target' s = .ok ts)
    (hchecked : checkMemberNames target (.enum name generics variants options doc) = .ok ())
    (htype : .enum name generics variants options doc ∈ declared)
    (hnames : ∀ n ∈ (TypeDef.enum name generics variants options doc).memberNames, Unmarked n) :
    ∃ members : List ShownMember,
      Rust.Holds (.enum name generics variants options doc) (members.map (·.rust))
          (Rust.typesFile rust)
        ∧ TypeScript.Holds (.enum name generics variants options doc) (members.map (·.typeScript))
            (TypeScript.typesFile ts)
        ∧ KeysAgree s.types (.enum name generics variants options doc) members := by
  obtain ⟨decls, hdecls, hrustMem⟩ := Rust.enum_declared hdeclared hrust htype
  obtain ⟨shown, hshown, htsMem⟩ := TypeScript.enum_declared hdeclared hts htype
  have hrustShown : List.Forall₂ (fun v text => v ∈ variants
      ∧ ∃ decl, Rust.variantDecl target s.types name generics options v = .ok decl
        ∧ text = memberText decl.lines) variants (decls.map fun d => memberText d.lines) :=
    forall₂_shown (fun _ hv => hv) hdecls fun _ d hv hdecl => ⟨hv, d, hdecl, rfl⟩
  have htsShown := forall₂_comp (mapM_eq_ok_iff.mp hshown) (TypeScript.forall₂_unionTexts shown)
  obtain ⟨members, hrustTexts, htsTexts, hmembers⟩ := exists_shownMembers hrustShown htsShown
  refine ⟨members, ?_, ?_, hmembers.imp fun variant m hm => ?_⟩
  · rw [hrustTexts]
    exact Rust.holds_enum hrustMem
  · rw [htsTexts]
    exact TypeScript.holds_enum options htsMem
  · obtain ⟨⟨hvariant, decl, hdecl, hrustText⟩, member, hmember, closing, htsText⟩ := hm
    have hagrees := variantAgrees closing hchecked hnames hvariant hdecl hmember
    rwa [← hrustText, ← htsText] at hagrees

/--
**Guest, host and codec know each member by one key.** A Rust target and the TypeScript target
accept an interface in which all names of fields and variants are made of letters, digits and
underscores. Then both have files in which the members of each declared struct and enum stand, one
below the other, with a key for each:

* of a field, this key is read off its part of either file, and under it the codec stores what a
  value has for the field;
* of a variant, this key is read off its part of either file and off what the codec encodes its
  values as, as long as nothing else is stored under the tag; and the codec finds the variant again
  by it. If payloads stand alone in their encoded form, there is no key to agree upon. For the
  fields that a variant carries the same holds as for those of a struct.

The documentation of a member has no part in this if each of its lines is one in the file and none
of them ends a comment of TypeScript. But nothing sees to that, and a key that is read off the
documentation in Rust comes before the one that is meant.
-/
theorem wire_keys_agree {t : Target} {rustFiles tsFiles : List (Text × Text)}
    (ht : t ≠ .typeScriptRuntime) (hrust : s.files t = .ok rustFiles)
    (hts : s.files .typeScriptRuntime = .ok tsFiles) (hdeclared : s.declared = .ok declared)
    (hnames : ∀ type ∈ declared, ∀ name ∈ type.memberNames, IsName name) :
    ∃ rustFile tsFile, (("types.rs" : Text), rustFile) ∈ rustFiles
      ∧ (("types.ts" : Text), tsFile) ∈ tsFiles
      ∧ ∀ type ∈ declared, type.isDerived = true → ∃ members : List ShownMember,
          Rust.Holds type (members.map (·.rust)) rustFile
          ∧ TypeScript.Holds type (members.map (·.typeScript)) tsFile
          ∧ KeysAgree s.types type members := by
  -- the names that one target has checked are those that the other declares
  obtain ⟨target, derives, rust, hchecked, hrust, hrustFile⟩ := rust_of_files ht hrust
  obtain ⟨target', ts, hts, htsFile⟩ := typeScript_of_files hts
  refine ⟨_, _, hrustFile, htsFile, fun type htype hmembers => ?_⟩
  have hchecked := checked_of_checkNames hchecked hdeclared htype
  have hunmarked : ∀ name ∈ type.memberNames, Unmarked name :=
    fun name hname => (hnames type htype name hname).unmarked
  cases type with
  | struct name generics fields doc =>
    exact struct_keysAgree hdeclared hrust hts hchecked htype (List.forall_mem_map.mp hunmarked)
  | enum name generics variants options doc =>
    exact enum_keysAgree hdeclared hrust hts hchecked htype hunmarked
  | _ => cases hmembers

/-- A request that is told apart by its kind, where one field goes by a keyword and one by a key
that is not its identifier. The documentation of a third goes on behind a line end, and there a
guest reads a key that neither the host nor the codec knows. -/
theorem wire_keys_agree_request :
    let sent : Variant Text := .mk "requestSent" (.struct "requestSent" []
      [{ name := "type", type := ⟨"String", []⟩ },
       { name := "http_status", type := ⟨"Option", [⟨"u16", []⟩]⟩ }] []) []
    let id : Field Text :=
      { name := "id", type := ⟨"String", []⟩, doc := ["x\n#[serde(rename = \"other\")]"] }
    let noted : Variant Text := .mk "Noted" (.struct "Noted" [] [id] []) []
    let options : EnumOptions Text := { variantCasing := .snakeCase, tag := some "kind" }
    let request : TypeDef Text :=
      .enum "Request" [] [.mk "Idle" (.unit "()") [], sent, noted] options []
    let s := (⟨.empty, .empty, [request], []⟩ : Interface Text).source {}
    ∃ rustFiles tsFiles rustFile tsFile members, s.files .rustPlugin = .ok rustFiles
      ∧ s.files .typeScriptRuntime = .ok tsFiles
      ∧ (("types.rs" : Text), rustFile) ∈ rustFiles ∧ (("types.ts" : Text), tsFile) ∈ tsFiles
      ∧ Rust.Holds request (members.map ShownMember.rust) rustFile
      ∧ TypeScript.Holds request (members.map (·.typeScript)) tsFile
      ∧ KeysAgree s.types request members
      ∧ ∃ shown ∈ members, ∃ m : ShownMember, Rust.HoldsFields noted [m.rust] shown.rust
          ∧ TypeScript.HoldsRow [m.typeScript] shown.typeScript
          ∧ Rust.keyIn? "" (linesOf m.rust) = some "other"
          ∧ TypeScript.keyIn m.typeScript = "id"
          ∧ ∃ w, CarriedAs s.types noted [] (.map [(.str "id", .str "7")]) w
            ∧ FieldStored s.types [] id "id" (.map [(.str "id", .str "7")]) w := by
  intro sent id noted options request s
  obtain ⟨rustFiles, hrust⟩ := exists_of_isOk
    (show (s.files .rustPlugin).isOk = true by decide +kernel)
  obtain ⟨tsFiles, hts⟩ := exists_of_isOk
    (show (s.files .typeScriptRuntime).isOk = true by decide +kernel)
  obtain ⟨declared, hdeclared⟩ := exists_of_isOk (show s.declared.isOk = true by decide +kernel)
  have hchecked : (match s.declared with
      | .ok declared => declared.all fun type =>
          type.memberNames.all fun name => decide (IsName name)
      | .error _ => false) = true := by decide +kernel
  have hnames : ∀ type ∈ declared, ∀ name ∈ type.memberNames, IsName name := by
    rw [hdeclared] at hchecked
    simpa using hchecked
  have hrequest : request ∈ declared :=
    mem_declared hdeclared (show s.types.find? "Request" = some request by rfl) rfl
  obtain ⟨rustFile, tsFile, hrustFile, htsFile, hagree⟩ :=
    wire_keys_agree (by decide) hrust hts hdeclared hnames
  obtain ⟨members, hholds, htsHolds, hkeys⟩ := hagree request hrequest rfl
  refine ⟨rustFiles, tsFiles, rustFile, tsFile, members, hrust, hts, hrustFile, htsFile, hholds,
    htsHolds, hkeys, ?_⟩
  obtain ⟨hlength, hzip⟩ := List.forall₂_iff_zip.mp hkeys
  have hnoted : noted ∈ [.mk "Idle" (.unit "()") [], sent, noted] :=
    .tail _ (.tail _ (.head _))
  obtain ⟨shown, hshown⟩ := exists_mem_zip hlength hnoted
  obtain ⟨fields, hholdsFields, hrow, hfields⟩ := (hzip hshown).fields _ _ _ _ rfl
  cases hkeys : hfields.keys with
  | @cons _ m _ _ hfirst hrest =>
    cases hrest
    have hid : fieldWireKey id.name = "id" := by decide +kernel
    have hsaid : Rust.saidIn? "" id.doc = some "other" := by decide +kernel
    obtain ⟨w, hw⟩ := exists_of_isOk (show (payloadToWire s.types 3
      (.map [(.str "id", .str "7")]) noted []).isOk = true by decide +kernel)
    have hstored := hfields.stored id List.mem_cons_self _ _ _ ⟨3, hw⟩
    rw [hid] at hstored
    refine ⟨shown, (List.of_mem_zip hshown).2, m, hholdsFields, hrow, ?_, hfirst.2.trans hid, w,
      ⟨3, hw⟩, hstored⟩
    rw [hfirst.1.said, hsaid]
    rfl

end Accepted

end WasmBridge
