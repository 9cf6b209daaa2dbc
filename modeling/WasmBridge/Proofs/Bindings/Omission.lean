import WasmBridge.Proofs.Bindings.Accepted
import WasmBridge.Proofs.Bindings.Keys

/-!
# Fields that may be left out

A field that is an option is left out while it is absent. Generated code says so of the
declaration of a struct, with attributes in Rust and with a mark in TypeScript; there the
type of a field may be a parameter, and a parameter is no option. The codec has a struct at
an ident. It puts the arguments of the ident in the place of the parameters, and then
looks at the type of the field.

So all three agree about a field whose type is no parameter, and about a parameter that
stands for anything but an option. Where it stands for an option the codec leaves the field out, and
the generated code on either side does not expect that.
-/

namespace WasmBridge

open Outcome

variable {types : TypeMap Text} {scope generics : List Text} {bs : List (Text × TypeIdent)}
  {f : Field Text} {ident : TypeIdent}

/-! ## Options -/

/-- The head of the type of a field names an option, and no parameter. -/
def Field.IsOption (types : TypeMap Text) (generics : List Text) (f : Field Text) : Prop :=
  f.type.name ∉ generics ∧ types.isOptional f.type = true

/-- The type of a field is a parameter that stands for an option. -/
def Field.StandsForOption (types : TypeMap Text) (bs : List (Text × TypeIdent)) (f : Field Text) :
    Prop :=
  f.type.args = [] ∧ ∃ bound, bs.lookup f.type.name = some bound ∧ types.isOptional bound = true

theorem isOptional_of_name {a b : TypeIdent} (h : b.name = a.name) :
    types.isOptional b = types.isOptional a := by
  unfold TypeMap.isOptional
  rw [h]

/-- Where a declaration is written, a type is an option if its head names one. -/
theorem isContainer_iff {optional : Bool}
    (h : types.resolve f.type scope >>= (fun type => .ok type.isContainer) = .ok optional) :
    optional = true ↔ f.IsOption types scope := by
  obtain ⟨type, hresolve, heq⟩ := bind_eq_ok.mp h
  cases heq
  unfold Field.IsOption
  by_cases hmem : f.type.name ∈ scope
  · have hgeneric : type = .generic f.type.name := by
      unfold TypeMap.resolve at hresolve
      rw [if_pos (any_isText.mpr hmem)] at hresolve
      split at hresolve <;> cases hresolve
      rfl
    rw [hgeneric]
    exact iff_of_false nofun fun hoption => hoption.1 hmem
  · rw [resolve_other hmem] at hresolve
    obtain ⟨named, hfind, heq⟩ := resolve_eq_ok hresolve
    have hoptional : types.isOptional f.type = type.isContainer := by
      unfold TypeMap.isOptional
      rw [hfind]
      rcases heq with rfl | ⟨items, rfl, rfl⟩
      · cases type <;> rfl
      · rfl
    rw [hoptional]
    exact ⟨fun hcontainer => ⟨hmem, hcontainer⟩, And.right⟩

/-- Where a struct has arguments, a field is an option by its declaration or by one of them. -/
theorem isOptional_substitute (hbs : Binds types generics bs)
    (hfield : Resolves types generics f.type) :
    types.isOptional (f.type.substitute bs) = true
      ↔ f.IsOption types generics ∨ f.StandsForOption types bs := by
  obtain ⟨type, hresolve⟩ := hfield.exists_type
  unfold Field.IsOption Field.StandsForOption
  by_cases hmem : f.type.name ∈ generics
  · -- a parameter has no arguments, so what it stands for takes the place of the whole ident
    have hargs := resolve_parameter hmem hresolve
    obtain ⟨bound, hlookup, -⟩ := hbs.parameter _ hmem
    have hsubstitute : f.type.substitute bs = bound := by
      generalize f.type = ident at hargs hlookup
      obtain ⟨name, args⟩ := ident
      cases hargs
      rw [TypeIdent.substitute, hlookup]
      rfl
    rw [hsubstitute, hlookup]
    constructor
    · exact fun hoptional => .inr ⟨hargs, bound, rfl, hoptional⟩
    · rintro (⟨hother, -⟩ | ⟨-, _, ⟨⟩, hoptional⟩)
      · exact absurd hmem hother
      · exact hoptional
  · -- any other ident keeps its head, and the head decides
    have hlookup := hbs.other _ hmem
    have hname : (f.type.substitute bs).name = f.type.name := by
      generalize f.type = ident at hlookup
      obtain ⟨name, args⟩ := ident
      cases args with
      | nil => rw [TypeIdent.substitute, hlookup]; rfl
      | cons a as => rw [TypeIdent.substitute]
    rw [isOptional_of_name hname, hlookup]
    constructor
    · exact fun hoptional => .inl ⟨hmem, hoptional⟩
    · rintro (⟨-, hoptional⟩ | ⟨-, _, ⟨⟩, -⟩)
      exact hoptional

/-- No field is both. -/
theorem Field.IsOption.not_standsFor (hbs : Binds types generics bs)
    (h : f.IsOption types generics) : ¬ f.StandsForOption types bs := by
  rintro ⟨-, bound, hlookup, -⟩
  rw [hbs.other _ h.1] at hlookup
  cases hlookup

/-! ## Generated code -/

/-- The attribute of a field that is absent when it is left out. -/
def Rust.defaultItem : Text := "default"

/-- The attribute of a field that is left out when it is absent. -/
def Rust.skipItem : Text := "skip_serializing_if = " ++ quoted "Option::is_none"

/-- A line with both attributes: one comes first and the other last. -/
def Rust.LeavesOut (line : Text) : Prop :=
  (("#[serde(" : Text) ++ defaultItem) <+: line ∧ (skipItem ++ (")]" : Text)) <:+ line

/-- What declares a field in both languages marks it as one that may be left out if `option` holds,
and not at all if it does not. -/
structure OptionMarks (decl : Rust.FieldDecl) (property : TypeScript.Property) (option : Prop) :
    Prop where
  default : Rust.defaultItem ∈ decl.attributes ↔ option
  skip : Rust.skipItem ∈ decl.attributes ↔ option
  /-- Both attributes are on one line of those that are printed. -/
  rustLine : (∃ line ∈ decl.lines "pub ", Rust.LeavesOut line) ↔ option
  /-- The mark is on the line that is printed below the documentation. -/
  typeScriptLine : (∃ type, property.name ++ "?: " ++ type ++ ";" ∈ property.lines) ↔ option
  property : (∃ type, property.text = property.name ++ "?: " ++ type) ↔ option

theorem attributes_iff {decl : Rust.FieldDecl} :
    (Rust.defaultItem ∈ decl.attributes ↔ decl.optional = true)
      ∧ (Rust.skipItem ∈ decl.attributes ↔ decl.optional = true) := by
  unfold Rust.FieldDecl.attributes
  cases decl.optional with
  | true => simp [Rust.defaultItem, Rust.skipItem]
  | false =>
    cases decl.rename with
    | none => simp
    | some key =>
      have hdefault : Rust.defaultItem ≠ Rust.renameItem key := nofun
      have hskip : Rust.skipItem ≠ Rust.renameItem key := nofun
      simp [hdefault, hskip]

theorem optionalText_iff {p : TypeScript.Property} :
    (∃ type, p.text = p.name ++ "?: " ++ type) ↔ p.optional = true := by
  unfold TypeScript.Property.text
  cases p.optional with
  | true => exact iff_of_true ⟨p.type, rfl⟩ rfl
  | false =>
    refine iff_of_false ?_ nofun
    rintro ⟨type, h⟩
    -- behind the name there stands a colon and no question mark
    rw [List.append_assoc, List.append_assoc] at h
    have hmark : (": " : Text) ++ p.type = ("?: " : Text) ++ type := List.append_cancel_left h
    cases hmark

/-- Documentation of Rust begins with a slash, if it is not trimmed away. -/
theorem exists_of_mem_rustDoc {doc : List Text} {line : Text} (h : line ∈ Lines.rustDoc doc) :
    ∃ rest, line <+: .char '/' :: rest := by
  obtain ⟨text, -, rfl⟩ := List.mem_map.mp h
  split
  · exact ⟨_, trimEnd_prefix_self _⟩
  · exact ⟨_, trimEnd_prefix_self _⟩

/-- And in TypeScript with a slash or with a blank. -/
theorem exists_of_mem_blockDoc {doc : List Text} {line : Text} (h : line ∈ Lines.blockDoc "" doc) :
    ∃ c rest, (c = .char '/' ∨ c = .char ' ') ∧ line <+: c :: rest := by
  unfold Lines.blockDoc at h
  split at h
  · cases h
  · rcases List.mem_append.mp h with h | h
    · rcases List.mem_cons.mp h with rfl | h
      · exact ⟨.char '/', _, .inl rfl, List.prefix_rfl⟩
      · obtain ⟨text, -, rfl⟩ := List.mem_map.mp h
        exact ⟨.char ' ', _, .inr rfl, trimEnd_prefix_self _⟩
    · cases List.mem_singleton.mp h
      exact ⟨.char ' ', _, .inr rfl, List.prefix_rfl⟩

/-- No line has both attributes but that of an optional field. -/
theorem optional_of_leavesOut {decl : Rust.FieldDecl} {line : Text}
    (hline : line ∈ decl.lines "pub ") (h : Rust.LeavesOut line) : decl.optional = true := by
  have hdefault := h.1
  rcases List.mem_append.mp hline with hline | hline
  · rcases List.mem_append.mp hline with hline | hline
    · -- a comment is no attribute
      obtain ⟨rest, hcomment⟩ := exists_of_mem_rustDoc hline
      obtain ⟨hslash, -⟩ := List.cons_prefix_cons.mp (hdefault.trans hcomment)
      cases hslash
    · cases hoptional : decl.optional with
      | true => rfl
      | false =>
        -- all that is left to be said is the name
        unfold Rust.FieldDecl.attributes at hline
        rw [hoptional] at hline
        cases hrename : decl.rename with
        | none =>
          rw [hrename] at hline
          cases hline
        | some key =>
          rw [hrename] at hline
          cases List.mem_singleton.mp hline
          obtain ⟨rest, hrest⟩ := hdefault
          cases hrest
  · cases List.mem_singleton.mp hline
    obtain ⟨hpub, -⟩ := List.cons_prefix_cons.mp hdefault
    cases hpub

/-- The name of an optional field stands between both attributes, if it is given. -/
theorem leavesOut_of_optional {decl : Rust.FieldDecl} (h : decl.optional = true) :
    Rust.LeavesOut (Rust.serdeLine decl.attributes)
      ∧ Rust.serdeLine decl.attributes ∈ decl.lines "pub " := by
  have hattributes : decl.attributes
      = Rust.defaultItem :: (decl.rename.map Rust.renameItem).toList ++ [Rust.skipItem] := by
    unfold Rust.FieldDecl.attributes
    rw [h]
    rfl
  constructor
  · rw [hattributes]
    cases decl.rename with
    | none => exact ⟨⟨_, rfl⟩, ⟨"#[serde(default, ", rfl⟩⟩
    | some key =>
      refine ⟨⟨_, rfl⟩, ⟨"#[serde(default, " ++ (Rust.renameItem key ++ ", "), ?_⟩⟩
      simp only [Rust.serdeLine, List.cons_append, List.nil_append, Option.map_some,
        Option.toList_some, separated_cons, following_cons, List.append_assoc]
      rfl
  · have hsome : decl.attributes.isEmpty = false := by rw [hattributes]; rfl
    unfold Rust.FieldDecl.lines
    rw [hsome, if_neg Bool.false_ne_true]
    exact List.mem_append_left _ (List.mem_append_right _ List.mem_cons_self)

theorem leavesOut_iff {decl : Rust.FieldDecl} :
    (∃ line ∈ decl.lines "pub ", Rust.LeavesOut line) ↔ decl.optional = true := by
  constructor
  · rintro ⟨line, hline, hleaves⟩
    exact optional_of_leavesOut hline hleaves
  · intro hoptional
    obtain ⟨hleaves, hline⟩ := leavesOut_of_optional hoptional
    exact ⟨_, hline, hleaves⟩

theorem optionalLine_iff {p : TypeScript.Property} {key : Text}
    (hname : p.name = TypeScript.propertyName key) :
    (∃ type, p.name ++ "?: " ++ type ++ ";" ∈ p.lines) ↔ p.optional = true := by
  rw [← optionalText_iff]
  constructor
  · rintro ⟨type, hline⟩
    rcases List.mem_append.mp hline with hline | hline
    · -- no property begins as documentation does
      obtain ⟨c, rest, hdoc, hprefix⟩ := exists_of_mem_blockDoc hline
      obtain ⟨d, name, hcons, hspace, hslash⟩ := TypeScript.exists_propertyName_cons key
      rw [hname, hcons] at hprefix
      obtain ⟨rfl, -⟩ := List.cons_prefix_cons.mp hprefix
      rcases hdoc with rfl | rfl
      · exact absurd rfl hslash
      · exact absurd (by decide) hspace
    · refine ⟨type, ?_⟩
      exact (List.append_cancel_right (List.mem_singleton.mp hline)).symm
  · rintro ⟨type, htext⟩
    refine ⟨type, List.mem_append_right _ ?_⟩
    rw [htext]
    exact List.mem_singleton.mpr rfl

theorem optionMarks {decl : Rust.FieldDecl} {property : TypeScript.Property}
    (hrust : Rust.fieldDecl types scope f = .ok decl)
    (hts : TypeScript.property types scope f = .ok property) :
    OptionMarks decl property (f.IsOption types scope) := by
  have hrustOption := isContainer_iff (Rust.fieldDecl_eq_ok hrust).optional
  have htsOption := isContainer_iff (TypeScript.property_eq_ok hts).optional
  exact ⟨attributes_iff.1.trans hrustOption, attributes_iff.2.trans hrustOption,
    leavesOut_iff.trans hrustOption,
    (optionalLine_iff (TypeScript.property_eq_ok hts).name).trans htsOption,
    optionalText_iff.trans htsOption⟩

/-! ## The codec -/

/-- The codec leaves a field out while it is null, and takes it for null while it is left out. -/
structure Field.LeftOut (types : TypeMap Text) (owner : Text) (bs : List (Text × TypeIdent))
    (f : Field Text) : Prop where
  encoded : ∀ room entries stored, fieldValue entries f = .null →
    fieldToStore types room owner bs entries stored f = .ok none
  decoded : ∀ room entries stored, Entries.findName? entries (fieldWireKey f.name) = none →
    restoreField types room owner bs entries stored f = .ok (stored.put (.str f.name) .null)

variable {owner : Text}

theorem leftOut_iff :
    f.LeftOut types owner bs ↔ types.isOptional (f.type.substitute bs) = true := by
  constructor
  · intro h
    rcases fieldToStore_eq_ok (h.encoded 0 [] [] rfl) with ⟨-, habsent⟩ | ⟨hstored, -⟩
    · exact (Bool.and_eq_true_iff.mp habsent).2
    · cases hstored
  · intro hoptional
    constructor
    · intro room entries stored hnull
      unfold fieldValue at hnull
      unfold fieldToStore
      dsimp only
      rw [hnull, hoptional]
      rfl
    · intro room entries stored hnone
      unfold restoreField
      dsimp only
      rw [hnone]
      exact if_pos hoptional

/-- What whole runs of the codec at an ident that stands for a struct do with a field. -/
structure Field.Handled (types : TypeMap Text) (owner : Text) (ident : TypeIdent)
    (bs : List (Text × TypeIdent)) (f : Field Text) : Prop where
  /-- Of a field that is null nothing is stored if it is left out, and something if it is not. -/
  encoded : ∀ room entries w, toWire types room (.map entries) ident = .ok w →
    fieldValue entries f = .null → ∃ stored, w = .map stored
      ∧ (Entries.findName? stored (fieldWireKey f.name) = none ↔ f.LeftOut types owner bs)
  /-- Where nothing is stored for a field it is null, or nothing can be decoded. -/
  decoded : ∀ room stored c, fromWire types room (.map stored) ident = .ok c →
    Entries.findName? stored (fieldWireKey f.name) = none →
      f.LeftOut types owner bs
        ∧ ∃ entries, c = .map entries ∧ Entries.findName? entries f.name = some .null

theorem handled {name : Text} {fields : List (Field Text)} {doc : List Text}
    (hkeys : (fields.map fun f => fieldWireKey f.name).Nodup)
    (hresolve : types.resolve ident = .ok (.struct name generics fields doc)) (hf : f ∈ fields) :
    f.Handled types owner ident (bindings generics ident) := by
  constructor
  · intro room entries w hw hnull
    have hencoded : EncodedAs types (.struct name generics fields doc) (bindings generics ident)
        (.map entries) w := ⟨room, ident, hresolve, rfl, hw⟩
    obtain ⟨room, _, hw⟩ := hencoded.fieldsToWire
    obtain ⟨entries', stored, _, hv, rfl, hstored⟩ := (of_structToWire hkeys hw).1 f hf
    cases hv
    refine ⟨stored, rfl, ?_⟩
    rw [leftOut_iff]
    -- either nothing is stored, as the field is optional, or it is not and something is
    rw [hnull] at hstored
    cases hfound : Entries.findName? stored (fieldWireKey f.name) with
    | none =>
      rw [hfound] at hstored
      exact iff_of_true rfl (Bool.and_eq_true_iff.mp hstored).2
    | some item =>
      rw [hfound] at hstored
      exact iff_of_false nofun (Bool.eq_false_iff.mp hstored.1)
  · intro room stored c hc hnone
    -- a run that returns has had room for the ident and for the struct
    cases room with
    | zero => cases hc
    | succ room =>
      unfold fromWire at hc
      rw [resolveWithin_eq_ok.mpr hresolve, bind_ok] at hc
      cases room with
      | zero => cases hc
      | succ room =>
        unfold structFromWire at hc
        obtain ⟨out, hout, heq⟩ := bind_eq_ok.mp hc
        cases heq
        obtain ⟨c, hfound, hread⟩ := (of_restoreFields (nodup_names hkeys) hout).2 f hf
        rw [hnone] at hread
        obtain ⟨hoptional, rfl⟩ := hread
        exact ⟨leftOut_iff.mpr hoptional, out, rfl, hfound⟩

/-! ## All three -/

/-- The two languages and the codec on a field of a struct. -/
structure Field.Treated (types : TypeMap Text) (name : Text) (generics : List Text)
    (f : Field Text) (decl : Rust.FieldDecl) (property : TypeScript.Property) : Prop where
  marks : OptionMarks decl property (f.IsOption types generics)
  leftOut : ∀ (ident : TypeIdent) (shown : Text), ident.name = name →
    Rust.typeOf types [] ident = .ok shown →
      (f.LeftOut types name (bindings generics ident)
          ↔ f.IsOption types generics ∨ f.StandsForOption types (bindings generics ident))
        ∧ ¬ (f.IsOption types generics ∧ f.StandsForOption types (bindings generics ident))
        ∧ f.Handled types name ident (bindings generics ident)

theorem resolve_of_shown {shown name : Text} {fields : List (Field Text)} {doc : List Text}
    (hfind : types.find? name = some (.struct name generics fields doc)) (hname : ident.name = name)
    (hshown : Rust.typeOf types [] ident = .ok shown) :
    types.resolve ident = .ok (.struct name generics fields doc)
      ∧ ident.args.length = generics.length := by
  obtain ⟨type, hresolve⟩ := (resolves_of_typeOf hshown).exists_type
  subst hname
  -- a tuple is no declared struct, so the ident names this one
  have htype : type = .struct ident.name generics fields doc := by
    obtain ⟨named, hfind', rfl | ⟨items, rfl, -⟩⟩ := resolve_eq_ok hresolve
    · exact Option.some.inj (hfind'.symm.trans hfind)
    · cases hfind.symm.trans hfind'
  subst htype
  rcases find?_of_resolve hresolve with ⟨-, harity, -⟩ | htuple
  · exact ⟨hresolve, harity⟩
  · cases htuple

theorem treated {decl : Rust.FieldDecl} {property : TypeScript.Property} {name : Text}
    {fields : List (Field Text)} {doc : List Text}
    (hfind : types.find? name = some (.struct name generics fields doc))
    (hkeys : (fields.map fun f => fieldWireKey f.name).Nodup) (hf : f ∈ fields)
    (hrust : Rust.fieldDecl types generics f = .ok decl)
    (hts : TypeScript.property types generics f = .ok property) :
    f.Treated types name generics decl property := by
  refine ⟨optionMarks hrust hts, fun ident shown hname hshown => ?_⟩
  obtain ⟨hresolve, harity⟩ := resolve_of_shown hfind hname hshown
  have hbs : Binds types generics (bindings generics ident) :=
    binds_bindings harity (resolves_of_typeOf hshown).of_mem_args
  refine ⟨?_, fun hboth => hboth.1.not_standsFor hbs hboth.2, handled hkeys hresolve hf⟩
  rw [leftOut_iff]
  exact isOptional_substitute hbs (resolves_of_fieldDecl hrust)

/--
**A field is left out as it is declared, unless its type is a parameter that stands for an
option.** A Rust target and the TypeScript target accept an interface. Then both have files
in which each declared struct stands with its fields, line by line, and there a field bears
both attributes in Rust and the mark in TypeScript if its type is an option and no parameter,
and none of them otherwise. At every instance of the struct that can be written in Rust the codec
leaves out the fields that are so marked, and takes them for null where they are left out;
and besides it does so with those fields, not marked, whose type is a parameter that
stands for an option at this instance. There are no others.
-/
theorem fields_left_out {i : Interface Text} {settings : Settings} {t : Target}
    {rustFiles tsFiles : List (Text × Text)} {declared : List (TypeDef Text)}
    (ht : t ≠ .typeScriptRuntime) (hrust : (i.source settings).files t = .ok rustFiles)
    (hts : (i.source settings).files .typeScriptRuntime = .ok tsFiles)
    (hdeclared : (i.source settings).declared = .ok declared) :
    ∃ rust ts, (("types.rs" : Text), Rust.typesFile rust) ∈ rustFiles
      ∧ (("types.ts" : Text), TypeScript.typesFile ts) ∈ tsFiles
      ∧ ∀ name generics fields doc, .struct name generics fields doc ∈ declared →
        ∃ decls properties, (∃ derives, .struct name generics derives doc decls ∈ rust)
          ∧ .struct name generics doc properties ∈ ts
          ∧ Rust.Holds (.struct name generics fields doc)
              (decls.map fun d => memberText (d.lines "pub ")) (Rust.typesFile rust)
          ∧ TypeScript.Holds (.struct name generics fields doc)
              (properties.map fun p => memberText p.lines) (TypeScript.typesFile ts)
          ∧ ∀ (n : Nat) f, fields[n]? = some f → ∃ decl property,
            decls[n]? = some decl ∧ properties[n]? = some property
              ∧ f.Treated (i.source settings).types name generics decl property := by
  obtain ⟨target, derives, rust, hchecked, hrust, hrustFile⟩ := rust_of_files ht hrust
  obtain ⟨target', ts, hts, htsFile⟩ := typeScript_of_files hts
  refine ⟨rust, ts, hrustFile, htsFile, fun name generics fields doc htype => ?_⟩
  obtain ⟨decls, hdecls, hrustMem⟩ := Rust.struct_declared hdeclared hrust htype
  obtain ⟨properties, hproperties, htsMem⟩ := TypeScript.struct_declared hdeclared hts htype
  refine ⟨decls, properties, ⟨_, hrustMem⟩, htsMem, Rust.holds_struct fields hrustMem,
    TypeScript.holds_struct fields htsMem, fun n f hf => ?_⟩
  obtain ⟨decl, hdecl, hfieldDecl⟩ := exists_getElem?_of_mapM hdecls hf
  obtain ⟨property, hproperty, hfieldProperty⟩ := exists_getElem?_of_mapM hproperties hf
  have hkeys := nodup_fieldWireKeys (checked_of_checkNames hchecked hdeclared htype)
  exact ⟨decl, property, hdecl, hproperty, treated (find?_of_declared hdeclared htype rfl) hkeys
    (List.mem_of_getElem? hf) hfieldDecl hfieldProperty⟩

/-- Of a page of something the item is not marked, for it may be anything. But from a page of
options the codec leaves it out. -/
theorem fields_left_out_page :
    let item : Field Text := { name := "item", type := ⟨"T", []⟩ }
    let page : TypeDef Text := .struct "Page" ["T"] [item] []
    let i : Interface Text := ⟨.empty, .empty, [page], []⟩
    let types := (i.source {}).types
    let ident : TypeIdent := ⟨"Page", [⟨"Option", [⟨"u8", []⟩]⟩]⟩
    ∃ rustFiles tsFiles, (i.source {}).files .rustPlugin = .ok rustFiles
      ∧ (i.source {}).files .typeScriptRuntime = .ok tsFiles
      ∧ (∃ decl property, OptionMarks decl property False
        ∧ item.Treated types "Page" ["T"] decl property)
      ∧ item.LeftOut types "Page" (bindings ["T"] ident)
      ∧ toWire types 3 (.map [(.str "item", .null)]) ident = .ok (.map []) := by
  intro item page i types ident
  obtain ⟨rustFiles, hrust⟩ := exists_of_isOk
    (show ((i.source {}).files .rustPlugin).isOk = true by decide +kernel)
  obtain ⟨tsFiles, hts⟩ := exists_of_isOk
    (show ((i.source {}).files .typeScriptRuntime).isOk = true by decide +kernel)
  obtain ⟨declared, hdeclared⟩ := exists_of_isOk
    (show (i.source {}).declared.isOk = true by decide +kernel)
  obtain ⟨shown, hshown⟩ := exists_of_isOk
    (show (Rust.typeOf types [] ident).isOk = true by decide +kernel)
  have hpage : page ∈ declared :=
    mem_declared hdeclared (show types.find? "Page" = some page by rfl) rfl
  obtain ⟨rust, ts, -, -, hstructs⟩ := fields_left_out (by decide) hrust hts hdeclared
  obtain ⟨decls, properties, -, -, -, -, hfields⟩ := hstructs _ _ _ _ hpage
  obtain ⟨decl, property, -, -, htreated⟩ := hfields 0 item rfl
  have hparameter : ¬ item.IsOption types ["T"] := fun hoption => hoption.1 List.mem_cons_self
  have hmarks : OptionMarks decl property False := by
    rw [← eq_false hparameter]
    exact htreated.marks
  have hstands : item.StandsForOption types (bindings ["T"] ident) := ⟨rfl, _, rfl, rfl⟩
  have hleftOut := (htreated.leftOut ident shown rfl hshown).1.mpr (.inr hstands)
  exact ⟨rustFiles, tsFiles, hrust, hts, ⟨decl, property, hmarks, htreated⟩, hleftOut, rfl⟩

end WasmBridge
