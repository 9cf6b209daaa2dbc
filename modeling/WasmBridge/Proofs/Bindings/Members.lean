import WasmBridge.Proofs.Bindings.Declarations
import WasmBridge.Proofs.Bindings.Distinct
import WasmBridge.Proofs.Bindings.ReadBack
import WasmBridge.Proofs.Casing.Words

/-!
# Members that stay apart

What is checked about the members of a type is their names in one casing or another. What
is rendered is more than that: an identifier in Rust may be a raw one, the name of a
property in TypeScript may stand in quotes. Neither brings two names together, for the
name in its casing can be told from what was made of it. That needs a look at the casings
themselves. A name without words is left as it is, whatever it is made of, but a raw
identifier begins with a letter, and a name with a letter has words.

There is one name that nobody checks. An enum that is tagged within an object shares that
object with what its variants carry, and the tag may be the name of a property there.
-/

namespace WasmBridge

open Outcome Text

/-! ## Words -/

/-- What is made of words has no marks, whatever stood between them. -/
theorem unmarked_snakeCase {t : Text} (h : splitWords t ≠ []) :
    Unmarked (Casing.snakeCase.format t) := by
  have hwords : ∀ word ∈ splitWords t, Without marks word :=
    fun word hword c hc => isMark_of_isWordChar (isWordChar_of_mem_splitWords hword hc)
  unfold Casing.format
  generalize splitWords t = words at h hwords
  cases words with
  | nil => exact absurd rfl h
  | cons first rest =>
    exact without_separated (by decide) (List.forall_mem_map.mpr fun word hword =>
      without_toLower separates_marks (hwords word hword))

/-! ## What a name was before it was rendered -/

namespace Rust

/-- No field is called by a raw identifier from the start. -/
theorem plainName_snakeCase (name : Text) :
    plainName (Casing.snakeCase.format name) = Casing.snakeCase.format name := by
  by_cases hwords : splitWords name = []
  · have hname : Casing.snakeCase.format name = name := by rw [Casing.format, hwords]; rfl
    rw [hname]
    unfold plainName
    split
    · exact absurd hwords (splitWords_ne_nil List.mem_cons_self (by decide +kernel))
    · rfl
  · have hplain := plainName_of_unmarked (unmarked_snakeCase hwords) (show EndsName [] from nofun)
    rwa [List.append_nil] at hplain

theorem plainName_fieldName {name ident : Text} (h : fieldName name = .ok ident) :
    plainName ident = Casing.snakeCase.format name := by
  cases spells_of_escapeText h with
  | bare => exact plainName_snakeCase name
  | raw => rfl

end Rust

namespace TypeScript

theorem propertyName_injective : Function.Injective propertyName := by
  -- what stands in quotes is no identifier
  have hquotes : ∀ key key' : Text, isIdentifier key = true → key ≠ "\"" ++ key' ++ "\"" := by
    rintro key key' hkey rfl
    change isIdentifier (.char '"' :: _) = true at hkey
    rw [isIdentifier, Bool.and_eq_true] at hkey
    exact absurd hkey.1 (by decide)
  intro a b h
  unfold propertyName at h
  split at h
  · rename_i ha
    split at h
    · exact h
    · exact absurd h (hquotes a b ha)
  · split at h
    · rename_i hb
      exact absurd h.symm (hquotes b a hb)
    · exact List.append_cancel_left (List.append_cancel_right h)

end TypeScript

/-! ## What has been checked -/

/-- No two fields come out under one name, whatever they are rendered for. -/
structure FieldsApart (fields : List (Field Text)) : Prop where
  wire : (fields.map fun f => fieldWireKey f.name).Nodup
  rust : ∀ idents, fields.mapM (fun f => Rust.fieldName f.name) = .ok idents → idents.Nodup
  typescript : (fields.map fun f => TypeScript.fieldName f.name).Nodup

/-- No two variants come out under one name, nor do two fields that one of them carries. -/
structure VariantsApart (casing : Casing) (variants : List (Variant Text)) : Prop where
  wire : (variants.map fun v => variantWireKey v.name casing).Nodup
  rust : (variants.map fun v => Rust.variantName v.name).Nodup
  fields : ∀ v ∈ variants, ∀ name generics fields doc,
    v.payload = .struct name generics fields doc → FieldsApart fields

/-- No two members of a definition come out under one name. -/
def TypeDef.MembersApart : TypeDef Text → Prop
  | .struct _ _ fields _ => FieldsApart fields
  | .enum _ _ variants options _ => VariantsApart options.variantCasing variants
  | _ => True

section Checked

variable {s : BindingSource Text} {target owner : Text} {fields : List (Field Text)}
  {type : TypeDef Text}

theorem fieldsApart_of_check (h : checkFieldNames target owner fields = .ok ()) :
    FieldsApart fields := by
  have hwire := nodup_fieldWireKeys h
  obtain ⟨_, hsnake, -⟩ := bind_eq_ok.mp h
  have hsnake := checkMembers_eq_ok hsnake
  rw [List.map_map] at hsnake
  refine ⟨hwire, fun idents hidents => ?_, ?_⟩
  · -- the names in snake case are those of the identifiers, raw or not
    have hplain : idents.map Rust.plainName = fields.map fun f => Casing.snakeCase.format f.name :=
      map_eq_of_mapM hidents fun f ident hident => Rust.plainName_fieldName hident
    refine List.Nodup.of_map Rust.plainName ?_
    rw [hplain]
    exact hsnake
  · have hnames := hwire.map TypeScript.propertyName_injective
    rwa [List.map_map] at hnames

theorem membersApart_of_check (h : checkMemberNames target type = .ok ()) :
    type.MembersApart := by
  cases type with
  | struct name generics fields doc => exact fieldsApart_of_check h
  | enum name generics variants options doc =>
    have hwire := nodup_variantWireKeys h
    obtain ⟨_, hpascal, h⟩ := bind_eq_ok.mp h
    obtain ⟨_, _, h⟩ := bind_eq_ok.mp h
    have hpascal := checkMembers_eq_ok hpascal
    rw [List.map_map] at hpascal
    refine ⟨hwire, hpascal, fun v hv name generics fields doc hpayload => ?_⟩
    have hfields := of_mem_forM h hv
    rw [hpayload] at hfields
    exact fieldsApart_of_check hfields
  | _ => trivial

/-- **A target that accepts an interface keeps the members of all declared types apart.** -/
theorem membersApart_of_files {t : Target} {files : List (Text × Text)}
    (h : s.files t = .ok files) :
    ∃ declared, s.declared = .ok declared ∧ ∀ type ∈ declared, type.MembersApart := by
  obtain ⟨target, hnames⟩ := checkNames_of_files h
  obtain ⟨declared, hdeclared⟩ := declared_of_checkNames hnames
  exact ⟨declared, hdeclared, fun type htype =>
    membersApart_of_check (checked_of_checkNames hnames hdeclared htype)⟩

end Checked

/-! ## What is declared -/

namespace Rust

/-- No two members of a declaration have one name. -/
def TypeDecl.MembersApart : TypeDecl → Prop
  | .struct _ _ _ _ fields => (fields.map (·.name)).Nodup
  | .enum _ _ _ _ _ variants => (variants.map (·.name)).Nodup
      ∧ ∀ v ∈ variants, ∀ fields, v.payload = .fields fields → (fields.map (·.name)).Nodup
  | .synonym .. => True

variable {types : TypeMap Text} {scope : List Text}

theorem nodup_fieldDecls {fields : List (Field Text)} {decls : List FieldDecl}
    (happart : FieldsApart fields) (h : fields.mapM (fieldDecl types scope) = .ok decls) :
    (decls.map (·.name)).Nodup := by
  refine happart.rust _ (mapM_eq_ok_iff.mpr ?_)
  rw [List.forall₂_map_right_iff]
  exact (mapM_eq_ok_iff.mp h).imp fun f decl hdecl => (fieldDecl_eq_ok hdecl).name

theorem membersApart_of_typeDecl {target : Text} {derives : Text → Derives} {type : TypeDef Text}
    {decl : TypeDecl} (happart : type.MembersApart)
    (h : typeDecl? target types derives type = .ok (some decl)) : decl.MembersApart := by
  cases type with
  | synonym name aliased =>
    obtain ⟨_, _, h⟩ := bind_eq_ok.mp h
    cases h
    trivial
  | struct name generics fields doc =>
    obtain ⟨_, _, h⟩ := bind_eq_ok.mp h
    obtain ⟨decls, hdecls, h⟩ := bind_eq_ok.mp h
    cases h
    exact nodup_fieldDecls happart hdecls
  | enum name generics variants options doc =>
    obtain ⟨_, _, h⟩ := bind_eq_ok.mp h
    obtain ⟨decls, hdecls, h⟩ := bind_eq_ok.mp h
    cases h
    refine ⟨?_, fun decl hdecl fields hfields => ?_⟩
    · have hnames : decls.map (·.name) = variants.map fun v => variantName v.name :=
        map_eq_of_mapM hdecls fun v decl hdecl => (variantDecl_eq_ok hdecl).name
      rw [hnames]
      exact happart.rust
    · obtain ⟨v, hv, hdeclared⟩ := exists_of_mem_results hdecls hdecl
      have hpayload := (variantDecl_eq_ok hdeclared).payload
      rw [hfields] at hpayload
      generalize hcarried : v.payload = carried at hpayload
      cases hpayload with
      | fields hdecls => exact nodup_fieldDecls (happart.fields v hv _ _ _ _ hcarried) hdecls
  | _ => cases h

end Rust

namespace TypeScript

/-- The name of a property that a piece is. -/
def Token.name? : Token → Option Text
  | .name text => some text
  | _ => none

/-- The names of the properties that stand in a member as they stand in its payload. -/
def Member.mergedNames (m : Member) : List Text :=
  match m.encoding, m.payload with
  | .untagged, .object properties | .internal _, .object properties => properties.map (·.name)
  | _, _ => []

/-- The names of the properties of the object type that a member is. -/
def Member.propertyNames (m : Member) : List Text :=
  m.tokens.filterMap Token.name? ++ m.mergedNames

/-- Nothing else in a member has the name of the tag. -/
def Member.TagApart (m : Member) : Prop :=
  match m.encoding, m.payload with
  | .adjacent _ _, .none => True
  | .adjacent tag content, _ => tag ≠ content
  | .internal tag, .object properties => tag ∉ properties.map (·.name)
  | _, _ => True

/-- No two properties in a payload have one name. -/
def PayloadType.Apart (payload : PayloadType) : Prop :=
  ∀ properties, payload = .object properties → (properties.map (·.name)).Nodup

/-- **In a member nothing but the tag can have the name of something else.** -/
theorem Member.nodup_propertyNames_iff {m : Member} (h : m.payload.Apart) :
    m.propertyNames.Nodup ↔ m.TagApart := by
  obtain ⟨doc, encoding, key, payload⟩ := m
  cases encoding with
  | external =>
    cases payload with
    | none => exact iff_of_true List.nodup_nil trivial
    | object | item => exact iff_of_true (List.nodup_singleton key) trivial
  | untagged =>
    cases payload with
    | none | item => exact iff_of_true List.nodup_nil trivial
    | object properties => exact iff_of_true (h properties rfl) trivial
  | adjacent tag content =>
    have hpair : [tag, content].Nodup ↔ tag ≠ content := by simp
    cases payload with
    | none => exact iff_of_true (List.nodup_singleton tag) trivial
    | object | item => exact hpair
  | internal tag =>
    cases payload with
    | none | item => exact iff_of_true (List.nodup_singleton tag) trivial
    | object properties => exact List.nodup_cons.trans (and_iff_left (h properties rfl))

/-- No two members of a declaration have one name, but for tags. -/
def TypeDecl.MembersApart : TypeDecl → Prop
  | .struct _ _ _ properties => (properties.map (·.name)).Nodup
  | .enum _ _ _ members => (members.map (·.key)).Nodup
      ∧ ∀ m ∈ members, m.payload.Apart ∧ (m.propertyNames.Nodup ↔ m.TagApart)
  | .synonym .. => True

variable {types : TypeMap Text} {scope : List Text}

theorem nodup_properties {fields : List (Field Text)} {properties : List Property}
    (happart : FieldsApart fields) (h : fields.mapM (property types scope) = .ok properties) :
    (properties.map (·.name)).Nodup := by
  have hnames : properties.map (·.name) = fields.map fun f => fieldName f.name :=
    map_eq_of_mapM h fun f p hp => (property_eq_ok hp).name
  rw [hnames]
  exact happart.typescript

theorem membersApart_of_typeDecl {target : Text} {type : TypeDef Text} {decl : TypeDecl}
    (happart : type.MembersApart) (h : typeDecl? target types type = .ok (some decl)) :
    decl.MembersApart := by
  cases type with
  | synonym name aliased =>
    obtain ⟨_, _, h⟩ := bind_eq_ok.mp h
    cases h
    trivial
  | struct name generics fields doc =>
    obtain ⟨_, _, h⟩ := bind_eq_ok.mp h
    obtain ⟨properties, hproperties, h⟩ := bind_eq_ok.mp h
    cases h
    exact nodup_properties happart hproperties
  | enum name generics variants options doc =>
    obtain ⟨_, _, h⟩ := bind_eq_ok.mp h
    obtain ⟨members, hmembers, h⟩ := bind_eq_ok.mp h
    cases h
    refine ⟨?_, fun m hm => ?_⟩
    · have hkeys : members.map (·.key)
          = variants.map fun v => variantWireKey v.name options.variantCasing :=
        map_eq_of_mapM hmembers fun v m hm => (member_eq_ok hm).key
      rw [hkeys]
      exact happart.wire
    · obtain ⟨v, hv, hmember⟩ := exists_of_mem_results hmembers hm
      have hpayload : m.payload.Apart := by
        intro properties hproperties
        have hdeclares := (member_eq_ok hmember).payload
        rw [hproperties] at hdeclares
        generalize hcarried : v.payload = carried at hdeclares
        cases hdeclares with
        | fields hproperties =>
          exact nodup_properties (happart.fields v hv _ _ _ _ hcarried) hproperties
      exact ⟨hpayload, m.nodup_propertyNames_iff hpayload⟩
  | _ => cases h

end TypeScript

end WasmBridge
