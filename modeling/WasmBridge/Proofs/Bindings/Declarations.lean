import WasmBridge.Bindings.Target
import WasmBridge.Proofs.Outcome

/-!
# What is declared

Targets that accept an interface have declared it. Here a declaration that has been made is taken
apart: what each member became in Rust and in TypeScript, and in which file each declared type
stands. What is said about generated declarations is said about these parts.
-/

namespace WasmBridge

open Outcome

variable {types : TypeMap Text} {scope : List Text}

/-! ## Fields -/

/-- What a field is in Rust. -/
structure Rust.DeclaresField (types : TypeMap Text) (scope : List Text) (f : Field Text)
    (decl : FieldDecl) : Prop where
  doc : decl.doc = f.doc
  name : fieldName f.name = .ok decl.name
  optional : types.resolve f.type scope >>= (fun type => .ok type.isContainer) = .ok decl.optional
  rename : decl.rename =
    if plainName decl.name = fieldWireKey f.name then none else some (fieldWireKey f.name)
  type : shownType types scope f.type = .ok decl.type

theorem Rust.fieldDecl_eq_ok {f : Field Text} {decl : FieldDecl}
    (h : fieldDecl types scope f = .ok decl) : DeclaresField types scope f decl := by
  obtain ⟨label, hlabel, h⟩ := bind_eq_ok.mp h
  obtain ⟨name, hname, h⟩ := bind_eq_ok.mp h
  obtain ⟨resolved, hresolved, h⟩ := bind_eq_ok.mp h
  obtain ⟨type, htype, h⟩ := bind_eq_ok.mp h
  cases hlabel
  cases h
  exact ⟨Label.map_line f.doc, hname, by rw [hresolved]; rfl, rfl, htype⟩

/-- What a field is in TypeScript. -/
structure TypeScript.DeclaresField (types : TypeMap Text) (scope : List Text) (f : Field Text)
    (p : Property) : Prop where
  doc : p.doc = f.doc
  name : p.name = fieldName f.name
  optional : types.resolve f.type scope >>= (fun type => .ok type.isContainer) = .ok p.optional

theorem TypeScript.property_eq_ok {f : Field Text} {p : Property}
    (h : property types scope f = .ok p) : DeclaresField types scope f p := by
  obtain ⟨label, hlabel, h⟩ := bind_eq_ok.mp h
  obtain ⟨resolved, hresolved, h⟩ := bind_eq_ok.mp h
  cases hlabel
  split at h
  · rename_i hcontainer
    obtain ⟨_, _, h⟩ := bind_eq_ok.mp h
    cases h
    exact ⟨List.map_id f.doc, rfl, by rw [hresolved, bind_ok, hcontainer]⟩
  · rename_i hcontainer
    obtain ⟨_, _, h⟩ := bind_eq_ok.mp h
    cases h
    exact ⟨List.map_id f.doc, rfl, by rw [hresolved, bind_ok, Bool.eq_false_iff.mpr hcontainer]⟩

/-! ## Variants -/

theorem encoding_display (encoding : Encoding Text) : encoding.map Label.display = encoding := by
  cases encoding <;> rfl

/-- What a target can express of a variant is what the variant carries. -/
inductive Payload.Of {ν : Type} : TypeDef ν → Payload ν → Prop where
  | unit (name : Text) : Payload.Of (.unit name) .unit
  | fields (name : ν) (generics : List ν) (fields : List (Field ν)) (doc : List ν) :
      Payload.Of (.struct name generics fields doc) (.fields fields)
  | items (items : List TypeIdent) : Payload.Of (.tuple items) (.items items)

theorem expressible_eq_ok {ν : Type} [Label ν] {target : Text} {enum : ν} {single : Bool}
    {variant : Variant ν} {payload : Payload ν}
    (h : variant.expressible target enum single = .ok payload) :
    Payload.Of variant.payload payload := by
  unfold Variant.expressible at h
  split at h
  · rename_i hcarried; cases h; rw [hcarried]; exact .unit _
  · rename_i hcarried; cases h; rw [hcarried]; exact .fields ..
  · rename_i hcarried
    split at h
    · cases h
    split at h
    · cases h
    · cases h; rw [hcarried]; exact .items _
  · cases h

/-- What the payload of a variant is in Rust. -/
inductive Rust.DeclaresPayload (types : TypeMap Text) (scope : List Text) :
    TypeDef Text → PayloadDecl → Prop where
  | unit {name : Text} : DeclaresPayload types scope (.unit name) .unit
  | fields {name : Text} {generics doc : List Text} {fields : List (Field Text)}
      {decls : List FieldDecl} (h : fields.mapM (fieldDecl types scope) = .ok decls) :
      DeclaresPayload types scope (.struct name generics fields doc) (.fields decls)
  | items {items : List TypeIdent} {shown texts : List Text}
      (h : items.mapM (typeOf types scope) = .ok shown) :
      DeclaresPayload types scope (.tuple items) (.items texts)

/-- What the payload of a variant is in TypeScript. -/
inductive TypeScript.DeclaresPayload (types : TypeMap Text) (scope : List Text) :
    TypeDef Text → PayloadType → Prop where
  | unit {name : Text} : DeclaresPayload types scope (.unit name) .none
  | fields {name : Text} {generics doc : List Text} {fields : List (Field Text)}
      {properties : List Property} (h : fields.mapM (property types scope) = .ok properties) :
      DeclaresPayload types scope (.struct name generics fields doc) (.object properties)
  | item {items : List TypeIdent} {text : Text}
      (h : shownType types scope (items.headD default) = .ok text) :
      DeclaresPayload types scope (.tuple items) (.item text)

section Variants

variable {target enum : Text} {options : EnumOptions Text} {variant : Variant Text}

/-- What a variant is in Rust. -/
structure Rust.DeclaresVariant (types : TypeMap Text) (scope : List Text)
    (options : EnumOptions Text) (variant : Variant Text) (decl : VariantDecl) : Prop where
  doc : decl.doc = variant.doc
  name : decl.name = variantName variant.name
  rename : decl.rename =
    let key := variantWireKey variant.name options.variantCasing
    if decl.name = key ∨ options.encoding = .untagged then none else some key
  payload : DeclaresPayload types scope variant.payload decl.payload

theorem Rust.variantDecl_eq_ok {decl : VariantDecl}
    (h : variantDecl target types enum scope options variant = .ok decl) :
    DeclaresVariant types scope options variant decl := by
  obtain ⟨payload, hpayload, h⟩ := bind_eq_ok.mp h
  obtain ⟨label, hlabel, h⟩ := bind_eq_ok.mp h
  have hof := expressible_eq_ok hpayload
  cases hlabel
  rw [encoding_display] at h
  obtain ⟨name, carried, doc⟩ := variant
  dsimp only [Variant.payload] at hof
  cases hof with
  | unit =>
    cases h
    exact ⟨Label.map_line doc, rfl, rfl, .unit⟩
  | fields =>
    obtain ⟨_, hwritten, h⟩ := bind_eq_ok.mp h
    obtain ⟨decls, hdecls, rfl⟩ := map_eq_ok.mp hwritten
    cases h
    exact ⟨Label.map_line doc, rfl, rfl, .fields hdecls⟩
  | items =>
    obtain ⟨shown, hshown, h⟩ := bind_eq_ok.mp h
    obtain ⟨_, htexts, h⟩ := bind_eq_ok.mp h
    obtain ⟨texts, _, rfl⟩ := map_eq_ok.mp htexts
    cases h
    exact ⟨Label.map_line doc, rfl, rfl, .items hshown⟩

/-- What a variant is in TypeScript. -/
structure TypeScript.DeclaresVariant (types : TypeMap Text) (scope : List Text)
    (options : EnumOptions Text) (variant : Variant Text) (member : Member) : Prop where
  doc : member.doc = variant.doc
  encoding : member.encoding = options.encoding
  key : member.key = variantWireKey variant.name options.variantCasing
  payload : DeclaresPayload types scope variant.payload member.payload

theorem TypeScript.member_eq_ok {member : Member}
    (h : TypeScript.member target types enum scope options variant = .ok member) :
    DeclaresVariant types scope options variant member := by
  obtain ⟨payload, hpayload, h⟩ := bind_eq_ok.mp h
  obtain ⟨label, hlabel, h⟩ := bind_eq_ok.mp h
  have hof := expressible_eq_ok hpayload
  cases hlabel
  rw [encoding_display] at h
  obtain ⟨name, carried, doc⟩ := variant
  dsimp only [Variant.payload] at hof
  cases hof with
  | unit =>
    cases h
    exact ⟨List.map_id doc, rfl, rfl, .unit⟩
  | fields =>
    obtain ⟨_, hwritten, h⟩ := bind_eq_ok.mp h
    obtain ⟨properties, hproperties, rfl⟩ := map_eq_ok.mp hwritten
    cases h
    exact ⟨List.map_id doc, rfl, rfl, .fields hproperties⟩
  | items =>
    obtain ⟨_, hwritten, h⟩ := bind_eq_ok.mp h
    obtain ⟨text, htext, rfl⟩ := map_eq_ok.mp hwritten
    cases h
    exact ⟨List.map_id doc, rfl, rfl, .item htext⟩

end Variants

/-! ## Types -/

section Files

variable {ν : Type} [Label ν] {s : BindingSource ν} {files : List (Text × Text)}

/-- What the files of a guest are made of. -/
theorem guestDecls_of_files (h : s.files .rustPlugin = .ok files) :
    ∃ decls functions, s.checkNames RustPlugin.target = .ok ()
      ∧ Rust.typeDecls RustPlugin.target s (RustPlugin.derives s) = .ok decls
      ∧ RustPlugin.functions s = .ok functions
      ∧ files = RustPlugin.Bindings.files ⟨decls, functions⟩ := by
  obtain ⟨b, hb, rfl⟩ := map_eq_ok.mp h
  obtain ⟨decls, htypes, hb⟩ := bind_eq_ok.mp hb
  obtain ⟨functions, hfunctions, hb⟩ := bind_eq_ok.mp hb
  cases hb
  obtain ⟨_, hnames, hdecls⟩ := bind_eq_ok.mp htypes
  exact ⟨decls, functions, hnames, hdecls, hfunctions, rfl⟩

/-- What the files of a host in Rust are made of. -/
theorem hostDecls_of_files (h : s.files .wasmerRuntime = .ok files) :
    ∃ decls functions, s.checkNames WasmerRuntime.target = .ok ()
      ∧ Rust.typeDecls WasmerRuntime.target s (WasmerRuntime.derives s) = .ok decls
      ∧ files = WasmerRuntime.Bindings.files ⟨decls, functions⟩ := by
  obtain ⟨b, hb, rfl⟩ := map_eq_ok.mp h
  obtain ⟨decls, htypes, hb⟩ := bind_eq_ok.mp hb
  obtain ⟨functions, _, hb⟩ := bind_eq_ok.mp hb
  cases hb
  obtain ⟨_, hnames, htypes⟩ := bind_eq_ok.mp htypes
  obtain ⟨_, _, htypes⟩ := bind_eq_ok.mp htypes
  obtain ⟨_, _, hdecls⟩ := bind_eq_ok.mp htypes
  exact ⟨decls, functions, hnames, hdecls, rfl⟩

end Files

section Types

variable {s : BindingSource Text} {target target' : Text} {derives : Text → Rust.Derives}
  {declared : List (TypeDef Text)} {rust : List Rust.TypeDecl} {ts : List TypeScript.TypeDecl}
  {name : Text} {generics doc : List Text}

/-- Each Rust target has its declarations in a file. -/
theorem rust_of_files {t : Target} {files : List (Text × Text)} (ht : t ≠ .typeScriptRuntime)
    (h : s.files t = .ok files) :
    ∃ target derives rust, s.checkNames target = .ok ()
      ∧ Rust.typeDecls target s derives = .ok rust
      ∧ (("types.rs" : Text), Rust.typesFile rust) ∈ files := by
  cases t with
  | typeScriptRuntime => exact absurd rfl ht
  | rustPlugin =>
    obtain ⟨rust, _, hnames, hdecls, -, rfl⟩ := guestDecls_of_files h
    exact ⟨_, _, rust, hnames, hdecls, List.mem_cons_self⟩
  | wasmerRuntime =>
    obtain ⟨rust, _, hnames, hdecls, rfl⟩ := hostDecls_of_files h
    exact ⟨_, _, rust, hnames, hdecls, List.mem_cons_self⟩

/-- The host in TypeScript has its declarations in a file. -/
theorem typeScriptDecls_of_files {files : List (Text × Text)}
    (h : s.files .typeScriptRuntime = .ok files) :
    ∃ ts, TypeScript.typeDecls TypeScriptRuntime.target s = .ok ts
      ∧ (("types.ts" : Text), TypeScript.typesFile ts) ∈ files := by
  obtain ⟨b, hb, rfl⟩ := map_eq_ok.mp h
  obtain ⟨ts, htypes, hb⟩ := bind_eq_ok.mp hb
  obtain ⟨functions, _, hb⟩ := bind_eq_ok.mp hb
  cases hb
  obtain ⟨_, _, hdecls⟩ := bind_eq_ok.mp htypes
  exact ⟨ts, hdecls, List.mem_cons_self⟩

theorem typeScript_of_files {files : List (Text × Text)}
    (h : s.files .typeScriptRuntime = .ok files) :
    ∃ target ts, TypeScript.typeDecls target s = .ok ts
      ∧ (("types.ts" : Text), TypeScript.typesFile ts) ∈ files :=
  ⟨_, typeScriptDecls_of_files h⟩

/-- Every target has checked all names. -/
theorem checkNames_of_files {t : Target} {files : List (Text × Text)} (h : s.files t = .ok files) :
    ∃ target, s.checkNames target = .ok () := by
  by_cases ht : t = .typeScriptRuntime
  · subst ht
    obtain ⟨b, hb, -⟩ := map_eq_ok.mp h
    obtain ⟨ts, htypes, -⟩ := bind_eq_ok.mp hb
    obtain ⟨_, hnames, -⟩ := bind_eq_ok.mp htypes
    exact ⟨_, hnames⟩
  · obtain ⟨target, _, _, hnames, -⟩ := rust_of_files ht h
    exact ⟨target, hnames⟩

/-- Of each declared type that needs a declaration there is one. -/
theorem declaration_mem {α : Type} {declare : TypeDef Text → Except SchemaError (Option α)}
    {decls : List α} {type : TypeDef Text} (hdeclared : s.declared = .ok declared)
    (h : (do return (← (← s.declared).mapM declare).filterMap id) = .ok decls)
    (htype : type ∈ declared) : ∃ decl?, declare type = .ok decl? ∧ ∀ d ∈ decl?, d ∈ decls := by
  rw [hdeclared, bind_ok] at h
  obtain ⟨made, hmade, heq⟩ := bind_eq_ok.mp h
  cases heq
  obtain ⟨i, hi⟩ := List.mem_iff_getElem?.mp htype
  obtain ⟨decl?, hdecl, hdeclare⟩ := exists_getElem?_of_mapM hmade hi
  refine ⟨decl?, hdeclare, fun d hd => ?_⟩
  exact List.mem_filterMap.mpr ⟨decl?, List.mem_of_getElem? hdecl, hd⟩

/-- Each declaration is that of a declared type. -/
theorem exists_of_mem_declarations {α : Type}
    {declare : TypeDef Text → Except SchemaError (Option α)} {decls : List α} {decl : α}
    (hdeclared : s.declared = .ok declared)
    (h : (do return (← (← s.declared).mapM declare).filterMap id) = .ok decls)
    (hdecl : decl ∈ decls) : ∃ type ∈ declared, declare type = .ok (some decl) := by
  rw [hdeclared, bind_ok] at h
  obtain ⟨made, hmade, heq⟩ := bind_eq_ok.mp h
  cases heq
  obtain ⟨decl?, hmem, hsome⟩ := List.mem_filterMap.mp hdecl
  obtain ⟨type, htype, hdeclare⟩ := exists_of_mem_results hmade hmem
  exact ⟨type, htype, hdeclare.trans (congrArg _ hsome)⟩

theorem Rust.struct_declared {fields : List (Field Text)} (hdeclared : s.declared = .ok declared)
    (hrust : typeDecls target s derives = .ok rust)
    (htype : .struct name generics fields doc ∈ declared) :
    ∃ decls, fields.mapM (fieldDecl s.types generics) = .ok decls
      ∧ .struct name generics (derives name) doc decls ∈ rust := by
  obtain ⟨decl?, hdecl, hmem⟩ := declaration_mem hdeclared hrust htype
  obtain ⟨_, hparameters, hdecl⟩ := bind_eq_ok.mp hdecl
  obtain ⟨decls, hdecls, hdecl⟩ := bind_eq_ok.mp hdecl
  cases (Label.texts_ok generics).symm.trans hparameters
  rw [Label.map_line] at hdecl
  cases hdecl
  exact ⟨decls, hdecls, hmem _ rfl⟩

theorem TypeScript.struct_declared {fields : List (Field Text)}
    (hdeclared : s.declared = .ok declared) (hts : typeDecls target s = .ok ts)
    (htype : .struct name generics fields doc ∈ declared) :
    ∃ properties, fields.mapM (property s.types generics) = .ok properties
      ∧ .struct name generics doc properties ∈ ts := by
  obtain ⟨decl?, hdecl, hmem⟩ := declaration_mem hdeclared hts htype
  obtain ⟨_, hparameters, hdecl⟩ := bind_eq_ok.mp hdecl
  obtain ⟨properties, hproperties, hdecl⟩ := bind_eq_ok.mp hdecl
  cases (Label.texts_ok generics).symm.trans hparameters
  rw [show doc.map Label.display = doc from List.map_id doc] at hdecl
  cases hdecl
  exact ⟨properties, hproperties, hmem _ rfl⟩

theorem Rust.enum_declared {variants : List (Variant Text)} {options : EnumOptions Text}
    (hdeclared : s.declared = .ok declared) (hrust : typeDecls target s derives = .ok rust)
    (htype : .enum name generics variants options doc ∈ declared) :
    ∃ decls, variants.mapM (variantDecl target s.types name generics options) = .ok decls
      ∧ .enum name generics (derives name) doc options.encoding decls ∈ rust := by
  obtain ⟨decl?, hdecl, hmem⟩ := declaration_mem hdeclared hrust htype
  obtain ⟨_, hparameters, hdecl⟩ := bind_eq_ok.mp hdecl
  obtain ⟨decls, hdecls, hdecl⟩ := bind_eq_ok.mp hdecl
  cases (Label.texts_ok generics).symm.trans hparameters
  rw [Label.map_line, encoding_display] at hdecl
  cases hdecl
  exact ⟨decls, hdecls, hmem _ rfl⟩

theorem TypeScript.enum_declared {variants : List (Variant Text)} {options : EnumOptions Text}
    (hdeclared : s.declared = .ok declared) (hts : typeDecls target s = .ok ts)
    (htype : .enum name generics variants options doc ∈ declared) :
    ∃ members, variants.mapM (member target s.types name generics options) = .ok members
      ∧ .enum name generics doc members ∈ ts := by
  obtain ⟨decl?, hdecl, hmem⟩ := declaration_mem hdeclared hts htype
  obtain ⟨_, hparameters, hdecl⟩ := bind_eq_ok.mp hdecl
  obtain ⟨members, hmembers, hdecl⟩ := bind_eq_ok.mp hdecl
  cases (Label.texts_ok generics).symm.trans hparameters
  rw [show doc.map Label.display = doc from List.map_id doc] at hdecl
  cases hdecl
  exact ⟨members, hmembers, hmem _ rfl⟩

end Types

end WasmBridge
