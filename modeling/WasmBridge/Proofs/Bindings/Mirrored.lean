import WasmBridge.Proofs.Bindings.Declarations
import WasmBridge.Proofs.Bindings.FileLines
import WasmBridge.Proofs.Bindings.ReadBack
import WasmBridge.Proofs.Schema.Declared

/-!
# Mirrored declarations

A guest and a host in Rust declare the same types, and each reads what the other writes. So the
host's file of types is the one that a guest would have which sends what this guest receives and
receives what it sends. It is also this guest's own file, line for line, but for one line of each
struct and of each enum: the one that says what is derived, which has `Serialize` in one file where
it has `Deserialize` in the other.

Both facts come from one about declarations. The name of a target is needed for errors only, and
what is derived goes into a declaration as it is. So a type that one target declares with some
derives, any other declares in the same words with the derives exchanged.

Line for line is meant of the files as texts. Documentation and names may hold line ends of their
own, so one line that is printed can be several in the file, but never one that says what is
derived.
-/

namespace WasmBridge

open Outcome Text

variable {ν : Type} [Label ν]

/-! ## Directions exchanged -/

namespace BindingSource

variable (s : BindingSource ν)

/-- The same source for a guest that sends what it received and receives what it sent. -/
def exchanged : BindingSource ν := { s with sent := s.received, received := s.sent }

/-- The same types cross the boundary, whatever the direction. -/
theorem declared_exchanged : s.exchanged.declared = s.declared := by
  have hcross : ∀ name, (s.exchanged.sends name || s.exchanged.receives name)
      = (s.sends name || s.receives name) := fun name => Bool.or_comm ..
  simp only [declared, hcross]
  rfl

theorem checkNames_exchanged (target : Text) :
    s.exchanged.checkNames target = s.checkNames target := by
  simp only [checkNames, declared_exchanged]
  rfl

end BindingSource

namespace Rust

/-- To read instead of to write, and to write instead of to read. -/
def Derives.exchanged (d : Derives) : Derives := ⟨d.deserialize, d.serialize⟩

/-- The declaration with derives exchanged. -/
def TypeDecl.exchanged : TypeDecl → TypeDecl
  | synonym name type => synonym name type
  | struct name generics derives doc fields => struct name generics derives.exchanged doc fields
  | enum name generics derives doc encoding variants =>
    enum name generics derives.exchanged doc encoding variants

section Targets

variable {target : Text} {types : TypeMap ν} {derives : ν → Derives}

/-- What one target can express, every target can. -/
theorem expressible_of_target {enum : ν} {single : Bool} {v : Variant ν} {payload : Payload ν}
    (h : v.expressible target enum single = .ok payload) (target' : Text) :
    v.expressible target' enum single = .ok payload := by
  unfold Variant.expressible at h ⊢
  split at h
  · exact h
  · exact h
  · split at h
    · cases h
    · rename_i hitems
      split at h
      · cases h
      · rename_i hsingle
        rw [if_neg hitems, if_neg hsingle]
        exact h
  · cases h

theorem variantDecl_of_target {enum : ν} {generics : List ν} {options : EnumOptions ν}
    {v : Variant ν} {decl : VariantDecl}
    (h : variantDecl target types enum generics options v = .ok decl) (target' : Text) :
    variantDecl target' types enum generics options v = .ok decl := by
  obtain ⟨payload, hpayload, h⟩ := bind_eq_ok.mp h
  exact bind_eq_ok.mpr ⟨payload, expressible_of_target hpayload target', h⟩

/-- **What is declared under one target is declared under any, with the derives that are given.** -/
theorem typeDecl?_exchanged {type : TypeDef ν} {decl? : Option TypeDecl}
    (h : typeDecl? target types derives type = .ok decl?) (target' : Text) :
    typeDecl? target' types (fun name => (derives name).exchanged) type
      = .ok (decl?.map TypeDecl.exchanged) := by
  cases type with
  | synonym name aliased =>
    obtain ⟨shown, hshown, h⟩ := bind_eq_ok.mp h
    cases h
    exact bind_eq_ok.mpr ⟨shown, hshown, rfl⟩
  | struct name generics fields doc =>
    obtain ⟨parameters, hparameters, h⟩ := bind_eq_ok.mp h
    obtain ⟨decls, hdecls, h⟩ := bind_eq_ok.mp h
    cases h
    exact bind_eq_ok.mpr ⟨parameters, hparameters, bind_eq_ok.mpr ⟨decls, hdecls, rfl⟩⟩
  | enum name generics variants options doc =>
    obtain ⟨parameters, hparameters, h⟩ := bind_eq_ok.mp h
    obtain ⟨decls, hdecls, h⟩ := bind_eq_ok.mp h
    cases h
    have hdecls' : variants.mapM (variantDecl target' types name generics options) = .ok decls :=
      mapM_eq_ok_iff.mpr ((mapM_eq_ok_iff.mp hdecls).imp fun _ _ hdecl =>
        variantDecl_of_target hdecl target')
    exact bind_eq_ok.mpr ⟨parameters, hparameters, bind_eq_ok.mpr ⟨decls, hdecls', rfl⟩⟩
  | _ =>
    cases h
    rfl

theorem typeDecls_exchanged {s : BindingSource ν} {decls : List TypeDecl}
    (h : typeDecls target s derives = .ok decls) (target' : Text) :
    typeDecls target' s (fun name => (derives name).exchanged)
      = .ok (decls.map TypeDecl.exchanged) := by
  obtain ⟨declared, hdeclared, h⟩ := bind_eq_ok.mp h
  obtain ⟨made, hmade, h⟩ := bind_eq_ok.mp h
  cases h
  have hmade' : declared.mapM (typeDecl? target' s.types fun name => (derives name).exchanged)
      = .ok (made.map (Option.map TypeDecl.exchanged)) :=
    mapM_eq_ok_iff.mpr (List.forall₂_map_right_iff.mpr ((mapM_eq_ok_iff.mp hmade).imp
      fun _ _ hdecl => typeDecl?_exchanged hdecl target'))
  refine bind_eq_ok.mpr ⟨declared, hdeclared, bind_eq_ok.mpr ⟨_, hmade', ?_⟩⟩
  rw [List.filterMap_map, List.map_filterMap]
  rfl

end Targets

end Rust

namespace Rust

/-! ## What a line derives -/

/-- The traits that an attribute says are derived. -/
def derivedIn? (line : Text) : Option (List Text) :=
  (behind? "#[derive(" line).map fun items =>
    ((items.takeWhile (· ≠ .char ')')).splitOn (.char ',')).map trimStart

/-- The trait of the other side: to read is the counterpart of to write. -/
def counterpart (trait : Text) : Text :=
  if trait = "Serialize" then "Deserialize"
  else if trait = "Deserialize" then "Serialize"
  else trait

theorem counterpart_counterpart (trait : Text) : counterpart (counterpart trait) = trait := by
  unfold counterpart
  by_cases hserialize : trait = "Serialize"
  · subst hserialize
    rfl
  · by_cases hdeserialize : trait = "Deserialize"
    · subst hdeserialize
      rfl
    · rw [if_neg hserialize, if_neg hdeserialize, if_neg hserialize, if_neg hdeserialize]

namespace Derives

instance {P : Derives → Prop} [DecidablePred P] : Decidable (∀ d, P d) :=
  decidable_of_iff (∀ serialize deserialize, P ⟨serialize, deserialize⟩)
    ⟨fun h d => h d.serialize d.deserialize, fun h _ _ => h _⟩

/-- The traits that are derived. -/
def traits (d : Derives) : List Text :=
  ofStrings (["Clone", "Debug"] ++ (if d.deserialize then ["Deserialize"] else []) ++
    ["PartialEq"] ++ if d.serialize then ["Serialize"] else [])

/-- **What is derived is read off its line.** -/
theorem derivedIn?_line : ∀ d : Derives, derivedIn? d.line = some d.traits := by decide

/-- The line is one in the file, whatever it says. -/
theorem linesOf_line : ∀ d : Derives, linesOf d.line = [d.line] := by decide

theorem mem_traits : ∀ d : Derives,
    (("Serialize" : Text) ∈ d.traits ↔ d.serialize = true)
      ∧ (("Deserialize" : Text) ∈ d.traits ↔ d.deserialize = true) := by decide

/-- The other side derives the counterparts. -/
theorem mem_traits_exchanged (d : Derives) (trait : Text) :
    trait ∈ d.exchanged.traits ↔ counterpart trait ∈ d.traits := by
  have hcounterparts : ∀ d : Derives, ∀ trait ∈ d.traits,
      counterpart trait ∈ d.exchanged.traits := by decide
  constructor
  · exact hcounterparts d.exchanged trait
  · -- counterparts are mutual, so one direction is both
    intro h
    have hback := hcounterparts d _ h
    rwa [counterpart_counterpart] at hback

end Derives

end Rust

/-! ## Files that are mirrored -/

/-- What a guest and a host derive for a type: the guest to write it if it sends it and to read it
if it receives it, and the host the counterparts. -/
def DerivesMirrored (s : BindingSource ν) (type : TypeDef ν) (guest host : Text) : Prop :=
  ∃ traits traits', Rust.derivedIn? guest = some traits ∧ Rust.derivedIn? host = some traits'
    ∧ (("Serialize" : Text) ∈ traits ↔ s.sends type.name = true)
    ∧ (("Deserialize" : Text) ∈ traits ↔ s.receives type.name = true)
    ∧ ∀ trait, trait ∈ traits' ↔ Rust.counterpart trait ∈ traits

/-- The lines begin with what opens the declaration of a type. -/
def OpensDeclaration (type : TypeDef ν) (lines : List Text) : Prop :=
  ∃ opening, Rust.openingOf type = .ok opening ∧ opening.flatMap linesOf <+: lines

/-- The lines of a guest's file and of a host's. They are the same, but for one of each of some
types, one type after the other: the line of its derives, right above its declaration. -/
inductive Mirrored (s : BindingSource ν) : List (TypeDef ν) → List Text → List Text → Prop where
  | nil : Mirrored s [] [] []
  | same {types guest host} (line : Text) (h : Mirrored s types guest host) :
      Mirrored s types (line :: guest) (line :: host)
  | derived {types guest host type g h} (hderives : DerivesMirrored s type g h)
      (hopens : OpensDeclaration type guest) (hrest : Mirrored s types guest host) :
      Mirrored s (type :: types) (g :: guest) (h :: host)

section Mirrored

variable {s : BindingSource ν}

theorem derivesMirrored_line (s : BindingSource ν) (type : TypeDef ν) :
    DerivesMirrored s type (RustPlugin.derives s type.name).line
      (RustPlugin.derives s type.name).exchanged.line :=
  ⟨_, _, Rust.Derives.derivedIn?_line _, Rust.Derives.derivedIn?_line _,
    (Rust.Derives.mem_traits _).1, (Rust.Derives.mem_traits _).2,
    Rust.Derives.mem_traits_exchanged _⟩

theorem OpensDeclaration.append {type : TypeDef ν} {lines : List Text}
    (h : OpensDeclaration type lines) (rest : List Text) :
    OpensDeclaration type (lines ++ rest) := by
  obtain ⟨opening, hopening, hprefix⟩ := h
  exact ⟨opening, hopening, hprefix.trans (List.prefix_append ..)⟩

theorem mirrored_refl (s : BindingSource ν) (lines : List Text) : Mirrored s [] lines lines := by
  induction lines with
  | nil => exact .nil
  | cons line _ ih => exact .same line ih

theorem Mirrored.append {types types' : List (TypeDef ν)} {guest guest' host host' : List Text}
    (h : Mirrored s types guest host) (h' : Mirrored s types' guest' host') :
    Mirrored s (types ++ types') (guest ++ guest') (host ++ host') := by
  induction h with
  | nil => exact h'
  | same line _ ih => exact .same line ih
  | derived hderives hopens _ ih => exact .derived hderives (hopens.append _) ih

/-- A declaration whose lines depend on its derives in one place only. -/
theorem mirrored_declaration {type : TypeDef ν} {opening above rest : List Text}
    {lines : Rust.Derives → List Text} (hopening : Rust.openingOf type = .ok opening)
    (hlines : ∀ derives, lines derives = above ++ derives.line :: (opening ++ rest)) :
    Mirrored s [type] ((lines (RustPlugin.derives s type.name)).flatMap linesOf)
      ((lines (RustPlugin.derives s type.name).exchanged).flatMap linesOf) := by
  simp only [hlines, List.flatMap_append, List.flatMap_cons, Rust.Derives.linesOf_line]
  have hopens : OpensDeclaration type (opening.flatMap linesOf ++ rest.flatMap linesOf) :=
    ⟨opening, hopening, List.prefix_append ..⟩
  exact (mirrored_refl s _).append
    (.derived (derivesMirrored_line s type) hopens (mirrored_refl s _))

end Mirrored

/-! ## Declarations -/

namespace Rust

/-- The lines of declarations in a file. -/
def declLines (decls : List TypeDecl) : List Text :=
  decls.flatMap fun d => d.lines ++ [Lines.blank]

theorem declLines_append (decls decls' : List TypeDecl) :
    declLines (decls ++ decls') = declLines decls ++ declLines decls' := List.flatMap_append

theorem declLines_struct (name : Text) (generics doc : List Text) (fields : List FieldDecl) :
    ∃ rest, ∀ derives, declLines [.struct name generics derives doc fields]
      = Lines.rustDoc doc ++ derives.line ::
        (["pub struct " ++ applied name generics ++ " \x7b"] ++ rest) := by
  refine ⟨Lines.nested (fields.flatMap (·.lines "pub ")) ++ [("\x7d" : Text), Lines.blank],
    fun derives => ?_⟩
  simp only [declLines, List.flatMap_singleton, TypeDecl.lines, Lines.block, Lines.group,
    List.append_assoc, List.cons_append, List.nil_append]
  rfl

theorem declLines_enum (name : Text) (generics doc : List Text) (encoding : Encoding Text)
    (variants : List VariantDecl) :
    ∃ rest, ∀ derives, declLines [.enum name generics derives doc encoding variants]
      = Lines.rustDoc doc ++ derives.line ::
        (encodingLines encoding ++ ["pub enum " ++ applied name generics ++ " \x7b"] ++ rest) := by
  refine ⟨Lines.nested (variants.flatMap (·.lines)) ++ [("\x7d" : Text), Lines.blank],
    fun derives => ?_⟩
  simp only [declLines, List.flatMap_singleton, TypeDecl.lines, Lines.block, Lines.group,
    List.append_assoc, List.cons_append, List.nil_append]
  rfl

section Mirrored

variable {s : BindingSource ν} {target : Text} {decls : List TypeDecl}
  {declared : List (TypeDef ν)}

/-- What is declared for a type is mirrored. -/
theorem mirrored_typeDecl {type : TypeDef ν} {decl? : Option TypeDecl}
    (h : typeDecl? target s.types (RustPlugin.derives s) type = .ok decl?) :
    Mirrored s ([type].filter (·.isDerived)) ((declLines decl?.toList).flatMap linesOf)
      ((declLines (decl?.toList.map TypeDecl.exchanged)).flatMap linesOf) := by
  cases type with
  | synonym name aliased =>
    obtain ⟨shown, _, h⟩ := bind_eq_ok.mp h
    cases h
    exact mirrored_refl s _
  | struct name generics fields doc =>
    obtain ⟨parameters, hparameters, h⟩ := bind_eq_ok.mp h
    obtain ⟨decls, _, h⟩ := bind_eq_ok.mp h
    cases h
    obtain ⟨rest, hlines⟩ :=
      declLines_struct (Label.display name) parameters (doc.map Label.line) decls
    have hopening : openingOf (.struct name generics fields doc)
        = .ok ["pub struct " ++ applied (Label.display name) parameters ++ " \x7b"] :=
      bind_eq_ok.mpr ⟨parameters, hparameters, rfl⟩
    exact mirrored_declaration hopening hlines
  | enum name generics variants options doc =>
    obtain ⟨parameters, hparameters, h⟩ := bind_eq_ok.mp h
    obtain ⟨decls, _, h⟩ := bind_eq_ok.mp h
    cases h
    obtain ⟨rest, hlines⟩ := declLines_enum (Label.display name) parameters (doc.map Label.line)
      (options.encoding.map Label.display) decls
    have hopening : openingOf (.enum name generics variants options doc)
        = .ok (encodingLines (options.encoding.map Label.display) ++
          ["pub enum " ++ applied (Label.display name) parameters ++ " \x7b"]) :=
      bind_eq_ok.mpr ⟨parameters, hparameters, rfl⟩
    exact mirrored_declaration hopening hlines
  | _ =>
    cases h
    exact .nil

theorem mirrored_typeDecls (hdeclared : s.declared = .ok declared)
    (h : typeDecls target s (RustPlugin.derives s) = .ok decls) :
    Mirrored s (declared.filter (·.isDerived)) ((declLines decls).flatMap linesOf)
      ((declLines (decls.map TypeDecl.exchanged)).flatMap linesOf) := by
  unfold typeDecls at h
  rw [hdeclared, bind_ok] at h
  obtain ⟨made, hmade, heq⟩ := bind_eq_ok.mp h
  cases heq
  have hpieces := mapM_eq_ok_iff.mp hmade
  clear hdeclared h hmade
  induction hpieces with
  | nil => exact .nil
  | @cons type decl? declared made hdecl _ ih =>
    have hmade : (decl? :: made).filterMap id = decl?.toList ++ made.filterMap id := by
      cases decl? <;> rfl
    have hdeclared : (type :: declared).filter (·.isDerived)
        = [type].filter (·.isDerived) ++ declared.filter (·.isDerived) :=
      List.filter_append (p := fun t : TypeDef ν => t.isDerived) [type] declared
    rw [hmade, hdeclared, List.map_append, declLines_append, declLines_append,
      List.flatMap_append, List.flatMap_append]
    exact (mirrored_typeDecl hdecl).append ih

/-- **The two files of types are mirrored.** -/
theorem mirrored_typesFile (hdeclared : s.declared = .ok declared)
    (h : typeDecls target s (RustPlugin.derives s) = .ok decls) :
    Mirrored s (declared.filter (·.isDerived)) (linesOf (typesFile decls))
      (linesOf (typesFile (decls.map TypeDecl.exchanged))) := by
  obtain ⟨opening, hopening, hfile⟩ : ∃ opening : List Text, opening ≠ []
      ∧ ∀ decls, typesFile decls = Lines.join (opening ++ declLines decls) :=
    ⟨_, List.cons_ne_nil _ _, fun _ => rfl⟩
  have hlines : ∀ decls, linesOf (typesFile decls)
      = opening.flatMap linesOf ++ (declLines decls).flatMap linesOf := fun decls => by
    rw [hfile, linesOf_join (List.append_ne_nil_of_left_ne_nil hopening _), List.flatMap_append]
  rw [hlines, hlines]
  exact (mirrored_refl s _).append (mirrored_typeDecls hdeclared h)

end Mirrored

end Rust

/-! ## Targets -/

section Targets

variable {s : BindingSource ν}

theorem typeDecls_of_exchanged (s : BindingSource ν) (target : Text) (derives : ν → Rust.Derives) :
    Rust.typeDecls target s.exchanged derives = Rust.typeDecls target s derives := by
  simp only [Rust.typeDecls, s.declared_exchanged]
  rfl

theorem functions_of_exchanged (s : BindingSource ν) :
    RustPlugin.functions s.exchanged = RustPlugin.functions s := rfl

/-- The functions do not depend on directions, so with the directions exchanged a guest's bindings
can be made where they can be made at all. -/
theorem files_of_exchanged {decls : List Rust.TypeDecl} {functions : RustPlugin.Functions}
    (hnames : s.checkNames RustPlugin.target = .ok ())
    (hdecls : Rust.typeDecls RustPlugin.target s (RustPlugin.derives s) = .ok decls)
    (hfunctions : RustPlugin.functions s = .ok functions) :
    s.exchanged.files .rustPlugin
      = .ok (RustPlugin.Bindings.files ⟨decls.map Rust.TypeDecl.exchanged, functions⟩) := by
  have htypes : RustPlugin.types s.exchanged = .ok (decls.map Rust.TypeDecl.exchanged) := by
    have hexchanged := Rust.typeDecls_exchanged hdecls RustPlugin.target
    rw [← typeDecls_of_exchanged] at hexchanged
    exact bind_eq_ok.mpr ⟨(), (s.checkNames_exchanged _).trans hnames, hexchanged⟩
  refine map_eq_ok.mpr ⟨_, bind_eq_ok.mpr ⟨_, htypes, bind_eq_ok.mpr ⟨functions, ?_, rfl⟩⟩, rfl⟩
  exact (functions_of_exchanged s).trans hfunctions

/-- The file of types among some files. -/
def typesIn? (files : List (Text × Text)) : Option Text :=
  files.lookup ("types.rs" : Text)

/--
**A host declares what its guest declares, mirrored.** Let bindings be made of one source for a
guest and for a host in Rust. Then they can be made for a guest with the directions exchanged, and
its types are in the very file that the host has. The lines of that file are those of the guest's,
but for one of each declared struct and enum, in the order in which they are declared: the line
right above its declaration that says what is derived. The guest derives `Serialize` where it sends
the type and `Deserialize` where it receives it, and the host the one exactly if the guest derives
the other.
-/
theorem types_mirrored {guest host : List (Text × Text)} (hguest : s.files .rustPlugin = .ok guest)
    (hhost : s.files .wasmerRuntime = .ok host) :
    ∃ types types' exchanged declared,
      typesIn? guest = some types ∧ typesIn? host = some types'
      ∧ s.exchanged.files .rustPlugin = .ok exchanged ∧ typesIn? exchanged = some types'
      ∧ s.declared = .ok declared
      ∧ Mirrored s (declared.filter (·.isDerived)) (linesOf types) (linesOf types') := by
  obtain ⟨decls, functions, hnames, hdecls, hfunctions, rfl⟩ := guestDecls_of_files hguest
  obtain ⟨decls', functions', -, hdecls', rfl⟩ := hostDecls_of_files hhost
  obtain ⟨declared, hdeclared, -⟩ := bind_eq_ok.mp hdecls
  -- what one target declares, the other declares too, so acceptance leaves no choice
  have hsame : decls' = decls.map Rust.TypeDecl.exchanged :=
    Except.ok.inj (hdecls'.symm.trans (Rust.typeDecls_exchanged hdecls WasmerRuntime.target))
  subst hsame
  exact ⟨_, _, _, declared, rfl, rfl, files_of_exchanged hnames hdecls hfunctions, rfl, hdeclared,
    Rust.mirrored_typesFile hdeclared hdecls⟩

end Targets

namespace Orders

def book : TypeDef Text := .synonym "Book" ⟨"Vec", [⟨"Order", [⟨"String", []⟩]⟩]⟩

def order : TypeDef Text :=
  .struct "Order" ["T"]
    [{ name := "item", type := ⟨"T", []⟩ }, { name := "count", type := ⟨"u32", []⟩ }]
    ["What is asked for.", "", "And how much of it."]

def receipt : TypeDef Text :=
  .struct "Receipt" [] [{ name := "status", type := ⟨"Option", [⟨"Status", []⟩]⟩ }] []

def status : TypeDef Text :=
  .enum "Status" [] [.mk "Open" (.unit "()") [], .mk "Paid" (.tuple [⟨"u32", []⟩]) []]
    { tag := some "kind", content := some "value" } []

/-- The guest sends orders and receives receipts; what has become of an order goes both ways. -/
def source : BindingSource Text where
  imports := .empty
  exports := .empty
  types := TypeMap.ofTypes [book, order, receipt, status]
  sent := ["Book", "Order", "Status"]
  received := ["Status", "Receipt"]

theorem declared_source : source.declared = .ok [book, order, receipt, status] := by
  have hentries : source.types.declaredEntries.map (·.2) = [book, order, receipt, status] := by rfl
  have hordered : [book, order, receipt, status].Pairwise
      fun a b => (compare a.name b.name).isLE = true := by decide
  have hsorted : Label.sortBy (·.name) [book, order, receipt, status]
      = [book, order, receipt, status] := List.mergeSort_of_pairwise hordered
  unfold BindingSource.declared TypeMap.declarations
  dsimp only
  rw [hentries, hsorted]
  rfl

end Orders

open Orders in
theorem types_mirrored_orders :
    ∃ guest host types types' exchanged,
      source.files .rustPlugin = .ok guest ∧ source.files .wasmerRuntime = .ok host
      ∧ typesIn? guest = some types ∧ typesIn? host = some types'
      ∧ source.exchanged.files .rustPlugin = .ok exchanged ∧ typesIn? exchanged = some types'
      ∧ Mirrored source [order, receipt, status] (linesOf types) (linesOf types') := by
  have hguest : (source.files .rustPlugin).isOk = true := by
    simp only [BindingSource.files, RustPlugin.bindings, RustPlugin.types,
      BindingSource.checkNames, Rust.typeDecls, declared_source]
    decide +kernel
  have hhost : (source.files .wasmerRuntime).isOk = true := by
    simp only [BindingSource.files, WasmerRuntime.bindings, WasmerRuntime.types,
      BindingSource.checkNames, Rust.typeDecls, declared_source]
    decide +kernel
  obtain ⟨guest, hguest⟩ := exists_of_isOk hguest
  obtain ⟨host, hhost⟩ := exists_of_isOk hhost
  obtain ⟨types, types', exchanged, declared, htypes, htypes', hexchanged, hagain, hdeclared,
    hmirrored⟩ := types_mirrored hguest hhost
  cases declared_source.symm.trans hdeclared
  exact ⟨guest, host, types, types', exchanged, hguest, hhost, htypes, htypes', hexchanged, hagain,
    hmirrored⟩

end WasmBridge
