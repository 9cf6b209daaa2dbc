import WasmBridge.Output.Generate
import WasmBridge.Proofs.Bindings.Declarations
import WasmBridge.Proofs.Bindings.Formatting
import WasmBridge.Proofs.Schema.Declared
import WasmBridge.Proofs.Wire.Soundness

/-!
# Schemas that bindings are made for

The codec takes the same type map that bindings are made from, but it checks nothing in
advance. The generator does: to declare a type in Rust it writes every ident that the type
refers to, and an ident can only be written if it resolves throughout. So a type map that
bindings have been made from is sound, and an ident that can be written is a sound place
to start from.
-/

namespace WasmBridge

open Outcome

variable {types : TypeMap Text} {scope : List Text}

/-! ## What is written resolves -/

theorem resolves_of_typeOf {ident : TypeIdent} {shown : Text}
    (h : Rust.typeOf types scope ident = .ok shown) : Resolves types scope ident :=
  (Rust.typeWriter types scope).resolves h

theorem resolves_of_shownType {ident : TypeIdent} {shown : Text}
    (h : Rust.shownType types scope ident = .ok shown) : Resolves types scope ident := by
  obtain ⟨_, htype, -⟩ := map_eq_ok.mp h
  exact resolves_of_typeOf htype

/-! ## What is declared is sound -/

theorem resolves_of_fieldDecl {f : Field Text} {decl : Rust.FieldDecl}
    (h : Rust.fieldDecl types scope f = .ok decl) : Resolves types scope f.type :=
  resolves_of_shownType (Rust.fieldDecl_eq_ok h).type

theorem resolves_of_fieldDecls {fields : List (Field Text)} {decls : List Rust.FieldDecl}
    (h : fields.mapM (Rust.fieldDecl types scope) = .ok decls) :
    ∀ f ∈ fields, Resolves types scope f.type := by
  intro f hf
  obtain ⟨decl, hdecl⟩ := exists_of_mem_mapM h hf
  exact resolves_of_fieldDecl hdecl

theorem sound_of_variantDecl {target enum : Text} {options : EnumOptions Text}
    {variant : Variant Text} {decl : Rust.VariantDecl}
    (h : Rust.variantDecl target types enum scope options variant = .ok decl) :
    variant.Sound types scope := by
  have hpayload := (Rust.variantDecl_eq_ok h).payload
  unfold Variant.Sound
  generalize variant.payload = carried, decl.payload = declared at hpayload
  cases hpayload with
  | unit => trivial
  | fields hfields => exact resolves_of_fieldDecls hfields
  | items hitems =>
    intro item hitem
    obtain ⟨_, htype⟩ := exists_of_mem_mapM hitems hitem
    exact resolves_of_typeOf htype

/-- **A definition that Rust declares is sound.** -/
theorem sound_of_typeDecl {target : Text} {derives : Text → Rust.Derives} {type : TypeDef Text}
    {decl : Option Rust.TypeDecl} (hmade : type.isMade = true)
    (h : Rust.typeDecl? target types derives type = .ok decl) : type.Sound types := by
  cases type with
  | synonym name aliased =>
    obtain ⟨_, hshown, _⟩ := bind_eq_ok.mp h
    exact resolves_of_shownType hshown
  | struct name generics fields doc =>
    obtain ⟨_, _, h⟩ := bind_eq_ok.mp h
    obtain ⟨_, hdecls, _⟩ := bind_eq_ok.mp h
    exact resolves_of_fieldDecls hdecls
  | enum name generics variants options doc =>
    obtain ⟨_, _, h⟩ := bind_eq_ok.mp h
    obtain ⟨_, hdecls, _⟩ := bind_eq_ok.mp h
    intro variant hvariant
    obtain ⟨_, hdecl⟩ := exists_of_mem_mapM hdecls hvariant
    exact sound_of_variantDecl hdecl
  | _ => cases hmade

variable {i : Interface Text} {settings : Settings}

/-- **The types of an interface are sound if a guest's bindings can be made for it.** -/
theorem sound_of_bindings {b : RustPlugin.Bindings}
    (h : RustPlugin.bindings (i.source settings) = .ok b) : (i.source settings).types.Sound := by
  obtain ⟨decls, hdecls, _⟩ := bind_eq_ok.mp h
  obtain ⟨_, _, hdecls⟩ := bind_eq_ok.mp hdecls
  obtain ⟨ds, hds, hdecls⟩ := bind_eq_ok.mp hdecls
  obtain ⟨_, hwritten, _⟩ := bind_eq_ok.mp hdecls
  intro name type hfind
  cases hmade : type.isMade with
  | true =>
    obtain ⟨decl, hdecl⟩ := exists_of_mem_mapM hwritten (mem_declared hds hfind hmade)
    exact sound_of_typeDecl hmade hdecl
  | false =>
    cases type with
    | synonym | struct | enum => cases hmade
    | generic parameter => exact (TypeMap.find?_ofTypes_ne_generic hfind).elim
    | _ => trivial

theorem bindings_of_render {tools : Toolbox} {formatters : List Formatter}
    {files : List (Text × Text)}
    (h : i.render settings tools formatters RustPlugin.target = .ok files) :
    ∃ b, RustPlugin.bindings (i.source settings) = .ok b := by
  unfold Interface.render at h
  rw [show Target.ofName? RustPlugin.target = some .rustPlugin by decide] at h
  obtain ⟨_, _, h⟩ := bind_eq_ok.mp h
  obtain ⟨_, h, _⟩ := bind_eq_ok.mp h
  cases hbindings : RustPlugin.bindings (i.source settings) with
  | ok b => exact ⟨b, rfl⟩
  | error cause =>
    rw [BindingSource.files, hbindings] at h
    cases h

/--
**A schema that a guest's bindings are made for never fails as a schema.** Start the codec
at an ident that can be written in Rust. Wherever it gets to, the ident it finds there
resolves and has an argument for each parameter that may be asked for, and no run from
there, in either direction, on whatever value and with whatever room, ends with an error of
the schema, with a parameter that is not bound or with a payload that is not supported. In
particular none from the ident itself does.
-/
theorem accepted_schema_holds {tools : Toolbox} {formatters : List Formatter}
    {files : List (Text × Text)} {ident : TypeIdent} {shown : Text}
    (hfiles : i.render settings tools formatters RustPlugin.target = .ok files)
    (hident : Rust.typeOf (TypeMap.ofTypes (i.sent ++ i.received)) [] ident = .ok shown) :
    let types := TypeMap.ofTypes (i.sent ++ i.received)
    (∀ room v e, toWire types room v ident = .error e → ¬ e.OfSchema)
      ∧ (∀ room v e, fromWire types room v ident = .error e → ¬ e.OfSchema)
      ∧ ∀ place, (Place.type ident).Reaches types place →
        (∀ found, place = .type found → ∃ type, types.resolve found = .ok type
          ∧ type.generics.length ≤ found.args.length)
        ∧ ∀ (d : Direction) room v e, d.run types room v place = .error e → ¬ e.OfSchema := by
  intro types
  obtain ⟨b, hb⟩ := bindings_of_render hfiles
  have htypes : types.Sound := sound_of_bindings hb
  have hstart : (Place.type ident).Sound types := resolves_of_typeOf hident
  refine ⟨fun room v e h => ?_, fun room v e h => ?_, fun place hreaches => ⟨?_, ?_⟩⟩
  · exact hstart.run (d := .encoding) htypes h
  · exact hstart.run (d := .decoding) htypes h
  · rintro found rfl
    have hsound : Resolves types [] found := hstart.reaches htypes hreaches
    obtain ⟨type, hresolve⟩ := hsound.exists_type
    refine ⟨type, hresolve, ?_⟩
    rcases find?_of_resolve hresolve with ⟨-, harity, -⟩ | rfl
    · exact Nat.le_of_eq harity.symm
    · exact Nat.zero_le _
  · exact fun d room v e h => (hstart.reaches htypes hreaches).run htypes h

/-- Trees of trees of numbers: a parameter is bound in an enum, in one of its variants and, through
a list that may be absent, in the enum again. -/
theorem accepted_schema_holds_tree :
    let tree : TypeDef Text := .enum "Tree" ["T"]
      [.mk "Leaf" (.tuple [⟨"T", []⟩]) [],
       .mk "Node" (.struct "Node" []
        [{ name := "label", type := ⟨"T", []⟩ },
         { name := "children", type := ⟨"Option", [⟨"Vec", [⟨"Tree", [⟨"T", []⟩]⟩]⟩]⟩ }] []) []]
      { tag := some "type" } []
    let i : Interface Text := ⟨.empty, .empty, [tree], [tree]⟩
    let types := TypeMap.ofTypes [tree, tree]
    let ident : TypeIdent := ⟨"Tree", [⟨"Tree", [⟨"u8", []⟩]⟩]⟩
    ∃ files shown, i.render {} (fun _ => none) [] RustPlugin.target = .ok files
      ∧ Rust.typeOf types [] ident = .ok shown
      ∧ ∀ room v e, fromWire types room v ident = .error e → ¬ e.OfSchema := by
  intro tree i types ident
  obtain ⟨files, hfiles⟩ := exists_of_isOk
    (show (i.render {} (fun _ => none) [] RustPlugin.target).isOk = true by decide +kernel)
  obtain ⟨shown, hshown⟩ := exists_of_isOk
    (show (Rust.typeOf types [] ident).isOk = true by decide +kernel)
  exact ⟨files, shown, hfiles, hshown, (accepted_schema_holds hfiles hshown).2.1⟩

end WasmBridge
