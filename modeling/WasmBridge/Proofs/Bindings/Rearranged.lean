import WasmBridge.Output.Generate
import WasmBridge.Proofs.Bindings.Formatting
import WasmBridge.Proofs.Schema.Rearranged

/-!
# Bindings of rearranged types

Whatever is made of types looks them up by name or goes through the declarations, and whether a type
is sent or received is asked of its name. So two sources in which these come out the same lead to
the same files or to the same error: each function of the targets is the same for both, as soon as
those that it calls are. The sources of two interfaces that give the same types in another order, or
some of them more than once, are such.
-/

namespace WasmBridge

/-! ## What is looked up -/

section Lookups

variable {types types' : TypeMap Text}

theorem TypeMap.resolve_congr (h : types.find? = types'.find?) (ident : TypeIdent)
    (scope : List Text) : types.resolve ident scope = types'.resolve ident scope := by
  simp only [resolve, h]

theorem TypeMap.isPrimitive_congr (h : types.find? = types'.find?) (ident : TypeIdent) :
    types.isPrimitive ident = types'.isPrimitive ident := by
  simp only [isPrimitive, h]

variable {scope : List Text} {writer : TypeWriter types scope} {writer' : TypeWriter types' scope}

mutual

/-- A type is written the same way where its parts resolve to the same definitions. -/
theorem TypeWriter.one_congr (hput : writer.put = writer'.put) (h : types.find? = types'.find?) :
    ∀ (room : Nat) (ident : TypeIdent), writer.one room ident = writer'.one room ident
  | room, ⟨name, args⟩ => by
    rw [writer.one_eq, writer'.one_eq, hput, TypeMap.resolve_congr h,
      TypeWriter.all_congr hput h (room - 2) args]

theorem TypeWriter.all_congr (hput : writer.put = writer'.put) (h : types.find? = types'.find?) :
    ∀ (room : Nat) (idents : List TypeIdent), writer.all room idents = writer'.all room idents
  | room, [] => by rw [writer.all_nil, writer'.all_nil]
  | room, ident :: rest => by
    rw [writer.all_cons, writer'.all_cons, TypeWriter.one_congr hput h room ident,
      TypeWriter.all_congr hput h room rest]

end

theorem Rust.typeOf_congr (h : types.find? = types'.find?) (scope : List Text)
    (ident : TypeIdent) : typeOf types scope ident = typeOf types' scope ident := by
  have hput : (typeWriter types scope).put = (typeWriter types' scope).put := rfl
  exact TypeWriter.one_congr hput h callRoom ident

theorem TypeScript.shownType_congr (h : types.find? = types'.find?) (scope : List Text)
    (ident : TypeIdent) : shownType types scope ident = shownType types' scope ident := by
  have hput : (typeWriter types scope).put = (typeWriter types' scope).put := rfl
  exact congrArg (Label.display <$> ·) (TypeWriter.one_congr hput h callRoom ident)

end Lookups

/-- Two sources of which everything is the same that bindings ask for. -/
structure BindingSource.Alike (s s' : BindingSource Text) : Prop where
  imports : s.imports = s'.imports
  exports : s.exports = s'.exports
  settings : s.settings = s'.settings
  find? : s.types.find? = s'.types.find?
  declarations : s.types.declarations = s'.types.declarations
  sends : s.sends = s'.sends
  receives : s.receives = s'.receives

namespace BindingSource.Alike

variable {s s' : BindingSource Text} (h : s.Alike s')

include h

theorem resolve (ident : TypeIdent) (scope : List Text) :
    s.types.resolve ident scope = s'.types.resolve ident scope :=
  TypeMap.resolve_congr h.find? ident scope

theorem isPrimitive (ident : TypeIdent) : s.types.isPrimitive ident = s'.types.isPrimitive ident :=
  TypeMap.isPrimitive_congr h.find? ident

theorem declared : s.declared = s'.declared := by
  simp only [BindingSource.declared, h.declarations, h.sends, h.receives]

theorem result? (f : Function Text) : s.result? f = s'.result? f := by
  simp only [BindingSource.result?, isUnit, h.resolve]

theorem checkNames (target : Text) : s.checkNames target = s'.checkNames target := by
  simp only [BindingSource.checkNames, h.imports, h.exports, h.declared]

/-! ## Rust -/

theorem rustTypeOf : Rust.typeOf s.types = Rust.typeOf s'.types := by
  funext scope ident
  exact Rust.typeOf_congr h.find? scope ident

theorem rustType : Rust.shownType s.types = Rust.shownType s'.types := by
  funext scope ident
  simp only [Rust.shownType, h.rustTypeOf]

theorem rustRawType : Rust.rawTypeOf s.types = Rust.rawTypeOf s'.types := by
  funext ident
  simp only [Rust.rawTypeOf, h.isPrimitive, h.rustType, h.resolve]

theorem rustCrossing : Rust.crossingOf s.types = Rust.crossingOf s'.types := by
  funext ident
  simp only [Rust.crossingOf, h.isPrimitive, h.resolve]

theorem rustFieldDecl : Rust.fieldDecl s.types = Rust.fieldDecl s'.types := by
  funext scope f
  simp only [Rust.fieldDecl, h.resolve, h.rustType]

theorem rustVariantDecl (target : Text) :
    Rust.variantDecl target s.types = Rust.variantDecl target s'.types := by
  funext enum generics options v
  simp only [Rust.variantDecl, h.rustFieldDecl, h.rustTypeOf]

theorem rustTypeDecls (target : Text) : Rust.typeDecls target s = Rust.typeDecls target s' := by
  have hdecl : Rust.typeDecl? target s.types = Rust.typeDecl? target s'.types := by
    funext derives type
    simp only [Rust.typeDecl?, h.rustType, h.rustFieldDecl, h.rustVariantDecl]
  funext derives
  simp only [Rust.typeDecls, h.declared, hdecl]

theorem boundaryParam : Rust.boundaryParam s = Rust.boundaryParam s' := by
  funext a
  simp only [Rust.boundaryParam, h.rustCrossing]

theorem boundarySignature : Rust.boundarySignature s = Rust.boundarySignature s' := by
  funext f
  simp only [Rust.boundarySignature, Rust.boundaryResult, h.boundaryParam, h.rustCrossing,
    h.result?]

theorem fullParam : Rust.fullParam s = Rust.fullParam s' := by
  funext a
  simp only [Rust.fullParam, h.rustType]

/-! ## Guests in Rust -/

theorem pluginImport : RustPlugin.importWrapper s = RustPlugin.importWrapper s' := by
  have hargument : RustPlugin.exportArgument s = RustPlugin.exportArgument s' := by
    funext a
    simp only [RustPlugin.exportArgument, h.isPrimitive]
  funext f
  simp only [RustPlugin.importWrapper, RustPlugin.importHead, RustPlugin.importCall, hargument,
    h.fullParam, h.result?, h.rustType, h.isPrimitive]

theorem pluginExport : RustPlugin.exportWrapper s = RustPlugin.exportWrapper s' := by
  have hargument : RustPlugin.importArgument s = RustPlugin.importArgument s' := by
    funext a
    simp only [RustPlugin.importArgument, h.isPrimitive, h.rustType]
  funext f
  simp only [RustPlugin.exportWrapper, RustPlugin.exportCall, hargument, h.boundarySignature,
    h.settings, h.result?, h.isPrimitive]

theorem pluginFunctions : RustPlugin.functions s = RustPlugin.functions s' := by
  simp only [RustPlugin.functions, h.imports, h.exports, h.boundarySignature, h.pluginImport,
    h.pluginExport]

theorem pluginTypes : RustPlugin.types s = RustPlugin.types s' := by
  have hderives : RustPlugin.derives s = RustPlugin.derives s' := by
    funext name
    simp only [RustPlugin.derives, h.sends, h.receives]
  simp only [RustPlugin.types, h.checkNames, h.rustTypeDecls, hderives]

/-! ## Hosts in Rust -/

theorem exportMethods : WasmerRuntime.exportMethods s = WasmerRuntime.exportMethods s' := by
  funext f
  simp only [WasmerRuntime.exportMethods, WasmerRuntime.conversions, WasmerRuntime.resultTypes,
    WasmerRuntime.logicalResult, WasmerRuntime.rawResult, h.fullParam, h.rustType, h.rustRawType,
    h.rustCrossing, h.result?, h.isPrimitive]

theorem importCallback : WasmerRuntime.importCallback s = WasmerRuntime.importCallback s' := by
  have hargument : WasmerRuntime.importArgument s = WasmerRuntime.importArgument s' := by
    funext a
    simp only [WasmerRuntime.importArgument, h.isPrimitive, h.rustType]
  funext f
  simp only [WasmerRuntime.importCallback, WasmerRuntime.callbackResult, hargument,
    h.boundaryParam, h.settings, h.result?, h.rustCrossing, h.isPrimitive]

theorem hostFunctions : WasmerRuntime.functions s = WasmerRuntime.functions s' := by
  simp only [WasmerRuntime.functions, h.imports, h.exports, h.exportMethods, h.importCallback]

theorem hostTypes : WasmerRuntime.types s = WasmerRuntime.types s' := by
  have hderives : WasmerRuntime.derives s = WasmerRuntime.derives s' := by
    funext name
    simp only [WasmerRuntime.derives, h.sends, h.receives]
  simp only [WasmerRuntime.types, h.checkNames, h.imports, h.exports, h.rustTypeDecls, hderives]

/-! ## Hosts in TypeScript -/

theorem scriptType : TypeScript.shownType s.types = TypeScript.shownType s'.types := by
  funext scope ident
  exact TypeScript.shownType_congr h.find? scope ident

theorem scriptCrossing : TypeScript.crossingOf s.types = TypeScript.crossingOf s'.types := by
  funext ident
  simp only [TypeScript.crossingOf, h.resolve]

theorem scriptProperty : TypeScript.property s.types = TypeScript.property s'.types := by
  funext scope f
  simp only [TypeScript.property, h.resolve, h.scriptType]

theorem scriptMember (target : Text) :
    TypeScript.member target s.types = TypeScript.member target s'.types := by
  funext enum generics options v
  simp only [TypeScript.member, h.scriptProperty, h.scriptType]

theorem scriptTypes : TypeScriptRuntime.types s = TypeScriptRuntime.types s' := by
  have hdecl : TypeScript.typeDecl? TypeScriptRuntime.target s.types
      = TypeScript.typeDecl? TypeScriptRuntime.target s'.types := by
    funext type
    simp only [TypeScript.typeDecl?, h.scriptType, h.scriptProperty, h.scriptMember]
  simp only [TypeScriptRuntime.types, TypeScript.typeDecls, h.checkNames, h.declared, hdecl]

theorem scriptParam : TypeScriptRuntime.fullParam s = TypeScriptRuntime.fullParam s' := by
  funext a
  simp only [TypeScriptRuntime.fullParam, h.scriptType]

theorem declaration : TypeScriptRuntime.declaration s = TypeScriptRuntime.declaration s' := by
  funext f
  simp only [TypeScriptRuntime.declaration, h.scriptParam, h.scriptType]

theorem scriptImport :
    TypeScriptRuntime.importCallback s = TypeScriptRuntime.importCallback s' := by
  have hparam : TypeScriptRuntime.callbackParam s = TypeScriptRuntime.callbackParam s' := by
    funext a
    simp only [TypeScriptRuntime.callbackParam, h.isPrimitive, h.scriptCrossing, h.scriptType]
  funext f
  simp only [TypeScriptRuntime.importCallback, hparam, h.isPrimitive, h.scriptCrossing, h.result?]

theorem scriptExport : TypeScriptRuntime.exportEntry s = TypeScriptRuntime.exportEntry s' := by
  funext f
  simp only [TypeScriptRuntime.exportEntry, TypeScriptRuntime.exportWrapper, h.isPrimitive,
    h.scriptParam, h.scriptType, h.result?]

theorem scriptFunctions : TypeScriptRuntime.functions s = TypeScriptRuntime.functions s' := by
  simp only [TypeScriptRuntime.functions, h.imports, h.exports, h.declaration, h.scriptImport,
    h.scriptExport]

/-! ## Files -/

/-- **Every target makes the same of two sources that are alike.** -/
theorem files (target : Target) : s.files target = s'.files target := by
  cases target with
  | rustPlugin =>
    simp only [BindingSource.files, RustPlugin.bindings, h.pluginTypes, h.pluginFunctions]
  | wasmerRuntime =>
    simp only [BindingSource.files, WasmerRuntime.bindings, h.hostTypes, h.hostFunctions]
  | typeScriptRuntime =>
    simp only [BindingSource.files, TypeScriptRuntime.bindings, h.scriptTypes, h.scriptFunctions,
      h.settings]

end BindingSource.Alike

/-! ## Interfaces -/

section Interfaces

variable {i i' : Interface Text}

/-- **Types that are given in another order, or more than once, make a source that is alike.** -/
theorem Interface.source_alike (settings : Settings) (himports : i'.imports = i.imports)
    (hexports : i'.exports = i.exports) (honce : NamedOnce (i.sent ++ i.received))
    (hsent : ∀ t, t ∈ i'.sent ↔ t ∈ i.sent) (hreceived : ∀ t, t ∈ i'.received ↔ t ∈ i.received) :
    (i'.source settings).Alike (i.source settings) := by
  have hmem : ∀ t, t ∈ i'.sent ++ i'.received ↔ t ∈ i.sent ++ i.received := fun t => by
    rw [List.mem_append, List.mem_append, hsent, hreceived]
  have hperm := TypeMap.perm_ofTypes honce hmem
  refine ⟨himports, hexports, rfl, TypeMap.find?_eq_of_perm (TypeMap.nodup_ofTypes _) hperm,
    TypeMap.declarations_eq_of_perm hperm, ?_, ?_⟩
  · funext name
    rw [Bool.eq_iff_iff]
    simp only [BindingSource.sends, source, List.any_eq_true, List.mem_map, hsent]
  · funext name
    rw [Bool.eq_iff_iff]
    simp only [BindingSource.receives, source, List.any_eq_true, List.mem_map, hreceived]

/-- **The order of types does not matter.** Interfaces that give the same types, none of them under
the name of a different one, come out the same for every target, whichever way and however often
they give them. -/
theorem Interface.render_rearranged (himports : i'.imports = i.imports)
    (hexports : i'.exports = i.exports) (honce : NamedOnce (i.sent ++ i.received))
    (hsent : ∀ t, t ∈ i'.sent ↔ t ∈ i.sent) (hreceived : ∀ t, t ∈ i'.received ↔ t ∈ i.received)
    (settings : Settings) (tools : Toolbox) (formatters : List Formatter) (target : Text) :
    i'.render settings tools formatters target = i.render settings tools formatters target := by
  have hsource := source_alike settings himports hexports honce hsent hreceived
  unfold render
  simp only [hsource.declarations, BindingSource.formatted, hsource.files]

end Interfaces

namespace GivenAgain

def point : TypeDef Text := .struct "Point" [] [{ name := "x", type := ⟨"u32", []⟩ }] []

def mode : TypeDef Text := .enum "Mode" [] [.mk "Off" (.unit "()") []] {} []

/-- The guest sends both types and receives one of them. -/
def once : Interface Text := ⟨.empty, .empty, [point, mode], [point]⟩

/-- The same types the other way round, and some of them more than once. -/
def again : Interface Text := ⟨.empty, .empty, [mode, point, mode], [point, point]⟩

theorem namedOnce : NamedOnce (once.sent ++ once.received) := by
  have hne : point.name ≠ mode.name := by decide
  have hnamed : ∀ t ∈ once.sent ++ once.received, t = point ∨ t = mode := by
    simp [once, or_comm]
  intro a ha b hb hname
  rcases hnamed a ha with rfl | rfl <;> rcases hnamed b hb with rfl | rfl
  · rfl
  · exact absurd hname hne
  · exact absurd hname.symm hne
  · rfl

end GivenAgain

open GivenAgain in
theorem render_rearranged_point_mode :
    NamedOnce (once.sent ++ once.received) ∧ (∀ t, t ∈ again.sent ↔ t ∈ once.sent)
      ∧ (∀ t, t ∈ again.received ↔ t ∈ once.received)
      ∧ again.render {} (fun _ => none) [] "ts-runtime"
          = once.render {} (fun _ => none) [] "ts-runtime" := by
  have hsent : ∀ t, t ∈ again.sent ↔ t ∈ once.sent := fun t => by
    simp only [again, once, List.mem_cons, List.not_mem_nil, or_false]
    tauto
  have hreceived : ∀ t, t ∈ again.received ↔ t ∈ once.received := fun t => by
    simp only [again, once, List.mem_cons, List.not_mem_nil, or_false, or_self]
  have himports : again.imports = once.imports := rfl
  have hexports : again.exports = once.exports := rfl
  exact ⟨namedOnce, hsent, hreceived,
    Interface.render_rearranged himports hexports namedOnce hsent hreceived {} (fun _ => none) [] _⟩

end WasmBridge
