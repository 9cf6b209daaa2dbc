import WasmBridge.Bindings.Target
import WasmBridge.Proofs.Bindings.Formatting
import WasmBridge.Proofs.Schema.Declared

/-!
# What bindings are refused for

Names that are texts are never to blame. Where all labels are texts, whatever a
target refuses it refuses for the schema: an ident that does not resolve, names that
do not stay apart, something that it cannot express, or no room to go on. The lemmas
here go through everything that makes bindings and say so for each part.
-/

namespace WasmBridge

open Outcome

/-- The error has nothing to do with labels that are no texts, or with arguments that nobody has
counted. -/
def SchemaError.aboutSchema : SchemaError → Bool
  | label _ | missingArgument => false
  | _ => true

/-- If there is an error it is one of the schema. -/
def LabelFree {α : Type} (x : Except SchemaError α) : Prop := FailsOnly (·.aboutSchema = true) x

section Chains

variable {α β : Type}

@[simp] theorem labelFree_ok (a : α) : LabelFree (.ok a) := failsOnly_ok a

theorem labelFree_error {e : SchemaError} (h : e.aboutSchema = true) :
    LabelFree (.error e : Except SchemaError α) := failsOnly_error h

@[simp] theorem labelFree_bind {x : Except SchemaError α} {f : α → Except SchemaError β} :
    LabelFree (x >>= f) ↔ LabelFree x ∧ ∀ a, x = .ok a → LabelFree (f a) := by
  constructor
  · intro h
    refine ⟨fun e he => h e (by rw [he]; rfl), fun a ha => ?_⟩
    rw [ha] at h
    exact h
  · rintro ⟨hx, hf⟩
    exact FailsOnly.bind hx hf

@[simp] theorem labelFree_map {x : Except SchemaError α} (f : α → β) :
    LabelFree (f <$> x) ↔ LabelFree x := by
  cases x with
  | ok a => exact iff_of_true (labelFree_ok _) (labelFree_ok _)
  | error e =>
    exact ⟨fun h e' he => h e' (by cases he; rfl), fun h e' he => h e' (by cases he; rfl)⟩

@[simp] theorem labelFree_mapM {f : α → Except SchemaError β} {xs : List α}
    (h : ∀ x, LabelFree (f x)) : LabelFree (xs.mapM f) := failsOnly_mapM fun x _ => h x

@[simp] theorem labelFree_forM {f : α → Except SchemaError Unit} {xs : List α}
    (h : ∀ x, LabelFree (f x)) : LabelFree (forM xs f) := by
  induction xs with
  | nil => exact labelFree_ok _
  | cons x xs ih =>
    rw [List.forM_cons]
    exact labelFree_bind.mpr ⟨h x, fun _ _ => ih⟩

@[simp] theorem labelFree_ite {p : Prop} [Decidable p] {x y : Except SchemaError α} :
    LabelFree (if p then x else y) ↔ (p → LabelFree x) ∧ (¬ p → LabelFree y) := by
  by_cases hp : p <;> simp [hp]

@[simp] theorem labelFree_reject (target : Text) (cause : Rejection) :
    LabelFree (reject target cause : Except SchemaError α) := labelFree_error rfl

end Chains

/-! ## Names -/

@[simp] theorem labelFree_text (label : Text) : LabelFree (Label.text label) := labelFree_ok label

@[simp] theorem labelFree_texts (labels : List Text) : LabelFree (Label.texts labels) :=
  labelFree_mapM labelFree_text

@[simp] theorem labelFree_escapeText (name : Text) : LabelFree (Rust.escapeText name) := by
  unfold Rust.escapeText
  split
  · exact labelFree_error rfl
  · split <;> exact labelFree_ok _

@[simp] theorem labelFree_escape (name : Text) : LabelFree (Rust.escape name) :=
  (labelFree_map _).mpr (labelFree_escapeText name)

@[simp] theorem labelFree_camel (name : Text) : LabelFree (TypeScriptRuntime.camel name) :=
  (labelFree_map _).mpr (labelFree_text name)

@[simp] theorem labelFree_checkMembers (target kind : Text) (render : Text → Text)
    (members : List (Text × Text)) : LabelFree (checkMembers target kind render members) := by
  have hrendered : ∀ members : List (Text × Text), LabelFree (rendered render members).2 := by
    intro members
    induction members with
    | nil => exact labelFree_ok _
    | cons member rest ih => exact ih
  have hdistinct : ∀ entries, LabelFree (checkDistinct target kind entries) := by
    intro entries
    unfold checkDistinct
    split
    · exact labelFree_reject _ _
    · exact labelFree_ok _
  unfold checkMembers
  exact labelFree_bind.mpr ⟨hdistinct _, fun _ _ => hrendered members⟩

/-! ## Types -/

variable {types : TypeMap Text} {scope : List Text} {s : BindingSource Text}

@[simp] theorem labelFree_resolve (types : TypeMap Text) (ident : TypeIdent)
    (scope : List Text) : LabelFree (types.resolve ident scope) := by
  unfold TypeMap.resolve
  split
  · split
    · exact labelFree_ok _
    · exact labelFree_error rfl
  · split
    · exact labelFree_error rfl
    · exact labelFree_ok _
    · split
      · exact labelFree_ok _
      · exact labelFree_error rfl

theorem TypeWriter.labelFree_one (w : TypeWriter types scope) (room : Nat) (ident : TypeIdent) :
    LabelFree (w.one room ident) := by
  intro e he
  obtain rfl | ⟨part, hpart⟩ := w.error_cases he
  · rfl
  · exact labelFree_resolve types part scope e hpart

@[simp] theorem labelFree_rustTypeOf (ident : TypeIdent) :
    LabelFree (Rust.typeOf types scope ident) :=
  (Rust.typeWriter types scope).labelFree_one callRoom ident

@[simp] theorem labelFree_rustShown (ident : TypeIdent) :
    LabelFree (Rust.shownType types scope ident) :=
  (labelFree_map _).mpr (labelFree_rustTypeOf ident)

@[simp] theorem labelFree_scriptShown (ident : TypeIdent) :
    LabelFree (TypeScript.shownType types scope ident) :=
  (labelFree_map _).mpr ((TypeScript.typeWriter types scope).labelFree_one callRoom ident)

@[simp] theorem labelFree_rawTypeOf (ident : TypeIdent) :
    LabelFree (Rust.rawTypeOf types ident) := by
  simp [Rust.rawTypeOf]

@[simp] theorem labelFree_rustCrossing (ident : TypeIdent) :
    LabelFree (Rust.crossingOf types ident) := by
  simp [Rust.crossingOf]

@[simp] theorem labelFree_scriptCrossing (ident : TypeIdent) :
    LabelFree (TypeScript.crossingOf types ident) := by
  unfold TypeScript.crossingOf
  refine labelFree_bind.mpr ⟨labelFree_resolve _ _ _, fun type _ => ?_⟩
  cases type <;> exact labelFree_ok _

@[simp] theorem labelFree_result (f : Function Text) : LabelFree (s.result? f) := by
  unfold BindingSource.result?
  cases f.returns with
  | none => exact labelFree_ok _
  | some ident => simp [BindingSource.isUnit]

/-! ## Declarations -/

@[simp] theorem labelFree_declarations (types : TypeMap Text) : LabelFree types.declarations := by
  unfold TypeMap.declarations
  rw [if_pos (ordered_texts _)]
  exact labelFree_ok _

@[simp] theorem labelFree_declared (s : BindingSource Text) : LabelFree s.declared := by
  simp [BindingSource.declared]

@[simp] theorem labelFree_expressible (target enum : Text) (single : Bool) (v : Variant Text) :
    LabelFree (v.expressible target enum single) := by
  unfold Variant.expressible
  split <;> simp

@[simp] theorem labelFree_checkFieldNames (target owner : Text) (fields : List (Field Text)) :
    LabelFree (checkFieldNames target owner fields) := by
  simp [checkFieldNames]

@[simp] theorem labelFree_checkMemberNames (target : Text) (type : TypeDef Text) :
    LabelFree (checkMemberNames target type) := by
  cases type with
  | enum name generics variants options doc =>
    simp only [checkMemberNames, checkVariantNames, labelFree_bind]
    refine ⟨labelFree_checkMembers _ _ _ _, fun _ _ => ⟨labelFree_checkMembers _ _ _ _, ?_⟩⟩
    refine fun _ _ => labelFree_forM fun v => ?_
    split
    · exact labelFree_checkFieldNames _ _ _
    · exact labelFree_ok _
  | _ => simp [checkMemberNames]

@[simp] theorem labelFree_checkFunctionNames (target : Text) (functions : FunctionList Text) :
    LabelFree (checkFunctionNames target functions) := by
  refine labelFree_bind.mpr ⟨labelFree_texts _, fun names _ => ?_⟩
  unfold checkDistinct
  split <;> simp

@[simp] theorem labelFree_checkNames (s : BindingSource Text) (target : Text) :
    LabelFree (s.checkNames target) := by
  simp [BindingSource.checkNames]

@[simp] theorem labelFree_rustField (f : Field Text) :
    LabelFree (Rust.fieldDecl types scope f) := by
  simp [Rust.fieldDecl, Rust.fieldName]

@[simp] theorem labelFree_scriptField (f : Field Text) :
    LabelFree (TypeScript.property types scope f) := by
  simp [TypeScript.property]

@[simp] theorem labelFree_rustVariant (target enum : Text) (options : EnumOptions Text)
    (v : Variant Text) : LabelFree (Rust.variantDecl target types enum scope options v) := by
  unfold Rust.variantDecl
  refine labelFree_bind.mpr ⟨labelFree_expressible _ _ _ _, fun payload _ => ?_⟩
  cases payload <;> simp

@[simp] theorem labelFree_scriptVariant (target enum : Text) (options : EnumOptions Text)
    (v : Variant Text) : LabelFree (TypeScript.member target types enum scope options v) := by
  unfold TypeScript.member
  refine labelFree_bind.mpr ⟨labelFree_expressible _ _ _ _, fun payload _ => ?_⟩
  cases payload <;> simp

@[simp] theorem labelFree_rustDecls (target : Text) (s : BindingSource Text)
    (derives : Text → Rust.Derives) : LabelFree (Rust.typeDecls target s derives) := by
  have hdecl : ∀ type, LabelFree (Rust.typeDecl? target s.types derives type) := by
    intro type
    cases type <;> simp [Rust.typeDecl?]
  simp [Rust.typeDecls, hdecl]

@[simp] theorem labelFree_scriptDecls (target : Text) (s : BindingSource Text) :
    LabelFree (TypeScript.typeDecls target s) := by
  have hdecl : ∀ type, LabelFree (TypeScript.typeDecl? target s.types type) := by
    intro type
    cases type <;> simp [TypeScript.typeDecl?]
  simp [TypeScript.typeDecls, hdecl]

/-! ## Functions -/

@[simp] theorem labelFree_boundaryParam (s : BindingSource Text) (a : Argument Text) :
    LabelFree (Rust.boundaryParam s a) := by
  simp [Rust.boundaryParam]

@[simp] theorem labelFree_boundarySignature (s : BindingSource Text) (f : Function Text) :
    LabelFree (Rust.boundarySignature s f) := by
  have hresult : LabelFree (Rust.boundaryResult s f) := by
    unfold Rust.boundaryResult
    refine labelFree_ite.mpr ⟨fun _ => labelFree_ok _, fun _ => ?_⟩
    refine labelFree_bind.mpr ⟨labelFree_result f, fun result _ => ?_⟩
    cases result <;> simp
  simp [Rust.boundarySignature, hresult]

@[simp] theorem labelFree_rustParam (s : BindingSource Text) (a : Argument Text) :
    LabelFree (Rust.fullParam s a) := by
  simp [Rust.fullParam]

@[simp] theorem labelFree_argumentNames (f : Function Text) : LabelFree (Rust.argumentNames f) := by
  simp [Rust.argumentNames]

@[simp] theorem labelFree_callArguments (f : Function Text) : LabelFree (Rust.callArguments f) := by
  simp [Rust.callArguments]

theorem labelFree_guestImport (s : BindingSource Text) (f : Function Text) :
    LabelFree (RustPlugin.importWrapper s f) := by
  have hhead : LabelFree (RustPlugin.importHead s f) := by
    unfold RustPlugin.importHead
    refine labelFree_bind.mpr ⟨labelFree_mapM (labelFree_rustParam s), fun params _ => ?_⟩
    refine labelFree_bind.mpr ⟨labelFree_result f, fun result _ => ?_⟩
    cases result <;> simp
  simp [RustPlugin.importWrapper, RustPlugin.exportArgument, hhead]

theorem labelFree_guestExport (s : BindingSource Text) (f : Function Text) :
    LabelFree (RustPlugin.exportWrapper s f) := by
  simp [RustPlugin.exportWrapper, RustPlugin.importArgument]

theorem labelFree_hostExport (s : BindingSource Text) (f : Function Text) :
    LabelFree (WasmerRuntime.exportMethods s f) := by
  have hresult : ∀ result, LabelFree (WasmerRuntime.resultTypes s f result) := by
    intro result
    cases result <;> simp [WasmerRuntime.resultTypes]
  simp [WasmerRuntime.exportMethods, WasmerRuntime.conversions, hresult]

theorem labelFree_hostImport (s : BindingSource Text) (f : Function Text) :
    LabelFree (WasmerRuntime.importCallback s f) := by
  unfold WasmerRuntime.importCallback
  refine labelFree_bind.mpr ⟨labelFree_mapM (labelFree_boundaryParam s), fun params _ => ?_⟩
  refine labelFree_bind.mpr ⟨labelFree_result f, fun result _ => ?_⟩
  cases result <;> simp [WasmerRuntime.importArgument]

@[simp] theorem labelFree_scriptParam (s : BindingSource Text) (a : Argument Text) :
    LabelFree (TypeScriptRuntime.fullParam s a) := by
  simp [TypeScriptRuntime.fullParam]

theorem labelFree_scriptDeclaration (s : BindingSource Text) (f : Function Text) :
    LabelFree (TypeScriptRuntime.declaration s f) := by
  unfold TypeScriptRuntime.declaration
  cases f.returns <;> simp

theorem labelFree_scriptImport (s : BindingSource Text) (f : Function Text) :
    LabelFree (TypeScriptRuntime.importCallback s f) := by
  have hparam : ∀ a, LabelFree (TypeScriptRuntime.callbackParam s a) := by
    intro a
    simp [TypeScriptRuntime.callbackParam]
  unfold TypeScriptRuntime.importCallback
  refine labelFree_bind.mpr ⟨labelFree_mapM hparam, fun params _ => ?_⟩
  simp only [labelFree_bind, labelFree_ite]
  refine ⟨by simp, fun names _ => ⟨by simp, fun name _ => ⟨by simp, fun _ => ⟨by simp, ?_⟩⟩⟩⟩
  intro result _
  cases result <;> simp

theorem labelFree_scriptExport (s : BindingSource Text) (f : Function Text) :
    LabelFree (TypeScriptRuntime.exportEntry s f) := by
  have hwrapper : ∀ result, LabelFree (TypeScriptRuntime.exportWrapper s f result) := by
    intro result
    cases result <;> simp [TypeScriptRuntime.exportWrapper]
  unfold TypeScriptRuntime.exportEntry
  refine labelFree_bind.mpr ⟨labelFree_camel f.name, fun name _ => ?_⟩
  refine labelFree_ite.mpr ⟨fun _ => ?_, fun _ => by simp [hwrapper]⟩
  refine labelFree_bind.mpr ⟨labelFree_result f, fun result _ => ?_⟩
  cases result <;> simp [hwrapper]

/-! ## Bindings -/

@[simp] theorem labelFree_checkMethods (seen methods : List (Text × Text)) :
    LabelFree (WasmerRuntime.checkMethods seen methods) := by
  induction methods generalizing seen with
  | nil => exact labelFree_ok _
  | cons method rest ih =>
    rw [WasmerRuntime.checkMethods]
    split
    · exact labelFree_reject _ _
    · split
      · exact labelFree_reject _ _
      · exact ih _

@[simp] theorem labelFree_checkEnvironment (f : Function Text) :
    LabelFree (WasmerRuntime.checkEnvironment f) := by
  simp [WasmerRuntime.checkEnvironment]

/-- **Where all labels are texts, bindings are refused for the schema only.** -/
theorem labelFree_files (s : BindingSource Text) (target : Target) :
    LabelFree (s.files target) := by
  cases target with
  | rustPlugin =>
    simp [BindingSource.files, RustPlugin.bindings, RustPlugin.types, RustPlugin.functions,
      labelFree_guestImport, labelFree_guestExport]
  | wasmerRuntime =>
    simp [BindingSource.files, WasmerRuntime.bindings, WasmerRuntime.types,
      WasmerRuntime.functions, labelFree_hostExport, labelFree_hostImport]
  | typeScriptRuntime =>
    simp [BindingSource.files, TypeScriptRuntime.bindings, TypeScriptRuntime.types,
      TypeScriptRuntime.functions, labelFree_scriptDeclaration, labelFree_scriptImport,
      labelFree_scriptExport]

/-! ## Errors and room -/

/-- There is no room to find the fault, or none to word it. -/
def SchemaError.OutOfRoom : SchemaError → Prop
  | tooDeep | rejected _ (.payloadKind _ _ none) => True
  | unresolved ident | wrongArity ident _ => callRoom < ident.textRoom
  | _ => False

/-- An error of the schema says what is wrong, unless it has run out of room. -/
theorem SchemaError.worded {e : SchemaError} (h : e.aboutSchema = true) :
    e.message?.isSome = true ∨ e.OutOfRoom := by
  have htext : ∀ ident : TypeIdent, ident.text?.isSome = true ∨ callRoom < ident.textRoom := by
    intro ident
    unfold TypeIdent.text?
    by_cases hroom : ident.textRoom ≤ callRoom
    · rw [if_pos hroom]; exact .inl rfl
    · exact .inr (by omega)
  cases e with
  | label | missingArgument => cases h
  | tooDeep => exact .inr trivial
  | unresolved ident => exact (htext ident).imp_left fun ht => by simpa [message?] using ht
  | wrongArity ident expected => exact (htext ident).imp_left fun ht => by simpa [message?] using ht
  | rejected target cause =>
    cases cause with
    | payloadKind enum variant shown =>
      cases shown with
      | none => exact .inr trivial
      | some shown => exact .inl rfl
    | _ => exact .inl rfl
  | _ => exact .inl rfl

end WasmBridge
