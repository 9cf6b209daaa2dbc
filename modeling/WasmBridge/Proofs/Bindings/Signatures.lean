import WasmBridge.Bindings.RustPlugin
import WasmBridge.Bindings.TypeScriptRuntime
import WasmBridge.Bindings.WasmerRuntime
import WasmBridge.Proofs.Bindings.FileLines
import WasmBridge.Proofs.Bindings.SignatureText
import WasmBridge.Proofs.Schema.Resolution

/-!
# What both sides take a function for

A guest and its host are generated apart from each other, by targets that decide
for themselves how an argument crosses the boundary: some ask whether the head of
its type names a primitive, others look up what the type stands for. If two of them
ever decided differently, a number would be taken for a pointer. Here is what crosses
for a function, by the source alone, and then, for each of the six kinds of code that
declare or call a function at the boundary, that this is what can be read off it.

A function in TypeScript that calls an export has no types at the boundary. What it
serializes is a line of its own, and the call has the pointer in the place of the
argument. No name in camel case is that of a pointer, so what is passed as it came is
not taken for something that has been serialized.
-/

namespace WasmBridge

open Outcome Text

variable {ν : Type} [Label ν]

/-! ## What crosses the boundary -/

/-- The symbol of a function. -/
def symbolOf (f : Function ν) : Text := Symbols.function (Label.display f.name)

namespace BindingSource

/-- The head of the ident names the unit. -/
def namesUnit (s : BindingSource ν) (type : TypeIdent) : Bool :=
  match s.types.find? type.name with
  | some (.unit _) => true
  | _ => false

/-- A value crosses by itself if the head of its type names a primitive. -/
def passing (s : BindingSource ν) (type : TypeIdent) : Passing :=
  if s.types.isPrimitive type then .byValue else .byPointer

/-- The result of an asynchronous function is a pointer; the unit is no result. -/
def passedResult (s : BindingSource ν) (f : Function ν) : Option Passing :=
  if f.isAsync then some .byPointer
  else (f.returns.filter fun type => !s.namesUnit type).map s.passing

/-- How the arguments of a function cross the boundary, and how its result does, if there is one. -/
def crossings (s : BindingSource ν) (f : Function ν) : List Passing × Option Passing :=
  (f.args.map fun a => s.passing a.type, s.passedResult f)

/-- Whatever crosses the boundary for the function crosses it by itself, and at once. -/
def PassedThrough (s : BindingSource ν) (f : Function ν) : Prop :=
  f.isAsync = false ∧ (∀ a ∈ f.args, s.passing a.type = .byValue)
    ∧ (s.passedResult f = none ∨ s.passedResult f = some .byValue)

instance (s : BindingSource ν) (f : Function ν) : Decidable (s.PassedThrough f) :=
  inferInstanceAs (Decidable (_ ∧ _ ∧ _))

end BindingSource

/-- Rust refers to a primitive type by the name in the ident. -/
def Rust.boundaryStyle : BoundaryStyle where
  arrow := " -> "
  values type := ["<" ++ type.name ++ " as WasmAbi>::AbiType"]
  apart _ := List.pairwise_pair.mpr (diverge_of_head (by decide))

/-- TypeScript has three types for what is primitive. -/
def TypeScript.boundaryStyle : BoundaryStyle where
  arrow := ": "
  values _ := ["boolean", "number", "bigint"]
  apart _ := by decide

/-- A parameter begins with its name. -/
def byName (nameOf : Argument ν → Except SchemaError Text) (a : Argument ν) :
    Except SchemaError Text := do
  return (← nameOf a) ++ ": "

/-- A parameter is its type and nothing else. -/
def byType (_ : Argument ν) : Except SchemaError Text := .ok []

/-- A parameter by its identifier in Rust. -/
def rustName (a : Argument ν) : Except SchemaError Text := Label.display <$> Rust.escape a.name

/-- An argument by its identifier in Rust where only a text can stand. -/
def rustText (a : Argument ν) : Except SchemaError Text := do Label.text (← Rust.escape a.name)

/-- A parameter by its name in TypeScript; what is serialized is there as a pointer. -/
def scriptName (s : BindingSource ν) (a : Argument ν) : Except SchemaError Text :=
  if s.types.isPrimitive a.type then TypeScriptRuntime.camel a.name
  else .ok (TypeScriptRuntime.pointerName a)

/-! ## What the targets decide by -/

variable {s : BindingSource ν} {f : Function ν}

theorem isUnit_eq {type : TypeIdent} {unit : Bool} (h : s.isUnit type = .ok unit) :
    unit = s.namesUnit type := by
  obtain ⟨t, hresolve, heq⟩ := Outcome.bind_eq_ok.mp h
  cases heq
  obtain ⟨named, hfind, rfl | ⟨items, rfl, rfl⟩⟩ := resolve_eq_ok hresolve
  · unfold BindingSource.namesUnit; rw [hfind]; cases t <;> rfl
  · unfold BindingSource.namesUnit; rw [hfind]; rfl

theorem result_eq {result : Option TypeIdent} (h : s.result? f = .ok result) :
    result = f.returns.filter fun type => !s.namesUnit type := by
  unfold BindingSource.result? at h
  cases hreturns : f.returns with
  | none => rw [hreturns] at h; cases h; rfl
  | some type =>
    rw [hreturns] at h
    obtain ⟨unit, hunit, heq⟩ := Outcome.bind_eq_ok.mp h
    cases heq
    rw [isUnit_eq hunit]
    cases hn : s.namesUnit type <;> simp [Option.filter, hn]

theorem passing_eq_byValue {type : TypeIdent} :
    s.passing type = .byValue ↔ s.types.isPrimitive type = true := by
  unfold BindingSource.passing
  split
  · rename_i hp; exact ⟨fun _ => hp, fun _ => rfl⟩
  · rename_i hp; exact ⟨fun h => (nomatch h), fun h => absurd h hp⟩

/-- Rust decides by the head of the type. -/
theorem rust_crossing_shows {type : TypeIdent} {c : Crossing Text}
    (h : Rust.crossingOf s.types type = .ok c) :
    Shows (Rust.boundaryStyle.values type) (s.passing type) (Rust.crossingText c) := by
  unfold Rust.crossingOf at h
  unfold BindingSource.passing
  split at h
  · rename_i hp
    cases h
    rw [if_pos hp]
    exact List.mem_cons_self
  · rename_i hp
    obtain ⟨_, _, ⟨⟩⟩ := bind_eq_ok.mp h
    rw [if_neg hp]
    rfl

theorem primitiveType_mem (kind : Primitive) (type : TypeIdent) :
    TypeScript.primitiveType kind ∈ TypeScript.boundaryStyle.values type := by
  unfold TypeScript.primitiveType TypeScript.boundaryStyle
  split
  · simp
  split <;> simp

/-- TypeScript decides by what the type stands for. -/
theorem script_crossing_shows {type : TypeIdent} {c : Crossing Primitive}
    (h : TypeScript.crossingOf s.types type = .ok c) :
    Shows (TypeScript.boundaryStyle.values type) (s.passing type) (TypeScript.crossingText c) := by
  obtain ⟨t, hresolve, heq⟩ := bind_eq_ok.mp h
  unfold BindingSource.passing TypeMap.isPrimitive
  obtain ⟨named, hfind, rfl | ⟨items, rfl, rfl⟩⟩ := resolve_eq_ok hresolve
  · rw [hfind]
    cases t with
    | primitive kind => cases heq; exact primitiveType_mem kind type
    | _ => cases heq; rfl
  · rw [hfind]
    cases heq
    rfl

/-! ## Results -/

section Results

variable {style : BoundaryStyle}

/-- What crosses back from a synchronous function, by the type that its result has. -/
theorem passedResult_sync {result : Option TypeIdent} (hsync : f.isAsync = false)
    (hresult : s.result? f = .ok result) : s.passedResult f = result.map s.passing := by
  unfold BindingSource.passedResult
  rw [hsync, if_neg Bool.false_ne_true, ← result_eq hresult]

theorem passedResult_async (hasync : f.isAsync = true) :
    s.passedResult f = some .byPointer := by
  unfold BindingSource.passedResult
  rw [if_pos hasync]

theorem showsResult_async (hasync : f.isAsync = true) :
    style.ShowsResult f (s.passedResult f) (some pointerType) := by
  rw [passedResult_async hasync]
  exact .some rfl

theorem showsResult_none (hsync : f.isAsync = false) (hresult : s.result? f = .ok none) :
    style.ShowsResult f (s.passedResult f) none := by
  rw [passedResult_sync hsync hresult]
  exact .none

theorem showsResult_some {type : TypeIdent} {text : Text} (hsync : f.isAsync = false)
    (hresult : s.result? f = .ok (some type))
    (h : Shows (style.values type) (s.passing type) text) :
    style.ShowsResult f (s.passedResult f) (some text) := by
  have hreturns : f.returns = some type :=
    (Option.filter_eq_some_iff.mp (result_eq hresult).symm).1
  rw [passedResult_sync hsync hresult]
  refine .some ?_
  rw [BoundaryStyle.resultValues, hreturns]
  exact h

/-- What is shown where the crossing of a result is looked up in Rust. -/
theorem showsResult_rust {result : Option TypeIdent} (hsync : f.isAsync = false)
    (hresult : s.result? f = .ok result) {crossing : Option (Crossing Text)}
    (h : (match result with
      | none => pure none
      | some type => some <$> Rust.crossingOf s.types type) = Except.ok crossing) :
    Rust.boundaryStyle.ShowsResult f (s.passedResult f) (crossing.map Rust.crossingText) := by
  cases result with
  | none =>
    cases h
    exact showsResult_none hsync hresult
  | some type =>
    obtain ⟨c, hc, rfl⟩ := map_eq_ok.mp h
    exact showsResult_some hsync hresult (rust_crossing_shows hc)

end Results

/-! ## Signatures -/

/-- Parameters by their names and types, and a result by its type, declare a function: they are
those of its arguments, in their order, and each type shows how the value crosses. -/
structure BindingSource.Declares {α : Type} (s : BindingSource ν) (style : BoundaryStyle)
    (nameOf : Argument ν → Except SchemaError Text) (f : Function ν) (name type : α → Text)
    (params : List α) (result : Option Text) : Prop where
  params : List.Forall₂ (fun a p => nameOf a = .ok (name p)
    ∧ Shows (style.values a.type) (s.passing a.type) (type p)) f.args params
  result : style.ShowsResult f (s.passedResult f) result

namespace BindingSource.Declares

variable {α : Type} {style : BoundaryStyle} {nameOf : Argument ν → Except SchemaError Text}
  {name type : α → Text} {params : List α} {result : Option Text}

theorem names (h : s.Declares style nameOf f name type params result) :
    List.Forall₂ (fun a n => nameOf a = .ok n) f.args (params.map name) := by
  rw [List.forall₂_map_right_iff]
  exact h.params.imp fun _ _ hp => hp.1

theorem showsParams (h : s.Declares style nameOf f name type params result) :
    List.Forall₂ (fun a param => style.ShowsParam (byName nameOf) a (s.passing a.type) param) f.args
      (params.map fun p => name p ++ ": " ++ type p) := by
  rw [List.forall₂_map_right_iff]
  exact h.params.imp fun _ p hp =>
    ⟨name p ++ ": ", type p, bind_eq_ok.mpr ⟨_, hp.1, rfl⟩, hp.2, rfl⟩

end BindingSource.Declares

/-! ## Rust -/

/-- A signature at the boundary is that of a function. -/
structure Rust.BoundarySignature.Matches (s : BindingSource ν) (f : Function ν)
    (e : Rust.BoundarySignature) : Prop where
  symbol : e.symbol = symbolOf f
  declares : s.Declares Rust.boundaryStyle rustName f BoundaryParam.name
    (fun p => Rust.crossingText p.type) e.params (e.result.map Rust.crossingText)

theorem Rust.arrow_eq (result : Option Text) :
    Rust.arrow result = result.elim [] (Rust.boundaryStyle.arrow ++ ·) := by
  cases result <;> rfl

theorem boundaryParam_eq {a : Argument ν} {p : Rust.BoundaryParam}
    (h : Rust.boundaryParam s a = .ok p) : rustName a = .ok p.name
      ∧ Shows (Rust.boundaryStyle.values a.type) (s.passing a.type) (Rust.crossingText p.type) := by
  obtain ⟨name, hname, hrest⟩ := bind_eq_ok.mp h
  obtain ⟨c, hc, ⟨⟩⟩ := bind_eq_ok.mp hrest
  exact ⟨map_eq_ok.mpr ⟨name, hname, rfl⟩, rust_crossing_shows hc⟩

theorem boundarySignature_matches {e : Rust.BoundarySignature}
    (h : Rust.boundarySignature s f = .ok e) : e.Matches s f := by
  obtain ⟨params, hparams, hrest⟩ := bind_eq_ok.mp h
  obtain ⟨result, hresult, ⟨⟩⟩ := bind_eq_ok.mp hrest
  refine ⟨rfl, (mapM_eq_ok_iff.mp hparams).imp fun _ _ => boundaryParam_eq, ?_⟩
  unfold Rust.boundaryResult at hresult
  cases hasync : f.isAsync with
  | true =>
    rw [if_pos hasync] at hresult
    cases hresult
    exact showsResult_async hasync
  | false =>
    rw [if_neg (by rw [hasync]; exact Bool.false_ne_true)] at hresult
    obtain ⟨type, htype, hcrossing⟩ := bind_eq_ok.mp hresult
    exact showsResult_rust hasync htype hcrossing

theorem exportWrapper_matches {w : RustPlugin.ExportWrapper}
    (h : RustPlugin.exportWrapper s f = .ok w) : w.signature.Matches s f := by
  obtain ⟨signature, hsignature, hrest⟩ := bind_eq_ok.mp h
  obtain ⟨_, _, hrest⟩ := bind_eq_ok.mp hrest
  obtain ⟨_, _, hrest⟩ := bind_eq_ok.mp hrest
  obtain ⟨_, _, hrest⟩ := bind_eq_ok.mp hrest
  obtain ⟨_, _, ⟨⟩⟩ := bind_eq_ok.mp hrest
  exact boundarySignature_matches hsignature

theorem wasmer_import_matches {c : WasmerRuntime.ImportCallback}
    (h : WasmerRuntime.importCallback s f = .ok c) :
    c.name = "_" ++ Label.display f.name ∧ c.signature.Matches s f := by
  obtain ⟨params, hparams, hrest⟩ := bind_eq_ok.mp h
  obtain ⟨result, hresult, hrest⟩ := bind_eq_ok.mp hrest
  have hdeclared := (mapM_eq_ok_iff.mp hparams).imp fun _ _ => boundaryParam_eq (s := s)
  cases hasync : f.isAsync with
  | true =>
    simp only [hasync, if_true, bind_eq_ok] at hrest
    obtain ⟨_, ⟨⟩, _, _, _, _, _, _, ⟨⟩⟩ := hrest
    exact ⟨rfl, rfl, hdeclared, showsResult_async hasync⟩
  | false =>
    simp only [hasync, Bool.false_eq_true, if_false] at hrest
    cases result with
    | none =>
      simp only [bind_eq_ok] at hrest
      obtain ⟨_, ⟨⟩, _, _, _, _, _, _, ⟨⟩⟩ := hrest
      exact ⟨rfl, rfl, hdeclared, showsResult_rust hasync hresult rfl⟩
    | some type =>
      simp only [bind_eq_ok] at hrest
      obtain ⟨boundary, hboundary, _, _, _, _, _, _, ⟨⟩⟩ := hrest
      exact ⟨rfl, rfl, hdeclared, showsResult_rust hasync hresult hboundary⟩

/-! ### Methods that call a guest -/

namespace WasmerRuntime

/-- How a result crosses by the type that code begins with, of which the unit is for no result. -/
def resultTypeAt? (f : Function ν) (code : Text) : Option (Option Passing × Text) :=
  match behind? "()" code with
  | some rest => some (none, rest)
  | none =>
    (passingAt? (Rust.boundaryStyle.resultValues f) code).map fun read => (some read.1, read.2)

/-- How everything crosses by the types with which a function of the guest is looked up. A single
argument stands alone, any other number of them makes up a tuple. -/
def typeArgumentsIn? (f : Function ν) (symbol line : Text) :
    Option (List Passing × Option Passing) := do
  let opening : Text := if f.args.length = 1 then [] else "("
  let closing : Text := if f.args.length = 1 then [] else ")"
  let code ← behind? (".get_typed_function::<" ++ opening) line
  let (params, code) ← Rust.boundaryStyle.paramsAt? byType "" f.args code
  let code ← behind? (closing ++ ", ") code
  let (result, code) ← resultTypeAt? f code
  if code = ">(&self.store, " ++ Rust.quoted symbol ++ ")" then some (params, result) else none

/-- The lines that look up a function of the guest and call it with some arguments. -/
def callLines (symbol lookup : Text) (names : List Text) : List Text :=
  let opening : List Text := ["let function = self"]
  let call : Text := "let result = function.call" ++
    bracketed "(" ")" ("&mut self.store" :: names.map (· ++ ".to_abi()")) ++ "?;"
  opening ++
    Lines.nested [
      ".instance",
      ".exports",
      lookup,
      ".map_err(|_| InvocationError::FunctionNotExported(" ++ Rust.quoted symbol ++
        ".to_owned()))?;"] ++
    [call]

theorem argumentsType_eq (types : List (Crossing Text)) :
    argumentsType types = (if types.length = 1 then [] else "(") ++
      separated ", " (types.map Rust.crossingText) ++ if types.length = 1 then [] else ")" := by
  unfold argumentsType
  split
  · rw [List.map_singleton, separated, List.intercalate_singleton]
    exact (List.append_nil _).symm
  · rename_i hsingle
    have hlength : types.length ≠ 1 := by
      intro hlength
      obtain ⟨a, rfl⟩ := List.length_eq_one_iff.mp hlength
      exact hsingle a rfl
    rw [if_neg hlength, if_neg hlength]
    rfl

omit [Label ν] in
theorem exists_of_mem_resultValues {type : Text} (h : type ∈ Rust.boundaryStyle.resultValues f) :
    ∃ name : Text, type = "<" ++ name ++ " as WasmAbi>::AbiType" := by
  unfold BoundaryStyle.resultValues at h
  cases hreturns : f.returns with
  | none =>
    rw [hreturns] at h
    cases h
  | some ident =>
    rw [hreturns] at h
    exact ⟨ident.name, List.mem_singleton.mp h⟩

omit [Label ν] in
theorem resultTypeAt?_printed {result : Option Passing} {text : Option Text}
    (h : Rust.boundaryStyle.ShowsResult f result text) (code : Text) :
    resultTypeAt? f (text.getD "()" ++ code) = some (result, code) := by
  unfold resultTypeAt?
  cases h with
  | none => rw [Option.getD_none, behind?_append]
  | @some passing type h =>
    have hapart : (pointerType :: Rust.boundaryStyle.resultValues f).Pairwise Diverge :=
      Rust.boundaryStyle.apart_result f
    have hunit : Diverge "()" type := by
      cases passing with
      | byPointer =>
        cases h
        decide
      | byValue =>
        obtain ⟨name, rfl⟩ := exists_of_mem_resultValues h
        exact diverge_of_head (by decide)
    rw [Option.getD_some, behind?_eq_none hunit]
    dsimp only
    rw [passingAt?_append hapart h]
    rfl

theorem typeArgumentsIn?_printed {crossings : List (Crossing Text)}
    {boundary : Option (Crossing Text)}
    (hcrossings : f.args.mapM (fun a => Rust.crossingOf s.types a.type) = .ok crossings)
    (hresult : Rust.boundaryStyle.ShowsResult f (s.passedResult f)
      (boundary.map Rust.crossingText)) (symbol : Text) :
    typeArgumentsIn? f symbol (".get_typed_function::<" ++ (argumentsType crossings ++ ", " ++
        (boundary.map Rust.crossingText).getD "()") ++ ">(&self.store, " ++
        Rust.quoted symbol ++ ")") = some (s.crossings f) := by
  have hargs := mapM_eq_ok_iff.mp hcrossings
  have hparams : List.Forall₂ (fun a param => Rust.boundaryStyle.ShowsParam byType a
      (s.passing a.type) param) f.args (crossings.map Rust.crossingText) := by
    rw [List.forall₂_map_right_iff]
    exact hargs.imp fun _ c hc => ⟨[], _, rfl, rust_crossing_shows hc, rfl⟩
  have hresult := resultTypeAt?_printed hresult
  rw [argumentsType_eq, ← hargs.length_eq, typeArgumentsIn?]
  -- brackets stand around anything but one type, for the reader as in the code
  generalize (if f.args.length = 1 then ([] : Text) else "(") = opening,
    (if f.args.length = 1 then ([] : Text) else ")") = closing
  generalize (boundary.map Rust.crossingText).getD "()" = result at hresult
  simp only [List.append_assoc]
  rw [← List.append_assoc _ opening, behind?_append]
  simp only [Option.bind_eq_bind, Option.bind_some, BoundaryStyle.paramsAt?_separated hparams]
  rw [← List.append_assoc closing, behind?_append]
  simp only [Option.bind_some, hresult, if_true]
  rfl

theorem linesAll_append (statements statements' : List Rust.Statement) :
    Rust.Statement.linesAll (statements ++ statements')
      = Rust.Statement.linesAll statements ++ Rust.Statement.linesAll statements' := by
  induction statements with
  | nil => rfl
  | cons statement statements ih =>
    rw [List.cons_append, Rust.Statement.linesAll, ih, Rust.Statement.linesAll, List.append_assoc]

theorem resultTypes_shows {result : Option TypeIdent} (hresult : s.result? f = .ok result)
    {full raw : Text} {boundary : Option (Crossing Text)}
    (h : resultTypes s f result = .ok (full, raw, boundary)) :
    Rust.boundaryStyle.ShowsResult f (s.passedResult f) (boundary.map Rust.crossingText) := by
  unfold resultTypes at h
  cases hasync : f.isAsync with
  | true =>
    simp only [hasync, if_true] at h
    cases result with
    | none =>
      cases h
      exact showsResult_async hasync
    | some type =>
      obtain ⟨_, _, ⟨⟩⟩ := bind_eq_ok.mp h
      exact showsResult_async hasync
  | false =>
    simp only [hasync, Bool.false_eq_true, if_false] at h
    cases result with
    | none =>
      cases h
      exact showsResult_none hasync hresult
    | some type =>
      simp only [bind_eq_ok] at h
      obtain ⟨_, _, _, _, crossing, hcrossing, ⟨⟩⟩ := h
      exact showsResult_some hasync hresult (rust_crossing_shows hcrossing)

/-- **How everything crosses is read off the types with which a guest is called.** -/
theorem exportMethods_calls {m : ExportMethods} (h : exportMethods s f = .ok m) :
    ∃ lookup names, f.args.mapM rustText = .ok names
      ∧ typeArgumentsIn? f (symbolOf f) lookup = some (s.crossings f)
      ∧ Lines.nested (callLines (symbolOf f) lookup names)
          <:+: m.lines := by
  simp only [exportMethods, bind_eq_ok] at h
  obtain ⟨_, _, _, _, _, _, names, hnames, result, hresult, ⟨full, raw, boundary⟩, htypes,
    _, _, hand, _, crossings, hcrossings, ⟨⟩⟩ := h
  obtain ⟨identifiers, hidentifiers, htexts⟩ := bind_eq_ok.mp hnames
  have hnames := mapM_eq_ok_iff.mpr (forall₂_of_mapM_mapM hidentifiers htexts)
  have hread := typeArgumentsIn?_printed hcrossings (resultTypes_shows hresult htypes)
    (symbolOf f)
  refine ⟨_, names, hnames, hread, List.IsInfix.trans ?_ (List.suffix_append _ _).isInfix⟩
  rw [Rust.FunctionCode.lines, List.nil_append]
  refine List.IsInfix.trans (Lines.infix_nested ?_) (Lines.infix_block ..)
  simp only [linesAll_append]
  refine List.IsInfix.trans ?_ (List.prefix_append _ _).isInfix
  refine List.IsInfix.trans ?_ (List.prefix_append _ _).isInfix
  exact (List.suffix_append _ _).isInfix

end WasmerRuntime

/-! ## TypeScript -/

/-! ### Callbacks -/

theorem callbackParam_eq {a : Argument ν} {p : TypeScriptRuntime.CallbackParam × List Text}
    (h : TypeScriptRuntime.callbackParam s a = .ok p) : scriptName s a = .ok p.1.name
      ∧ Shows (TypeScript.boundaryStyle.values a.type) (s.passing a.type)
          (TypeScript.crossingText p.1.type) := by
  obtain ⟨name, hname, hrest⟩ := bind_eq_ok.mp h
  unfold scriptName
  split at hrest
  · rename_i hp
    obtain ⟨c, hc, ⟨⟩⟩ := bind_eq_ok.mp hrest
    exact ⟨by rw [if_pos hp, hname], script_crossing_shows hc⟩
  · rename_i hp
    obtain ⟨_, _, ⟨⟩⟩ := bind_eq_ok.mp hrest
    refine ⟨by rw [if_neg hp], ?_⟩
    unfold BindingSource.passing
    rw [if_neg hp]
    rfl

/-- The head of a callback. -/
def TypeScriptRuntime.ImportCallback.head (c : TypeScriptRuntime.ImportCallback) : Text :=
  c.symbol ++ ": " ++ Text.bracketed "(" ")"
    (c.params.map fun p => p.name ++ ": " ++ TypeScript.crossingText p.type) ++
    (match c.result with
      | some type => ": " ++ TypeScript.crossingText type
      | none => "") ++ " =>"

theorem TypeScriptRuntime.ImportCallback.lines_eq (c : TypeScriptRuntime.ImportCallback) :
    c.lines = Lines.block c.head c.body "," := rfl

/-- A callback is that of a function. -/
structure TypeScriptRuntime.ImportCallback.Matches (s : BindingSource ν) (f : Function ν)
    (c : TypeScriptRuntime.ImportCallback) : Prop where
  symbol : c.symbol = symbolOf f
  declares : s.Declares TypeScript.boundaryStyle (scriptName s) f CallbackParam.name
    (fun p => TypeScript.crossingText p.type) c.params (c.result.map TypeScript.crossingText)

theorem script_import_matches {c : TypeScriptRuntime.ImportCallback}
    (h : TypeScriptRuntime.importCallback s f = .ok c) : c.Matches s f := by
  obtain ⟨params, hparams, hrest⟩ := bind_eq_ok.mp h
  obtain ⟨_, _, hrest⟩ := bind_eq_ok.mp hrest
  obtain ⟨_, _, hrest⟩ := bind_eq_ok.mp hrest
  have hdeclared : List.Forall₂ (fun a p => scriptName s a = .ok p.name
      ∧ Shows (TypeScript.boundaryStyle.values a.type) (s.passing a.type)
          (TypeScript.crossingText p.type)) f.args (params.map (·.1)) :=
    List.forall₂_map_right_iff.mpr
      ((mapM_eq_ok_iff.mp hparams).imp fun _ _ => callbackParam_eq)
  cases hasync : f.isAsync with
  | true =>
    simp only [hasync, if_true] at hrest
    cases hrest
    exact ⟨rfl, hdeclared, showsResult_async hasync⟩
  | false =>
    simp only [hasync, Bool.false_eq_true, if_false, bind_eq_ok] at hrest
    obtain ⟨result, hresult, hrest⟩ := hrest
    cases result with
    | none =>
      cases hrest
      exact ⟨rfl, hdeclared, showsResult_none hasync hresult⟩
    | some type =>
      obtain ⟨crossing, hcrossing, ⟨⟩⟩ := bind_eq_ok.mp hrest
      exact ⟨rfl, hdeclared, showsResult_some hasync hresult (script_crossing_shows hcrossing)⟩

/-! ### Names of pointers -/

/-- **No name in camel case is that of a pointer.** -/
theorem camelCase_ne_pointer (t u : Text) : Casing.camelCase.format t ≠ u ++ "_ptr" := by
  intro h
  by_cases hwords : splitWords t = []
  · -- a name without words stays as it is, but there are letters in it
    have hsame : Casing.camelCase.format t = t := by rw [Casing.format, hwords]; rfl
    have hletter : .char 'p' ∈ t := by
      rw [← hsame, h]
      exact List.mem_append_right _ (by decide +kernel)
    exact splitWords_ne_nil hletter (by decide +kernel) hwords
  · have hunderscore : .char '_' ∈ Casing.camelCase.format t := by
      rw [h]
      exact List.mem_append_right _ (by decide +kernel)
    have hset : CharSet.Separates [⟨0x5f, 0x5f, 1⟩] := separates_singleton (by decide)
    exact absurd (without_camelCase hset hwords _ hunderscore) (by decide)

/-- Names in camel case are made of words, or have no letters. -/
theorem camelCase_without (t : Text) :
    .char '(' ∉ Casing.camelCase.format t ∨ .char 't' ∉ Casing.camelCase.format t := by
  by_cases hwords : splitWords t = []
  · right
    have hsame : Casing.camelCase.format t = t := by rw [Casing.format, hwords]; rfl
    rw [hsame]
    exact fun hletter => splitWords_ne_nil hletter (by decide +kernel) hwords
  · left
    have hset : CharSet.Separates [⟨0x28, 0x28, 1⟩] := separates_singleton (by decide)
    exact fun hbracket => absurd (without_camelCase hset hwords _ hbracket) (by decide)

/-! ### Functions that call an export -/

namespace TypeScriptRuntime

/-- The line that serializes a value and binds the pointer to it. -/
def conversionLine (pointer value : Text) : Text :=
  "const " ++ pointer ++ " = serializeObject(" ++ value ++ ");"

/-- What is printed between pointer and value ends alike in two places only if these are one. -/
theorem eq_nil_of_shifted {before before' rest : Text}
    (h : before ++ " = serializeObject(" = before' ++ " = serializeObject(" ++ rest)
    (hrest : .char '(' ∉ rest ∨ .char 't' ∉ rest) : rest = [] := by
  have hends : (" = serializeObject(" : Text)
      = (" = serializeObjec" : Text) ++ [Code.char 't'] ++ [Code.char '('] := by decide
  rcases List.eq_nil_or_concat' rest with hrest | ⟨rest, last, rfl⟩
  · exact hrest
  -- the last character is the bracket, and the one before it a letter
  rw [hends, ← List.append_assoc, ← List.append_assoc, ← List.append_assoc] at h
  obtain ⟨hinit, hlast⟩ := List.append_inj' h rfl
  cases hlast
  have hletter := hrest.resolve_left fun hbracket => hbracket (by simp)
  rcases List.eq_nil_or_concat' rest with rfl | ⟨rest, last, rfl⟩
  · rw [List.append_nil, ← List.append_assoc, ← List.append_assoc] at hinit
    exact absurd (List.append_inj' hinit rfl).2 (by decide)
  · rw [← List.append_assoc] at hinit
    cases (List.append_inj' hinit rfl).2
    exact absurd (by simp) hletter

/-- What is passed as it came has not been serialized. -/
theorem conversionLine_ne (t t' u : Text) :
    conversionLine (Casing.camelCase.format t) (Casing.camelCase.format t)
      ≠ conversionLine (u ++ "_ptr") (Casing.camelCase.format t') := by
  intro h
  have hne := camelCase_ne_pointer t u
  have hvalue := camelCase_without t
  have hvalue' := camelCase_without t'
  generalize Casing.camelCase.format t = value at h hne hvalue
  generalize Casing.camelCase.format t' = value' at h hvalue'
  generalize u ++ "_ptr" = pointer at h hne
  simp only [conversionLine, List.append_assoc, List.append_cancel_left_eq] at h
  simp only [← List.append_assoc, List.append_cancel_right_eq] at h
  rcases List.append_eq_append_iff.mp h with ⟨rest, hpointer, hrest⟩ | ⟨rest, hpointer, hrest⟩
  · rw [hrest] at hvalue
    have hnil := eq_nil_of_shifted hpointer
      (hvalue.imp (fun hb hmem => hb (List.mem_append_left _ hmem))
        fun hl hmem => hl (List.mem_append_left _ hmem))
    rw [hnil, List.append_nil, List.append_left_inj] at hpointer
    exact hne hpointer.symm
  · rw [hrest] at hvalue'
    have hnil := eq_nil_of_shifted hpointer
      (hvalue'.imp (fun hb hmem => hb (List.mem_append_left _ hmem))
        fun hl hmem => hl (List.mem_append_left _ hmem))
    rw [hnil, List.append_nil, List.append_left_inj] at hpointer
    exact hne hpointer

/-- How an argument crosses by the lines that serialize: as a pointer if one of them makes what the
call has in the place of the argument. -/
def wrappedPassing (s : BindingSource ν) (conversions : List Text) (a : Argument ν) :
    Except SchemaError Passing := do
  let name ← scriptName s a
  let value ← camel a.name
  return if conversions.contains (conversionLine name value) then .byPointer else .byValue

/-- What begins the code that reads a value from a buffer. -/
def readers : List Text := ["parseObject<", "promiseFromPtr<"]

/-- How the result of a call crosses by the line that the call stands on: it is not returned, it is
returned as it is, or it is read from the buffer that it points to. -/
def callResultIn? (call line : Text) : Option (Option Passing) :=
  if line = call ++ ";" then some none
  else do
    let value ← behind? "return " line
    let closing : Text := ">(" ++ call ++ ");"
    if value = call ++ ";" then some (some .byValue)
    else if ∃ reader ∈ readers, reader <+: value ∧ closing <:+ value then
      some (some .byPointer)
    else none

/-- How everything crosses by the lines of a function that calls an export. -/
def wrapperIn? (s : BindingSource ν) (f : Function ν) (conversions : List Text) (line : Text) :
    Option (List Passing × Option Passing) := do
  let names ← (f.args.mapM (scriptName s)).toOption
  let params ← (f.args.mapM (wrappedPassing s conversions)).toOption
  let result ← callResultIn? ("export_fn" ++ bracketed "(" ")" names) line
  return (params, result)

/-- How the result of an export crosses. -/
def ExportResult.passing : ExportResult → Option Passing
  | .none => .none
  | .value => some .byValue
  | .parsed _ | .promised _ => some .byPointer

/-- What begins otherwise than a call is no call. -/
theorem ne_call {opening : Text} (h : Diverge opening "export_fn") (value rest : Text) :
    opening ++ value ≠ "export_fn" ++ rest := by
  intro heq
  have hread := behind?_append opening value
  rw [heq, behind?_eq_none h] at hread
  cases hread

theorem callResultIn?_returned (rest : Text) :
    callResultIn? ("export_fn" ++ rest) ("return " ++ ("export_fn" ++ rest ++ ";"))
      = some (some .byValue) := by
  have hreturn :
      ("return " : Text) ++ ("export_fn" ++ rest ++ ";") ≠ "export_fn" ++ rest ++ ";" := by
    rw [List.append_assoc "export_fn" rest]
    exact ne_call (by decide) _ _
  rw [callResultIn?, if_neg hreturn, behind?_append]
  exact if_pos rfl

theorem callResultIn?_read {reader : Text} (hreader : reader ∈ readers) (type rest : Text) :
    callResultIn? ("export_fn" ++ rest)
      ("return " ++ (reader ++ type ++ (">(" ++ ("export_fn" ++ rest) ++ ");")))
      = some (some .byPointer) := by
  have hreaders : ∀ reader ∈ readers, Diverge reader "export_fn" := by decide
  have hreturn : ∀ value : Text, "return " ++ value ≠ "export_fn" ++ rest ++ ";" := fun value => by
    rw [List.append_assoc]
    exact ne_call (by decide) _ _
  have hvalue : ∀ value : Text, reader ++ type ++ value ≠ "export_fn" ++ rest ++ ";" :=
    fun value => by
      rw [List.append_assoc, List.append_assoc]
      exact ne_call (hreaders reader hreader) _ _
  rw [callResultIn?, if_neg (hreturn _), behind?_append]
  refine (if_neg (hvalue _)).trans (if_pos ⟨reader, hreader, ?_, List.suffix_append _ _⟩)
  rw [List.append_assoc]
  exact List.prefix_append _ _

/-- **How the result crosses is read off the line that is printed for the call.** -/
theorem callResultIn?_call (w : ExportWrapper) :
    callResultIn? ("export_fn" ++ bracketed "(" ")" w.arguments) w.call
      = some w.result.passing := by
  unfold ExportWrapper.call
  generalize bracketed "(" ")" w.arguments = rest
  cases w.result with
  | none => exact if_pos rfl
  | value =>
    have hread := callResultIn?_returned rest
    rwa [← List.append_assoc] at hread
  | parsed type =>
    have hread := callResultIn?_read List.mem_cons_self type rest
    simp only [← List.append_assoc] at hread
    simp only [← List.append_assoc]
    exact hread
  | promised type =>
    have hread := callResultIn?_read (List.mem_cons_of_mem _ List.mem_cons_self) type rest
    simp only [← List.append_assoc] at hread
    simp only [← List.append_assoc]
    exact hread

theorem wrappedPassing_eq {conversions : List Text}
    (h : (f.args.filter fun a => !s.types.isPrimitive a.type).mapM (fun a => do
      return conversionLine (pointerName a) (← camel a.name)) = Except.ok conversions)
    {a : Argument ν} (ha : a ∈ f.args) {value : Text} (hvalue : camel a.name = .ok value) :
    wrappedPassing s conversions a = .ok (s.passing a.type) := by
  unfold wrappedPassing scriptName BindingSource.passing
  by_cases hprim : s.types.isPrimitive a.type = true
  · rw [if_pos hprim, if_pos hprim, hvalue]
    obtain ⟨text, -, rfl⟩ := map_eq_ok.mp hvalue
    -- all lines that serialize bind a pointer, and no name in camel case is that of one
    have hnot : conversionLine (Casing.camelCase.format text) (Casing.camelCase.format text)
        ∉ conversions := by
      intro hmem
      obtain ⟨b, -, hb⟩ := exists_of_mem_results h hmem
      obtain ⟨value, hb, heq⟩ := bind_eq_ok.mp hb
      obtain ⟨text', -, rfl⟩ := map_eq_ok.mp hb
      exact conversionLine_ne _ _ _ (Except.ok.inj heq).symm
    simp only [bind_ok, List.contains_iff_mem, if_neg hnot]
    rfl
  · rw [if_neg hprim, if_neg hprim, hvalue]
    have hmem : a ∈ f.args.filter fun a => !s.types.isPrimitive a.type :=
      List.mem_filter.mpr ⟨ha, by simpa using hprim⟩
    have hline : conversionLine (pointerName a) value ∈ conversions := by
      obtain ⟨i, hi⟩ := List.mem_iff_getElem?.mp hmem
      obtain ⟨line, hget, hline⟩ := exists_getElem?_of_mapM h hi
      rw [hvalue] at hline
      cases hline
      exact List.mem_of_getElem? hget
    simp only [bind_ok, List.contains_iff_mem, if_pos hline]
    rfl

/-- Of what a function that calls an export is made: only its result depends on more than on the
arguments. -/
theorem exportWrapper_eq_ok {result : Option TypeIdent} {w : ExportWrapper}
    (h : exportWrapper s f result = .ok w) :
    ∃ params type, f.args.mapM (fullParam s) = .ok params
      ∧ f.args.mapM (scriptName s) = .ok w.arguments
      ∧ (f.args.filter fun a => !s.types.isPrimitive a.type).mapM (fun a => do
          return conversionLine (pointerName a) (← camel a.name)) = Except.ok w.conversions
      ∧ w.result = if f.isAsync then .promised type else
        match result with
        | none => .none
        | some ident => if s.types.isPrimitive ident then .value else .parsed type := by
  obtain ⟨params, hparams, h⟩ := bind_eq_ok.mp h
  cases result with
  | none =>
    simp only [bind_eq_ok] at h
    obtain ⟨type, _, arguments, harguments, conversions, hconversions, ⟨⟩⟩ := h
    exact ⟨params, type, hparams, harguments, hconversions, rfl⟩
  | some ident =>
    simp only [bind_eq_ok] at h
    obtain ⟨type, _, arguments, harguments, conversions, hconversions, ⟨⟩⟩ := h
    exact ⟨params, type, hparams, harguments, hconversions, rfl⟩

/-- **How everything crosses is read off the function that calls an export.** -/
theorem wrapperIn?_printed {result : Option TypeIdent} (hresult : s.result? f = .ok result)
    {w : ExportWrapper} (h : exportWrapper s f result = .ok w) :
    wrapperIn? s f w.conversions w.call = some (s.crossings f) := by
  obtain ⟨params, type, hparams, harguments, hconversions, hcall⟩ := exportWrapper_eq_ok h
  have hpassed : f.args.mapM (wrappedPassing s w.conversions)
      = .ok (f.args.map fun a => s.passing a.type) := by
    rw [mapM_eq_ok_iff, List.forall₂_map_right_iff, List.forall₂_same]
    intro a ha
    -- a parameter has been made of the argument, so it has a name in camel case
    obtain ⟨text, htext⟩ := exists_of_mem_mapM hparams ha
    obtain ⟨value, hvalue, _⟩ := bind_eq_ok.mp htext
    exact wrappedPassing_eq hconversions ha hvalue
  have hpassing : w.result.passing = s.passedResult f := by
    rw [hcall]
    cases hasync : f.isAsync with
    | true =>
      rw [if_pos rfl, passedResult_async hasync]
      rfl
    | false =>
      rw [if_neg Bool.false_ne_true, passedResult_sync hasync hresult]
      cases result with
      | none => rfl
      | some ident =>
        unfold BindingSource.passing
        cases hp : s.types.isPrimitive ident <;> simp [hp, ExportResult.passing]
  unfold wrapperIn?
  rw [harguments, hpassed]
  simp only [Except.toOption, Option.bind_eq_bind, Option.bind_some, callResultIn?_call, hpassing]
  rfl

/-- The head of the function around an export. -/
def ExportWrapper.head (w : ExportWrapper) : Text :=
  "return " ++ Text.bracketed "(" ")" w.params ++ " =>"

theorem ExportEntry.lines_eq {e : ExportEntry} {w : ExportWrapper} (hw : e.wrapper = some w) :
    e.lines = Lines.block (e.name ++ ": (() =>") ([
      "const export_fn = instance.exports." ++ e.symbol ++ " as any;",
      "if (!export_fn) return;",
      ""] ++
      Lines.block w.head (w.conversions ++ [w.call]) ";") ")()," := by
  unfold ExportEntry.lines
  rw [hw]
  rfl

/-- An export is that of a function. It is handed out as it is exactly if everything crosses by
itself and at once. -/
structure ExportEntry.Matches (s : BindingSource ν) (f : Function ν) (e : ExportEntry) : Prop where
  name : camel f.name = .ok e.name
  symbol : e.symbol = symbolOf f
  plain : e.wrapper = none ↔ s.PassedThrough f
  wrapped : ∀ w, e.wrapper = some w → wrapperIn? s f w.conversions w.call = some (s.crossings f)

theorem ExportEntry.matches_of_wrapper {name : Text} (hname : camel f.name = .ok name)
    {result : Option TypeIdent} (hresult : s.result? f = .ok result) {w : ExportWrapper}
    (hw : exportWrapper s f result = .ok w) (hnot : ¬s.PassedThrough f) :
    ExportEntry.Matches s f ⟨name, symbolOf f, some w⟩ := by
  refine ⟨hname, rfl, ⟨nofun, fun hp => absurd hp hnot⟩, ?_⟩
  rintro w ⟨⟩
  exact wrapperIn?_printed hresult hw

theorem script_export_matches {e : ExportEntry} (h : exportEntry s f = .ok e) : e.Matches s f := by
  obtain ⟨name, hname, hrest⟩ := bind_eq_ok.mp h
  have hplain : (f.args.all fun a => s.types.isPrimitive a.type) = true
      ↔ ∀ a ∈ f.args, s.passing a.type = .byValue := by
    rw [List.all_eq_true]
    exact forall₂_congr fun a _ => passing_eq_byValue.symm
  split at hrest
  · -- the arguments cross by themselves and at once, so the result decides
    rename_i hcond
    rw [Bool.and_eq_true, hplain, Bool.not_eq_true'] at hcond
    obtain ⟨result, hresult, hrest⟩ := bind_eq_ok.mp hrest
    have hpassed := passedResult_sync hcond.2 hresult
    cases result with
    | none =>
      cases hrest
      exact ⟨hname, rfl, ⟨fun _ => ⟨hcond.2, hcond.1, .inl hpassed⟩, fun _ => rfl⟩, nofun⟩
    | some type =>
      dsimp only at hrest
      split at hrest
      · rename_i hprim
        cases hrest
        have hvalue : s.passedResult f = some .byValue := by
          rw [hpassed, Option.map_some, passing_eq_byValue.mpr hprim]
        exact ⟨hname, rfl, ⟨fun _ => ⟨hcond.2, hcond.1, .inr hvalue⟩, fun _ => rfl⟩, nofun⟩
      · rename_i hprim
        obtain ⟨w, hw, ⟨⟩⟩ := bind_eq_ok.mp hrest
        refine ExportEntry.matches_of_wrapper hname hresult hw ?_
        rintro ⟨_, _, hnone | hvalue⟩
        · rw [hpassed] at hnone
          cases hnone
        · rw [hpassed, Option.map_some, Option.some.injEq, passing_eq_byValue] at hvalue
          exact hprim hvalue
  · rename_i hcond
    obtain ⟨result, hresult, hrest⟩ := bind_eq_ok.mp hrest
    obtain ⟨w, hw, ⟨⟩⟩ := bind_eq_ok.mp hrest
    refine ExportEntry.matches_of_wrapper hname hresult hw ?_
    rintro ⟨hsync, hall, _⟩
    exact hcond (by rw [Bool.and_eq_true, hplain, Bool.not_eq_true']; exact ⟨hall, hsync⟩)

end TypeScriptRuntime

end WasmBridge
