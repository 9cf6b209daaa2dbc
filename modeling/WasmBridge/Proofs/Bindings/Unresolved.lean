import WasmBridge.Proofs.Bindings.Accepted
import WasmBridge.Proofs.Bindings.Refusals
import WasmBridge.Proofs.Bindings.Signatures

/-!
# Signatures that do not resolve

A target refuses an interface if a type in a signature does not resolve, as far as it
looks. How far that is depends on where the type stands. Mostly the type is written
out, and then all that it is applied to must resolve. But the function that a guest
exports has no result of a written type, nor has the callback of a host in Rust: only
the head of the type is looked up there. And an argument of such a callback that is
named like a primitive is not looked up at all.

So two things are proved for each target. What it looks at resolves or there are no
bindings. And what it does not look at does not matter: put anything else there, and
the bindings are the same.
-/

namespace WasmBridge

open Outcome

/-! ## What targets look at -/

/-- How far a type is looked at. -/
inductive Scrutiny where
  | skipped
  /-- Its name and the number of its arguments. -/
  | head
  | whole
  deriving DecidableEq

/-- The two directions in which functions are called. -/
inductive Side where
  | imports
  | exports

namespace Scrutiny

/-- What is looked at resolves. -/
def Passes (types : TypeMap Text) : Scrutiny → TypeIdent → Prop
  | skipped, _ => True
  | head, type => ∃ found, types.resolve type = .ok found
  | whole, type => Resolves types [] type

/-- Two types are the same as far as they are looked at. Types that are not are told by their
name. -/
def Same : Scrutiny → TypeIdent → TypeIdent → Prop
  | skipped, a, b => b.name = a.name
  | head, a, b => b.name = a.name ∧ b.args.length = a.args.length
  | whole, a, b => b = a

end Scrutiny

namespace Target

/-- How far a target looks at the type of an argument. -/
def scrutinyOfArgument (types : TypeMap Text) : Target → Side → TypeIdent → Scrutiny
  | wasmerRuntime, .imports, type => if types.isPrimitive type then .skipped else .whole
  | _, _, _ => .whole

/-- How far a target looks at the type of a result. -/
def scrutinyOfResult : Target → Side → Scrutiny
  | rustPlugin, .exports | wasmerRuntime, .imports => .head
  | _, _ => .whole

end Target

/-- All that a target looks at in a signature resolves. -/
structure Function.Passes (types : TypeMap Text) (target : Target) (side : Side)
    (f : Function Text) : Prop where
  args : ∀ a ∈ f.args, (target.scrutinyOfArgument types side a.type).Passes types a.type
  returns : ∀ type ∈ f.returns, (target.scrutinyOfResult side).Passes types type

/-- Two signatures are the same as far as a target looks. -/
structure Function.Alike (types : TypeMap Text) (target : Target) (side : Side)
    (f g : Function Text) : Prop where
  rest : g = { f with args := g.args, returns := g.returns }
  args : List.Forall₂ (fun a b => b.name = a.name
    ∧ (target.scrutinyOfArgument types side a.type).Same a.type b.type) f.args g.args
  returns : Option.Rel (target.scrutinyOfResult side).Same f.returns g.returns

/-- The functions of a direction. -/
def Interface.functionsOf (i : Interface Text) : Side → List (Function Text)
  | .imports => i.imports.toList
  | .exports => i.exports.toList

/-- The types by name that signatures of an interface refer to. -/
def Interface.types (i : Interface Text) : TypeMap Text := TypeMap.ofTypes (i.sent ++ i.received)

/-! ## What is written resolves -/

variable {types : TypeMap Text} {scope : List Text} {s : BindingSource Text} {f g : Function Text}

theorem resolves_of_scriptShown {ident : TypeIdent} {shown : Text}
    (h : TypeScript.shownType types scope ident = .ok shown) : Resolves types scope ident := by
  obtain ⟨_, htype, -⟩ := map_eq_ok.mp h
  exact (TypeScript.typeWriter types scope).resolves htype

/-- The unit has no arguments, so it resolves if its head does. -/
theorem resolves_of_isUnit {type : TypeIdent} (h : s.isUnit type = .ok true) :
    Resolves s.types [] type := by
  obtain ⟨found, hfound, hunit⟩ := bind_eq_ok.mp h
  refine .intro hfound fun a ha => ?_
  rcases find?_of_resolve hfound with ⟨-, harity, -⟩ | rfl
  · cases found with
    | unit name =>
      rw [List.length_eq_zero_iff.mp harity] at ha
      cases ha
    | _ => cases hunit
  · cases hunit

/-- What finding out the result of a function has looked at. -/
theorem result?_cases {result : Option TypeIdent} (h : s.result? f = .ok result) :
    (f.returns = none ∧ result = none)
      ∨ ∃ type, f.returns = some type ∧ (∃ found, s.types.resolve type = .ok found)
        ∧ ((s.isUnit type = .ok true ∧ result = none)
          ∨ (s.isUnit type = .ok false ∧ result = some type)) := by
  unfold BindingSource.result? at h
  cases hreturns : f.returns with
  | none =>
    rw [hreturns] at h
    cases h
    exact .inl ⟨rfl, rfl⟩
  | some type =>
    rw [hreturns] at h
    obtain ⟨unit, hunit, heq⟩ := bind_eq_ok.mp h
    cases heq
    obtain ⟨found, hfound, -⟩ := bind_eq_ok.mp hunit
    refine .inr ⟨type, rfl, ⟨found, hfound⟩, ?_⟩
    cases unit with
    | true => exact .inl ⟨hunit, rfl⟩
    | false => exact .inr ⟨hunit, rfl⟩

theorem head_of_result {result : Option TypeIdent} (h : s.result? f = .ok result) :
    ∀ type ∈ f.returns, Scrutiny.head.Passes s.types type := by
  intro type htype
  rcases result?_cases h with ⟨hnone, -⟩ | ⟨found, hsome, hfound, -⟩
  · rw [hnone] at htype; cases htype
  · rw [hsome] at htype; cases htype; exact hfound

theorem whole_of_result {result : Option TypeIdent} (h : s.result? f = .ok result)
    (hwritten : ∀ type, result = some type → Resolves s.types [] type) :
    ∀ type ∈ f.returns, Scrutiny.whole.Passes s.types type := by
  intro type htype
  rcases result?_cases h with ⟨hnone, -⟩ | ⟨found, hsome, -, ⟨hunit, -⟩ | ⟨-, hresult⟩⟩
  · rw [hnone] at htype; cases htype
  · rw [hsome] at htype; cases htype; exact resolves_of_isUnit hunit
  · rw [hsome] at htype; cases htype; exact hwritten _ hresult

/-! ## Each target looks that far -/

/-- Arguments whose types are each written out. -/
theorem args_whole {make : Argument Text → Except SchemaError Text} {params : List Text}
    (hmake : ∀ a p, make a = .ok p → Resolves s.types [] a.type)
    (h : f.args.mapM make = .ok params) :
    ∀ a ∈ f.args, Scrutiny.whole.Passes s.types a.type := by
  intro a ha
  obtain ⟨p, hp⟩ := exists_of_mem_mapM h ha
  exact hmake a p hp

theorem resolves_of_rustParam {a : Argument Text} {param : Text}
    (h : Rust.fullParam s a = .ok param) : Resolves s.types [] a.type := by
  obtain ⟨_, -, h⟩ := bind_eq_ok.mp h
  obtain ⟨_, hshown, -⟩ := bind_eq_ok.mp h
  exact resolves_of_shownType hshown

theorem resolves_of_scriptParam {a : Argument Text} {param : Text}
    (h : TypeScriptRuntime.fullParam s a = .ok param) : Resolves s.types [] a.type := by
  obtain ⟨_, -, h⟩ := bind_eq_ok.mp h
  obtain ⟨_, hshown, -⟩ := bind_eq_ok.mp h
  exact resolves_of_scriptShown hshown

theorem guestImport_passes {code : Rust.FunctionCode}
    (h : RustPlugin.importWrapper s f = .ok code) : f.Passes s.types .rustPlugin .imports := by
  obtain ⟨head, hhead, -⟩ := bind_eq_ok.mp h
  obtain ⟨params, hparams, hhead⟩ := bind_eq_ok.mp hhead
  obtain ⟨result, hresult, hhead⟩ := bind_eq_ok.mp hhead
  refine ⟨args_whole (fun _ _ => resolves_of_rustParam) hparams, whole_of_result hresult ?_⟩
  rintro type rfl
  obtain ⟨_, hshown, -⟩ := bind_eq_ok.mp hhead
  obtain ⟨_, htype, -⟩ := map_eq_ok.mp hshown
  exact resolves_of_shownType htype

theorem guestExport_passes {w : RustPlugin.ExportWrapper}
    (h : RustPlugin.exportWrapper s f = .ok w) : f.Passes s.types .rustPlugin .exports := by
  obtain ⟨signature, -, h⟩ := bind_eq_ok.mp h
  obtain ⟨conversions, hconversions, h⟩ := bind_eq_ok.mp h
  obtain ⟨names, -, h⟩ := bind_eq_ok.mp h
  obtain ⟨name, -, h⟩ := bind_eq_ok.mp h
  obtain ⟨result, hresult, -⟩ := bind_eq_ok.mp h
  -- the signature shows heads only, but each argument is converted at its whole type
  refine ⟨fun a ha => ?_, head_of_result hresult⟩
  obtain ⟨_, hargument⟩ := exists_of_mem_mapM hconversions ha
  obtain ⟨_, hshown, -⟩ := bind_eq_ok.mp hargument
  exact resolves_of_shownType hshown

theorem hostExport_passes {m : WasmerRuntime.ExportMethods}
    (h : WasmerRuntime.exportMethods s f = .ok m) :
    f.Passes s.types .wasmerRuntime .exports := by
  obtain ⟨name, -, h⟩ := bind_eq_ok.mp h
  obtain ⟨params, hparams, h⟩ := bind_eq_ok.mp h
  obtain ⟨rawParams, -, h⟩ := bind_eq_ok.mp h
  obtain ⟨names, -, h⟩ := bind_eq_ok.mp h
  obtain ⟨result, hresult, h⟩ := bind_eq_ok.mp h
  obtain ⟨texts, htexts, -⟩ := bind_eq_ok.mp h
  refine ⟨args_whole (fun _ _ => resolves_of_rustParam) hparams, whole_of_result hresult ?_⟩
  rintro type rfl
  obtain ⟨_, hshown, -⟩ := bind_eq_ok.mp htexts
  exact resolves_of_shownType hshown

/-- How the result of a function crosses the boundary if the function returns at once. -/
def resultCrossing (types : TypeMap Text) :
    Option TypeIdent → Except SchemaError (Option (Crossing Text))
  | none => .ok none
  | some type => some <$> Rust.crossingOf types type

theorem importCallback_eq (s : BindingSource Text) (f : Function Text) :
    WasmerRuntime.importCallback s f = do
      let params ← f.args.mapM (Rust.boundaryParam s)
      let result ← s.result? f
      let boundary ←
        (if f.isAsync then .ok (some .pointer) else resultCrossing s.types result :
          Except SchemaError (Option (Crossing Text)))
      let arguments ← f.args.mapM (WasmerRuntime.importArgument s)
      let names ← Rust.callArguments f
      let name := Label.display (← Rust.escape f.name)
      let call := s.settings.runtimePath ++ "::" ++ name ++ Text.bracketed "(" ")" names ++ ";"
      return {
        name := "_" ++ Label.display f.name
        signature := {
          symbol := Symbols.function (Label.display f.name), params, result := boundary }
        body := arguments ++ [.call (some "result") call] ++
          WasmerRuntime.callbackResult s f result } := by
  unfold WasmerRuntime.importCallback
  -- the two differ only in where they ask for the result of an asynchronous function
  refine congrArg _ (funext fun params => congrArg _ (funext fun result => ?_))
  cases f.isAsync <;> cases result <;> rfl

/-- An argument of a callback is written out unless its name is that of a primitive. -/
theorem hostArgument_passes {a : Argument Text} {statement : Rust.Statement}
    (h : WasmerRuntime.importArgument s a = .ok statement) :
    (Target.wasmerRuntime.scrutinyOfArgument s.types .imports a.type).Passes s.types a.type := by
  obtain ⟨name, -, h⟩ := bind_eq_ok.mp h
  rw [Target.scrutinyOfArgument]
  by_cases hprimitive : s.types.isPrimitive a.type = true
  · rw [if_pos hprimitive]
    trivial
  · rw [if_neg hprimitive] at h ⊢
    obtain ⟨_, hshown, -⟩ := bind_eq_ok.mp h
    exact resolves_of_shownType hshown

theorem hostImport_passes {c : WasmerRuntime.ImportCallback}
    (h : WasmerRuntime.importCallback s f = .ok c) :
    f.Passes s.types .wasmerRuntime .imports := by
  rw [importCallback_eq] at h
  obtain ⟨params, -, h⟩ := bind_eq_ok.mp h
  obtain ⟨result, hresult, h⟩ := bind_eq_ok.mp h
  obtain ⟨boundary, -, h⟩ := bind_eq_ok.mp h
  obtain ⟨arguments, harguments, -⟩ := bind_eq_ok.mp h
  refine ⟨fun a ha => ?_, head_of_result hresult⟩
  obtain ⟨_, hargument⟩ := exists_of_mem_mapM harguments ha
  exact hostArgument_passes hargument

/-- In TypeScript both directions are declared alike. -/
theorem declaration_passes {d : TypeScriptRuntime.Declaration} (side : Side)
    (h : TypeScriptRuntime.declaration s f = .ok d) :
    f.Passes s.types .typeScriptRuntime side := by
  obtain ⟨params, hparams, h⟩ := bind_eq_ok.mp h
  refine ⟨args_whole (fun _ _ => resolves_of_scriptParam) hparams, fun type htype => ?_⟩
  have hreturns : f.returns = some type := htype
  rw [hreturns] at h
  obtain ⟨_, hshown, -⟩ := bind_eq_ok.mp h
  exact resolves_of_scriptShown hshown

/-- **All that a target looks at resolves, or there are no bindings.** -/
theorem passes_of_files {target : Target} {files : List (Text × Text)}
    (h : s.files target = .ok files) :
    (∀ f ∈ s.imports.toList, f.Passes s.types target .imports)
      ∧ ∀ f ∈ s.exports.toList, f.Passes s.types target .exports := by
  cases target with
  | rustPlugin =>
    obtain ⟨b, hb, -⟩ := map_eq_ok.mp h
    obtain ⟨_, -, hb⟩ := bind_eq_ok.mp hb
    obtain ⟨functions, hfunctions, -⟩ := bind_eq_ok.mp hb
    obtain ⟨_, -, hfunctions⟩ := bind_eq_ok.mp hfunctions
    obtain ⟨_, himports, hfunctions⟩ := bind_eq_ok.mp hfunctions
    obtain ⟨_, hexports, -⟩ := bind_eq_ok.mp hfunctions
    exact ⟨fun f hf => guestImport_passes (exists_of_mem_mapM himports hf).choose_spec,
      fun f hf => guestExport_passes (exists_of_mem_mapM hexports hf).choose_spec⟩
  | wasmerRuntime =>
    obtain ⟨b, hb, -⟩ := map_eq_ok.mp h
    obtain ⟨_, -, hb⟩ := bind_eq_ok.mp hb
    obtain ⟨functions, hfunctions, -⟩ := bind_eq_ok.mp hb
    obtain ⟨_, hexports, hfunctions⟩ := bind_eq_ok.mp hfunctions
    obtain ⟨_, himports, -⟩ := bind_eq_ok.mp hfunctions
    exact ⟨fun f hf => hostImport_passes (exists_of_mem_mapM himports hf).choose_spec,
      fun f hf => hostExport_passes (exists_of_mem_mapM hexports hf).choose_spec⟩
  | typeScriptRuntime =>
    obtain ⟨b, hb, -⟩ := map_eq_ok.mp h
    obtain ⟨_, -, hb⟩ := bind_eq_ok.mp hb
    obtain ⟨functions, hfunctions, -⟩ := bind_eq_ok.mp hb
    obtain ⟨_, himports, hfunctions⟩ := bind_eq_ok.mp hfunctions
    obtain ⟨_, hexports, -⟩ := bind_eq_ok.mp hfunctions
    exact ⟨fun f hf => declaration_passes _ (exists_of_mem_mapM himports hf).choose_spec,
      fun f hf => declaration_passes _ (exists_of_mem_mapM hexports hf).choose_spec⟩

/-! ## Nothing depends on the rest -/

section Alike

variable {a b : TypeIdent} {target : Target} {side : Side}

theorem isPrimitive_of_name (h : b.name = a.name) : types.isPrimitive b = types.isPrimitive a := by
  unfold TypeMap.isPrimitive
  rw [h]

theorem resolve_alike {found : TypeDef Text} (h : Scrutiny.head.Same a b)
    (hfound : types.resolve a = .ok found) : ∃ found, types.resolve b = .ok found := by
  obtain ⟨name, args⟩ := b
  obtain ⟨rfl, hlength⟩ := h
  exact resolve_of_length hfound hlength

theorem crossingOf_alike {c : Crossing Text} (h : Scrutiny.head.Same a b)
    (hc : Rust.crossingOf types a = .ok c) : Rust.crossingOf types b = .ok c := by
  unfold Rust.crossingOf at hc ⊢
  rw [isPrimitive_of_name h.1, h.1]
  by_cases hprimitive : types.isPrimitive a = true
  · rw [if_pos hprimitive] at hc ⊢
    exact hc
  · rw [if_neg hprimitive] at hc ⊢
    obtain ⟨_, hfound, hc⟩ := bind_eq_ok.mp hc
    obtain ⟨_, hfound'⟩ := resolve_alike h hfound
    exact bind_eq_ok.mpr ⟨_, hfound', hc⟩

theorem isUnit_alike {unit : Bool} (h : Scrutiny.head.Same a b) (hunit : s.isUnit a = .ok unit) :
    s.isUnit b = .ok unit := by
  obtain ⟨_, hfound, -⟩ := bind_eq_ok.mp hunit
  obtain ⟨found, hfound'⟩ := resolve_alike h hfound
  have hb : s.isUnit b = .ok found.isUnit := bind_eq_ok.mpr ⟨found, hfound', rfl⟩
  -- what is found may differ, but that it is the unit is told by the name alone
  have hnamed : s.namesUnit b = s.namesUnit a := by
    unfold BindingSource.namesUnit
    rw [h.1]
  rw [hb, isUnit_eq hb, hnamed, isUnit_eq hunit]

theorem result?_alike {result : Option TypeIdent}
    (h : Option.Rel Scrutiny.head.Same f.returns g.returns) (hresult : s.result? f = .ok result) :
    ∃ result', s.result? g = .ok result' ∧ Option.Rel Scrutiny.head.Same result result' := by
  unfold BindingSource.result? at hresult ⊢
  -- the relation can be taken apart only where it is between variables
  revert hresult
  generalize f.returns = returns, g.returns = returns' at h
  cases h with
  | none =>
    rintro ⟨⟩
    exact ⟨none, rfl, .none⟩
  | some hsame =>
    intro hresult
    obtain ⟨unit, hunit, heq⟩ := bind_eq_ok.mp hresult
    cases heq
    refine ⟨_, bind_eq_ok.mpr ⟨unit, isUnit_alike hsame hunit, rfl⟩, ?_⟩
    cases unit with
    | true => exact .none
    | false => exact .some hsame

theorem resultCrossing_alike {result result' : Option TypeIdent}
    {crossing : Option (Crossing Text)} (h : Option.Rel Scrutiny.head.Same result result')
    (hcrossing : resultCrossing types result = .ok crossing) :
    resultCrossing types result' = .ok crossing := by
  cases h with
  | none => exact hcrossing
  | some hsame =>
    obtain ⟨c, hc, heq⟩ := map_eq_ok.mp hcrossing
    exact map_eq_ok.mpr ⟨c, crossingOf_alike hsame hc, heq⟩

theorem boundaryResult_alike {crossing : Option (Crossing Text)} (hasync : g.isAsync = f.isAsync)
    (h : Option.Rel Scrutiny.head.Same f.returns g.returns)
    (hcrossing : Rust.boundaryResult s f = .ok crossing) :
    Rust.boundaryResult s g = .ok crossing := by
  unfold Rust.boundaryResult at hcrossing ⊢
  rw [hasync]
  by_cases hf : f.isAsync = true
  · rw [if_pos hf] at hcrossing ⊢
    exact hcrossing
  · rw [if_neg hf] at hcrossing ⊢
    obtain ⟨result, hresult, hcrossing⟩ := bind_eq_ok.mp hcrossing
    obtain ⟨result', hresult', hsame⟩ := result?_alike h hresult
    refine bind_eq_ok.mpr ⟨result', hresult', resultCrossing_alike hsame ?_⟩
    cases result <;> exact hcrossing

/-- What a target makes of parts one by one it makes of parts that look the same to it. -/
theorem mapM_alike {α β : Type} {make : α → Except SchemaError β} {R : α → α → Prop}
    {xs xs' : List α} {ys : List β} (hmake : ∀ a b y, R a b → make a = .ok y → make b = .ok y)
    (h : List.Forall₂ R xs xs') (hys : xs.mapM make = .ok ys) : xs'.mapM make = .ok ys := by
  rw [mapM_eq_ok_iff] at hys ⊢
  induction h generalizing ys with
  | nil => exact hys
  | cons hsame _ ih =>
    cases hys with
    | cons hy hrest => exact .cons (hmake _ _ _ hsame hy) (ih hrest)

/-- Arguments that are looked at throughout are alike if they are the same. -/
theorem Function.Alike.args_eq (h : f.Alike types target side g)
    (hargs : ∀ type, target.scrutinyOfArgument types side type = .whole) : g.args = f.args := by
  have hall := h.args
  simp only [hargs] at hall
  refine (List.forall₂_eq_eq_eq ▸ hall.imp ?_ : f.args = g.args).symm
  rintro ⟨name, type⟩ ⟨name', type'⟩ ⟨hname, htype⟩
  cases hname
  cases htype
  rfl

/-- Signatures that are looked at throughout are alike if they are the same. -/
theorem Function.Alike.eq (h : f.Alike types target side g)
    (hargs : ∀ type, target.scrutinyOfArgument types side type = .whole)
    (hresult : target.scrutinyOfResult side = .whole) : g = f := by
  have hreturns : g.returns = f.returns := by
    have hrel := h.returns
    rw [hresult] at hrel
    generalize f.returns = returns, g.returns = returns' at hrel
    cases hrel with
    | none => rfl
    | some heq => exact congrArg some heq
  rw [h.rest, h.args_eq hargs, hreturns]

theorem Function.Alike.argNames_eq (h : f.Alike types target side g) :
    g.args.map (·.name) = f.args.map (·.name) := by
  have hall := h.args.imp fun _ _ hsame => hsame.1
  rw [← List.forall₂_eq_eq_eq, List.forall₂_map_left_iff, List.forall₂_map_right_iff]
  exact hall.flip

theorem callArguments_alike (h : f.Alike types target side g) :
    Rust.callArguments g = Rust.callArguments f := by
  -- only the names of arguments are escaped
  have hidentifiers : ∀ args : List (Argument Text),
      (args.mapM fun a => Rust.escape a.name) = (args.map (·.name)).mapM Rust.escape := by
    intro args
    rw [List.mapM_map]
    rfl
  unfold Rust.callArguments Rust.argumentNames
  rw [hidentifiers, hidentifiers, h.argNames_eq]

theorem boundarySignature_alike {signature : Rust.BoundarySignature}
    (hname : g.name = f.name) (hasync : g.isAsync = f.isAsync)
    (hargs : ∀ params, f.args.mapM (Rust.boundaryParam s) = .ok params →
      g.args.mapM (Rust.boundaryParam s) = .ok params)
    (hreturns : Option.Rel Scrutiny.head.Same f.returns g.returns)
    (h : Rust.boundarySignature s f = .ok signature) :
    Rust.boundarySignature s g = .ok signature := by
  obtain ⟨params, hparams, h⟩ := bind_eq_ok.mp h
  obtain ⟨crossing, hcrossing, h⟩ := bind_eq_ok.mp h
  have hcrossing' := boundaryResult_alike hasync hreturns hcrossing
  rw [← hname] at h
  exact bind_eq_ok.mpr ⟨params, hargs params hparams, bind_eq_ok.mpr ⟨crossing, hcrossing', h⟩⟩

/-- What is done around a call is decided by the head of the type of its result. -/
theorem exportCall_alike {result result' : Option TypeIdent} (call : Text)
    (hasync : g.isAsync = f.isAsync) (h : Option.Rel Scrutiny.head.Same result result') :
    RustPlugin.exportCall s g result' call = RustPlugin.exportCall s f result call := by
  unfold RustPlugin.exportCall
  rw [hasync]
  cases h with
  | none => rfl
  | some hsame => simp only [isPrimitive_of_name hsame.1]

theorem callbackResult_alike {result result' : Option TypeIdent} (hname : g.name = f.name)
    (hasync : g.isAsync = f.isAsync) (h : Option.Rel Scrutiny.head.Same result result') :
    WasmerRuntime.callbackResult s g result' = WasmerRuntime.callbackResult s f result := by
  unfold WasmerRuntime.callbackResult
  rw [hasync, hname]
  cases h with
  | none => rfl
  | some hsame => simp only [isPrimitive_of_name hsame.1]

theorem guestExport_alike {w : RustPlugin.ExportWrapper}
    (h : f.Alike s.types .rustPlugin .exports g) (hw : RustPlugin.exportWrapper s f = .ok w) :
    RustPlugin.exportWrapper s g = .ok w := by
  have hargs : g.args = f.args := h.args_eq fun _ => rfl
  have hname : g.name = f.name := by rw [h.rest]
  have hasync : g.isAsync = f.isAsync := by rw [h.rest]
  obtain ⟨signature, hsignature, hw⟩ := bind_eq_ok.mp hw
  obtain ⟨conversions, hconversions, hw⟩ := bind_eq_ok.mp hw
  obtain ⟨names, hnames, hw⟩ := bind_eq_ok.mp hw
  obtain ⟨name, hescaped, hw⟩ := bind_eq_ok.mp hw
  obtain ⟨result, hresult, hw⟩ := bind_eq_ok.mp hw
  obtain ⟨result', hresult', hsame⟩ := result?_alike h.returns hresult
  have hsignature' : Rust.boundarySignature s g = .ok signature :=
    boundarySignature_alike hname hasync (fun _ hparams => by rwa [hargs]) h.returns hsignature
  unfold RustPlugin.exportWrapper
  rw [hsignature', hargs, callArguments_alike h, hname, hconversions, hnames, hescaped, hresult']
  simp only [bind_ok]
  rw [exportCall_alike _ hasync hsame]
  exact hw

/-- Two arguments look the same to a callback if they are the same, or are named alike and have
types named like one primitive. -/
theorem hostArgument_cases {a b : Argument Text} (hname : b.name = a.name)
    (h : (Target.wasmerRuntime.scrutinyOfArgument types .imports a.type).Same a.type b.type) :
    b = a ∨ types.isPrimitive a.type = true ∧ b.type.name = a.type.name := by
  rw [Target.scrutinyOfArgument] at h
  by_cases hprimitive : types.isPrimitive a.type = true
  · rw [if_pos hprimitive] at h
    exact .inr ⟨hprimitive, h⟩
  · rw [if_neg hprimitive] at h
    obtain ⟨name, type⟩ := a
    obtain ⟨name', type'⟩ := b
    cases hname
    cases h
    exact .inl rfl

theorem boundaryParam_primitive {a b : Argument Text} (hname : b.name = a.name)
    (hprimitive : s.types.isPrimitive a.type = true) (htype : b.type.name = a.type.name) :
    Rust.boundaryParam s b = Rust.boundaryParam s a := by
  unfold Rust.boundaryParam Rust.crossingOf
  rw [isPrimitive_of_name htype, hname, htype, if_pos hprimitive, if_pos hprimitive]

theorem importArgument_primitive {a b : Argument Text} (hname : b.name = a.name)
    (hprimitive : s.types.isPrimitive a.type = true) (htype : b.type.name = a.type.name) :
    WasmerRuntime.importArgument s b = WasmerRuntime.importArgument s a := by
  unfold WasmerRuntime.importArgument
  simp only [isPrimitive_of_name htype, hname, hprimitive, if_true]

theorem hostImport_alike {c : WasmerRuntime.ImportCallback}
    (h : f.Alike s.types .wasmerRuntime .imports g)
    (hc : WasmerRuntime.importCallback s f = .ok c) :
    WasmerRuntime.importCallback s g = .ok c := by
  have hname : g.name = f.name := by rw [h.rest]
  have hasync : g.isAsync = f.isAsync := by rw [h.rest]
  rw [importCallback_eq] at hc ⊢
  obtain ⟨params, hparams, hc⟩ := bind_eq_ok.mp hc
  obtain ⟨result, hresult, hc⟩ := bind_eq_ok.mp hc
  obtain ⟨boundary, hboundary, hc⟩ := bind_eq_ok.mp hc
  obtain ⟨arguments, harguments, hc⟩ := bind_eq_ok.mp hc
  have hparams' : g.args.mapM (Rust.boundaryParam s) = .ok params := by
    refine mapM_alike (fun a b p hsame hp => ?_) h.args hparams
    rcases hostArgument_cases hsame.1 hsame.2 with rfl | ⟨hprimitive, htype⟩
    · exact hp
    · rw [boundaryParam_primitive hsame.1 hprimitive htype, hp]
  have harguments' : g.args.mapM (WasmerRuntime.importArgument s) = .ok arguments := by
    refine mapM_alike (fun a b p hsame hp => ?_) h.args harguments
    rcases hostArgument_cases hsame.1 hsame.2 with rfl | ⟨hprimitive, htype⟩
    · exact hp
    · rw [importArgument_primitive hsame.1 hprimitive htype, hp]
  obtain ⟨result', hresult', hsame⟩ := result?_alike h.returns hresult
  have hboundary' : (if g.isAsync then .ok (some .pointer) else resultCrossing s.types result' :
      Except SchemaError (Option (Crossing Text))) = .ok boundary := by
    rw [hasync]
    by_cases hf : f.isAsync = true
    · rw [if_pos hf] at hboundary ⊢
      exact hboundary
    · rw [if_neg hf] at hboundary ⊢
      exact resultCrossing_alike hsame hboundary
  rw [hparams', bind_ok, hresult', bind_ok, hboundary', bind_ok, harguments', bind_ok,
    callArguments_alike h, hname, callbackResult_alike hname hasync hsame]
  exact hc

theorem checkEnvironment_alike (h : f.Alike types target side g) :
    WasmerRuntime.checkEnvironment g = WasmerRuntime.checkEnvironment f := by
  have hany : ∀ args : List (Argument Text), (args.any fun a => Label.isText a.name "env")
      = (args.map (·.name)).any (Label.isText · "env") := by
    intro args
    rw [List.any_map]
    rfl
  have hname : g.name = f.name := by rw [h.rest]
  unfold WasmerRuntime.checkEnvironment
  rw [hany, hany, h.argNames_eq, hname]

/-- The same source with other functions. -/
def BindingSource.withFunctions (s : BindingSource Text) (imports exports : FunctionList Text) :
    BindingSource Text := { s with imports, exports }

variable {fs gs : List (Function Text)} {imports exports : FunctionList Text}

theorem functions_eq (h : List.Forall₂ (Function.Alike types target side) fs gs)
    (hargs : ∀ type, target.scrutinyOfArgument types side type = .whole)
    (hresult : target.scrutinyOfResult side = .whole) : gs = fs := by
  have heq : List.Forall₂ (· = ·) fs gs := h.imp fun _ _ hsame => (hsame.eq hargs hresult).symm
  exact (List.forall₂_eq_eq_eq ▸ heq : fs = gs).symm

theorem map_alike {α : Type} {k : Function Text → α}
    (h : List.Forall₂ (Function.Alike types target side) fs gs)
    (hk : ∀ f g, f.Alike types target side g → k g = k f) : gs.map k = fs.map k := by
  rw [← List.forall₂_eq_eq_eq, List.forall₂_map_left_iff, List.forall₂_map_right_iff]
  exact (h.imp hk).flip

theorem names_alike (h : List.Forall₂ (Function.Alike types target side) fs gs) :
    gs.map (·.name) = fs.map (·.name) := map_alike h fun f g hsame => by rw [hsame.rest]

theorem checkNames_eq (name : Text) (himports : imports.names = s.imports.names)
    (hexports : exports.names = s.exports.names) :
    (s.withFunctions imports exports).checkNames name = s.checkNames name := by
  -- the checks ask a list of functions for its names and for nothing else
  have hcontains : ∀ names : FunctionList Text,
      names.contains = fun name => names.names.any (Label.equals · name) := by
    intro names
    funext name
    unfold FunctionList.names
    rw [List.any_map]
    rfl
  unfold BindingSource.checkNames checkFunctionNames BindingSource.withFunctions
  simp only [himports, hexports, hcontains]
  rfl

theorem environments_alike (h : List.Forall₂ (Function.Alike types target side) fs gs) :
    gs.forM WasmerRuntime.checkEnvironment = fs.forM WasmerRuntime.checkEnvironment := by
  induction h with
  | nil => rfl
  | cons hsame _ ih => simp only [List.forM, checkEnvironment_alike hsame, ih]

theorem guestFiles_alike {b : RustPlugin.Bindings}
    (himports : List.Forall₂ (Function.Alike s.types .rustPlugin .imports)
      s.imports.toList imports.toList)
    (hexports : List.Forall₂ (Function.Alike s.types .rustPlugin .exports)
      s.exports.toList exports.toList)
    (h : RustPlugin.bindings s = .ok b) :
    RustPlugin.bindings (s.withFunctions imports exports) = .ok b := by
  obtain ⟨decls, hdecls, h⟩ := bind_eq_ok.mp h
  obtain ⟨functions, hfunctions, h⟩ := bind_eq_ok.mp h
  obtain ⟨externs, hexterns, hfunctions⟩ := bind_eq_ok.mp hfunctions
  obtain ⟨wrappers, hwrappers, hfunctions⟩ := bind_eq_ok.mp hfunctions
  obtain ⟨symbols, hsymbols, hfunctions⟩ := bind_eq_ok.mp hfunctions
  have hdecls' : RustPlugin.types (s.withFunctions imports exports) = .ok decls := by
    unfold RustPlugin.types at hdecls ⊢
    rw [checkNames_eq _ (names_alike himports) (names_alike hexports)]
    exact hdecls
  have hsymbols' : exports.toList.mapM (RustPlugin.exportWrapper s) = .ok symbols :=
    mapM_alike (fun _ _ _ => guestExport_alike) hexports hsymbols
  -- a guest looks at its imports throughout, so these are the same
  have hlist : imports.toList = s.imports.toList := functions_eq himports (fun _ => rfl) rfl
  rw [← hlist] at hexterns hwrappers
  refine bind_eq_ok.mpr ⟨decls, hdecls', bind_eq_ok.mpr ⟨functions, ?_, h⟩⟩
  exact bind_eq_ok.mpr ⟨externs, hexterns, bind_eq_ok.mpr ⟨wrappers, hwrappers,
    bind_eq_ok.mpr ⟨symbols, hsymbols', hfunctions⟩⟩⟩

theorem hostFiles_alike {b : WasmerRuntime.Bindings}
    (himports : List.Forall₂ (Function.Alike s.types .wasmerRuntime .imports)
      s.imports.toList imports.toList)
    (hexports : List.Forall₂ (Function.Alike s.types .wasmerRuntime .exports)
      s.exports.toList exports.toList)
    (h : WasmerRuntime.bindings s = .ok b) :
    WasmerRuntime.bindings (s.withFunctions imports exports) = .ok b := by
  obtain ⟨decls, hdecls, h⟩ := bind_eq_ok.mp h
  obtain ⟨functions, hfunctions, h⟩ := bind_eq_ok.mp h
  obtain ⟨methods, hmethods, hfunctions⟩ := bind_eq_ok.mp hfunctions
  obtain ⟨callbacks, hcallbacks, hfunctions⟩ := bind_eq_ok.mp hfunctions
  -- a host looks at its exports throughout, so these are the same
  have hlist : exports.toList = s.exports.toList := functions_eq hexports (fun _ => rfl) rfl
  have hdecls' : WasmerRuntime.types (s.withFunctions imports exports) = .ok decls := by
    unfold WasmerRuntime.types at hdecls ⊢
    rw [checkNames_eq _ (names_alike himports) (names_alike hexports)]
    unfold BindingSource.withFunctions
    rw [environments_alike himports, hlist]
    exact hdecls
  have hcallbacks' : imports.toList.mapM (WasmerRuntime.importCallback s) = .ok callbacks :=
    mapM_alike (fun _ _ _ => hostImport_alike) himports hcallbacks
  rw [← hlist] at hmethods
  refine bind_eq_ok.mpr ⟨decls, hdecls', bind_eq_ok.mpr ⟨functions, ?_, h⟩⟩
  refine bind_eq_ok.mpr ⟨methods, hmethods, bind_eq_ok.mpr ⟨callbacks, hcallbacks', ?_⟩⟩
  -- whether any import is asynchronous decides what else is written
  have hasync : imports.toList.any (·.isAsync) = s.imports.toList.any (·.isAsync) := by
    have hflags : imports.toList.map (·.isAsync) = s.imports.toList.map (·.isAsync) :=
      map_alike himports fun _ _ hsame => by rw [hsame.rest]
    have hany : ∀ fs : List (Function Text), fs.any (·.isAsync) = (fs.map (·.isAsync)).any id := by
      intro fs
      rw [List.any_map]
      rfl
    rw [hany, hany, hflags]
  rw [← hfunctions, ← hasync]
  rfl

theorem list_eq {fs gs : FunctionList Text} (h : gs.toList = fs.toList) : gs = fs := by
  cases fs
  cases gs
  cases h
  rfl

/-- **Bindings do not depend on what is not looked at.** -/
theorem files_alike {files : List (Text × Text)}
    (himports : List.Forall₂ (Function.Alike s.types target .imports)
      s.imports.toList imports.toList)
    (hexports : List.Forall₂ (Function.Alike s.types target .exports)
      s.exports.toList exports.toList)
    (h : s.files target = .ok files) :
    (s.withFunctions imports exports).files target = .ok files := by
  cases target with
  | rustPlugin =>
    obtain ⟨b, hb, heq⟩ := map_eq_ok.mp h
    exact map_eq_ok.mpr ⟨b, guestFiles_alike himports hexports hb, heq⟩
  | wasmerRuntime =>
    obtain ⟨b, hb, heq⟩ := map_eq_ok.mp h
    exact map_eq_ok.mpr ⟨b, hostFiles_alike himports hexports hb, heq⟩
  | typeScriptRuntime =>
    -- everything is looked at throughout
    have himports' : imports = s.imports := list_eq (functions_eq himports (fun _ => rfl) rfl)
    have hexports' : exports = s.exports := list_eq (functions_eq hexports (fun _ => rfl) rfl)
    rw [himports', hexports']
    exact h

end Alike

/-! ## Interfaces -/

section Render

variable {i : Interface Text} {settings : Settings} {tools : Toolbox} {formatters : List Formatter}

theorem render_eq (i : Interface Text) (settings : Settings) (tools : Toolbox)
    (formatters : List Formatter) (t : Target) :
    i.render settings tools formatters t.name = (do
      let _ ← (i.source settings).types.declarations.mapError .schema
      (i.source settings).formatted tools formatters t) := by
  have hname : Target.ofName? t.name = some t := by cases t <;> decide
  unfold Interface.render
  rw [hname]

/-- A signature that does not pass is refused in words, unless there is no room for them. -/
theorem render_refused {t : Target} {side : Side} {f : Function Text}
    (hf : f ∈ i.functionsOf side) (hpasses : ¬ f.Passes i.types t side) :
    ∃ e, i.render settings tools formatters t.name = .error (.schema e)
      ∧ (e.message?.isSome = true ∨ e.OutOfRoom) := by
  rw [render_eq]
  cases hdeclarations : (i.source settings).types.declarations with
  | error e =>
    exact ⟨e, rfl, SchemaError.worded (labelFree_declarations _ e hdeclarations)⟩
  | ok declarations =>
    cases hfiles : (i.source settings).files t with
    | error e =>
      refine ⟨e, ?_, SchemaError.worded (labelFree_files _ t e hfiles)⟩
      unfold BindingSource.formatted
      rw [hfiles]
      rfl
    | ok files =>
      -- had there been files, the signature would have passed
      obtain ⟨himports, hexports⟩ := passes_of_files hfiles
      cases side with
      | imports => exact absurd (himports f hf) hpasses
      | exports => exact absurd (hexports f hf) hpasses

theorem render_alike {j : Interface Text} {t : Target} {files : List (Text × Text)}
    (hsent : j.sent = i.sent) (hreceived : j.received = i.received)
    (halike : ∀ side, List.Forall₂ (Function.Alike i.types t side)
      (i.functionsOf side) (j.functionsOf side))
    (h : i.render settings tools formatters t.name = .ok files) :
    j.render settings tools formatters t.name = .ok files := by
  have hsource : j.source settings = (i.source settings).withFunctions j.imports j.exports := by
    unfold Interface.source BindingSource.withFunctions
    rw [hsent, hreceived]
  rw [render_eq] at h ⊢
  obtain ⟨declarations, hdeclarations, h⟩ := bind_eq_ok.mp h
  obtain ⟨made, hmade, h⟩ := bind_eq_ok.mp h
  have hmade' := files_alike (halike .imports) (halike .exports) (mapError_eq_ok.mp hmade)
  rw [← hsource] at hmade'
  refine bind_eq_ok.mpr ⟨declarations, ?_, bind_eq_ok.mpr ⟨made, mapError_eq_ok.mpr hmade', h⟩⟩
  rw [hsource]
  exact hdeclarations

end Render

/--
**A target refuses the signatures that do not resolve as far as it looks, and no others.**
If what it looks at in some signature does not resolve, at whatever depth, there are no
bindings but an error of the schema, and the error has a wording unless there is no room to
find one. And an interface that it makes bindings for has the same bindings with any other
types in the places that it does not look at, be they types that nobody has declared.
-/
theorem refused_as_far_as_seen (i : Interface Text) (settings : Settings) (tools : Toolbox)
    (formatters : List Formatter) (t : Target) :
    (∀ side, ∀ f ∈ i.functionsOf side, ¬ f.Passes i.types t side →
        ∃ e, i.render settings tools formatters t.name = .error (.schema e)
          ∧ (e.message?.isSome = true ∨ e.OutOfRoom))
      ∧ ∀ (j : Interface Text) (files : List (Text × Text)),
        j.sent = i.sent → j.received = i.received →
        (∀ side, List.Forall₂ (Function.Alike i.types t side)
          (i.functionsOf side) (j.functionsOf side)) →
        i.render settings tools formatters t.name = .ok files →
        j.render settings tools formatters t.name = .ok files :=
  ⟨fun _ _ => render_refused, fun _ _ => render_alike⟩

/-- A guest may export a function that gives back a list of what nobody has declared: the bindings
are those for a list of numbers. A host in TypeScript has none for it. -/
theorem refused_as_far_as_seen_list :
    let load (items : Text) : Function Text :=
      { name := "load", returns := some ⟨"Vec", [⟨items, []⟩]⟩ }
    let interface (items : Text) : Interface Text :=
      ⟨.empty, ⟨[load items], List.pairwise_singleton _ _⟩, [], []⟩
    ¬ Resolves (interface "Missing").types [] ⟨"Vec", [⟨"Missing", []⟩]⟩
      ∧ (∃ files, (interface "u8").render {} (fun _ => none) [] Target.rustPlugin.name = .ok files
        ∧ (interface "Missing").render {} (fun _ => none) [] Target.rustPlugin.name = .ok files)
      ∧ ∃ e, (interface "Missing").render {} (fun _ => none) [] Target.typeScriptRuntime.name
        = .error (.schema e) := by
  intro load interface
  have hmissing : ¬ Resolves (interface "Missing").types [] ⟨"Vec", [⟨"Missing", []⟩]⟩ := by
    intro h
    obtain ⟨type, hresolve⟩ := (h.of_mem_args _ List.mem_cons_self).exists_type
    have hisOk : ((interface "Missing").types.resolve ⟨"Missing", []⟩).isOk = true := by
      rw [hresolve]; rfl
    exact absurd hisOk (by decide +kernel)
  obtain ⟨files, hfiles⟩ := exists_of_isOk
    (show ((interface "u8").render {} (fun _ => none) [] Target.rustPlugin.name).isOk = true by
      decide +kernel)
  refine ⟨hmissing, ⟨files, hfiles, ?_⟩, ?_⟩
  · refine (refused_as_far_as_seen (interface "u8") {} _ [] .rustPlugin).2 _ _ rfl rfl ?_ hfiles
    intro side
    cases side with
    | imports => exact .nil
    | exports => exact .cons ⟨rfl, .nil, .some ⟨rfl, rfl⟩⟩ .nil
  · obtain ⟨e, he, -⟩ := (refused_as_far_as_seen (interface "Missing") {} (fun _ => none) []
      .typeScriptRuntime).1 .exports (load "Missing") List.mem_cons_self
      fun hpasses => hmissing (hpasses.returns _ rfl)
    exact ⟨e, he⟩

end WasmBridge
