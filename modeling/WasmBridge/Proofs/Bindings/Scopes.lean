import WasmBridge.Proofs.Bindings.Identifiers

/-!
# What the arguments of a call stand for

A function in Rust that passes its arguments on binds names of its own before it does so,
and all of these names share a scope with the names of its arguments. So a name in the
call need not stand for the argument that it is meant for. Here is what the names in the
body of a function stand for, statement by statement, up to the call.

A conversion binds the name of an argument once more, to what becomes of it, and that is
harmless. What is not is a name of the function's own, and an argument that has the name
of another one. Only one of the names that functions use is refused as the name of an
argument, so the theorem at the end has exceptions.
-/

namespace WasmBridge

open Outcome

namespace Rust

/-! ## Scopes -/

/-- What a name stands for in the body of a function. -/
inductive Meaning where
  /-- The argument in some place. -/
  | argument (place : Nat)
  /-- What something has been converted to. -/
  | converted (meaning : Meaning)
  /-- Something of the function's own. -/
  | own

/-- The place of the argument that something is, converted or not. -/
def Meaning.place? : Meaning → Option Nat
  | argument place => some place
  | converted meaning => meaning.place?
  | own => none

/-- The names that are known in some place and what they stand for, those that were bound last
first. A raw identifier is the same name as the bare one. -/
abbrev Scope := List (Text × Meaning)

/-- The names that a pattern binds. -/
def boundNames (pattern : Text) : List Text :=
  (pattern.splitOnP fun c => ("(, )" : Text).contains c).filter (!·.isEmpty)

namespace Scope

/-- What a name stands for. -/
def meaning? (scope : Scope) (name : Text) : Option Meaning := scope.lookup (plainName name)

/-- The place of the argument that a name stands for. -/
def place? (scope : Scope) (name : Text) : Option Nat := (scope.meaning? name).bind Meaning.place?

/-- The scope in which a body starts. -/
def opening (params : List Text) (first : Nat := 0) : Scope :=
  (params.zipIdx first).map fun (name, place) => (plainName name, .argument place)

/-- The scope behind a conversion that keeps its name. -/
def convert (scope : Scope) (name : Text) : Scope :=
  (plainName name, ((scope.meaning? name).map .converted).getD .own) :: scope

/-- The scope behind a pattern that binds names of the function's own. -/
def bind (scope : Scope) (pattern : Text) : Scope :=
  (boundNames pattern).map (fun name => (plainName name, .own)) ++ scope

end Scope

/-- Where a call is made, and what it looks like. -/
structure CallSite where
  scope : Scope
  text : Text

mutual

/-- The scope behind a statement; the call ends the search. -/
def Statement.enter (scope : Scope) : Statement → Except CallSite Scope
  | .convert name _ => .ok (scope.convert name)
  | .bind pattern _ _ => .ok (scope.bind pattern)
  | .call _ text => .error ⟨scope, text⟩
  | .line _ => .ok scope
  | .block _ body _ =>
    match Statement.enterAll scope body with
    | .ok _ => .ok scope
    | .error site => .error site

/-- The scope behind several statements. -/
def Statement.enterAll (scope : Scope) : List Statement → Except CallSite Scope
  | [] => .ok scope
  | s :: rest =>
    match s.enter scope with
    | .ok scope => Statement.enterAll scope rest
    | .error site => .error site

end

/-- The call of a function is made there. -/
def FunctionCode.CallsAt (c : FunctionCode) (site : CallSite) : Prop :=
  Statement.enterAll (.opening c.params) c.body = .error site

/-- Where the arguments are passed on, the name of each stands for what it is meant for. -/
def FunctionCode.KeepsArguments (c : FunctionCode) : Prop :=
  ∃ site, c.CallsAt site ∧ ∀ i name, c.params[i]? = some name → site.scope.place? name = some i

section Scopes

variable {scope : Scope} {name other pattern : Text}

/-- **A conversion leaves every name to stand for the argument that it stood for.** -/
theorem Scope.place?_convert : (scope.convert name).place? other = scope.place? other := by
  unfold place? meaning? convert
  rw [List.lookup_cons]
  split
  · rename_i hsame
    rw [beq_iff_eq] at hsame
    unfold meaning?
    rw [hsame]
    cases scope.lookup (plainName name) with
    | none => rfl
    | some meaning => rfl
  · rfl

theorem Scope.place?_bind : (scope.bind pattern).place? other
    = if plainName other ∈ (boundNames pattern).map plainName then none
      else scope.place? other := by
  unfold place? meaning? bind
  rw [List.lookup_append]
  generalize boundNames pattern = names
  induction names with
  | nil => rfl
  | cons first names ih =>
    rw [List.map_cons, List.map_cons, List.lookup_cons]
    by_cases hfirst : plainName other = plainName first
    · rw [if_pos (hfirst ▸ List.mem_cons_self), hfirst, beq_self_eq_true]
      rfl
    · have hbeq : (plainName other == plainName first) = false := beq_eq_false_iff_ne.mpr hfirst
      rw [hbeq]
      refine ih.trans ?_
      simp only [List.mem_cons, hfirst, false_or]

/-- **The name of every parameter stands for it exactly if no two have one name.** -/
theorem Scope.place?_opening {params : List Text} {first : Nat} :
    (∀ (i : Nat) name, params[i]? = some name →
        (opening params first).place? name = some (first + i))
      ↔ (params.map plainName).Nodup := by
  induction params generalizing first with
  | nil => simp
  | cons p params ih =>
    have hplace : ∀ name, (opening (p :: params) first).place? name
        = if plainName name = plainName p then some first
          else (opening params (first + 1)).place? name := by
      intro name
      unfold place? meaning? opening
      rw [List.zipIdx_cons, List.map_cons, List.lookup_cons]
      by_cases hsame : plainName name = plainName p
      · rw [if_pos hsame, hsame, beq_self_eq_true]
        rfl
      · have hbeq : (plainName name == plainName p) = false := beq_eq_false_iff_ne.mpr hsame
        rw [if_neg hsame, hbeq]
    rw [List.map_cons, List.nodup_cons, ← @ih (first + 1)]
    constructor
    · intro hall
      have hother : ∀ (i : Nat) name, params[i]? = some name → plainName name ≠ plainName p := by
        intro i name hname hsame
        have hi := hall (i + 1) name hname
        rw [hplace, if_pos hsame, Option.some.injEq] at hi
        omega
      constructor
      · intro hmem
        obtain ⟨name, hname, hsame⟩ := List.mem_map.mp hmem
        obtain ⟨i, hi⟩ := List.mem_iff_getElem?.mp hname
        exact hother i name hi hsame
      · intro i name hname
        have hi := hall (i + 1) name hname
        rw [hplace, if_neg (hother i name hname)] at hi
        rw [hi]
        congr 1
        omega
    · rintro ⟨hnew, hrest⟩ i name hname
      rw [hplace]
      cases i with
      | zero =>
        cases hname
        rw [if_pos rfl]
        rfl
      | succ i =>
        have hmem : name ∈ params := List.mem_of_getElem? hname
        have hother : plainName name ≠ plainName p := fun hsame =>
          hnew (hsame ▸ List.mem_map_of_mem hmem)
        rw [if_neg hother, hrest i name hname]
        congr 1
        omega

end Scopes

/-! ## Bodies of functions -/

/-- How the list of arguments goes before the last one in the call that converts that one. -/
def conversionMarks : List Text := ["(", "(&", "(&mut env, ", "(&mut self.function_env_mut(), "]

/-- Something is converted by a call that takes it last, and keeps its name. -/
def Statement.IsConversion (st : Statement) : Prop :=
  ∃ name before closing, st = .convert name (before ++ name ++ closing)
    ∧ (∃ mark ∈ conversionMarks, mark <:+ before) ∧ (")" : Text) <+: closing

theorem isConversion_of {name before closing : Text}
    (hbefore : ∃ mark ∈ conversionMarks, mark <:+ before) (hclosing : (")" : Text) <+: closing) :
    (Statement.convert name (before ++ name ++ closing)).IsConversion :=
  ⟨name, before, closing, rfl, hbefore, hclosing⟩

section Bodies

variable {scope : Scope} {statements rest : List Statement} {c : FunctionCode} {site : CallSite}

/-- Conversions leave every name to stand for the argument that it stood for. -/
theorem enterAll_conversions (h : ∀ st ∈ statements, st.IsConversion) :
    ∃ after, Statement.enterAll scope (statements ++ rest) = Statement.enterAll after rest
      ∧ ∀ name, after.place? name = scope.place? name := by
  induction statements generalizing scope with
  | nil => exact ⟨scope, rfl, fun _ => rfl⟩
  | cons st statements ih =>
    obtain ⟨hfirst, hothers⟩ := List.forall_mem_cons.mp h
    obtain ⟨name, before, closing, rfl, -⟩ := hfirst
    obtain ⟨after, hafter, hplace⟩ := @ih (scope.convert name) hothers
    exact ⟨after, hafter, fun other => (hplace other).trans Scope.place?_convert⟩

/-- Of the names that are known later on, those in `own` do not stand for an argument, and all
others stand for what they stood for. -/
def Scope.Hides (scope : Scope) (own : List Text) (later : Scope) : Prop :=
  ∀ name, (plainName name ∈ own → later.place? name = none)
    ∧ (plainName name ∉ own → later.place? name = scope.place? name)

theorem Scope.hides_nil (scope : Scope) : scope.Hides [] scope :=
  fun _ => ⟨fun hmem => absurd hmem List.not_mem_nil, fun _ => rfl⟩

theorem Scope.hides_of_place? {own : List Text} {later : Scope}
    (h : ∀ name, later.place? name = if plainName name ∈ own then none else scope.place? name) :
    scope.Hides own later :=
  fun name => ⟨fun hmem => (h name).trans (if_pos hmem),
    fun hmem => (h name).trans (if_neg hmem)⟩

/-- A function passes its arguments on: up to the call it converts arguments and then binds some
names of its own, and the call takes the arguments in their order, each by its name or by what that
is at the boundary. -/
def FunctionCode.PassesOn (c : FunctionCode) (own : List Text) : Prop :=
  ∃ converted tail text, c.body = converted ++ tail
    ∧ (∀ st ∈ converted, st.IsConversion)
    ∧ (∀ scope, ∃ later, Statement.enterAll scope tail = .error ⟨later, text⟩
      ∧ scope.Hides own later)
    ∧ ∃ callee before passed closing,
      text = callee ++ Text.bracketed "(" ")" (before ++ passed) ++ closing
      ∧ List.Forall₂ (fun name arg : Text => arg = name ∨ arg = name ++ ".to_abi()") c.params passed

/-- **Arguments are kept exactly if they are told apart and none is called like something of the
function's own.** -/
theorem FunctionCode.PassesOn.keepsArguments_iff {own : List Text} (h : c.PassesOn own) :
    c.KeepsArguments
      ↔ (c.params.map plainName).Nodup ∧ ∀ name ∈ c.params.map plainName, name ∉ own := by
  obtain ⟨converted, tail, text, hbody, hconverted, htail, -⟩ := h
  obtain ⟨start, hstart, hplaces⟩ := @enterAll_conversions (.opening c.params) _ tail hconverted
  obtain ⟨later, hlater, hhides⟩ := htail start
  have hcalls : ∀ {site}, c.CallsAt site ↔ site = ⟨later, text⟩ := by
    intro site
    unfold CallsAt
    rw [hbody, hstart, hlater, Except.error.injEq, eq_comm]
  have hplace : ∀ name, plainName name ∉ own →
      later.place? name = (Scope.opening c.params).place? name :=
    fun name hfree => ((hhides name).2 hfree).trans (hplaces name)
  have hopening := @Scope.place?_opening c.params 0
  simp only [Nat.zero_add] at hopening
  constructor
  · rintro ⟨site, hsite, hkept⟩
    obtain rfl := hcalls.mp hsite
    have hfree : ∀ name ∈ c.params, plainName name ∉ own := by
      intro name hname hmem
      obtain ⟨i, hi⟩ := List.mem_iff_getElem?.mp hname
      have hkept := hkept i name hi
      rw [(hhides name).1 hmem] at hkept
      cases hkept
    refine ⟨hopening.mp fun i name hname => ?_, List.forall_mem_map.mpr hfree⟩
    rw [← hkept i name hname, hplace name (hfree name (List.mem_of_getElem? hname))]
  · rintro ⟨hnodup, hfree⟩
    refine ⟨⟨later, text⟩, hcalls.mpr rfl, fun i name hname => ?_⟩
    rw [hplace name (hfree _ (List.mem_map_of_mem (List.mem_of_getElem? hname)))]
    exact hopening.mpr hnodup i name hname

end Bodies

end Rust

/-! ## Functions of a guest -/

variable {ν : Type} [Label ν] {s : BindingSource ν} {f : Function ν}

open Rust

/-- Where a call takes the arguments as they are, their names are those of the parameters. -/
theorem passed_of_callArguments [LawfulLabel ν] {params names : List Text}
    (hparams : List.Forall₂ (fun a name => rustName a = .ok name) f.args params)
    (hnames : callArguments f = .ok names) :
    List.Forall₂ (fun name arg : Text => arg = name ∨ arg = name ++ ".to_abi()") params names := by
  have hcall := mapM_eq_ok_iff.mpr (rustNames_of_callArguments hnames)
  obtain rfl := Except.ok.inj ((mapM_eq_ok_iff.mpr hparams).symm.trans hcall)
  exact List.forall₂_same.mpr fun _ _ => .inl rfl

namespace RustPlugin

open Rust

theorem exportArgument_eq_ok [LawfulLabel ν] {a : Argument ν} {statements : List Statement}
    {passed ident : ν} {arg : Text} (h : exportArgument s a = .ok (statements, passed))
    (harg : Label.text passed = .ok arg) (hident : escape a.name = .ok ident) :
    (∀ st ∈ statements, st.IsConversion)
      ∧ (arg = Label.display ident ∨ arg = Label.display ident ++ ".to_abi()") := by
  obtain ⟨name, hname, h⟩ := bind_eq_ok.mp h
  obtain rfl := Except.ok.inj (hname.symm.trans hident)
  split at h
  · cases h
    refine ⟨nofun, .inr ?_⟩
    rw [← display_of_text harg, display_ofText]
  · cases h
    refine ⟨fun st hst => ?_, .inl (display_of_text harg).symm⟩
    cases List.mem_singleton.mp hst
    exact isConversion_of (by decide +kernel) (by decide +kernel)

/-- What is passed on to a host function, argument by argument. -/
theorem exportArguments_eq_ok [LawfulLabel ν] {args : List (Argument ν)}
    {arguments : List (List Statement × ν)} {passed : List Text} {identifiers : List ν}
    (harguments : args.mapM (exportArgument s) = .ok arguments)
    (hpassed : Label.texts (arguments.map (·.2)) = .ok passed)
    (hidentifiers : args.mapM (fun a => escape a.name) = .ok identifiers) :
    (∀ st ∈ arguments.flatMap (·.1), st.IsConversion)
      ∧ List.Forall₂ (fun name arg : Text => arg = name ∨ arg = name ++ ".to_abi()")
          (identifiers.map Label.display) passed := by
  replace harguments := mapM_eq_ok_iff.mp harguments
  replace hpassed := mapM_eq_ok_iff.mp hpassed
  replace hidentifiers := mapM_eq_ok_iff.mp hidentifiers
  induction harguments generalizing passed identifiers with
  | nil => cases hpassed; cases hidentifiers; exact ⟨nofun, .nil⟩
  | cons hfirst _ ih =>
    cases hpassed with
    | cons harg hpassed =>
      cases hidentifiers with
      | cons hident hidentifiers =>
        obtain ⟨hconversions, hpasses⟩ := ih hpassed hidentifiers
        obtain ⟨hconversion, hpass⟩ := exportArgument_eq_ok hfirst harg hident
        refine ⟨fun st hst => ?_, .cons hpass hpasses⟩
        rcases List.mem_append.mp hst with hst | hst
        · exact hconversion st hst
        · exact hconversions st hst

theorem importCall_enter {result : Option TypeIdent} {call : Text} (scope : Scope) :
    Statement.enterAll scope [.block "unsafe" (importCall s f result call) ""]
      = .error ⟨scope, call⟩ := by
  unfold importCall
  cases f.isAsync with
  | true => rfl
  | false => cases result <;> rfl

theorem importWrapper_passesOn [LawfulLabel ν] {c : FunctionCode} (h : importWrapper s f = .ok c) :
    c.PassesOn [] ∧ List.Forall₂ (fun a name => rustName a = .ok name) f.args c.params := by
  obtain ⟨head, -, h⟩ := bind_eq_ok.mp h
  obtain ⟨arguments, harguments, h⟩ := bind_eq_ok.mp h
  obtain ⟨passed, hpassed, h⟩ := bind_eq_ok.mp h
  obtain ⟨result, -, h⟩ := bind_eq_ok.mp h
  obtain ⟨identifiers, hidentifiers, h⟩ := bind_eq_ok.mp h
  cases h
  obtain ⟨hconversions, hpasses⟩ := exportArguments_eq_ok harguments hpassed hidentifiers
  refine ⟨⟨_, _, _, rfl, hconversions, fun scope => ⟨scope, importCall_enter scope,
    scope.hides_nil⟩, _, [], passed, ";", rfl, hpasses⟩, ?_⟩
  rw [List.forall₂_map_right_iff]
  exact (mapM_eq_ok_iff.mp hidentifiers).imp fun _ ident hident =>
    map_eq_ok.mpr ⟨ident, hident, rfl⟩

/-- What an asynchronous export binds before it calls the function of the guest. -/
def asyncNames : List Text := ["len", "ptr", "fat_ptr"]

theorem asyncBody_enter {call : Text} (scope : Scope) :
    ∃ later, Statement.enterAll scope (asyncBody call) = .error ⟨later, call ++ ".await;"⟩
      ∧ scope.Hides asyncNames later := by
  refine ⟨(((scope.bind "len").bind "ptr").bind "fat_ptr").bind "ptr", rfl,
    Scope.hides_of_place? fun name => ?_⟩
  have hbound : (boundNames "len").map plainName = [("len" : Text)]
      ∧ (boundNames "ptr").map plainName = [("ptr" : Text)]
      ∧ (boundNames "fat_ptr").map plainName = [("fat_ptr" : Text)] := by decide +kernel
  obtain ⟨hlen, hptr, hfatPtr⟩ := hbound
  simp only [Scope.place?_bind, hlen, hptr, hfatPtr, asyncNames, List.mem_cons, List.not_mem_nil,
    or_false]
  by_cases hptr : plainName name = "ptr"
  · simp only [hptr, if_true, true_or, or_true]
  · simp only [hptr, if_false, false_or]
    by_cases hfatPtr : plainName name = "fat_ptr"
    · simp only [hfatPtr, if_true, or_true]
    · simp only [hfatPtr, if_false, or_false]

theorem importArgument_isConversion {a : Argument ν} {st : Statement}
    (h : importArgument s a = .ok st) : st.IsConversion := by
  obtain ⟨type, -, h⟩ := bind_eq_ok.mp h
  obtain ⟨ident, -, h⟩ := bind_eq_ok.mp h
  split at h
  · cases h
    have hmark : ("(" : Text) <:+ " = WasmAbi::from_abi(" := by decide +kernel
    exact isConversion_of ⟨"(", by decide, hmark.trans (List.suffix_append _ _)⟩ (by decide +kernel)
  · cases h
    have hmark : ("(" : Text) <:+ ">(" := by decide +kernel
    exact isConversion_of ⟨"(", by decide, hmark.trans (List.suffix_append _ _)⟩ (by decide +kernel)

theorem exportWrapper_passesOn [LawfulLabel ν] {w : ExportWrapper} (h : exportWrapper s f = .ok w) :
    w.code.PassesOn (if f.isAsync then asyncNames else [])
      ∧ List.Forall₂ (fun a name => rustName a = .ok name) f.args w.code.params := by
  obtain ⟨signature, hsignature, h⟩ := bind_eq_ok.mp h
  obtain ⟨conversions, hconversions, h⟩ := bind_eq_ok.mp h
  obtain ⟨names, hnames, h⟩ := bind_eq_ok.mp h
  obtain ⟨name, -, h⟩ := bind_eq_ok.mp h
  obtain ⟨result, -, h⟩ := bind_eq_ok.mp h
  cases h
  have hparams := (boundarySignature_matches hsignature).declares.names
  have hpasses := passed_of_callArguments hparams hnames
  have hconverted : ∀ st ∈ conversions, st.IsConversion := by
    intro st hst
    obtain ⟨a, -, ha⟩ := exists_of_mem_results hconversions hst
    exact importArgument_isConversion ha
  refine ⟨?_, hparams⟩
  cases hasync : f.isAsync with
  | true =>
    refine ⟨conversions, _, _, rfl, hconverted, fun scope => ?_,
      s.settings.pluginPath ++ "::" ++ Label.display name, [], names, ".await;", rfl, hpasses⟩
    unfold exportCall
    rw [if_pos hasync]
    exact asyncBody_enter scope
  | false =>
    refine ⟨conversions, _, _, rfl, hconverted, fun scope => ⟨scope, ?_, scope.hides_nil⟩,
      s.settings.pluginPath ++ "::" ++ Label.display name, [], names, ";", rfl, hpasses⟩
    unfold exportCall
    rw [if_neg (hasync ▸ Bool.false_ne_true)]
    cases result <;> rfl

end RustPlugin

/-! ## Functions of a host -/

namespace WasmerRuntime

theorem conversions_isConversion {convert : Text → Text} {statements : List Statement}
    (hconvert : ∀ name, (Statement.convert name (convert name)).IsConversion)
    (h : conversions s f convert = .ok statements) : ∀ st ∈ statements, st.IsConversion := by
  intro st hst
  obtain ⟨a, -, ha⟩ := exists_of_mem_results h hst
  obtain ⟨ident, -, ha⟩ := bind_eq_ok.mp ha
  cases ha
  exact hconvert _

theorem exportMethods_passesOn [LawfulLabel ν] {m : ExportMethods} (h : exportMethods s f = .ok m) :
    m.logical.PassesOn [] ∧ m.raw.PassesOn ["function"]
      ∧ List.Forall₂ (fun a name => rustName a = .ok name) f.args m.logical.params
      ∧ m.raw.params = m.logical.params := by
  obtain ⟨name, -, h⟩ := bind_eq_ok.mp h
  obtain ⟨params, -, h⟩ := bind_eq_ok.mp h
  obtain ⟨rawParams, -, h⟩ := bind_eq_ok.mp h
  obtain ⟨names, hnames, h⟩ := bind_eq_ok.mp h
  obtain ⟨result, -, h⟩ := bind_eq_ok.mp h
  obtain ⟨⟨full, raw, boundary⟩, -, h⟩ := bind_eq_ok.mp h
  obtain ⟨serialize, hserialize, h⟩ := bind_eq_ok.mp h
  obtain ⟨hand, hhand, h⟩ := bind_eq_ok.mp h
  obtain ⟨crossings, -, h⟩ := bind_eq_ok.mp h
  cases h
  refine ⟨?_, ?_, rustNames_of_callArguments hnames, rfl⟩
  · refine ⟨serialize, _, _, (List.append_assoc _ _ _).trans (List.append_assoc _ _ _),
      conversions_isConversion (fun name => ?_) hserialize,
      fun scope => ⟨scope, rfl, scope.hides_nil⟩, "self." ++ rawName f, [], names, ";", rfl,
      List.forall₂_same.mpr fun _ _ => .inl rfl⟩
    exact isConversion_of (by decide +kernel) (by decide +kernel)
  · refine ⟨hand, _, _, (List.append_assoc _ _ _).trans (List.append_assoc _ _ _),
      conversions_isConversion (fun name => ?_) hhand,
      fun scope => ⟨scope.bind "function", rfl, Scope.hides_of_place? fun name => ?_⟩,
      "function.call",
      ["&mut self.store"], names.map (· ++ ".to_abi()"), "?;", rfl, ?_⟩
    · exact isConversion_of (by decide +kernel) (by decide +kernel)
    · have hbound : (boundNames "function").map plainName = [("function" : Text)] := by
        decide +kernel
      rw [Scope.place?_bind, hbound]
    · rw [List.forall₂_map_right_iff]
      exact List.forall₂_same.mpr fun _ _ => .inr rfl

theorem importArgument_isConversion {a : Argument ν} {st : Statement}
    (h : importArgument s a = .ok st) : st.IsConversion := by
  obtain ⟨ident, -, h⟩ := bind_eq_ok.mp h
  split at h
  · cases h
    exact isConversion_of (by decide +kernel) (by decide +kernel)
  · obtain ⟨type, -, h⟩ := bind_eq_ok.mp h
    cases h
    have hmark : ("(&mut env, " : Text) <:+ ">(&mut env, " := by decide +kernel
    exact isConversion_of ⟨"(&mut env, ", by decide, hmark.trans (List.suffix_append _ _)⟩
      (by decide +kernel)

theorem importCallback_passesOn [LawfulLabel ν] {c : ImportCallback}
    (h : importCallback s f = .ok c) :
    c.code.PassesOn []
      ∧ List.Forall₂ (fun a name => rustName a = .ok name) f.args c.code.params := by
  have hparams : List.Forall₂ (fun a name => rustName a = .ok name) f.args c.code.params :=
    (wasmer_import_matches h).2.declares.names
  refine ⟨?_, hparams⟩
  obtain ⟨params, -, h⟩ := bind_eq_ok.mp h
  obtain ⟨result, -, h⟩ := bind_eq_ok.mp h
  -- what remains is the same for every result, which is decided first
  have hview : ∀ {arguments names} {name : ν}, f.args.mapM (importArgument s) = .ok arguments →
      callArguments f = .ok names →
      c.body = arguments ++ [.call (some "result") (s.settings.runtimePath ++ "::" ++
        Label.display name ++ Text.bracketed "(" ")" names ++ ";")] ++ callbackResult s f result →
      c.code.PassesOn [] := by
    intro arguments names name harguments hnames hbody
    refine ⟨arguments, _, _, hbody.trans (List.append_assoc _ _ _), fun st hst => ?_,
      fun scope => ⟨scope, rfl, scope.hides_nil⟩,
      s.settings.runtimePath ++ "::" ++ Label.display name, [], names, ";", rfl,
      passed_of_callArguments hparams hnames⟩
    obtain ⟨a, -, ha⟩ := exists_of_mem_results harguments hst
    exact importArgument_isConversion ha
  cases hasync : f.isAsync with
  | true =>
    simp only [hasync, if_true, bind_eq_ok] at h
    obtain ⟨_, ⟨⟩, arguments, harguments, names, hnames, name, _, ⟨⟩⟩ := h
    exact hview harguments hnames rfl
  | false =>
    simp only [hasync, Bool.false_eq_true, if_false] at h
    cases result with
    | none =>
      simp only [bind_eq_ok] at h
      obtain ⟨_, ⟨⟩, arguments, harguments, names, hnames, name, _, ⟨⟩⟩ := h
      exact hview harguments hnames rfl
    | some type =>
      simp only [bind_eq_ok] at h
      obtain ⟨boundary, _, arguments, harguments, names, hnames, name, _, ⟨⟩⟩ := h
      exact hview harguments hnames rfl

end WasmerRuntime

/-! ## All of them -/

/-- A function has the parameters of a declaration and passes them on, and the arguments are kept
exactly if they are told apart and none is called like something of the function's own. -/
structure Rust.FunctionCode.KeepsUnless (c : FunctionCode) (f : Function ν) (own : List Text) :
    Prop where
  params : List.Forall₂ (fun a name => rustName a = .ok name) f.args c.params
  passes : c.PassesOn own
  kept_iff : c.KeepsArguments ↔ f.rustNames.Nodup ∧ ∀ name ∈ f.rustNames, name ∉ own

theorem Rust.FunctionCode.PassesOn.keepsUnless [LawfulLabel ν] {c : FunctionCode} {own : List Text}
    (h : c.PassesOn own)
    (hparams : List.Forall₂ (fun a name => rustName a = .ok name) f.args c.params) :
    c.KeepsUnless f own := by
  refine ⟨hparams, h, ?_⟩
  have hnames : c.params.map plainName = f.rustNames := plainNames_eq hparams
  rw [h.keepsArguments_iff, hnames]

/--
**Which functions keep their arguments.** In all functions that are generated in Rust, for
a guest and for a host, the arguments are told apart by their names or they are not kept.
Apart from that, a function for an import keeps them, and so does a method on values. The
symbol of an asynchronous export keeps them if none is called like one of the three names
that it binds for its record, and a method on bytes if none is called `function`.
-/
theorem arguments_kept_iff [LawfulLabel ν] (s : BindingSource ν) :
    (∀ b, RustPlugin.bindings s = .ok b →
      List.Forall₂ (fun f c => c.KeepsUnless f []) s.imports.toList b.functions.imports
        ∧ List.Forall₂ (fun f w =>
            w.code.KeepsUnless f (if f.isAsync then RustPlugin.asyncNames else []))
          s.exports.toList b.functions.exports)
      ∧ ∀ b, WasmerRuntime.bindings s = .ok b →
        List.Forall₂ (fun f m => m.logical.KeepsUnless f [] ∧ m.raw.KeepsUnless f ["function"])
            s.exports.toList b.functions.exports
          ∧ List.Forall₂ (fun f c => c.code.KeepsUnless f [])
            s.imports.toList b.functions.imports := by
  constructor
  · intro b hb
    obtain ⟨_, _, hrest⟩ := bind_eq_ok.mp hb
    obtain ⟨_, hfunctions, ⟨⟩⟩ := bind_eq_ok.mp hrest
    obtain ⟨_, _, hrest⟩ := bind_eq_ok.mp hfunctions
    obtain ⟨_, himports, hrest⟩ := bind_eq_ok.mp hrest
    obtain ⟨_, hexports, ⟨⟩⟩ := bind_eq_ok.mp hrest
    refine ⟨(mapM_eq_ok_iff.mp himports).imp fun f c hc => ?_,
      (mapM_eq_ok_iff.mp hexports).imp fun f w hw => ?_⟩
    · obtain ⟨hpasses, hparams⟩ := RustPlugin.importWrapper_passesOn hc
      exact hpasses.keepsUnless hparams
    · obtain ⟨hpasses, hparams⟩ := RustPlugin.exportWrapper_passesOn hw
      exact hpasses.keepsUnless hparams
  · intro b hb
    obtain ⟨_, _, hrest⟩ := bind_eq_ok.mp hb
    obtain ⟨_, hfunctions, ⟨⟩⟩ := bind_eq_ok.mp hrest
    obtain ⟨_, hexports, hrest⟩ := bind_eq_ok.mp hfunctions
    obtain ⟨_, himports, ⟨⟩⟩ := bind_eq_ok.mp hrest
    refine ⟨(mapM_eq_ok_iff.mp hexports).imp fun f m hm => ?_,
      (mapM_eq_ok_iff.mp himports).imp fun f c hc => ?_⟩
    · obtain ⟨hlogical, hraw, hparams, hsame⟩ := WasmerRuntime.exportMethods_passesOn hm
      exact ⟨hlogical.keepsUnless hparams, hraw.keepsUnless (hsame ▸ hparams)⟩
    · obtain ⟨hpasses, hparams⟩ := WasmerRuntime.importCallback_passesOn hc
      exact hpasses.keepsUnless hparams

namespace Captured

/-- Reads some bytes at once, and is told how many. -/
def read : Function Text := { name := "read", args := [⟨"len", ⟨"u32", []⟩⟩], isAsync := true }

/-- Applies a function by its number. -/
def apply : Function Text := { name := "apply", args := [⟨"function", ⟨"u32", []⟩⟩] }

def source : BindingSource Text where
  imports := .empty
  exports := ⟨[read, apply], by decide⟩
  types := .builtin
  sent := []
  received := []

end Captured

/-- The symbol of the first export passes the size of its record on, and the method on bytes of the
second the guest's function itself. -/
theorem arguments_kept_iff_captured :
    ∃ plugin host, RustPlugin.bindings Captured.source = .ok plugin
      ∧ WasmerRuntime.bindings Captured.source = .ok host
      ∧ (∃ w ∈ plugin.functions.exports, ¬w.code.KeepsArguments)
      ∧ ∃ m ∈ host.functions.exports, m.logical.KeepsArguments ∧ ¬m.raw.KeepsArguments := by
  obtain ⟨plugin, hplugin⟩ := exists_of_isOk
    (show (RustPlugin.bindings Captured.source).isOk = true by decide +kernel)
  obtain ⟨host, hhost⟩ := exists_of_isOk
    (show (WasmerRuntime.bindings Captured.source).isOk = true by decide +kernel)
  obtain ⟨hguest, hmethods⟩ := arguments_kept_iff Captured.source
  refine ⟨plugin, host, hplugin, hhost, ?_, ?_⟩
  · obtain ⟨-, hexports⟩ := hguest plugin hplugin
    generalize plugin.functions.exports = exports at hexports
    rcases hexports with _ | ⟨hread, hrest⟩
    refine ⟨_, List.mem_cons_self, fun hkeeps => ?_⟩
    obtain ⟨-, hfree⟩ := hread.kept_iff.mp hkeeps
    exact hfree "len" (by decide +kernel) (by decide +kernel)
  · obtain ⟨hexports, -⟩ := hmethods host hhost
    generalize host.functions.exports = exports at hexports
    rcases hexports with _ | ⟨hread, hrest⟩
    rcases hrest with _ | ⟨happly, hrest⟩
    refine ⟨_, List.mem_cons_of_mem _ List.mem_cons_self, ?_, fun hkeeps => ?_⟩
    · exact happly.1.kept_iff.mpr ⟨by decide +kernel, by decide +kernel⟩
    · obtain ⟨-, hfree⟩ := happly.2.kept_iff.mp hkeeps
      exact hfree "function" (by decide +kernel) (by decide +kernel)

end WasmBridge
