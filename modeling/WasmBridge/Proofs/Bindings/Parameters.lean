import WasmBridge.Proofs.Bindings.Identifiers
import WasmBridge.Proofs.Bindings.Members

/-!
# Parameters that meet

Functions stay apart when they are rendered, and so do the members of a type, or bindings
are refused. Nobody looks at the parameters of a function. Their names are rendered like
all others, so two of them may come out as one: if they are the same in the interface
already, and in TypeScript if they are written the same in camel case. Here are all the
signatures that the targets render, each with the exact condition under which its
parameters stay apart.

A callback in TypeScript is the only signature that mixes two ways to call a parameter. It
takes some arguments by themselves, in camel case, and pointers to the others, by names
that end in `_ptr`. No name in camel case ends like that, so the two ways never meet.
-/

namespace WasmBridge

open Outcome Text

/-! ## Lists of parameters -/

variable {ν : Type}

/-- A parameter by its name, and as it stands in a signature. -/
structure Parameter where
  name : Text
  text : Text

/-- A kind of signatures, by what their parameters are called. -/
structure SignatureKind (ν : Type) where
  /-- The parameters that all signatures of the kind begin with. -/
  own : List Parameter
  /-- What the parameter for an argument is called. -/
  nameOf : Argument ν → Except SchemaError Text
  /-- What tells a name from others. -/
  ident : Text → Text

namespace SignatureKind

/-- A parameter stands for an argument, in front of its type. -/
def StandsFor (kind : SignatureKind ν) (p : Parameter) (a : Argument ν) : Prop :=
  kind.nameOf a = .ok p.name ∧ ∃ type, p.text = p.name ++ ": " ++ type

/-- Behind `before` a signature lists its parameters: some of its own, and then one for each
argument of a function. -/
structure Lists (kind : SignatureKind ν) (f : Function ν) (before signature : Text)
    (params : List Parameter) : Prop where
  listed : ∃ after,
    signature = before ++ Text.bracketed "(" ")" ((kind.own ++ params).map (·.text)) ++ after
  arguments : List.Forall₂ (fun a p => kind.StandsFor p a) f.args params

/-- The names of all parameters, as far as they are told apart. -/
def idents (kind : SignatureKind ν) (params : List Parameter) : List Text :=
  (kind.own ++ params).map fun p => kind.ident p.name

/-- The parameters that a signature lists have pairwise distinct names. -/
def Apart (kind : SignatureKind ν) (f : Function ν) (before signature : Text) : Prop :=
  ∃ params, kind.Lists f before signature params ∧ (kind.idents params).Nodup

/-- Two parameters that a signature lists have one name. -/
def Meet (kind : SignatureKind ν) (f : Function ν) (before signature : Text) : Prop :=
  ∃ params, kind.Lists f before signature params ∧ ¬(kind.idents params).Nodup

/-- The parameters that a signature lists have pairwise distinct names exactly if the condition
holds. -/
def ApartIff (kind : SignatureKind ν) (f : Function ν) (before signature : Text)
    (condition : Prop) : Prop :=
  ∃ params, kind.Lists f before signature params ∧ ((kind.idents params).Nodup ↔ condition)

theorem ApartIff.apart {kind : SignatureKind ν} {f : Function ν} {before signature : Text}
    {condition : Prop} (h : kind.ApartIff f before signature condition) (hholds : condition) :
    kind.Apart f before signature := by
  obtain ⟨params, hlists, hiff⟩ := h
  exact ⟨params, hlists, hiff.mpr hholds⟩

theorem ApartIff.meet {kind : SignatureKind ν} {f : Function ν} {before signature : Text}
    {condition : Prop} (h : kind.ApartIff f before signature condition) (hfails : ¬condition) :
    kind.Meet f before signature := by
  obtain ⟨params, hlists, hiff⟩ := h
  exact ⟨params, hlists, mt hiff.mp hfails⟩

section Lists

variable {kind : SignatureKind ν} {f : Function ν} {before signature : Text}
  {params : List Parameter}

/-- What tells the parameters for arguments apart is known of the arguments themselves. -/
theorem Lists.idents_eq (h : kind.Lists f before signature params) {known : Argument ν → Text}
    (hknown : ∀ a name, kind.nameOf a = .ok name → kind.ident name = known a) :
    kind.idents params = kind.own.map (fun p => kind.ident p.name) ++ f.args.map known := by
  have hnames : params.map (fun p => kind.ident p.name) = f.args.map known := by
    rw [← List.forall₂_eq_eq_eq, List.forall₂_map_left_iff, List.forall₂_map_right_iff]
    exact (h.arguments.imp fun a p hp => hknown a p.name hp.1).flip
  unfold idents
  rw [List.map_append, hnames]

/-- Parameters are made argument by argument. -/
theorem exists_params {make : Argument ν → Except SchemaError Text}
    (hmake : ∀ a text, make a = .ok text → ∃ name, kind.StandsFor ⟨name, text⟩ a)
    {args : List (Argument ν)} {texts : List Text} (h : args.mapM make = .ok texts) :
    ∃ params : List Parameter, texts = params.map (·.text)
      ∧ List.Forall₂ (fun a p => kind.StandsFor p a) args params := by
  replace h := mapM_eq_ok_iff.mp h
  induction h with
  | nil => exact ⟨[], rfl, .nil⟩
  | cons hfirst _ ih =>
    obtain ⟨params, rfl, hparams⟩ := ih
    obtain ⟨name, hname⟩ := hmake _ _ hfirst
    exact ⟨⟨name, _⟩ :: params, rfl, .cons hname hparams⟩

/-- A signature lists the parameters that are made of the arguments. -/
theorem exists_lists {make : Argument ν → Except SchemaError Text}
    (hmake : ∀ a text, make a = .ok text → ∃ name, kind.StandsFor ⟨name, text⟩ a)
    {texts : List Text} (htexts : f.args.mapM make = .ok texts) {after : Text}
    (h : signature = before ++ Text.bracketed "(" ")" (kind.own.map (·.text) ++ texts) ++ after) :
    ∃ params, kind.Lists f before signature params := by
  obtain ⟨params, rfl, harguments⟩ := exists_params hmake htexts
  exact ⟨params, ⟨after, by rw [h, List.map_append]⟩, harguments⟩

/-- A signature lists parameters that are there by their names and types. -/
theorem lists_named {α : Type} {name type : α → Text} {named : List α} {after : Text}
    (hnames : List.Forall₂ (fun a n => kind.nameOf a = .ok n) f.args (named.map name))
    (h : signature = before ++ Text.bracketed "(" ")"
      (kind.own.map (·.text) ++ named.map fun p => name p ++ ": " ++ type p) ++ after) :
    kind.Lists f before signature (named.map fun p => ⟨name p, name p ++ ": " ++ type p⟩) := by
  refine ⟨⟨after, ?_⟩, ?_⟩
  · rw [h, List.map_append, List.map_map]
    rfl
  · rw [List.forall₂_map_right_iff] at hnames ⊢
    exact hnames.imp fun a p hname => ⟨hname, type p, rfl⟩

end Lists

end SignatureKind

/-! ## Signatures in Rust -/

variable [Label ν]

/-- Signatures in Rust. -/
def rustKind (own : List Parameter) : SignatureKind ν := ⟨own, rustName, Rust.plainName⟩

/-- The receiver of a method. -/
def receiver : Parameter := ⟨"self", "&mut self"⟩

/-- The environment of a callback. -/
def environment : Parameter := ⟨"env", "mut env: " ++ WasmerRuntime.environmentType⟩

section RustSignatures

variable {s : BindingSource ν} {f : Function ν} {before signature : Text} {own : List Parameter}

theorem SignatureKind.Lists.rust_apartIff [LawfulLabel ν] {params : List Parameter}
    (h : (rustKind own).Lists f before signature params)
    (hown : ∀ p ∈ own, Rust.plainName p.name = p.name) :
    (rustKind own).ApartIff f before signature (own.map (·.name) ++ f.rustNames).Nodup := by
  refine ⟨params, h, iff_of_eq (congrArg _ ?_)⟩
  rw [h.idents_eq fun _ _ hname => plainName_rustName hname]
  exact congrArg (· ++ f.rustNames) (List.map_congr_left hown)

/-- An identifier in front of some type is a parameter, whatever is made of the type. -/
theorem standsFor_rust {shown : TypeIdent → Except SchemaError Text} {a : Argument ν} {text : Text}
    (h : (do return Label.display (← Rust.escape a.name) ++ ": " ++ (← shown a.type))
      = Except.ok text) : ∃ name, (rustKind own).StandsFor ⟨name, text⟩ a := by
  obtain ⟨ident, hident, h⟩ := bind_eq_ok.mp h
  obtain ⟨type, -, h⟩ := bind_eq_ok.mp h
  cases h
  exact ⟨Label.display ident, map_eq_ok.mpr ⟨ident, hident, rfl⟩, type, rfl⟩

/-- A signature lists the parameters of a declaration at the boundary. -/
theorem lists_boundary (own : List Parameter) {e : Rust.BoundarySignature} {after : Text}
    (hnames : List.Forall₂ (fun a name => rustName a = .ok name) f.args (e.params.map (·.name)))
    (h : signature = before ++ Text.bracketed "(" ")" (own.map (·.text) ++ e.paramTexts) ++ after) :
    ∃ params, (rustKind own).Lists f before signature params :=
  ⟨_, SignatureKind.lists_named hnames h⟩

end RustSignatures

variable {s : BindingSource ν} {f : Function ν}

namespace RustPlugin

open Rust

theorem extern_apartIff [LawfulLabel ν] {e : BoundarySignature}
    (h : boundarySignature s f = .ok e) :
    (rustKind []).ApartIff f e.symbol e.text f.rustNames.Nodup := by
  obtain ⟨_, hlists⟩ := lists_boundary [] (boundarySignature_matches h).declares.names rfl
  exact hlists.rust_apartIff nofun

theorem importHead_eq_ok {head : Text} (h : importHead s f = .ok head) :
    ∃ params result name, f.args.mapM (fullParam s) = .ok params ∧ escape f.name = .ok name
      ∧ head = "pub " ++ modifierText f ++ "fn " ++ Label.display name ++
        Text.bracketed "(" ")" params ++ arrow result := by
  obtain ⟨params, hparams, h⟩ := bind_eq_ok.mp h
  obtain ⟨type, -, h⟩ := bind_eq_ok.mp h
  cases type with
  | none =>
    simp only [pure_eq, bind_ok] at h
    obtain ⟨name, hname, ⟨⟩⟩ := bind_eq_ok.mp h
    exact ⟨params, none, name, hparams, hname, rfl⟩
  | some type =>
    obtain ⟨result, -, h⟩ := bind_eq_ok.mp h
    obtain ⟨name, hname, ⟨⟩⟩ := bind_eq_ok.mp h
    exact ⟨params, result, name, hparams, hname, rfl⟩

theorem importWrapper_apartIff [LawfulLabel ν] {c : FunctionCode} (h : importWrapper s f = .ok c) :
    ∃ name, escape f.name = .ok name ∧ (rustKind []).ApartIff f
      ("pub " ++ modifierText f ++ "fn " ++ Label.display name) c.head f.rustNames.Nodup := by
  obtain ⟨head, hhead, h⟩ := bind_eq_ok.mp h
  obtain ⟨_, _, h⟩ := bind_eq_ok.mp h
  obtain ⟨_, _, h⟩ := bind_eq_ok.mp h
  obtain ⟨_, _, h⟩ := bind_eq_ok.mp h
  obtain ⟨_, _, h⟩ := bind_eq_ok.mp h
  cases h
  obtain ⟨texts, result, name, htexts, hname, hhead⟩ := importHead_eq_ok hhead
  have hlists : ∃ params, (rustKind []).Lists f
      ("pub " ++ modifierText f ++ "fn " ++ Label.display name) head params :=
    SignatureKind.exists_lists (fun _ _ => standsFor_rust) htexts hhead
  obtain ⟨params, hlists⟩ := hlists
  exact ⟨name, hname, hlists.rust_apartIff nofun⟩

theorem exportWrapper_apartIff [LawfulLabel ν] {w : ExportWrapper} (h : exportWrapper s f = .ok w) :
    (rustKind []).ApartIff f ("pub extern \"C\" fn " ++ w.signature.symbol) w.code.head
      f.rustNames.Nodup := by
  have hhead : w.code.head = "pub extern \"C\" fn " ++ w.signature.symbol ++
      Text.bracketed "(" ")" w.signature.paramTexts ++
      arrow (w.signature.result.map crossingText) := by
    unfold ExportWrapper.code BoundarySignature.text
    simp only [List.append_assoc]
  obtain ⟨_, hlists⟩ := lists_boundary [] (exportWrapper_matches h).declares.names hhead
  exact hlists.rust_apartIff nofun

end RustPlugin

namespace WasmerRuntime

open Rust

/-- Both methods of an export have a head of the same form. -/
theorem methodHead_apartIff [LawfulLabel ν] {shown : TypeIdent → Except SchemaError Text}
    {params : List Text}
    (hparams : (f.args.mapM fun a => do
      return Label.display (← escape a.name) ++ ": " ++ (← shown a.type)) = .ok params)
    (method result : Text) :
    (rustKind [receiver]).ApartIff f (methodPrefix f ++ method)
      (methodHead f method params result) (receiver.name :: f.rustNames).Nodup := by
  have hhead : methodHead f method params result = methodPrefix f ++ method ++
      Text.bracketed "(" ")" ([receiver].map (·.text) ++ params) ++
      (" -> Result<" ++ result ++ ", InvocationError>") := by
    unfold methodHead
    simp only [List.append_assoc]
    rfl
  have hlists : ∃ listed, (rustKind [receiver]).Lists f (methodPrefix f ++ method)
      (methodHead f method params result) listed :=
    SignatureKind.exists_lists (fun _ _ => standsFor_rust) hparams hhead
  obtain ⟨_, hlists⟩ := hlists
  exact hlists.rust_apartIff (by decide +kernel)

theorem exportMethods_apartIff [LawfulLabel ν] {m : ExportMethods} (h : exportMethods s f = .ok m) :
    ∃ name, escape f.name = .ok name
      ∧ (rustKind [receiver]).ApartIff f (methodPrefix f ++ Label.display name) m.logical.head
          (receiver.name :: f.rustNames).Nodup
      ∧ (rustKind [receiver]).ApartIff f (methodPrefix f ++ rawName f) m.raw.head
          (receiver.name :: f.rustNames).Nodup := by
  obtain ⟨name, hname, h⟩ := bind_eq_ok.mp h
  obtain ⟨texts, htexts, h⟩ := bind_eq_ok.mp h
  obtain ⟨rawTexts, hrawTexts, h⟩ := bind_eq_ok.mp h
  obtain ⟨_, _, h⟩ := bind_eq_ok.mp h
  obtain ⟨_, _, h⟩ := bind_eq_ok.mp h
  obtain ⟨⟨full, raw, boundary⟩, -, h⟩ := bind_eq_ok.mp h
  obtain ⟨_, _, h⟩ := bind_eq_ok.mp h
  obtain ⟨_, _, h⟩ := bind_eq_ok.mp h
  obtain ⟨_, _, h⟩ := bind_eq_ok.mp h
  cases h
  exact ⟨name, hname, methodHead_apartIff htexts _ full, methodHead_apartIff hrawTexts _ raw⟩

theorem importCallback_apartIff [LawfulLabel ν] {c : ImportCallback}
    (h : importCallback s f = .ok c) :
    (rustKind [environment]).ApartIff f ("pub fn " ++ c.name) c.code.head
      (environment.name :: f.rustNames).Nodup := by
  obtain ⟨_, hlists⟩ := lists_boundary [environment] (wasmer_import_matches h).2.declares.names rfl
  exact hlists.rust_apartIff (by decide +kernel)

end WasmerRuntime

/-! ## Signatures in TypeScript -/

namespace TypeScriptRuntime

open TypeScript

/-- Signatures that user code sees, with all parameters in camel case. -/
def scriptKind : SignatureKind ν := ⟨[], fun a => camel a.name, id⟩

/-- Signatures of callbacks, which take arguments by themselves or by pointers. -/
def callbackKind (s : BindingSource ν) : SignatureKind ν := ⟨[], scriptName s, id⟩

/-- The names of some arguments in camel case. -/
def camelNames (args : List (Argument ν)) : List Text :=
  args.map fun a => Casing.camelCase.format (Label.display a.name)

theorem camel_eq_ok [LawfulLabel ν] {name : ν} {text : Text} (h : camel name = .ok text) :
    text = Casing.camelCase.format (Label.display name) := by
  obtain ⟨plain, hplain, rfl⟩ := map_eq_ok.mp h
  rw [display_of_text hplain]

section Script

variable {before signature : Text} {texts : List Text} {after : Text}

theorem script_apartIff [LawfulLabel ν] (htexts : f.args.mapM (fullParam s) = .ok texts)
    (h : signature = before ++ Text.bracketed "(" ")" texts ++ after) :
    scriptKind.ApartIff f before signature (camelNames f.args).Nodup := by
  have hlists : ∃ params, scriptKind.Lists f before signature params := by
    refine SignatureKind.exists_lists (fun a text htext => ?_) htexts h
    obtain ⟨name, hname, htext⟩ := bind_eq_ok.mp htext
    obtain ⟨type, -, ⟨⟩⟩ := bind_eq_ok.mp htext
    exact ⟨name, hname, type, rfl⟩
  obtain ⟨params, hlists⟩ := hlists
  refine ⟨params, hlists, iff_of_eq (congrArg _ ?_)⟩
  exact hlists.idents_eq fun _ _ hname => camel_eq_ok hname

theorem declaration_apartIff [LawfulLabel ν] {d : Declaration} (h : declaration s f = .ok d)
    (mark : Text) :
    scriptKind.ApartIff f (d.name ++ mark ++ ": ") (d.text mark) (camelNames f.args).Nodup := by
  have hparams : f.args.mapM (fullParam s) = .ok d.params := by
    obtain ⟨params, hparams, h⟩ := bind_eq_ok.mp h
    cases hreturns : f.returns with
    | none =>
      simp only [hreturns, pure_eq, bind_ok] at h
      obtain ⟨name, -, ⟨⟩⟩ := bind_eq_ok.mp h
      exact hparams
    | some type =>
      simp only [hreturns] at h
      obtain ⟨_, _, h⟩ := bind_eq_ok.mp h
      obtain ⟨name, -, ⟨⟩⟩ := bind_eq_ok.mp h
      exact hparams
  have htext : d.text mark = d.name ++ mark ++ ": " ++ Text.bracketed "(" ")" d.params ++
      (" => " ++ d.result) := by
    unfold Declaration.text
    simp only [List.append_assoc]
  exact script_apartIff hparams htext

theorem exportWrapper_params {result : Option TypeIdent} {w : ExportWrapper}
    (h : exportWrapper s f result = .ok w) : f.args.mapM (fullParam s) = .ok w.params := by
  obtain ⟨params, hparams, h⟩ := bind_eq_ok.mp h
  cases result with
  | none =>
    simp only [bind_eq_ok] at h
    obtain ⟨_, _, _, _, _, _, ⟨⟩⟩ := h
    exact hparams
  | some type =>
    simp only [bind_eq_ok] at h
    obtain ⟨_, _, _, _, _, _, ⟨⟩⟩ := h
    exact hparams

/-- A function around an export is made from its declaration. -/
theorem exportEntry_wrapper {e : ExportEntry} {w : ExportWrapper} (h : exportEntry s f = .ok e)
    (hw : e.wrapper = some w) : ∃ result, exportWrapper s f result = .ok w := by
  obtain ⟨_, _, h⟩ := bind_eq_ok.mp h
  split at h
  · obtain ⟨result, -, h⟩ := bind_eq_ok.mp h
    cases result with
    | none => cases h; cases hw
    | some type =>
      dsimp only at h
      split at h
      · cases h; cases hw
      · obtain ⟨made, hmade, ⟨⟩⟩ := bind_eq_ok.mp h
        cases hw
        exact ⟨_, hmade⟩
  · obtain ⟨result, -, h⟩ := bind_eq_ok.mp h
    obtain ⟨made, hmade, ⟨⟩⟩ := bind_eq_ok.mp h
    cases hw
    exact ⟨_, hmade⟩

theorem exportEntry_apartIff [LawfulLabel ν] {e : ExportEntry} {w : ExportWrapper}
    (h : exportEntry s f = .ok e) (hw : e.wrapper = some w) :
    scriptKind.ApartIff f "return " w.head (camelNames f.args).Nodup := by
  obtain ⟨result, hresult⟩ := exportEntry_wrapper h hw
  exact script_apartIff (exportWrapper_params hresult) rfl

end Script

/-! ### Callbacks -/

/-- What a parameter of a callback is called. -/
theorem scriptName_eq_ok [LawfulLabel ν] {a : Argument ν} {name : Text}
    (h : scriptName s a = .ok name) :
    name = if s.types.isPrimitive a.type then Casing.camelCase.format (Label.display a.name)
      else Label.display a.name ++ "_ptr" := by
  unfold scriptName at h
  split at h
  · rename_i hprimitive
    rw [if_pos hprimitive, camel_eq_ok h]
  · rename_i hprimitive
    cases h
    rw [if_neg hprimitive]
    rfl

/-- What is made of a list in two ways that never meet is distinct if it is so in either way. -/
theorem nodup_map_ite {α β : Type} {p : α → Bool} {g h : α → β} (hne : ∀ a b, g a ≠ h b)
    (l : List α) : (l.map fun a => if p a then g a else h a).Nodup
      ↔ ((l.filter p).map g).Nodup ∧ ((l.filter fun a => !p a).map h).Nodup := by
  rw [← ((List.filter_append_perm p l).map _).nodup_iff, List.map_append]
  have hpos : (l.filter p).map (fun a => if p a then g a else h a) = (l.filter p).map g :=
    List.map_congr_left fun a ha => if_pos (List.mem_filter.mp ha).2
  have hneg : (l.filter fun a => !p a).map (fun a => if p a then g a else h a)
      = (l.filter fun a => !p a).map h :=
    List.map_congr_left fun a ha => by
      have hp : p a = false := by simpa using (List.mem_filter.mp ha).2
      rw [hp, if_neg Bool.false_ne_true]
  rw [hpos, hneg, List.nodup_append]
  refine and_congr_right fun _ => and_iff_left ?_
  intro x hx y hy
  obtain ⟨a, -, rfl⟩ := List.mem_map.mp hx
  obtain ⟨b, -, rfl⟩ := List.mem_map.mp hy
  exact hne a b

/-- The arguments that cross by themselves are apart in camel case, and the others by their names in
the interface. -/
def CallbackApart (s : BindingSource ν) (f : Function ν) : Prop :=
  (camelNames (f.args.filter fun a => s.types.isPrimitive a.type)).Nodup
    ∧ ((f.args.filter fun a => !s.types.isPrimitive a.type).map
        fun a => Label.display a.name).Nodup

/-- The parameters of a callback are apart if those of either way to pass an argument are. -/
theorem nodup_callback_iff [LawfulLabel ν] {params : List Parameter} {head before : Text}
    (h : (callbackKind s).Lists f before head params) :
    ((callbackKind s).idents params).Nodup ↔ CallbackApart s f := by
  have hidents : (callbackKind s).idents params = f.args.map fun a =>
      if s.types.isPrimitive a.type then Casing.camelCase.format (Label.display a.name)
      else Label.display a.name ++ "_ptr" := h.idents_eq fun _ _ hname => scriptName_eq_ok hname
  have hpointer : Function.Injective fun name : Text => name ++ "_ptr" :=
    fun _ _ hsame => List.append_cancel_right hsame
  have hnames : ∀ args : List (Argument ν), args.map (fun a => Label.display a.name ++ "_ptr")
      = (args.map fun a => Label.display a.name).map fun name : Text => name ++ "_ptr" :=
    fun _ => by rw [List.map_map]; rfl
  rw [hidents, nodup_map_ite fun _ _ => camelCase_ne_pointer _ _, hnames,
    List.nodup_map_iff hpointer]
  exact Iff.rfl

theorem importCallback_apartIff [LawfulLabel ν] {c : ImportCallback}
    (h : importCallback s f = .ok c) :
    (callbackKind s).ApartIff f (c.symbol ++ ": ") c.head (CallbackApart s f) := by
  have hhead : c.head = c.symbol ++ ": " ++ Text.bracketed "(" ")"
      (c.params.map fun p => p.name ++ ": " ++ crossingText p.type) ++
      ((c.result.elim ("" : Text) fun type => ": " ++ crossingText type) ++ " =>") := by
    rw [← List.append_assoc]
    unfold ImportCallback.head
    cases c.result <;> rfl
  have hlists : ∃ params, (callbackKind s).Lists f (c.symbol ++ ": ") c.head params :=
    ⟨_, SignatureKind.lists_named (script_import_matches h).declares.names hhead⟩
  obtain ⟨params, hlists⟩ := hlists
  exact ⟨params, hlists, nodup_callback_iff hlists⟩

end TypeScriptRuntime

/-! ## All signatures -/

/-- All signatures of a guest's bindings list parameters that are apart if the names of the
arguments are, with or without the mark of a raw identifier. -/
structure RustPlugin.Functions.ParamsApart (s : BindingSource ν) (fs : RustPlugin.Functions) :
    Prop where
  externs : List.Forall₂ (fun f e => (rustKind []).ApartIff f e.symbol e.text f.rustNames.Nodup)
    s.imports.toList fs.externs
  imports : List.Forall₂ (fun f c => ∃ name, Rust.escape f.name = .ok name
      ∧ (rustKind []).ApartIff f ("pub " ++ Rust.modifierText f ++ "fn " ++ Label.display name)
        c.head f.rustNames.Nodup)
    s.imports.toList fs.imports
  exports : List.Forall₂ (fun f w => (rustKind []).ApartIff f
      ("pub extern \"C\" fn " ++ w.signature.symbol) w.code.head f.rustNames.Nodup)
    s.exports.toList fs.exports

/-- In the bindings of a host in Rust the name of the receiver or of the environment counts too. -/
structure WasmerRuntime.Functions.ParamsApart (s : BindingSource ν) (fs : WasmerRuntime.Functions) :
    Prop where
  exports : List.Forall₂ (fun f m => ∃ name, Rust.escape f.name = .ok name
      ∧ (rustKind [receiver]).ApartIff f (methodPrefix f ++ Label.display name) m.logical.head
          (receiver.name :: f.rustNames).Nodup
      ∧ (rustKind [receiver]).ApartIff f (methodPrefix f ++ rawName f) m.raw.head
          (receiver.name :: f.rustNames).Nodup)
    s.exports.toList fs.exports
  imports : List.Forall₂ (fun f c => (rustKind [environment]).ApartIff f ("pub fn " ++ c.name)
      c.code.head (environment.name :: f.rustNames).Nodup)
    s.imports.toList fs.imports

/-- In the bindings of a host in TypeScript the names in camel case count, but for arguments that a
callback takes by pointers. -/
structure TypeScriptRuntime.Functions.ParamsApart (s : BindingSource ν)
    (fs : TypeScriptRuntime.Functions) : Prop where
  importDecls : List.Forall₂ (fun f d => ∀ mark, scriptKind.ApartIff f (d.name ++ mark ++ ": ")
      (d.text mark) (camelNames f.args).Nodup)
    s.imports.toList fs.importDecls
  exportDecls : List.Forall₂ (fun f d => ∀ mark, scriptKind.ApartIff f (d.name ++ mark ++ ": ")
      (d.text mark) (camelNames f.args).Nodup)
    s.exports.toList fs.exportDecls
  imports : List.Forall₂ (fun f c => c.lines = Lines.block c.head c.body ","
      ∧ (callbackKind s).ApartIff f (c.symbol ++ ": ") c.head (CallbackApart s f))
    s.imports.toList fs.imports
  exports : List.Forall₂ (fun f e => ∀ w, e.wrapper = some w →
      (∃ above, e.lines = Lines.block (e.name ++ ": (() =>")
        (above ++ Lines.block w.head (w.conversions ++ [w.call]) ";") ")(),")
      ∧ scriptKind.ApartIff f "return " w.head (camelNames f.args).Nodup)
    s.exports.toList fs.exports

/--
**When the parameters of a signature are pairwise distinct.** Of every interface that a
target accepts, each import and each export is rendered with one parameter for each
argument in all of its signatures. In Rust these are apart exactly if the names of the
arguments are, and differ from the name of the receiver of a method or the environment of
a callback. In TypeScript they are exactly if the names are in camel case, except that a
callback only asks this of the arguments that it does not take by pointers.
-/
theorem parameters_apart_iff [LawfulLabel ν] (s : BindingSource ν) :
    (∀ b, RustPlugin.bindings s = .ok b → b.functions.ParamsApart s)
      ∧ (∀ b, WasmerRuntime.bindings s = .ok b → b.functions.ParamsApart s)
      ∧ ∀ b, TypeScriptRuntime.bindings s = .ok b → b.functions.ParamsApart s := by
  refine ⟨fun b hb => ?_, fun b hb => ?_, fun b hb => ?_⟩
  · obtain ⟨_, _, h⟩ := bind_eq_ok.mp hb
    obtain ⟨_, hfunctions, ⟨⟩⟩ := bind_eq_ok.mp h
    obtain ⟨_, hexterns, h⟩ := bind_eq_ok.mp hfunctions
    obtain ⟨_, himports, h⟩ := bind_eq_ok.mp h
    obtain ⟨_, hexports, ⟨⟩⟩ := bind_eq_ok.mp h
    exact {
      externs := (mapM_eq_ok_iff.mp hexterns).imp fun _ _ => RustPlugin.extern_apartIff
      imports := (mapM_eq_ok_iff.mp himports).imp fun _ _ => RustPlugin.importWrapper_apartIff
      exports := (mapM_eq_ok_iff.mp hexports).imp fun _ _ => RustPlugin.exportWrapper_apartIff }
  · obtain ⟨_, _, h⟩ := bind_eq_ok.mp hb
    obtain ⟨_, hfunctions, ⟨⟩⟩ := bind_eq_ok.mp h
    obtain ⟨_, hexports, h⟩ := bind_eq_ok.mp hfunctions
    obtain ⟨_, himports, ⟨⟩⟩ := bind_eq_ok.mp h
    exact {
      exports := (mapM_eq_ok_iff.mp hexports).imp fun _ _ => WasmerRuntime.exportMethods_apartIff
      imports := (mapM_eq_ok_iff.mp himports).imp fun _ _ =>
        WasmerRuntime.importCallback_apartIff }
  · obtain ⟨_, _, h⟩ := bind_eq_ok.mp hb
    obtain ⟨_, hfunctions, h⟩ := bind_eq_ok.mp h
    cases h
    obtain ⟨_, himportDecls, h⟩ := bind_eq_ok.mp hfunctions
    obtain ⟨_, hexportDecls, h⟩ := bind_eq_ok.mp h
    obtain ⟨_, himports, h⟩ := bind_eq_ok.mp h
    obtain ⟨_, hexports, ⟨⟩⟩ := bind_eq_ok.mp h
    exact {
      importDecls := (mapM_eq_ok_iff.mp himportDecls).imp fun _ _ hd mark =>
        TypeScriptRuntime.declaration_apartIff hd mark
      exportDecls := (mapM_eq_ok_iff.mp hexportDecls).imp fun _ _ hd mark =>
        TypeScriptRuntime.declaration_apartIff hd mark
      imports := (mapM_eq_ok_iff.mp himports).imp fun _ c hc =>
        ⟨c.lines_eq, TypeScriptRuntime.importCallback_apartIff hc⟩
      exports := (mapM_eq_ok_iff.mp hexports).imp fun _ _ he _ hw =>
        ⟨⟨_, TypeScriptRuntime.ExportEntry.lines_eq hw⟩,
          TypeScriptRuntime.exportEntry_apartIff he hw⟩ }

namespace Met

/-- Two arguments that are the same in camel case. -/
def recased : Function Text :=
  { name := "recased", args := [⟨"foo_bar", ⟨"u32", []⟩⟩, ⟨"fooBar", ⟨"u32", []⟩⟩] }

/-- Two arguments with one name. -/
def repeated : Function Text :=
  { name := "repeated", args := [⟨"a", ⟨"u32", []⟩⟩, ⟨"a", ⟨"u32", []⟩⟩] }

def source : BindingSource Text where
  imports := ⟨[recased, repeated], by decide⟩
  exports := .empty
  types := .builtin
  sent := []
  received := []

end Met

/-- The first import has two parameters of one name in TypeScript but not in Rust, and the second
has two in Rust as well. -/
theorem parameters_apart_iff_met :
    ∃ plugin script, RustPlugin.bindings Met.source = .ok plugin
      ∧ TypeScriptRuntime.bindings Met.source = .ok script
      ∧ (∃ d ∈ script.functions.importDecls,
          TypeScriptRuntime.scriptKind.Meet Met.recased (d.name ++ "" ++ ": ") (d.text ""))
      ∧ (∃ e ∈ plugin.functions.externs, (rustKind []).Apart Met.recased e.symbol e.text)
      ∧ ∃ e ∈ plugin.functions.externs, (rustKind []).Meet Met.repeated e.symbol e.text := by
  obtain ⟨plugin, hplugin⟩ := exists_of_isOk
    (show (RustPlugin.bindings Met.source).isOk = true by decide +kernel)
  obtain ⟨script, hscript⟩ := exists_of_isOk
    (show (TypeScriptRuntime.bindings Met.source).isOk = true by decide +kernel)
  obtain ⟨hguest, -, hhost⟩ := parameters_apart_iff Met.source
  have hdecls := (hhost script hscript).importDecls
  have hexterns := (hguest plugin hplugin).externs
  refine ⟨plugin, script, hplugin, hscript, ?_⟩
  generalize script.functions.importDecls = decls at hdecls ⊢
  generalize plugin.functions.externs = externs at hexterns ⊢
  rcases hdecls with _ | ⟨hrecased, -⟩
  rcases hexterns with _ | ⟨hdistinct, hexterns⟩
  rcases hexterns with _ | ⟨hrepeated, -⟩
  refine ⟨⟨_, List.mem_cons_self, ?_⟩, ⟨_, List.mem_cons_self, ?_⟩,
    ⟨_, List.mem_cons_of_mem _ List.mem_cons_self, ?_⟩⟩
  · exact (hrecased "").meet (by decide +kernel)
  · exact hdistinct.apart (by decide +kernel)
  · exact hrepeated.meet (by decide +kernel)

end WasmBridge
