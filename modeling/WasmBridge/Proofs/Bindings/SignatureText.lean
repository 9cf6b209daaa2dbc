import Mathlib.Data.List.Forall2
import WasmBridge.Bindings.Crossing
import WasmBridge.Proofs.Bindings.ReadBack
import WasmBridge.Schema.Function

/-!
# Signatures in generated code

The code of a function at the boundary says how each parameter and the result cross it, by their
types: there is one type for all pointers to buffers, and each language has its own types for what
crosses by itself. Here is how that is read off the code. A reader takes what it knows from the
front of the code and hands on what stands behind, so nothing between two types is passed over: the
names of the parameters have to be there in their order, with one comma between two of them, and
nothing may be left at the end but what ends the line.

What makes this work is that the types stay apart: none of those that can stand in one place
begins another.
-/

namespace WasmBridge

open Text

/-- How a value crosses the boundary, whatever a target calls its type. -/
inductive Passing where
  | byValue
  | byPointer
  deriving DecidableEq

/-- Neither text begins with the other. -/
def Diverge (s t : Text) : Prop := ¬s <+: t ∧ ¬t <+: s

instance (s t : Text) : Decidable (Diverge s t) := inferInstanceAs (Decidable (_ ∧ _))

theorem diverge_of_head {c d : Code} {s t : Text} (h : c ≠ d) : Diverge (c :: s) (d :: t) :=
  ⟨fun hs => h (List.cons_prefix_cons.mp hs).1, fun ht => h (List.cons_prefix_cons.mp ht).1.symm⟩

/-- The type of all pointers. -/
def pointerType : Text := "FatPtr"

/-- What a language says of a function at the boundary. -/
structure BoundaryStyle where
  /-- What stands between the parameters and the result. -/
  arrow : Text
  /-- The types that values which cross by themselves may have. -/
  values : TypeIdent → List Text
  apart : ∀ type, (pointerType :: values type).Pairwise Diverge

/-! ## Types -/

section Types

variable {s t code : Text} {texts : List Text}

theorem behind?_eq_none (h : Diverge s t) (code : Text) : behind? s (t ++ code) = none := by
  rw [behind?, if_neg]
  intro hs
  have hs := List.isPrefixOf_iff_prefix.mp hs
  rcases List.prefix_or_prefix_of_prefix hs (List.prefix_append t code) with hst | hts
  · exact h.1 hst
  · exact h.2 hts

/-- Of texts that stay apart, the one that code begins with is found. -/
theorem findSome?_behind? (hapart : texts.Pairwise Diverge) (ht : t ∈ texts) (code : Text) :
    texts.findSome? (behind? · (t ++ code)) = some code := by
  induction texts with
  | nil => cases ht
  | cons first rest ih =>
    obtain ⟨hfirst, hrest⟩ := List.pairwise_cons.mp hapart
    rw [List.findSome?_cons]
    rcases List.mem_cons.mp ht with rfl | ht
    · rw [behind?_append]
    · rw [behind?_eq_none (hfirst _ ht)]
      exact ih hrest ht

/-- How a value crosses by the type that code begins with, and what stands behind the type. -/
def passingAt? (values : List Text) (code : Text) : Option (Passing × Text) :=
  match behind? pointerType code with
  | some rest => some (.byPointer, rest)
  | none => (values.findSome? (behind? · code)).map fun rest => (.byValue, rest)

/-- A type shows how a value crosses. -/
def Shows (values : List Text) : Passing → Text → Prop
  | .byValue, type => type ∈ values
  | .byPointer, type => type = pointerType

theorem passingAt?_append {values : List Text} {passing : Passing} {type : Text}
    (hapart : (pointerType :: values).Pairwise Diverge) (h : Shows values passing type)
    (code : Text) : passingAt? values (type ++ code) = some (passing, code) := by
  obtain ⟨hpointer, hvalues⟩ := List.pairwise_cons.mp hapart
  unfold passingAt?
  cases passing with
  | byPointer =>
    cases h
    rw [behind?_append]
  | byValue =>
    rw [behind?_eq_none (hpointer _ h)]
    dsimp only
    rw [findSome?_behind? hvalues h]
    rfl

end Types

/-! ## Parameters and results -/

variable {ν : Type}

namespace BoundaryStyle

variable (style : BoundaryStyle) (opening : Argument ν → Except SchemaError Text)

/-- How the parameters for some arguments cross, and what stands behind the last of them. Each is
its opening and then a type; before it stands a comma, or `before` if it is the first. -/
def paramsAt? : (before : Text) → List (Argument ν) → (code : Text) → Option (List Passing × Text)
  | _, [], code => some ([], code)
  | before, a :: args, code => do
    let opened ← (opening a).toOption
    let code ← behind? (before ++ opened) code
    let (passing, code) ← passingAt? (style.values a.type) code
    let (passings, code) ← paramsAt? ", " args code
    return (passing :: passings, code)

/-- The types that the result of a function may have if it crosses by itself. -/
def resultValues (f : Function ν) : List Text := f.returns.elim [] style.values

theorem apart_result (f : Function ν) :
    (pointerType :: style.resultValues f).Pairwise Diverge := by
  unfold resultValues
  cases f.returns with
  | none => exact List.pairwise_singleton ..
  | some type => exact style.apart type

/-- How the result of a function crosses, if anything is said of it before the code ends. -/
def resultAt? (f : Function ν) (closing code : Text) : Option (Option Passing) :=
  match behind? style.arrow code with
  | none => if code = closing then some none else none
  | some code => do
    let (passing, code) ← passingAt? (style.resultValues f) code
    if code = closing then some (some passing) else none

/-- How the parameters and the result of a function cross, by a line that begins with `beginning`
and lists the parameters behind it, with `before` before the first of them. -/
def signatureIn? (beginning before : Text) (f : Function ν) (closing line : Text) :
    Option (List Passing × Option Passing) := do
  let code ← behind? beginning line
  let (params, code) ← style.paramsAt? opening before f.args code
  let code ← behind? ")" code
  let result ← style.resultAt? f closing code
  return (params, result)

/-- A parameter for an argument shows how it crosses. -/
def ShowsParam (a : Argument ν) (passing : Passing) (param : Text) : Prop :=
  ∃ opened type, opening a = .ok opened ∧ Shows (style.values a.type) passing type
    ∧ param = opened ++ type

/-- The result of a function shows how it crosses, if there is one. -/
def ShowsResult (f : Function ν) : Option Passing → Option Text → Prop :=
  Option.Rel (Shows (style.resultValues f))

end BoundaryStyle

/-! ## Reading what is printed -/

namespace BoundaryStyle

variable {style : BoundaryStyle} {opening : Argument ν → Except SchemaError Text}
  {passing : Argument ν → Passing}

theorem paramsAt?_cons {a : Argument ν} {param : Text} (before : Text)
    (h : style.ShowsParam opening a (passing a) param) (args : List (Argument ν)) (code : Text) :
    style.paramsAt? opening before (a :: args) (before ++ param ++ code)
      = (style.paramsAt? opening ", " args code).map fun rest => (passing a :: rest.1, rest.2) := by
  obtain ⟨opened, type, hopened, htype, rfl⟩ := h
  have hcode : before ++ (opened ++ type) ++ code = before ++ opened ++ (type ++ code) := by
    simp only [List.append_assoc]
  rw [hcode, paramsAt?, hopened]
  simp only [Except.toOption, Option.bind_eq_bind, Option.bind_some, behind?_append,
    passingAt?_append (style.apart a.type) htype]
  cases style.paramsAt? opening ", " args code <;> rfl

theorem paramsAt?_following {args : List (Argument ν)} {params : List Text}
    (h : List.Forall₂ (fun a param => style.ShowsParam opening a (passing a) param) args params)
    (code : Text) :
    style.paramsAt? opening ", " args (following ", " params ++ code)
      = some (args.map passing, code) := by
  induction h with
  | nil => rfl
  | @cons a param args params hparam _ ih =>
    rw [following_cons, List.append_assoc, paramsAt?_cons ", " hparam, ih]
    rfl

theorem paramsAt?_separated {args : List (Argument ν)} {params : List Text}
    (h : List.Forall₂ (fun a param => style.ShowsParam opening a (passing a) param) args params)
    (code : Text) :
    style.paramsAt? opening "" args (separated ", " params ++ code)
      = some (args.map passing, code) := by
  cases h with
  | nil => rfl
  | @cons a param args params hparam hparams =>
    -- before the first parameter there is no comma
    rw [separated_cons, List.append_assoc, ← List.nil_append (param ++ _), ← List.append_assoc]
    refine (paramsAt?_cons "" hparam args _).trans ?_
    rw [paramsAt?_following hparams]
    rfl

/-- **The result of a function is read off the code that is printed for it.** -/
theorem resultAt?_printed {f : Function ν} {result : Option Passing} {text : Option Text}
    {closing : Text} (h : style.ShowsResult f result text)
    (hclosing : behind? style.arrow closing = none) :
    style.resultAt? f closing (text.elim [] (style.arrow ++ ·) ++ closing) = some result := by
  unfold resultAt?
  cases h with
  | none =>
    rw [Option.elim_none, List.nil_append, hclosing]
    exact if_pos rfl
  | @some passing text h =>
    have hapart := style.apart_result f
    rw [Option.elim_some, List.append_assoc, behind?_append]
    simp only [passingAt?_append hapart h, Option.bind_eq_bind, Option.bind_some, if_true]

section Signatures

variable {f : Function ν} {params : List Text} {result : Option Passing} {text : Option Text}
  {closing : Text}

theorem signatureIn?_of_params {before listed : Text}
    (hparams : ∀ code, style.paramsAt? opening before f.args (listed ++ code)
      = some (f.args.map passing, code))
    (hresult : style.ShowsResult f result text) (hclosing : behind? style.arrow closing = none)
    (beginning : Text) :
    style.signatureIn? opening beginning before f closing
      (beginning ++ (listed ++ (")" ++ (text.elim [] (style.arrow ++ ·) ++ closing))))
      = some (f.args.map passing, result) := by
  unfold signatureIn?
  rw [behind?_append]
  simp only [Option.bind_eq_bind, Option.bind_some, hparams, behind?_append,
    resultAt?_printed hresult hclosing]
  rfl

/-- **How everything crosses is read off the signature that is printed.** -/
theorem signatureIn?_printed
    (hparams : List.Forall₂ (fun a param => style.ShowsParam opening a (passing a) param) f.args
      params)
    (hresult : style.ShowsResult f result text) (hclosing : behind? style.arrow closing = none)
    (beginning : Text) :
    style.signatureIn? opening (beginning ++ "(") "" f closing
      (beginning ++ bracketed "(" ")" params ++ text.elim [] (style.arrow ++ ·) ++ closing)
      = some (f.args.map passing, result) := by
  have hread := signatureIn?_of_params (paramsAt?_separated hparams) hresult hclosing
    (beginning ++ "(")
  simpa only [bracketed, List.append_assoc] using hread

/-- So it is if a parameter of the signature's own comes first. -/
theorem signatureIn?_behind
    (hparams : List.Forall₂ (fun a param => style.ShowsParam opening a (passing a) param) f.args
      params)
    (hresult : style.ShowsResult f result text) (hclosing : behind? style.arrow closing = none)
    (beginning own : Text) :
    style.signatureIn? opening (beginning ++ "(" ++ own) ", " f closing
      (beginning ++ bracketed "(" ")" (own :: params) ++ text.elim [] (style.arrow ++ ·) ++ closing)
      = some (f.args.map passing, result) := by
  have hread := signatureIn?_of_params (paramsAt?_following hparams) hresult hclosing
    (beginning ++ "(" ++ own)
  simpa only [bracketed, separated_cons, List.append_assoc] using hread

end Signatures

end BoundaryStyle

end WasmBridge
