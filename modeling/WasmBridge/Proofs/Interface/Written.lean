import WasmBridge.Interface.Load
import WasmBridge.Proofs.Outcome

/-!
# Definitions as they are written

A declaration in a document makes one of four kinds of definitions, and the payload of a
variant in it one of three more. Such a definition is written with idents: the type that
it stands for, those of its fields, those of the items and fields of its variants. What
it refers to are these idents, but for those that begin with one of its parameters.
-/

namespace WasmBridge

open Outcome

variable {ν : Type} [Label ν]

/-! ## What definitions are written with -/

mutual

/-- The idents that a definition is written with. -/
def TypeDef.idents : TypeDef ν → List TypeIdent
  | .synonym _ aliased => [aliased]
  | .struct _ _ fields _ => fields.map (·.type)
  | .enum _ _ variants _ _ => Variant.identsAll variants
  | .tuple items => items
  | _ => []

/-- The idents that the payloads of some variants are written with. -/
def Variant.identsAll : List (Variant ν) → List TypeIdent
  | [] => []
  | .mk _ payload _ :: rest => payload.idents ++ Variant.identsAll rest

end

/-- The definition is one that a declaration makes. -/
inductive TypeDef.IsWritten : TypeDef ν → Prop where
  | synonym (name : ν) (aliased : TypeIdent) : IsWritten (.synonym name aliased)
  | custom (name rust typescript : ν) : IsWritten (.custom name [] rust typescript)
  | struct (name : ν) (generics : List ν) (fields : List (Field ν)) (doc : List ν) :
    IsWritten (.struct name generics fields doc)
  | enum (name : ν) (generics : List ν) (variants : List (Variant ν)) (options : EnumOptions ν)
    (doc : List ν) (payloads : ∀ v ∈ variants, v.payload.children = v.payload.idents) :
    IsWritten (.enum name generics variants options doc)

theorem exceptParameters_nil (idents : List TypeIdent) :
    exceptParameters ([] : List ν) idents = idents := by
  unfold exceptParameters
  rw [List.filter_eq_self]
  exact fun _ _ => rfl

theorem childrenAll_eq {variants : List (Variant ν)}
    (h : ∀ v ∈ variants, v.payload.children = v.payload.idents) :
    Variant.childrenAll variants = Variant.identsAll variants := by
  induction variants with
  | nil => rfl
  | cons v rest ih =>
    obtain ⟨name, payload, doc⟩ := v
    have hpayload : payload.children = payload.idents := h _ List.mem_cons_self
    rw [Variant.childrenAll, Variant.identsAll, hpayload,
      ih fun w hw => h w (List.mem_cons_of_mem _ hw)]

/-- A definition refers to the idents it is written with, but for those that begin with one of its
parameters. -/
theorem TypeDef.IsWritten.children_eq {type : TypeDef ν} (h : type.IsWritten) :
    type.children = exceptParameters type.generics type.idents := by
  cases h with
  | synonym name aliased => exact (exceptParameters_nil _).symm
  | custom name rust typescript => rfl
  | struct name generics fields doc => rfl
  | enum name generics variants options doc payloads =>
    rw [children, idents, childrenAll_eq payloads]
    rfl

/-! ## What documents declare -/

namespace Document

/-- The payload of a variant: a struct if it has fields, else a tuple if it has items, else a
unit. -/
def readPayload (v : Value) : Read (TypeDef Value) :=
  if hasMember v "fields" then do
    let name ← member v "name"
    return .struct name [] (← (← itemsOf v "fields").mapM readField) []
  else if hasMember v "tuple" then do
    return .tuple (← (← itemsOf v "tuple").mapM readIdent)
  else return .unit TypeIdent.unitName

theorem readVariant_eq (v : Value) : readVariant v = (do
    let payload ← readPayload v
    let name ← member v "name"
    return .mk name payload (← itemsOf v "doc")) := by
  unfold readVariant readPayload
  split
  · simp only [bind_assoc, pure_bind]
  · split
    · simp only [bind_assoc, pure_bind]
    · rfl

theorem children_of_readPayload {v : Value} {payload : TypeDef Value}
    (h : readPayload v = .ok payload) : payload.children = payload.idents := by
  unfold readPayload at h
  split at h
  · obtain ⟨name, -, h⟩ := bind_eq_ok.mp h
    obtain ⟨given, -, h⟩ := bind_eq_ok.mp h
    obtain ⟨fields, -, h⟩ := bind_eq_ok.mp h
    cases h
    exact exceptParameters_nil _
  · split at h
    · obtain ⟨given, -, h⟩ := bind_eq_ok.mp h
      obtain ⟨items, -, h⟩ := bind_eq_ok.mp h
      cases h
      rfl
    · cases h
      rfl

theorem children_of_readVariant {v : Value} {variant : Variant Value}
    (h : readVariant v = .ok variant) : variant.payload.children = variant.payload.idents := by
  rw [readVariant_eq] at h
  obtain ⟨payload, hpayload, h⟩ := bind_eq_ok.mp h
  obtain ⟨name, -, h⟩ := bind_eq_ok.mp h
  obtain ⟨doc, -, h⟩ := bind_eq_ok.mp h
  cases h
  exact children_of_readPayload hpayload

/-- A type is of a kind that can be declared, and goes by the name that its declaration has. -/
theorem readType_eq_ok {v : Value} {type : TypeDef Value} (h : readType v = .ok type) :
    type.IsWritten ∧ member v "name" = .ok type.name := by
  obtain ⟨kind, -, h⟩ := bind_eq_ok.mp h
  obtain ⟨name, hname, h⟩ := bind_eq_ok.mp h
  obtain ⟨doc, -, h⟩ := bind_eq_ok.mp h
  obtain ⟨generics, -, h⟩ := bind_eq_ok.mp h
  split at h
  · obtain ⟨given, -, h⟩ := bind_eq_ok.mp h
    obtain ⟨fields, -, h⟩ := bind_eq_ok.mp h
    cases h
    exact ⟨.struct .., hname⟩
  · split at h
    · obtain ⟨given, -, h⟩ := bind_eq_ok.mp h
      obtain ⟨options, -, h⟩ := bind_eq_ok.mp h
      obtain ⟨items, -, h⟩ := bind_eq_ok.mp h
      obtain ⟨variants, hvariants, h⟩ := bind_eq_ok.mp h
      cases h
      refine ⟨.enum _ _ _ _ _ fun variant hmem => ?_, hname⟩
      obtain ⟨item, -, hread⟩ := exists_of_mem_results hvariants hmem
      exact children_of_readVariant hread
    · split at h
      · obtain ⟨given, -, h⟩ := bind_eq_ok.mp h
        obtain ⟨aliased, -, h⟩ := bind_eq_ok.mp h
        cases h
        exact ⟨.synonym .., hname⟩
      · split at h
        · obtain ⟨rust, -, h⟩ := bind_eq_ok.mp h
          obtain ⟨typescript, -, h⟩ := bind_eq_ok.mp h
          cases h
          exact ⟨.custom .., hname⟩
        · cases h

end Document

end WasmBridge
