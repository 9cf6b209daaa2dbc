import Mathlib.Logic.Relation
import WasmBridge.Proofs.Schema.Resolution
import WasmBridge.Proofs.Wire.Places
import WasmBridge.Schema.Reachability

/-!
# Chains of types

Most steps of the codec take it to a part of the value. Three do not: an alias hands the
value on to what it stands for, an option hands on what is there, and a variant of one
item hands on all that it carries. A chain of such steps comes to an end unless it comes
back to where it was. For an option leads to an ident within its own, and only aliases
lead elsewhere; each alias can be met once.
-/

namespace WasmBridge

/-- A place hands a value on to another as it is. -/
inductive Place.PassesOn (types : TypeMap Text) : Place → Place → Prop where
  | synonym {ident aliased : TypeIdent} {name : Text}
      (h : types.resolve ident = .ok (.synonym name aliased)) :
      PassesOn types (.type ident) (.type aliased)
  | optional {ident inner : TypeIdent} {name : Text}
      (h : types.resolve ident = .ok (.container name inner)) :
      PassesOn types (.type ident) (.type (ident.args.headD default))
  | item {variant : Variant Text} {bs : List (Text × TypeIdent)} {item : TypeIdent}
      (h : variant.payload = .tuple [item]) :
      PassesOn types (.payload variant bs) (.type (item.substitute bs))

/-- No place that can be reached hands a value on and on until it has it again. -/
def Place.Acyclic (types : TypeMap Text) (start : Place) : Prop :=
  ∀ place, start.Reaches types place → ¬Relation.TransGen (Place.PassesOn types) place place

/-- All chains from a place come to an end. -/
def Place.Ends (types : TypeMap Text) : Place → Prop :=
  Acc fun next place => Place.PassesOn types place next

variable {types : TypeMap Text} {ident aliased inner : TypeIdent} {name : Text}
  {place next start : Place}

/-- A value is handed on to a place that the codec goes on to. -/
theorem Place.PassesOn.mem_inner (h : place.PassesOn types next) : next ∈ place.inner types := by
  cases h with
  | synonym h => simp [Place.inner, h]
  | optional h => simp [Place.inner, h]
  | item h => simp [Place.inner, h]

theorem Place.Acyclic.of_reaches (h : start.Acyclic types) (hreaches : start.Reaches types place) :
    place.Acyclic types :=
  fun _ hnext => h _ (hreaches.trans hnext)

/-- An alias has no parameters, so it is the ident. -/
theorem ident_eq_of_alias (h : types.resolve ident = .ok (.synonym name aliased)) :
    ident = ⟨ident.name, []⟩ ∧ ident.name ∈ types.keys := by
  obtain ⟨hfind, harity⟩ := named_of_resolve h nofun
  obtain ⟨own, args⟩ := ident
  obtain rfl : args = [] := List.length_eq_zero_iff.mp harity
  exact ⟨rfl, TypeMap.mem_keys_of_find? hfind⟩

/-- An option is applied to what it may hold. -/
theorem args_of_option (h : types.resolve ident = .ok (.container name inner)) :
    ∃ option held, ident = ⟨option, [held]⟩ := by
  obtain ⟨-, harity⟩ := named_of_resolve h nofun
  obtain ⟨option, args⟩ := ident
  obtain ⟨held, rfl⟩ := List.length_eq_one_iff.mp harity
  exact ⟨option, held, rfl⟩

theorem sizeOf_option_lt (h : types.resolve ident = .ok (.container name inner)) :
    sizeOf (ident.args.headD default) < sizeOf ident := by
  obtain ⟨option, held, rfl⟩ := args_of_option h
  have hargs : sizeOf held < sizeOf [held] := List.sizeOf_lt_of_mem List.mem_cons_self
  simp only [List.headD_cons, TypeIdent.mk.sizeOf_spec]
  omega

/-- What a chain has met on its way to an ident is told by `Met`. If it meets no alias twice, it
comes to an end: by the aliases that it has not met, and between two of them by the size of the
ident. -/
theorem ends_of_met (Met : List Text → TypeIdent → Prop)
    (hsynonym : ∀ met ident name aliased, Met met ident →
      types.resolve ident = .ok (.synonym name aliased) →
      ident.name ∉ met ∧ Met (ident.name :: met) aliased)
    (hoptional : ∀ met ident name inner, Met met ident →
      types.resolve ident = .ok (.container name inner) → Met met (ident.args.headD default))
    (met : List Text) (ident : TypeIdent) (hmet : Met met ident) :
    (Place.type ident).Ends types := by
  refine Acc.intro _ fun next hnext => ?_
  cases hnext with
  | @synonym _ aliased name h =>
    obtain ⟨hnew, hmet'⟩ := hsynonym met ident name aliased hmet h
    have hfewer := TypeMap.unseen_cons_lt (ident_eq_of_alias h).2 hnew
    exact ends_of_met Met hsynonym hoptional (ident.name :: met) aliased hmet'
  | @optional _ inner name h =>
    have hsmaller := sizeOf_option_lt h
    exact ends_of_met Met hsynonym hoptional met _ (hoptional met ident name inner hmet h)
  termination_by ((types.unseen met).length, sizeOf ident)
  decreasing_by
    · exact Prod.Lex.left _ _ hfewer
    · exact Prod.Lex.right _ hsmaller

/-- A chain from a place comes to an end if those do that lead on from a type. -/
theorem Place.ends_of_types
    (h : ∀ ident, start.Reaches types (.type ident) → (Place.type ident).Ends types) :
    start.Ends types := by
  cases hstart : start with
  | type ident => exact h ident (hstart ▸ .refl)
  | payload variant bs =>
    refine Acc.intro _ fun next hnext => ?_
    have hreaches : start.Reaches types next := .single (hstart ▸ hnext.mem_inner)
    cases hnext with
    | item => exact h _ hreaches

/-- **Where nothing comes back, every chain comes to an end.** -/
theorem Place.Acyclic.ends (hacyclic : start.Acyclic types) : start.Ends types := by
  refine Place.ends_of_types fun ident hreaches => ?_
  refine ends_of_met (fun met ident => start.Reaches types (.type ident)
    ∧ ∀ name ∈ met, Relation.TransGen (Place.PassesOn types) (.type ⟨name, []⟩) (.type ident))
    ?synonym ?optional [] ident ⟨hreaches, nofun⟩
  case synonym =>
    rintro met ident name aliased ⟨hreaches, hmet⟩ h
    obtain ⟨hident, -⟩ := ident_eq_of_alias h
    have hstep : Place.PassesOn types (.type ident) (.type aliased) := .synonym h
    have hnew : ident.name ∉ met := by
      intro hmem
      have hback := hmet _ hmem
      rw [← hident] at hback
      exact hacyclic _ hreaches hback
    refine ⟨hnew, hreaches.tail hstep.mem_inner, fun name hname => ?_⟩
    rcases List.mem_cons.mp hname with rfl | hname
    · rw [← hident]
      exact .single hstep
    · exact (hmet name hname).tail hstep
  case optional =>
    rintro met ident name inner ⟨hreaches, hmet⟩ h
    have hstep : Place.PassesOn types (.type ident) (.type (ident.args.headD default)) :=
      .optional h
    exact ⟨hreaches.tail hstep.mem_inner, fun name hname => (hmet name hname).tail hstep⟩

end WasmBridge
