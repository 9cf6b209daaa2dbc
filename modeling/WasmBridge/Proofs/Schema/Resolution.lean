import WasmBridge.Proofs.Outcome
import WasmBridge.Wire.Encode

/-!
# Idents that resolve throughout

A declaration refers to types in the scope of its own parameters, and is checked there
once. The codec never sees these parameters: it puts the arguments of an ident in their
place and goes on with what comes out. `Resolves.substitute` says that the check is good
for both. An ident that resolves under some parameters, itself and whatever it is applied
to, still does when idents that resolve stand where the parameters were.
-/

namespace WasmBridge

open Outcome

/-- An ident resolves where the names in `scope` are parameters, and so does all that it is
applied to. -/
inductive Resolves (types : TypeMap Text) (scope : List Text) : TypeIdent → Prop where
  | intro {ident : TypeIdent} {type : TypeDef Text} (head : types.resolve ident scope = .ok type)
      (args : ∀ a ∈ ident.args, Resolves types scope a) : Resolves types scope ident

/-- Each parameter stands for an ident that resolves, and no other name does for anything. -/
structure Binds (types : TypeMap Text) (scope : List Text) (bs : List (Text × TypeIdent)) :
    Prop where
  parameter : ∀ name ∈ scope, ∃ ident, bs.lookup name = some ident ∧ Resolves types [] ident
  other : ∀ name, name ∉ scope → bs.lookup name = none

variable {types : TypeMap Text} {scope : List Text} {ident : TypeIdent} {type : TypeDef Text}
  {bs : List (Text × TypeIdent)}

/-! ## What resolves -/

theorem any_isText {name : Text} : scope.any (Label.isText · name) = true ↔ name ∈ scope := by
  simp [Label.isText, Label.text?]

/-- A parameter stands alone. -/
theorem resolve_parameter (hmem : ident.name ∈ scope) (h : types.resolve ident scope = .ok type) :
    ident.args = [] := by
  unfold TypeMap.resolve at h
  rw [if_pos (any_isText.mpr hmem)] at h
  split at h
  · rename_i hempty
    exact List.isEmpty_iff.mp hempty
  · cases h

/-- Outside of a scope an ident resolves as it does within. -/
theorem resolve_other (hmem : ident.name ∉ scope) :
    types.resolve ident scope = types.resolve ident := by
  unfold TypeMap.resolve
  rw [if_neg (mt any_isText.mp hmem), if_neg (by simp)]

/-- A definition stands for an ident of its name that has an argument for each parameter. -/
theorem resolve_of_find? (hfind : types.find? ident.name = some type)
    (htuple : ∀ items, type ≠ .tuple items) (harity : ident.args.length = type.generics.length) :
    types.resolve ident = .ok type := by
  unfold TypeMap.resolve
  rw [if_neg (by simp), hfind]
  cases type with
  | tuple items => exact absurd rfl (htuple items)
  | _ => exact if_pos harity

/-- What an ident stands for depends on its name and the number of its arguments, but for the items
of a tuple. -/
theorem resolve_of_length {args : List TypeIdent} (h : types.resolve ident = .ok type)
    (hlength : args.length = ident.args.length) :
    ∃ type, types.resolve ⟨ident.name, args⟩ = .ok type := by
  unfold TypeMap.resolve at h ⊢
  simp only [List.any_nil, Bool.false_eq_true, if_false] at h ⊢
  split at h
  · cases h
  · exact ⟨_, rfl⟩
  · rename_i named _ _
    split at h
    · rename_i harity
      exact ⟨named, if_pos (hlength.trans harity)⟩
    · cases h

/-- What an ident stands for shows in the definition that its head names. -/
theorem resolve_eq_ok {ν : Type} [Label ν] {types : TypeMap ν} {ident : TypeIdent}
    {type : TypeDef ν} (h : types.resolve ident = .ok type) :
    ∃ named, types.find? ident.name = some named
      ∧ (type = named ∨ ∃ items, named = .tuple items ∧ type = .tuple ident.args) := by
  unfold TypeMap.resolve at h
  simp only [List.any_nil, Bool.false_eq_true, if_false] at h
  split at h
  · cases h
  · rename_i items hfind
    cases h
    exact ⟨_, hfind, .inr ⟨items, rfl, rfl⟩⟩
  · rename_i named _ hfind
    split at h
    · cases h; exact ⟨_, hfind, .inl rfl⟩
    · cases h

/-- A definition that is found is applied to as many arguments as it has parameters; a tuple has
none and takes any. -/
theorem find?_of_resolve (h : types.resolve ident = .ok type) :
    (types.find? ident.name = some type ∧ ident.args.length = type.generics.length
        ∧ ∀ items, type ≠ .tuple items)
      ∨ type = .tuple ident.args := by
  unfold TypeMap.resolve at h
  simp only [List.any_nil, Bool.false_eq_true, if_false] at h
  split at h
  · cases h
  · cases h
    exact .inr rfl
  · rename_i htuple hfind
    split at h
    · rename_i harity
      cases h
      exact .inl ⟨hfind, harity, htuple⟩
    · cases h

/-- What is no tuple is found under the name, and has a parameter for each argument. -/
theorem named_of_resolve (h : types.resolve ident = .ok type)
    (htuple : ∀ items, type ≠ .tuple items) :
    types.find? ident.name = some type ∧ ident.args.length = type.generics.length := by
  rcases find?_of_resolve h with ⟨hfind, harity, -⟩ | heq
  · exact ⟨hfind, harity⟩
  · exact absurd heq (htuple _)

/-- What is said of an ident that stands for nothing shows no more than the ident. -/
theorem resolve_messageRoom_le {cause : SchemaError}
    (h : types.resolve ident scope = .error cause) : cause.messageRoom ≤ ident.textRoom := by
  unfold TypeMap.resolve at h
  split at h
  · split at h
    · cases h
    · cases h; exact Nat.zero_le _
  · split at h
    · cases h; exact Nat.le_refl _
    · cases h
    · split at h
      · cases h
      · cases h; exact Nat.le_refl _

theorem Resolves.exists_type (h : Resolves types scope ident) :
    ∃ type, types.resolve ident scope = .ok type := by
  cases h with
  | intro head _ => exact ⟨_, head⟩

theorem Resolves.of_mem_args (h : Resolves types scope ident) :
    ∀ a ∈ ident.args, Resolves types scope a := by
  cases h with
  | intro _ args => exact args

/-! ## Substitution -/

theorem length_substituteAll (bs : List (Text × TypeIdent)) (idents : List TypeIdent) :
    (TypeIdent.substituteAll bs idents).length = idents.length := by
  induction idents with
  | nil => rfl
  | cons a as ih => rw [TypeIdent.substituteAll, List.length_cons, ih, List.length_cons]

theorem mem_substituteAll {a : TypeIdent} {idents : List TypeIdent}
    (h : a ∈ TypeIdent.substituteAll bs idents) : ∃ b ∈ idents, a = b.substitute bs := by
  induction idents with
  | nil => rw [TypeIdent.substituteAll] at h; cases h
  | cons b rest ih =>
    rw [TypeIdent.substituteAll] at h
    rcases List.mem_cons.mp h with rfl | h
    · exact ⟨b, List.mem_cons_self, rfl⟩
    · obtain ⟨b', hb', rfl⟩ := ih h
      exact ⟨b', List.mem_cons_of_mem _ hb', rfl⟩

/-- **An ident that resolves under parameters resolves where they are bound.** -/
theorem Resolves.substitute (h : Resolves types scope ident) (hbs : Binds types scope bs) :
    Resolves types [] (ident.substitute bs) := by
  induction h with
  | @intro ident type head args ih =>
    obtain ⟨name, args'⟩ := ident
    cases args' with
    | nil =>
      rw [TypeIdent.substitute]
      by_cases hmem : name ∈ scope
      · obtain ⟨bound, hlookup, hbound⟩ := hbs.parameter name hmem
        rw [hlookup]
        exact hbound
      · rw [hbs.other name hmem]
        rw [resolve_other hmem] at head
        exact .intro head nofun
    | cons a as =>
      -- A name with arguments is no parameter, so only the arguments change.
      have hmem : name ∉ scope := fun hmem => nomatch resolve_parameter hmem head
      rw [resolve_other hmem] at head
      obtain ⟨type', head'⟩ := resolve_of_length head (length_substituteAll bs (a :: as))
      have hcons : TypeIdent.substituteAll bs (a :: as)
          = a.substitute bs :: TypeIdent.substituteAll bs as := by rw [TypeIdent.substituteAll]
      rw [TypeIdent.substitute, ← hcons]
      refine .intro head' fun b hb => ?_
      obtain ⟨c, hc, rfl⟩ := mem_substituteAll hb
      exact ih c hc

/-- **The parameters of a definition are bound by an ident that resolves to it.** -/
theorem binds_bindings {generics : List Text} (hlength : ident.args.length = generics.length)
    (hargs : ∀ a ∈ ident.args, Resolves types [] a) :
    Binds types generics (bindings generics ident) := by
  have hkeys : ∀ name, name ∈ generics ↔ name ∈ (bindings generics ident).map (·.1) := by
    intro name
    unfold bindings
    rw [List.map_reverse, List.mem_reverse, List.map_fst_zip (by omega)]
  constructor
  · intro name hmem
    cases hlookup : (bindings generics ident).lookup name with
    | none =>
      obtain ⟨e, he, hname⟩ := List.mem_map.mp ((hkeys name).mp hmem)
      have hne := List.lookup_eq_none_iff.mp hlookup e he
      simp [hname] at hne
    | some bound =>
      obtain ⟨before, after, hsplit, -⟩ := List.lookup_eq_some_iff.mp hlookup
      have hmem : (name, bound) ∈ bindings generics ident :=
        hsplit ▸ List.mem_append_right before List.mem_cons_self
      have hmem := List.mem_reverse.mp hmem
      exact ⟨bound, rfl, hargs bound (List.of_mem_zip hmem).2⟩
  · intro name hmem
    rw [List.lookup_eq_none_iff]
    intro e he
    by_contra hname
    have heq : name = e.1 := by simpa using hname
    exact hmem ((hkeys name).mpr (heq ▸ List.mem_map_of_mem he))

end WasmBridge
