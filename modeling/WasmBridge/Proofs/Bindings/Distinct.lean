import Mathlib.Data.List.Nodup
import WasmBridge.Bindings.Distinct
import WasmBridge.Proofs.Outcome

/-!
# Names that have been checked

A target goes through the names of some members, rendered, and stops at the first that it
has seen. When it gets to the end, no two of them were the same. What the codec needs of
this is about wire keys: those of the fields of a struct are distinct, and so are those of
the variants of an enum.
-/

namespace WasmBridge

open Outcome

theorem firstClash_eq_none {entries seen : List (Text × Text)}
    (h : firstClash seen entries = none) :
    (entries.map (·.2)).Nodup ∧ ∀ e ∈ entries, seen.lookup e.2 = none := by
  induction entries generalizing seen with
  | nil => exact ⟨List.nodup_nil, nofun⟩
  | cons e rest ih =>
    obtain ⟨label, form⟩ := e
    rw [firstClash] at h
    split at h
    · cases h
    · rename_i hnew
      obtain ⟨hnodup, hseen⟩ := ih h
      -- a form that was seen now is not seen again
      have hfresh : ∀ e ∈ rest, e.2 ≠ form ∧ seen.lookup e.2 = none := by
        intro e he
        have hlookup := hseen e he
        rw [List.lookup_cons] at hlookup
        split at hlookup
        · cases hlookup
        · rename_i hne
          exact ⟨by simpa using hne, hlookup⟩
      refine ⟨List.nodup_cons.mpr ⟨fun hmem => ?_, hnodup⟩, fun e he => ?_⟩
      · obtain ⟨e, he, heq⟩ := List.mem_map.mp hmem
        exact (hfresh e he).1 heq
      · rcases List.mem_cons.mp he with rfl | he
        · exact hnew
        · exact (hfresh e he).2

theorem checkDistinct_eq_ok {target kind : Text} {entries : List (Text × Text)}
    (h : checkDistinct target kind entries = .ok ()) : (entries.map (·.2)).Nodup := by
  unfold checkDistinct at h
  split at h
  · cases h
  · rename_i hnone
    exact (firstClash_eq_none hnone).1

/-- Texts are rendered all. -/
theorem rendered_texts (render : Text → Text) (members : List (Text × Text)) :
    rendered render members = (members.map fun m => (m.1, render m.2), .ok ()) := by
  induction members with
  | nil => rfl
  | cons m rest ih =>
    obtain ⟨label, name⟩ := m
    have htext : Label.text name = .ok name := rfl
    rw [rendered, htext]
    simp only [ih, List.map_cons]

theorem checkMembers_eq_ok {target kind : Text} {render : Text → Text}
    {members : List (Text × Text)} (h : checkMembers target kind render members = .ok ()) :
    (members.map fun m => render m.2).Nodup := by
  unfold checkMembers at h
  rw [rendered_texts] at h
  obtain ⟨_, hdistinct, _⟩ := bind_eq_ok.mp h
  have hnodup := checkDistinct_eq_ok hdistinct
  rwa [List.map_map] at hnodup

/-- **No two fields of a struct that has been checked have one wire key.** -/
theorem nodup_fieldWireKeys {target owner : Text} {fields : List (Field Text)}
    (h : checkFieldNames target owner fields = .ok ()) :
    (fields.map fun f => fieldWireKey f.name).Nodup := by
  obtain ⟨_, _, h⟩ := bind_eq_ok.mp h
  have hnodup := checkMembers_eq_ok h
  rwa [List.map_map] at hnodup

/-- **No two variants of an enum that has been checked have one wire key.** -/
theorem nodup_variantWireKeys {target name : Text} {generics : List Text}
    {variants : List (Variant Text)} {options : EnumOptions Text} {doc : List Text}
    (h : checkMemberNames target (.enum name generics variants options doc) = .ok ()) :
    (variants.map fun v => variantWireKey v.name options.variantCasing).Nodup := by
  obtain ⟨_, _, h⟩ := bind_eq_ok.mp h
  obtain ⟨_, h, _⟩ := bind_eq_ok.mp h
  have hnodup := checkMembers_eq_ok h
  rwa [List.map_map] at hnodup

/-- The fields that a variant of such an enum carries are checked as those of a struct are. -/
theorem nodup_payloadWireKeys {target name carried : Text} {generics parameters : List Text}
    {variants : List (Variant Text)} {options : EnumOptions Text} {doc doc' : List Text}
    {variant : Variant Text} {fields : List (Field Text)}
    (h : checkMemberNames target (.enum name generics variants options doc) = .ok ())
    (hvariant : variant ∈ variants)
    (hpayload : variant.payload = .struct carried parameters fields doc') :
    (fields.map fun f => fieldWireKey f.name).Nodup := by
  obtain ⟨_, _, h⟩ := bind_eq_ok.mp h
  obtain ⟨_, _, h⟩ := bind_eq_ok.mp h
  have hfields := of_mem_forM h hvariant
  rw [hpayload] at hfields
  exact nodup_fieldWireKeys hfields

/-- Checking all names ends with those of declared types. -/
theorem forM_declared_of_checkNames {s : BindingSource Text} {target : Text}
    (h : s.checkNames target = .ok ()) :
    (do (← s.declared).forM (checkMemberNames target)) = .ok () := by
  unfold BindingSource.checkNames at h
  dsimp only at h
  have hrest : (do
      checkFunctionNames target s.imports
      checkFunctionNames target s.exports
      (← s.declared).forM (checkMemberNames target)) = .ok () := by
    split at h
    · obtain ⟨_, _, h⟩ := bind_eq_ok.mp h
      cases h
    · exact h
  obtain ⟨_, _, hrest⟩ := bind_eq_ok.mp hrest
  obtain ⟨_, _, hrest⟩ := bind_eq_ok.mp hrest
  exact hrest

theorem declared_of_checkNames {s : BindingSource Text} {target : Text}
    (h : s.checkNames target = .ok ()) : ∃ declared, s.declared = .ok declared := by
  obtain ⟨declared, hdeclared, -⟩ := bind_eq_ok.mp (forM_declared_of_checkNames h)
  exact ⟨declared, hdeclared⟩

/-- All declared types have been checked if all names have. -/
theorem checked_of_checkNames {s : BindingSource Text} {target : Text} {type : TypeDef Text}
    {declared : List (TypeDef Text)} (h : s.checkNames target = .ok ())
    (hdeclared : s.declared = .ok declared) (htype : type ∈ declared) :
    checkMemberNames target type = .ok () := by
  have hchecked := forM_declared_of_checkNames h
  rw [hdeclared, bind_ok] at hchecked
  exact of_mem_forM hchecked htype

end WasmBridge
