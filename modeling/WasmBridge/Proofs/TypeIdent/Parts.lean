import WasmBridge.TypeIdent.Basic

/-!
# Parts of type idents

An ident and all that it is applied to, at any depth. Each part stands in front of what it is
applied to, so the first part with some property is the one that is met first when the ident is
gone through from its head. `height` counts the idents that stand in each other.
-/

namespace WasmBridge.TypeIdent

mutual

/-- An ident and all that it is applied to, at any depth. -/
def parts : TypeIdent → List TypeIdent
  | ⟨name, args⟩ => ⟨name, args⟩ :: partsAll args

/-- Some idents and all that they are applied to. -/
def partsAll : List TypeIdent → List TypeIdent
  | [] => []
  | a :: as => parts a ++ partsAll as

end

mutual

theorem names_eq : ∀ ident : TypeIdent, ident.names = ident.parts.map (·.name)
  | ⟨name, args⟩ => by rw [names, parts, List.map_cons, namesAll_eq args]

theorem namesAll_eq : ∀ idents : List TypeIdent, namesAll idents = (partsAll idents).map (·.name)
  | [] => rfl
  | a :: as => by rw [namesAll, partsAll, List.map_append, names_eq a, namesAll_eq as]

end

theorem mem_partsAll {part : TypeIdent} {idents : List TypeIdent} :
    part ∈ partsAll idents ↔ ∃ a ∈ idents, part ∈ a.parts := by
  induction idents with
  | nil => simp [partsAll]
  | cons a as ih => simp [partsAll, ih]

theorem mem_parts {part ident : TypeIdent} :
    part ∈ ident.parts ↔ part = ident ∨ ∃ a ∈ ident.args, part ∈ a.parts := by
  obtain ⟨name, args⟩ := ident
  rw [parts, List.mem_cons, mem_partsAll]

theorem self_mem_parts (ident : TypeIdent) : ident ∈ ident.parts := mem_parts.mpr (.inl rfl)

theorem mem_namesAll_iff {name : Text} {idents : List TypeIdent} :
    name ∈ namesAll idents ↔ ∃ a ∈ idents, ∃ part ∈ a.parts, part.name = name := by
  rw [namesAll_eq, List.mem_map]
  simp only [mem_partsAll]
  exact ⟨fun ⟨part, ⟨a, ha, hpart⟩, hname⟩ => ⟨a, ha, part, hpart, hname⟩,
    fun ⟨a, ha, part, hpart, hname⟩ => ⟨part, ⟨a, ha, hpart⟩, hname⟩⟩

theorem mem_namesAll {ident part : TypeIdent} {idents : List TypeIdent} (h : ident ∈ idents)
    (hpart : part ∈ ident.parts) : part.name ∈ namesAll idents :=
  mem_namesAll_iff.mpr ⟨ident, h, part, hpart, rfl⟩

mutual

/-- How many idents stand in each other, from an ident down to what is applied to nothing. -/
def height : TypeIdent → Nat
  | ⟨_, args⟩ => heightAll args + 1

/-- The greatest height of several idents. -/
def heightAll : List TypeIdent → Nat
  | [] => 0
  | a :: as => Nat.max (height a) (heightAll as)

end

end WasmBridge.TypeIdent
