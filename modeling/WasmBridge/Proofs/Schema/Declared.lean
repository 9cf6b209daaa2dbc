import WasmBridge.Bindings.Target
import WasmBridge.Proofs.Outcome

/-!
# Which types are declared

Bindings declare the types of an interface that are not builtin and that cross the
boundary. The type map of an interface holds nothing else: a definition that is found in
it is a builtin one or one of the types that are sent or received. So each of its
definitions of a kind that builtin types do not have is declared.
-/

namespace WasmBridge

open Outcome

/-- The definition is of a kind that no builtin type is of. -/
def TypeDef.isMade {ν : Type} : TypeDef ν → Bool
  | .synonym .. | .struct .. | .enum .. => true
  | _ => false

/-- A type that has members, and whose declaration derives something. -/
def TypeDef.isDerived {ν : Type} : TypeDef ν → Bool
  | .struct .. | .enum .. => true
  | _ => false

variable {types : TypeMap Text} {name : Text} {type : TypeDef Text} {given : List (TypeDef Text)}
  {e : Text × TypeDef Text}

/-! ## What a type map holds -/

namespace TypeMap

theorem mem_entries_of_find? (h : types.find? name = some type) : (name, type) ∈ types.entries := by
  obtain ⟨⟨n, t⟩, hfind, rfl⟩ := Option.map_eq_some_iff.mp h
  have hname : n = name := by simpa [Label.isText, Label.text?] using List.find?_some hfind
  rw [← hname]
  exact List.mem_of_find?_eq_some hfind

theorem mem_insertEntry {entries : List (Text × TypeDef Text)}
    (h : e ∈ insertEntry name type entries) : e ∈ entries ∨ e = (name, type) := by
  induction entries with
  | nil => exact .inr (List.mem_singleton.mp h)
  | cons first rest ih =>
    obtain ⟨n, t⟩ := first
    rw [insertEntry] at h
    split at h
    · rename_i hsame
      have hn : n = name := by simpa [Label.same] using hsame
      rcases List.mem_cons.mp h with rfl | h
      · exact .inr (by rw [hn])
      · exact .inl (List.mem_cons_of_mem _ h)
    · rcases List.mem_cons.mp h with rfl | h
      · exact .inl List.mem_cons_self
      · exact (ih h).imp_left (List.mem_cons_of_mem _)

theorem find?_of_mem {e : Text × TypeDef Text} (hnodup : (types.entries.map (·.1)).Nodup)
    (h : e ∈ types.entries) : types.find? e.1 = some e.2 := by
  refine Option.map_eq_some_iff.mpr ⟨e, ?_, rfl⟩
  obtain ⟨before, after, hsplit⟩ := List.append_of_mem h
  rw [hsplit, List.map_append, List.map_cons] at hnodup
  have hnew : e.1 ∉ before.map (·.1) :=
    fun hmem => (List.nodup_append.mp hnodup).2.2 _ hmem _ List.mem_cons_self rfl
  rw [List.find?_eq_some_iff_append]
  refine ⟨by simp [Label.isText, Label.text?], before, after, hsplit, fun e' he' => ?_⟩
  have hne : e'.1 ≠ e.1 := fun hsame => hnew (hsame ▸ List.mem_map_of_mem he')
  simpa [Label.isText, Label.text?] using hne

theorem nodup_insertEntry {entries : List (Text × TypeDef Text)}
    (h : (entries.map (·.1)).Nodup) : ((insertEntry name type entries).map (·.1)).Nodup := by
  induction entries with
  | nil => exact List.nodup_cons.mpr ⟨nofun, List.nodup_nil⟩
  | cons first rest ih =>
    obtain ⟨n, t⟩ := first
    obtain ⟨hnew, hrest⟩ := List.nodup_cons.mp h
    rw [insertEntry]
    split
    · exact h
    · rename_i hsame
      have hn : n ≠ name := by simpa [Label.same] using hsame
      refine List.nodup_cons.mpr ⟨fun hmem => ?_, ih hrest⟩
      obtain ⟨e, he, heq⟩ := List.mem_map.mp hmem
      rcases mem_insertEntry he with he | rfl
      · exact hnew (heq ▸ List.mem_map_of_mem he)
      · exact hn heq.symm

/-- No name has two entries. -/
theorem nodup_ofTypes (given : List (TypeDef Text)) :
    ((ofTypes given).entries.map (·.1)).Nodup := by
  have hbuiltin : ((builtin : TypeMap Text).entries.map (·.1)).Nodup := by decide +kernel
  unfold ofTypes
  generalize (builtin : TypeMap Text) = types at hbuiltin ⊢
  induction given generalizing types with
  | nil => exact hbuiltin
  | cons type rest ih =>
    rw [List.foldl_cons]
    cases type with
    | generic parameter => exact ih _ hbuiltin
    | _ => exact ih _ (nodup_insertEntry hbuiltin)

/-- **What is found in a type map is builtin or given.** -/
theorem mem_ofTypes (h : e ∈ (ofTypes given).entries) :
    e ∈ (builtin : TypeMap Text).entries
      ∨ (e.2 ∈ given ∧ e.1 = e.2.name ∧ ∀ parameter, e.2 ≠ .generic parameter) := by
  unfold ofTypes at h
  -- The types that come later may take the place of those that the map has already.
  generalize (builtin : TypeMap Text) = types at h ⊢
  induction given generalizing types with
  | nil => exact .inl h
  | cons type rest ih =>
    rw [List.foldl_cons] at h
    rcases ih _ h with hmem | ⟨hmem, hrest⟩
    · cases type with
      | generic parameter => exact .inl hmem
      | _ =>
        rcases mem_insertEntry hmem with hmem | rfl
        · exact .inl hmem
        · exact .inr ⟨List.mem_cons_self, rfl, nofun⟩
    · exact .inr ⟨List.mem_cons_of_mem _ hmem, hrest⟩

theorem builtin_flat (h : e ∈ (builtin : TypeMap Text).entries) :
    e.2.isMade = false ∧ ∀ parameter, e.2 ≠ .generic parameter := by
  have hall : ∀ e ∈ (builtinTypes : List (Text × TypeDef Text)),
      e.2.isMade = false ∧ ∀ parameter, e.2 ≠ .generic parameter := by
    simp [builtinTypes, compoundTypes, Primitive.all, TypeDef.isMade, bytesType]
  obtain ⟨e', he', rfl⟩ := List.mem_map.mp h
  exact hall e' he'

/-- No parameter is defined. -/
theorem find?_ofTypes_ne_generic {parameter : Text}
    (h : (ofTypes given).find? name = some (.generic parameter)) : False := by
  rcases mem_ofTypes (mem_entries_of_find? h) with hmem | ⟨-, -, hne⟩
  · exact (builtin_flat hmem).2 parameter rfl
  · exact hne parameter rfl

end TypeMap

theorem isBuiltin_made (h : type.isMade = true) (name : Text) : type.isBuiltin name = false := by
  unfold TypeDef.isBuiltin
  split
  · rename_i builtin _
    cases type with
    | synonym | struct | enum => cases builtin <;> rfl
    | _ => cases h
  · rfl

/-! ## What bindings declare -/

theorem ordered_texts (labels : List Text) : Label.ordered labels = true := by
  induction labels with
  | nil => rfl
  | cons label labels ih => simp [Label.ordered, Label.order?, ih]

theorem mem_sortBy {α : Type} {label : α → Text} {a : α} {things : List α} :
    a ∈ Label.sortBy label things ↔ a ∈ things := by
  unfold Label.sortBy
  dsimp only
  rw [if_pos (by simp [Label.isPlaced])]
  exact List.mem_mergeSort

theorem mem_declarations {ds : List (TypeDef Text)} (hds : types.declarations = .ok ds)
    (hfind : types.find? name = some type) (hmade : type.isMade = true) : type ∈ ds := by
  unfold TypeMap.declarations at hds
  dsimp only at hds
  split at hds
  · cases hds
    refine mem_sortBy.mpr (List.mem_map.mpr ⟨(name, type), ?_, rfl⟩)
    refine List.mem_filter.mpr ⟨TypeMap.mem_entries_of_find? hfind, ?_⟩
    simp [Label.text?, isBuiltin_made hmade]
  · cases hds

/-- **Each definition of an interface that is no builtin one is declared.** -/
theorem mem_declared {i : Interface Text} {settings : Settings} {ds : List (TypeDef Text)}
    (hds : (i.source settings).declared = .ok ds)
    (hfind : (i.source settings).types.find? name = some type) (hmade : type.isMade = true) :
    type ∈ ds := by
  obtain ⟨all, hall, heq⟩ := bind_eq_ok.mp hds
  cases heq
  refine List.mem_filter.mpr ⟨mem_declarations hall hfind hmade, ?_⟩
  rcases TypeMap.mem_ofTypes (TypeMap.mem_entries_of_find? hfind) with hmem | ⟨hmem, -, -⟩
  · rw [(TypeMap.builtin_flat hmem).1] at hmade
    cases hmade
  · rcases List.mem_append.mp hmem with hsent | hreceived
    · have : (i.source settings).sends type.name = true :=
        List.any_eq_true.mpr ⟨type.name, List.mem_map_of_mem hsent, by simp [Label.same]⟩
      rw [this, Bool.true_or]
    · have : (i.source settings).receives type.name = true :=
        List.any_eq_true.mpr ⟨type.name, List.mem_map_of_mem hreceived, by simp [Label.same]⟩
      rw [this, Bool.or_true]

/-- A declared definition of a kind that builtin types do not have is found by its name. -/
theorem find?_of_declared {i : Interface Text} {settings : Settings} {ds : List (TypeDef Text)}
    (hds : (i.source settings).declared = .ok ds) (htype : type ∈ ds)
    (hmade : type.isMade = true) : (i.source settings).types.find? type.name = some type := by
  obtain ⟨all, hall, heq⟩ := bind_eq_ok.mp hds
  cases heq
  have hmem : type ∈ all := (List.mem_filter.mp htype).1
  unfold TypeMap.declarations at hall
  dsimp only at hall
  split at hall
  · cases hall
    obtain ⟨e, he, rfl⟩ := List.mem_map.mp (mem_sortBy.mp hmem)
    have hentry : e ∈ (i.source settings).types.entries := (List.mem_filter.mp he).1
    rcases TypeMap.mem_ofTypes hentry with hbuiltin | ⟨-, hname, -⟩
    · rw [(TypeMap.builtin_flat hbuiltin).1] at hmade
      cases hmade
    · rw [← hname]
      exact TypeMap.find?_of_mem (TypeMap.nodup_ofTypes _) hentry
  · cases hall

end WasmBridge
