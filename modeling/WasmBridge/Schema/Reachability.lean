import WasmBridge.Schema.TypeMap

/-!
# Reachable types

Which declared types some idents need: those that the idents name at any depth, those that the
definitions of these name, and so on. A definition names the types of its members; a member whose
type is one of the definition's own parameters names none.

Definitions may go round in circles, through declared types only. So it is enough to remember the
declared types that have been seen: all that is followed in between are the arguments of idents.
-/

namespace WasmBridge

variable {ν : Type} [Label ν]

/-- The idents that are no parameters of a declaration. -/
def exceptParameters (generics : List ν) (idents : List TypeIdent) : List TypeIdent :=
  idents.filter fun type => !generics.any (Label.isText · type.name)

mutual

/-- The idents that a definition refers to. -/
def TypeDef.children : TypeDef ν → List TypeIdent
  | .synonym _ aliased => [aliased]
  | .struct _ generics fields _ => exceptParameters generics (fields.map (·.type))
  | .enum _ generics variants _ _ =>
    exceptParameters generics (Variant.childrenAll variants)
  | .tuple items => items
  | _ => []

/-- The idents that the payloads of some variants refer to. -/
def Variant.childrenAll : List (Variant ν) → List TypeIdent
  | [] => []
  | .mk _ payload _ :: rest => payload.children ++ Variant.childrenAll rest

end

/-- A builtin type refers to no other. -/
theorem TypeDef.children_of_isBuiltin {name : Text} {type : TypeDef ν}
    (h : type.isBuiltin name = true) : type.children = [] := by
  have hall : ∀ e ∈ (builtinTypes : List (Text × TypeDef ν)),
      type.sameFlat e.2 = true → type.children = [] := by
    cases type <;>
      simp [builtinTypes, compoundTypes, Primitive.all, bytesType, TypeDef.sameFlat, children]
  unfold isBuiltin at h
  split at h
  · rename_i builtin hlookup
    obtain ⟨before, after, hsplit, -⟩ := List.lookup_eq_some_iff.mp hlookup
    exact hall (name, builtin) (hsplit ▸ List.mem_append_right before List.mem_cons_self) h
  · cases h

namespace TypeIdent

theorem namesAll_append (as bs : List TypeIdent) :
    namesAll (as ++ bs) = namesAll as ++ namesAll bs := by
  induction as with
  | nil => rfl
  | cons a as ih => rw [List.cons_append, namesAll, namesAll, ih, List.append_assoc]

/-- An ident gives way to what it is applied to, and one name is gone. -/
theorem length_namesAll_lt (ident : TypeIdent) (rest : List TypeIdent) :
    (namesAll (ident.args ++ rest)).length < (namesAll (ident :: rest)).length := by
  obtain ⟨name, args⟩ := ident
  rw [namesAll_append, namesAll, names, List.cons_append]
  exact Nat.lt_succ_self _

end TypeIdent

namespace TypeMap

/-- The defined names that are texts. -/
def keys (types : TypeMap ν) : List Text := types.entries.filterMap fun e => Label.text? e.1

/-- The defined names that are not among `seen`. -/
def unseen (types : TypeMap ν) (seen : List Text) : List Text :=
  types.keys.filter fun name => name ∉ seen

/-- A name that is found is among the names. -/
theorem mem_keys_of_find? {types : TypeMap ν} {name : Text} {type : TypeDef ν}
    (h : types.find? name = some type) : name ∈ types.keys := by
  simp only [find?, Option.map_eq_some_iff] at h
  obtain ⟨e, he, -⟩ := h
  refine List.mem_filterMap.2 ⟨e, List.mem_of_find?_eq_some he, ?_⟩
  simpa [Label.isText] using List.find?_some he

/-- Seeing a defined name leaves fewer to be seen. -/
theorem unseen_cons_lt {types : TypeMap ν} {seen : List Text} {name : Text}
    (hmem : name ∈ types.keys) (hseen : name ∉ seen) :
    (types.unseen (name :: seen)).length < (types.unseen seen).length := by
  have hsplit : types.unseen (name :: seen) = (types.unseen seen).filter fun n => n ≠ name := by
    simp only [unseen, List.filter_filter, List.mem_cons, not_or]
    congr 1
    funext n
    by_cases hn : n = name <;> simp [hn]
  rw [hsplit, List.length_filter_lt_length_iff_exists]
  exact ⟨name, by simpa [unseen, hseen] using hmem, by simp⟩

/-- The names of the declared types that are seen from `seen` when the idents of a worklist are
followed too. A builtin type is put aside nowhere and looked up wherever it stands. -/
def visit (types : TypeMap ν) (seen : List Text) : List TypeIdent → List Text
  | [] => seen
  | ident :: rest =>
    match _ : types.find? ident.name with
    | none => visit types seen (ident.args ++ rest)
    | some type =>
      if _ : ident.name ∈ seen then visit types seen (ident.args ++ rest)
      else if _ : type.isBuiltin ident.name then
        visit types seen (type.children ++ (ident.args ++ rest))
      else visit types (ident.name :: seen) (type.children ++ (ident.args ++ rest))
  termination_by work => ((types.unseen seen).length, (TypeIdent.namesAll work).length)
  decreasing_by
    · exact Prod.Lex.right _ (TypeIdent.length_namesAll_lt ident rest)
    · exact Prod.Lex.right _ (TypeIdent.length_namesAll_lt ident rest)
    · rw [TypeDef.children_of_isBuiltin ‹_›]
      exact Prod.Lex.right _ (TypeIdent.length_namesAll_lt ident rest)
    · exact Prod.Lex.left _ _ (unseen_cons_lt (mem_keys_of_find? ‹_›) ‹_›)

/-- The names of the declared types that some idents need, in order. -/
def referenced (types : TypeMap ν) (idents : List TypeIdent) : List Text :=
  (types.visit [] idents).mergeSort fun s t => (compare s t).isLE

end TypeMap

end WasmBridge
