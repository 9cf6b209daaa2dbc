import Mathlib.Logic.Relation
import WasmBridge.Proofs.Text.Order
import WasmBridge.Proofs.TypeIdent.Parts
import WasmBridge.Schema.Reachability

/-!
# What a visit reaches

Idents refer to idents: to those they are applied to and, through the definition of their
name, to those that the definition is written with. A visit goes through a worklist and
puts aside the declared names that it has seen; `mem_visit_iff` says that from nothing it
sees exactly the declared names that the worklist reaches.

What carries the proof is that a visit leaves no edge out: whatever it has seen and had
not seen before, it has looked up, and the idents that the definition refers to went onto
the worklist. So what is seen in the end is closed, and a chain of references cannot leave
it, however often it comes back to where it was. Builtin names are not put aside, but no
chain goes on from their definitions.
-/

namespace WasmBridge.TypeMap

open Relation

variable {ν : Type} [Label ν] {types : TypeMap ν} {seen : List Text} {name : Text}
  {type : TypeDef ν} {ident : TypeIdent} {idents rest : List TypeIdent}

/-- A name has a definition that is not the builtin one. -/
def Declares (types : TypeMap ν) (name : Text) : Prop :=
  ∃ type, types.find? name = some type ∧ type.isBuiltin name = false

/-- An ident refers to what it is applied to, and to what its definition is written with. -/
def Refers (types : TypeMap ν) (a b : TypeIdent) : Prop :=
  b ∈ a.args ∨ ∃ type, types.find? a.name = some type ∧ b ∈ type.children

/-- A chain of references leads from an ident to another. -/
def Reaches (types : TypeMap ν) : TypeIdent → TypeIdent → Prop := ReflTransGen types.Refers

/-! ## The steps of a visit -/

/-- A name that is not declared, or has been seen, is passed over. -/
theorem visit_cons_passed (h : types.Declares ident.name → ident.name ∈ seen) :
    types.visit seen (ident :: rest) = types.visit seen (ident.args ++ rest) := by
  rw [visit]
  split
  · rfl
  · rename_i type hfind
    by_cases hseen : ident.name ∈ seen
    · rw [dif_pos hseen]
    · have hbuiltin : type.isBuiltin ident.name = true := by
        by_contra hnew
        exact hseen (h ⟨type, hfind, by simpa using hnew⟩)
      rw [dif_neg hseen, dif_pos hbuiltin, TypeDef.children_of_isBuiltin hbuiltin, List.nil_append]

/-- A declared name that has not been seen is put aside, and its definition is followed. -/
theorem visit_cons_declared (hfind : types.find? ident.name = some type)
    (hnew : type.isBuiltin ident.name = false) (hseen : ident.name ∉ seen) :
    types.visit seen (ident :: rest)
      = types.visit (ident.name :: seen) (type.children ++ (ident.args ++ rest)) := by
  rw [visit]
  split
  · rename_i hnone
    cases hfind.symm.trans hnone
  · rename_i found hfound
    cases hfind.symm.trans hfound
    rw [dif_neg hseen, dif_neg (by simp [hnew])]

/-- What holds of all visits if it holds of those that are over, and before each step if it holds
behind it. -/
@[elab_as_elim]
theorem visit_induction (types : TypeMap ν) {P : List Text → List TypeIdent → Prop}
    (done : ∀ seen, P seen [])
    (passed : ∀ seen ident rest, (types.Declares ident.name → ident.name ∈ seen) →
      P seen (ident.args ++ rest) → P seen (ident :: rest))
    (declared : ∀ seen ident rest type, types.find? ident.name = some type →
      type.isBuiltin ident.name = false → ident.name ∉ seen →
      P (ident.name :: seen) (type.children ++ (ident.args ++ rest)) → P seen (ident :: rest))
    (seen : List Text) (idents : List TypeIdent) : P seen idents := by
  induction seen, idents using visit.induct types with
  | case1 seen => exact done seen
  | case2 seen ident rest hnone ih =>
    refine passed seen ident rest ?_ ih
    rintro ⟨type, hfind, -⟩
    cases hnone.symm.trans hfind
  | case3 seen ident rest type hfind hseen ih => exact passed seen ident rest (fun _ => hseen) ih
  | case4 seen ident rest type hfind hseen hbuiltin ih =>
    rw [TypeDef.children_of_isBuiltin hbuiltin, List.nil_append] at ih
    refine passed seen ident rest ?_ ih
    rintro ⟨found, hfound, hnew⟩
    cases hfind.symm.trans hfound
    rw [hbuiltin] at hnew
    cases hnew
  | case5 seen ident rest type hfind hseen hnew ih =>
    exact declared seen ident rest type hfind (by simpa using hnew) hseen ih

theorem mem_visit_of_seen (h : name ∈ seen) : name ∈ types.visit seen idents := by
  induction seen, idents using visit_induction types with
  | done seen => rwa [visit]
  | passed seen ident rest hpassed ih => rw [visit_cons_passed hpassed]; exact ih h
  | declared seen ident rest type hfind hnew hseen ih =>
    rw [visit_cons_declared hfind hnew hseen]
    exact ih (List.mem_cons_of_mem _ h)

/-! ## All that is reached is seen -/

/-- All declared names in an ident are among some names. -/
def Covers (types : TypeMap ν) (names : List Text) (ident : TypeIdent) : Prop :=
  ∀ part ∈ ident.parts, types.Declares part.name → part.name ∈ names

theorem covers_iff {names : List Text} :
    types.Covers names ident ↔ (types.Declares ident.name → ident.name ∈ names)
      ∧ ∀ a ∈ ident.args, types.Covers names a := by
  constructor
  · refine fun h => ⟨h ident ident.self_mem_parts, fun a ha part hpart => h part ?_⟩
    exact TypeIdent.mem_parts.mpr (.inr ⟨a, ha, hpart⟩)
  · rintro ⟨hself, hargs⟩ part hpart
    obtain rfl | ⟨a, ha, hpart⟩ := TypeIdent.mem_parts.mp hpart
    · exact hself
    · exact hargs a ha part hpart

theorem covers_of_mem_work (h : ident ∈ idents) : types.Covers (types.visit seen idents) ident := by
  induction seen, idents using visit_induction types generalizing ident with
  | done seen => cases h
  | passed seen first rest hpassed ih =>
    rw [visit_cons_passed hpassed]
    rcases List.mem_cons.mp h with rfl | h
    · refine covers_iff.mpr ⟨fun hdeclared => mem_visit_of_seen (hpassed hdeclared), ?_⟩
      exact fun a ha => ih (List.mem_append_left _ ha)
    · exact ih (List.mem_append_right _ h)
  | declared seen first rest type hfind hnew hseen ih =>
    rw [visit_cons_declared hfind hnew hseen]
    rcases List.mem_cons.mp h with rfl | h
    · refine covers_iff.mpr ⟨fun _ => mem_visit_of_seen List.mem_cons_self, fun a ha => ih ?_⟩
      exact List.mem_append_right _ (List.mem_append_left _ ha)
    · exact ih (List.mem_append_right _ (List.mem_append_right _ h))

/-- **No edge is left out.** What the definition of a name refers to is seen with the name, as far
as it is declared; the names that were seen before the visit are no concern of it. -/
theorem covers_child (h : name ∈ types.visit seen idents) (hseen : name ∉ seen)
    (hfind : types.find? name = some type) {child : TypeIdent} (hchild : child ∈ type.children) :
    types.Covers (types.visit seen idents) child := by
  induction seen, idents using visit_induction types with
  | done seen => rw [visit] at h; exact absurd h hseen
  | passed seen ident rest hpassed ih => rw [visit_cons_passed hpassed] at h ⊢; exact ih h hseen
  | declared seen ident rest found hfound hnew hfresh ih =>
    rw [visit_cons_declared hfound hnew hfresh] at h ⊢
    by_cases hname : name = ident.name
    · subst hname
      cases hfind.symm.trans hfound
      exact covers_of_mem_work (List.mem_append_left _ hchild)
    · exact ih h (List.not_mem_cons_of_ne_of_not_mem hname hseen)

theorem covers_of_reaches {a b : TypeIdent} (ha : a ∈ idents) (h : types.Reaches a b) :
    types.Covers (types.visit [] idents) b := by
  induction h with
  | refl => exact covers_of_mem_work ha
  | @tail b c _ hrefers ih =>
    obtain ⟨hself, hargs⟩ := covers_iff.mp ih
    rcases hrefers with hc | ⟨type, hfind, hc⟩
    · exact hargs c hc
    · cases hbuiltin : type.isBuiltin b.name with
      | true => rw [TypeDef.children_of_isBuiltin hbuiltin] at hc; cases hc
      | false => exact covers_child (hself ⟨type, hfind, hbuiltin⟩) List.not_mem_nil hfind hc

/-! ## Nothing else is seen -/

theorem reached_of_mem_visit (h : name ∈ types.visit seen idents) :
    name ∈ seen
      ∨ types.Declares name ∧ ∃ a ∈ idents, ∃ b, types.Reaches a b ∧ b.name = name := by
  -- What an argument or a child of the first ident reaches is reached by the first ident.
  have hfirst : ∀ {ident rest}, (∃ a ∈ ident.args ++ rest, ∃ b, types.Reaches a b ∧ b.name = name) →
      ∃ a ∈ ident :: rest, ∃ b, types.Reaches a b ∧ b.name = name := by
    rintro ident rest ⟨a, ha, b, hreaches, hname⟩
    rcases List.mem_append.mp ha with ha | ha
    · exact ⟨ident, List.mem_cons_self, b, .head (.inl ha) hreaches, hname⟩
    · exact ⟨a, List.mem_cons_of_mem _ ha, b, hreaches, hname⟩
  induction seen, idents using visit_induction types with
  | done seen => rw [visit] at h; exact .inl h
  | passed seen ident rest hpassed ih =>
    rw [visit_cons_passed hpassed] at h
    exact (ih h).imp_right (.imp_right hfirst)
  | declared seen ident rest type hfind hnew hseen ih =>
    rw [visit_cons_declared hfind hnew hseen] at h
    rcases ih h with hmem | ⟨hdeclared, a, ha, b, hreaches, hname⟩
    · rcases List.mem_cons.mp hmem with rfl | hmem
      · exact .inr ⟨⟨type, hfind, hnew⟩, ident, List.mem_cons_self, ident, .refl, rfl⟩
      · exact .inl hmem
    · refine .inr ⟨hdeclared, ?_⟩
      rcases List.mem_append.mp ha with ha | ha
      · exact ⟨ident, List.mem_cons_self, b, .head (.inr ⟨type, hfind, ha⟩) hreaches, hname⟩
      · exact hfirst ⟨a, ha, b, hreaches, hname⟩

/-- **A visit sees the declared names that its worklist reaches, and no others.** -/
theorem mem_visit_iff :
    name ∈ types.visit [] idents
      ↔ types.Declares name ∧ ∃ a ∈ idents, ∃ b, types.Reaches a b ∧ b.name = name := by
  constructor
  · intro h
    exact (reached_of_mem_visit h).resolve_left List.not_mem_nil
  · rintro ⟨hdeclared, a, ha, b, hreaches, rfl⟩
    exact covers_of_reaches ha hreaches b b.self_mem_parts hdeclared

theorem mem_referenced :
    name ∈ types.referenced idents
      ↔ types.Declares name ∧ ∃ a ∈ idents, ∃ b, types.Reaches a b ∧ b.name = name := by
  rw [referenced, List.mem_mergeSort, mem_visit_iff]

theorem nodup_visit (h : seen.Nodup) : (types.visit seen idents).Nodup := by
  induction seen, idents using visit_induction types with
  | done seen => rwa [visit]
  | passed seen ident rest hpassed ih => rw [visit_cons_passed hpassed]; exact ih h
  | declared seen ident rest type hfind hnew hseen ih =>
    rw [visit_cons_declared hfind hnew hseen]
    exact ih (List.nodup_cons.mpr ⟨hseen, h⟩)

/-- **The references of some idents are what they reach.** They are the names of declared types that
a chain of references leads to, each once, and which idents stand in the list decides about them
alone, not in what order or how often. -/
theorem referenced_eq_reachable (types : TypeMap ν) (idents : List TypeIdent) :
    (∀ name, name ∈ types.referenced idents
      ↔ (∃ type, types.find? name = some type ∧ type.isBuiltin name = false)
        ∧ ∃ a ∈ idents, ∃ b, types.Reaches a b ∧ b.name = name)
      ∧ (types.referenced idents).Nodup
      ∧ ∀ others, (∀ a, a ∈ others ↔ a ∈ idents) →
          types.referenced others = types.referenced idents := by
  refine ⟨fun name => mem_referenced, ?_, fun others hmem => ?_⟩
  · exact (List.mergeSort_perm _ _).nodup_iff.mpr (nodup_visit List.nodup_nil)
  · have hnodup : ∀ idents, (types.visit [] idents).Nodup := fun _ => nodup_visit List.nodup_nil
    refine Text.mergeSort_eq (hnodup others) (hnodup idents) fun name => ?_
    rw [mem_visit_iff, mem_visit_iff]
    simp only [hmem]

/-- Trees of forests of trees: the definitions go round in a circle, through a builtin list. -/
theorem referenced_eq_reachable_forest :
    let tree : TypeDef Text := .struct "Tree" ["T"]
      [{ name := "label", type := ⟨"T", []⟩ }, { name := "below", type := ⟨"Forest", []⟩ }] []
    let forest : TypeDef Text := .synonym "Forest" ⟨"Vec", [⟨"Tree", [⟨"Forest", []⟩]⟩]⟩
    let types := ofTypes [tree, forest]
    let idents : List TypeIdent := [⟨"Option", [⟨"Forest", []⟩]⟩, ⟨"u8", []⟩]
    let others : List TypeIdent := ⟨"u8", []⟩ :: idents
    (∀ a, a ∈ others ↔ a ∈ idents) ∧ types.referenced others = types.referenced idents
      ∧ ("Tree" : Text) ∈ types.referenced others := by
  intro tree forest types idents others
  have hsame : ∀ a, a ∈ others ↔ a ∈ idents := by simp [others, idents]
  have hforest : types.find? "Forest" = some forest := rfl
  have htree : ∃ type, types.find? "Tree" = some type ∧ type.isBuiltin "Tree" = false :=
    ⟨tree, rfl, rfl⟩
  have hreaches : types.Reaches ⟨"Option", [⟨"Forest", []⟩]⟩ ⟨"Tree", [⟨"Forest", []⟩]⟩ :=
    .head (.inl List.mem_cons_self) (.head (.inr ⟨forest, hforest, List.mem_cons_self⟩)
      (.single (.inl List.mem_cons_self)))
  obtain ⟨hreferenced, -, hequal⟩ := referenced_eq_reachable types idents
  refine ⟨hsame, hequal others hsame, ?_⟩
  rw [hequal others hsame]
  exact (hreferenced "Tree").mpr ⟨htree, _, List.mem_cons_self, _, hreaches, rfl⟩

/-! ## References by name -/

/-- The definition of a name mentions another name, in an ident at any depth. -/
def Mentions (types : TypeMap ν) (a b : Text) : Prop :=
  ∃ type, types.find? a = some type ∧ b ∈ TypeIdent.namesAll type.children

/-- A chain of mentions leads from a name to another. -/
def Needs (types : TypeMap ν) : Text → Text → Prop := ReflTransGen types.Mentions

mutual

theorem reaches_of_mem_parts : ∀ (ident : TypeIdent) {part : TypeIdent}, part ∈ ident.parts →
    types.Reaches ident part
  | ⟨name, args⟩, part, h => by
    rw [TypeIdent.parts] at h
    rcases List.mem_cons.mp h with rfl | h
    · exact .refl
    · obtain ⟨a, ha, hreaches⟩ := reaches_of_mem_partsAll args h
      exact .head (.inl ha) hreaches

theorem reaches_of_mem_partsAll : ∀ (idents : List TypeIdent) {part : TypeIdent},
    part ∈ TypeIdent.partsAll idents → ∃ a ∈ idents, types.Reaches a part
  | a :: as, part, h => by
    rw [TypeIdent.partsAll] at h
    rcases List.mem_append.mp h with h | h
    · exact ⟨a, List.mem_cons_self, reaches_of_mem_parts a h⟩
    · obtain ⟨b, hb, hreaches⟩ := reaches_of_mem_partsAll as h
      exact ⟨b, List.mem_cons_of_mem _ hb, hreaches⟩

end

/-- A chain of references is a chain of mentions between the names of parts. -/
theorem needs_of_reaches {a b part : TypeIdent} (h : types.Reaches a b) (hpart : part ∈ b.parts) :
    ∃ first ∈ a.parts, types.Needs first.name part.name := by
  induction h generalizing part with
  | refl => exact ⟨part, hpart, .refl⟩
  | @tail b c _ hrefers ih =>
    rcases hrefers with hc | ⟨type, hfind, hc⟩
    · exact ih (TypeIdent.mem_parts.mpr (.inr ⟨c, hc, hpart⟩))
    · obtain ⟨first, hfirst, hneeds⟩ := ih b.self_mem_parts
      exact ⟨first, hfirst, hneeds.tail ⟨type, hfind, TypeIdent.mem_namesAll hc hpart⟩⟩

theorem reaches_of_needs {a part : TypeIdent} (hpart : part ∈ a.parts)
    (h : types.Needs part.name name) : ∃ b, types.Reaches a b ∧ b.name = name := by
  induction h with
  | refl => exact ⟨part, reaches_of_mem_parts a hpart, rfl⟩
  | tail _ hmentions ih =>
    obtain ⟨b, hreaches, rfl⟩ := ih
    obtain ⟨type, hfind, hname⟩ := hmentions
    obtain ⟨child, hchild, last, hlast, rfl⟩ := TypeIdent.mem_namesAll_iff.mp hname
    have hstep : types.Reaches a child := hreaches.tail (.inr ⟨type, hfind, hchild⟩)
    exact ⟨last, hstep.trans (reaches_of_mem_parts child hlast), rfl⟩

/-- The references of some idents are the names that they need and that the map does not define as
every map does. -/
theorem mem_referenced_iff :
    name ∈ types.referenced idents
      ↔ (∃ type, types.find? name = some type ∧ type.isBuiltin name = false)
        ∧ ∃ a ∈ TypeIdent.namesAll idents, types.Needs a name := by
  rw [mem_referenced]
  refine and_congr_right fun _ => ⟨?_, ?_⟩
  · rintro ⟨a, ha, b, hreaches, rfl⟩
    obtain ⟨first, hfirst, hneeds⟩ := needs_of_reaches hreaches b.self_mem_parts
    exact ⟨first.name, TypeIdent.mem_namesAll ha hfirst, hneeds⟩
  · rintro ⟨first, hfirst, hneeds⟩
    obtain ⟨a, ha, part, hpart, rfl⟩ := TypeIdent.mem_namesAll_iff.mp hfirst
    exact ⟨a, ha, reaches_of_needs hpart hneeds⟩

end WasmBridge.TypeMap
