import WasmBridge.Proofs.Schema.Declared
import WasmBridge.Proofs.Text.Order

/-!
# Type maps of rearranged types

A type map keeps its entries in the order in which names were first defined, and of two definitions
with one name it keeps the later. Where no two given types share a name without being the same, no
definition gives way to another one that was given: the entries are the given types and those
builtin ones whose names are free. So types that are given in another order, or more than once, lead
to the same entries in another order. Lookups do not tell such maps apart, and neither do the
declarations, which are put in order by their names.
-/

namespace WasmBridge

/-- Types of one name are the same. -/
def NamedOnce (given : List (TypeDef Text)) : Prop :=
  ∀ a ∈ given, ∀ b ∈ given, a.name = b.name → a = b

theorem NamedOnce.tail {type : TypeDef Text} {rest : List (TypeDef Text)}
    (h : NamedOnce (type :: rest)) : NamedOnce rest :=
  fun a ha b hb => h a (List.mem_cons_of_mem _ ha) b (List.mem_cons_of_mem _ hb)

theorem NamedOnce.of_mem_iff {given others : List (TypeDef Text)} (h : NamedOnce given)
    (hmem : ∀ t, t ∈ others ↔ t ∈ given) : NamedOnce others :=
  fun a ha b hb => h a ((hmem a).mp ha) b ((hmem b).mp hb)

namespace TypeMap

variable {name : Text} {type : TypeDef Text} {given others : List (TypeDef Text)}
  {e : Text × TypeDef Text}

/-! ## The entries of a map -/

theorem mem_insertEntry_iff {entries : List (Text × TypeDef Text)}
    (hnodup : (entries.map (·.1)).Nodup) :
    e ∈ insertEntry name type entries ↔ e = (name, type) ∨ (e ∈ entries ∧ e.1 ≠ name) := by
  induction entries with
  | nil => simp [insertEntry]
  | cons first rest ih =>
    obtain ⟨n, t⟩ := first
    obtain ⟨hnew, hrest⟩ := List.nodup_cons.mp hnodup
    rw [insertEntry]
    split
    · rename_i hsame
      have hn : n = name := by simpa [Label.same] using hsame
      -- The name is not found again behind the entry that gives way.
      have hother (he : e ∈ rest) : e.1 ≠ name := by
        rintro rfl
        exact hnew (List.mem_map.mpr ⟨e, he, hn.symm⟩)
      rw [List.mem_cons, List.mem_cons, hn]
      constructor
      · exact Or.imp_right fun he => ⟨.inr he, hother he⟩
      · rintro (rfl | ⟨rfl | he, hne⟩)
        · exact .inl rfl
        · exact absurd rfl hne
        · exact .inr he
    · rename_i hsame
      have hn : n ≠ name := by simpa [Label.same] using hsame
      rw [List.mem_cons, List.mem_cons, ih hrest]
      constructor
      · rintro (rfl | rfl | ⟨he, hne⟩)
        · exact .inr ⟨.inl rfl, hn⟩
        · exact .inl rfl
        · exact .inr ⟨.inr he, hne⟩
      · rintro (rfl | ⟨rfl | he, hne⟩)
        · exact .inr (.inl rfl)
        · exact .inl rfl
        · exact .inr (.inr ⟨he, hne⟩)

/-- An entry is that of a given type; parameters have none. -/
def IsGiven (given : List (TypeDef Text)) (e : Text × TypeDef Text) : Prop :=
  e.2 ∈ given ∧ e.1 = e.2.name ∧ ∀ parameter, e.2 ≠ .generic parameter

theorem isGiven_cons {rest : List (TypeDef Text)} (htype : ∀ parameter, type ≠ .generic parameter) :
    IsGiven (type :: rest) e ↔ e = (type.name, type) ∨ IsGiven rest e := by
  obtain ⟨n, t⟩ := e
  constructor
  · rintro ⟨ht, hn, hne⟩
    rcases List.mem_cons.mp ht with rfl | ht
    · exact .inl (congrArg (·, t) hn)
    · exact .inr ⟨ht, hn, hne⟩
  · rintro (heq | ⟨ht, hn, hne⟩)
    · cases heq
      exact ⟨List.mem_cons_self, rfl, htype⟩
    · exact ⟨List.mem_cons_of_mem _ ht, hn, hne⟩

theorem isGiven_generic_cons {rest : List (TypeDef Text)} {parameter : Text} :
    IsGiven (.generic parameter :: rest) e ↔ IsGiven rest e := by
  constructor
  · rintro ⟨ht, hn, hne⟩
    exact ⟨(List.mem_cons.mp ht).resolve_left (hne parameter), hn, hne⟩
  · rintro ⟨ht, hn, hne⟩
    exact ⟨List.mem_cons_of_mem _ ht, hn, hne⟩

/-- A type that is put in before others that are given. -/
theorem given_insert_iff {types : TypeMap Text} {rest : List (TypeDef Text)}
    (htype : ∀ parameter, type ≠ .generic parameter) (hgiven : NamedOnce (type :: rest))
    (hnodup : (types.entries.map (·.1)).Nodup) :
    (IsGiven rest e
        ∨ (e ∈ (types.insert type.name type).entries ∧ ∀ t, ¬IsGiven rest (e.1, t)))
      ↔ IsGiven (type :: rest) e
        ∨ (e ∈ types.entries ∧ ∀ t, ¬IsGiven (type :: rest) (e.1, t)) := by
  unfold insert
  simp only [mem_insertEntry_iff hnodup, isGiven_cons htype, Prod.mk.injEq, not_or]
  constructor
  · rintro (he | ⟨rfl | ⟨he, hname⟩, hfree⟩)
    · exact .inl (.inr he)
    · exact .inl (.inl rfl)
    · exact .inr ⟨he, fun t => ⟨fun h => hname h.1, hfree t⟩⟩
  · rintro ((rfl | he) | ⟨he, hfree⟩)
    · by_cases hrest : IsGiven rest (type.name, type)
      · exact .inl hrest
      · -- Whatever else is given under this name is this type.
        refine .inr ⟨.inl rfl, fun t ht => hrest ?_⟩
        have hsame : type = t :=
          hgiven type List.mem_cons_self t (List.mem_cons_of_mem _ ht.1) ht.2.1
        rwa [← hsame] at ht
    · exact .inl he
    · exact .inr ⟨.inr ⟨he, fun h => (hfree type).1 ⟨h, rfl⟩⟩, fun t => (hfree t).2⟩

/-- **The entries of a map are the given types and those builtin ones whose names are free.** -/
theorem mem_ofTypes_iff (hgiven : NamedOnce given) :
    e ∈ (ofTypes given).entries ↔ IsGiven given e
      ∨ (e ∈ (builtin : TypeMap Text).entries ∧ ∀ t, ¬IsGiven given (e.1, t)) := by
  have hbuiltin : ((builtin : TypeMap Text).entries.map (·.1)).Nodup := nodup_ofTypes []
  unfold ofTypes
  -- The types that come first are entries already when the others are put in.
  generalize (builtin : TypeMap Text) = types at hbuiltin ⊢
  induction given generalizing types with
  | nil => exact ⟨fun he => .inr ⟨he, nofun⟩, fun h => (h.resolve_left nofun).1⟩
  | cons type rest ih =>
    rw [List.foldl_cons]
    cases type with
    | generic parameter =>
      simp only [isGiven_generic_cons]
      exact ih hgiven.tail _ hbuiltin
    | _ =>
      exact (ih hgiven.tail _ (nodup_insertEntry hbuiltin)).trans
        (given_insert_iff nofun hgiven hbuiltin)

/-- **The same types in another order make the same entries in another order.** -/
theorem perm_ofTypes (hgiven : NamedOnce given) (hmem : ∀ t, t ∈ others ↔ t ∈ given) :
    (ofTypes others).entries.Perm (ofTypes given).entries := by
  refine (List.perm_ext_iff_of_nodup (nodup_ofTypes _).of_map (nodup_ofTypes _).of_map).mpr ?_
  intro e
  have hiff : ∀ e, IsGiven others e ↔ IsGiven given e := fun e => and_congr_left' (hmem e.2)
  rw [mem_ofTypes_iff (hgiven.of_mem_iff hmem), mem_ofTypes_iff hgiven]
  simp only [hiff]

/-! ## What does not depend on the order of entries -/

variable {types types' : TypeMap Text}

theorem find?_eq_some_iff (hnodup : (types.entries.map (·.1)).Nodup) :
    types.find? name = some type ↔ (name, type) ∈ types.entries :=
  ⟨mem_entries_of_find?, fun h => find?_of_mem hnodup h⟩

theorem find?_eq_of_perm (hnodup : (types.entries.map (·.1)).Nodup)
    (h : types'.entries.Perm types.entries) : types'.find? = types.find? := by
  funext name
  refine Option.ext fun type => ?_
  have hnodup' : (types'.entries.map (·.1)).Nodup := (h.map _).nodup_iff.mpr hnodup
  rw [find?_eq_some_iff hnodup', find?_eq_some_iff hnodup, h.mem_iff]

/-- Things with names of their own have one order, however they are given. -/
theorem sortBy_eq_of_perm {things things' : List (TypeDef Text)}
    (hnodup : (things.map (·.name)).Nodup) (h : things'.Perm things) :
    Label.sortBy (·.name) things' = Label.sortBy (·.name) things := by
  have hle (things : List (TypeDef Text)) :
      Label.sortBy (·.name) things
        = things.mergeSort fun a b => (compare a.name b.name).isLE :=
    if_pos (by simp [Label.isPlaced])
  have htrans (a b c : TypeDef Text) : (compare a.name b.name).isLE →
      (compare b.name c.name).isLE → (compare a.name c.name).isLE := Std.TransCmp.isLE_trans
  have htotal (a b : TypeDef Text) :
      ((compare a.name b.name).isLE || (compare b.name a.name).isLE) = true := by
    have hswap : compare b.name a.name = (compare a.name b.name).swap := Std.OrientedCmp.eq_swap
    rw [hswap]
    cases compare a.name b.name <;> rfl
  rw [hle, hle]
  refine List.Perm.eq_of_pairwise (fun a b ha hb hab hba => ?_)
    (List.pairwise_mergeSort htrans htotal _) (List.pairwise_mergeSort htrans htotal _) ?_
  · have hname : a.name = b.name :=
      Std.LawfulEqCmp.eq_of_compare (Std.OrientedCmp.isLE_antisymm hab hba)
    exact List.inj_on_of_nodup_map hnodup (h.mem_iff.mp (List.mem_mergeSort.mp ha))
      (List.mem_mergeSort.mp hb) hname
  · exact (List.mergeSort_perm _ _).trans (h.trans (List.mergeSort_perm _ _).symm)

theorem isBuiltin_of_mem (h : e ∈ (builtin : TypeMap Text).entries) :
    e.2.isBuiltin e.1 = true := by
  have hall : ∀ e ∈ (builtin : TypeMap Text).entries, e.2.isBuiltin e.1 = true := by
    decide +kernel
  exact hall e h

/-- A declared entry is found under the name of its type. -/
theorem declaredEntries_named (he : e ∈ (ofTypes given).declaredEntries) : e.1 = e.2.name := by
  obtain ⟨hentry, hnew⟩ := List.mem_filter.mp he
  rcases mem_ofTypes hentry with hbuiltin | ⟨-, hname, -⟩
  · simp [Label.text?, isBuiltin_of_mem hbuiltin] at hnew
  · exact hname

theorem declarations_eq_of_perm
    (h : types'.entries.Perm (ofTypes given).entries) :
    types'.declarations = (ofTypes given).declarations := by
  have hdeclared : types'.declaredEntries.Perm (ofTypes given).declaredEntries := h.filter _
  have hnames : (((ofTypes given).declaredEntries.map (·.2)).map (·.name)).Nodup := by
    have heq : ((ofTypes given).declaredEntries.map (·.2)).map (·.name)
        = (ofTypes given).declaredEntries.map (·.1) := by
      rw [List.map_map]
      exact List.map_congr_left fun e he => (declaredEntries_named he).symm
    rw [heq]
    exact (nodup_ofTypes given).sublist (List.filter_sublist.map _)
  unfold declarations
  dsimp only
  rw [if_pos (ordered_texts _), if_pos (ordered_texts _),
    sortBy_eq_of_perm hnames (hdeclared.map _)]

end TypeMap

end WasmBridge
