import Mathlib.Data.List.Nodup
import Mathlib.Data.List.Zip
import WasmBridge.Proofs.Outcome
import WasmBridge.Wire.Decode

/-!
# Entries that are stored one after the other

Structs and maps are put together by storing entries one after the other, in both
directions. As long as no key comes twice, storing an entry is putting it behind the
others, and what is stored under a name is found there. So the entries that come out
are those that went in, in the same order, with other values.
-/

namespace WasmBridge

namespace Value

theorem isName_iff {k : Value} {name : Text} : k.isName name = true ↔ k = .str name := by
  cases k with
  | str s => simp [isName]
  | _ => simp [isName]

theorem isNull_iff {v : Value} : v.isNull = true ↔ v = .null := by
  cases v with
  | null => simp [isNull]
  | _ => simp [isNull]

/-- A text is the same key as that text only. -/
theorem same_str {s : Text} {k : Value} : (Value.str s).same k = true ↔ k = .str s := by
  cases k with
  | str t => simp only [same, equalsWith, beq_iff_eq, str.injEq]; exact eq_comm
  | _ => simp [same, equalsWith, number?]

/-- No key but a text is the same as that text. -/
theorem same_to_str {k : Value} {s : Text} : k.same (.str s) = true ↔ k = .str s := by
  cases k with
  | str t => simp only [same, equalsWith, beq_iff_eq, str.injEq]
  | _ => simp [same, equalsWith, number?]

end Value

/-- No two keys are the same. -/
def DistinctKeys (keys : List Value) : Prop := keys.Pairwise fun a b => a.same b = false

/-- Names are the same keys only if they are the same names. -/
theorem distinctKeys_names {names : List Text} (h : names.Nodup) :
    DistinctKeys (names.map .str) := by
  unfold DistinctKeys
  rw [List.pairwise_map]
  refine h.imp fun {a b} hne => ?_
  rw [← Bool.not_eq_true, Value.same_str]
  exact fun heq => hne (by injection heq with heq; exact heq.symm)

namespace Entries

/-! ## Storing a new key -/

theorem put_new {key : Value} {entries : Entries} (value : Value)
    (h : ∀ e ∈ entries, e.1.same key = false) :
    entries.put key value = entries ++ [(key, value)] := by
  induction entries with
  | nil => rfl
  | cons e rest ih =>
    have hhead := h e List.mem_cons_self
    have hrest := ih fun e' he => h e' (List.mem_cons_of_mem _ he)
    simp only [put, hhead, Bool.false_eq_true, if_false, hrest, List.cons_append]

/-- A key that comes after distinct ones is new to them. -/
theorem new_of_distinct {entries : Entries} {key : Value} {rest : List Value}
    (h : DistinctKeys (entries.map (·.1) ++ key :: rest)) :
    ∀ e ∈ entries, e.1.same key = false := by
  intro e he
  exact (List.pairwise_append.mp h).2.2 e.1 (List.mem_map_of_mem he) key List.mem_cons_self

theorem putAll_new {entries more : Entries}
    (h : DistinctKeys (entries.map (·.1) ++ more.map (·.1))) :
    entries.putAll more = entries ++ more := by
  induction more generalizing entries with
  | nil => exact (List.append_nil entries).symm
  | cons e rest ih =>
    have hput := put_new e.2 (new_of_distinct h)
    have hrest : DistinctKeys ((entries.put e.1 e.2).map (·.1) ++ rest.map (·.1)) := by
      rw [hput]; simpa using h
    show (entries.put e.1 e.2).putAll rest = entries ++ e :: rest
    rw [ih hrest, hput, List.append_assoc, List.singleton_append]

/-! ## Looking up a name -/

theorem findName?_eq_none_iff {entries : Entries} {name : Text} :
    entries.findName? name = none ↔ ∀ e ∈ entries, e.1 ≠ .str name := by
  induction entries with
  | nil => simp [findName?]
  | cons e rest ih =>
    rw [findName?, List.forall_mem_cons, ← ih, ne_eq, ← Value.isName_iff]
    split
    · rename_i h; simp [h]
    · rename_i h; simp [h]

theorem findName?_head {entries : Entries} {name : Text} {value : Value} :
    Entries.findName? ((.str name, value) :: entries) name = some value := by
  rw [findName?, if_pos (Value.isName_iff.mpr rfl)]

theorem findName?_tail {entries : Entries} {name : Text} {e : Value × Value}
    (h : e.1 ≠ .str name) : Entries.findName? (e :: entries) name = entries.findName? name := by
  rw [findName?, if_neg (fun hc => h (Value.isName_iff.mp hc))]

theorem findName?_append (entries more : Entries) (name : Text) :
    Entries.findName? (entries ++ more) name
      = (entries.findName? name).or (more.findName? name) := by
  induction entries with
  | nil => rfl
  | cons e rest ih =>
    rw [List.cons_append, findName?, findName?]
    split
    · rfl
    · exact ih

/-- What is stored under a name is found there, and nothing else is. -/
theorem findName?_put (key value : Value) (entries : Entries) (name : Text) :
    (entries.put key value).findName? name
      = if key.isName name then some value else entries.findName? name := by
  induction entries with
  | nil => rfl
  | cons e rest ih =>
    obtain ⟨k, v⟩ := e
    by_cases hsame : k.same key = true
    · -- the entry stays in its place, and its key is the same name if any
      have hname : k.isName name = key.isName name := by
        rw [Bool.eq_iff_iff, Value.isName_iff, Value.isName_iff]
        constructor
        · rintro rfl
          exact Value.same_str.mp hsame
        · rintro rfl
          exact Value.same_to_str.mp hsame
      rw [put, if_pos hsame, findName?, findName?, hname]
      split <;> rfl
    · rw [put, if_neg hsame, findName?, findName?, ih]
      split
      · rename_i hk
        rw [if_neg]
        intro hkey
        rw [Value.isName_iff.mp hk, Value.isName_iff.mp hkey] at hsame
        exact hsame (Value.same_str.mpr rfl)
      · rfl

/-- Of several things that are stored under a name the last is found there. -/
theorem findName?_putAll (entries more : Entries) (name : Text) :
    (entries.putAll more).findName? name
      = (Entries.findName? more.reverse name).or (entries.findName? name) := by
  induction more generalizing entries with
  | nil => rfl
  | cons e rest ih =>
    show ((entries.put e.1 e.2).putAll rest).findName? name = _
    rw [ih, findName?_put, List.reverse_cons, findName?_append, Option.or_assoc]
    congr 1
    rw [findName?]
    split <;> rfl

theorem withoutName_cons (e : Value × Value) (rest : Entries) (name : Text) :
    withoutName (e :: rest) name
      = if e.1.isName name then rest.withoutName name else e :: rest.withoutName name := by
  cases hname : e.1.isName name <;> simp [withoutName, hname]

/-- What is left without a name that stands in front and nowhere else. -/
theorem withoutName_head {entries : Entries} {name : Text} {value : Value}
    (h : entries.findName? name = none) :
    withoutName ((.str name, value) :: entries) name = entries := by
  have hall := findName?_eq_none_iff.mp h
  have hname : (Value.str name).isName name = true := Value.isName_iff.mpr rfl
  rw [withoutName, List.filter_cons_of_neg (by simp [hname])]
  refine List.filter_eq_self.mpr fun e he => ?_
  rw [Bool.not_eq_true', ← Bool.not_eq_true, Value.isName_iff]
  exact hall e he

end Entries

/-! ## Storing one entry for each thing -/

theorem exists_forall₂ {α β : Type} {P : α → β → Prop} {xs : List α}
    (h : ∀ x ∈ xs, ∃ y, P x y) : ∃ ys, List.Forall₂ P xs ys := by
  induction xs with
  | nil => exact ⟨[], .nil⟩
  | cons x xs ih =>
    obtain ⟨y, hy⟩ := h x List.mem_cons_self
    obtain ⟨ys, hys⟩ := ih fun x' hx' => h x' (List.mem_cons_of_mem _ hx')
    exact ⟨y :: ys, .cons hy hys⟩

/-- Pairs are related to a third list as their two sides are. -/
theorem forall₂_zip_left {α β γ : Type} {P : α → β → Prop} {Q : β → γ → Prop} {xs : List α}
    {ys : List β} {zs : List γ} (hP : List.Forall₂ P xs ys) (hQ : List.Forall₂ Q ys zs) :
    List.Forall₂ (fun p z => P p.1 p.2 ∧ Q p.2 z) (xs.zip ys) zs := by
  induction hP generalizing zs with
  | nil => cases hQ; exact .nil
  | cons hx _ ih =>
    cases hQ with
    | cons hy hrest => exact .cons ⟨hx, hy⟩ (ih hrest)

section Store

variable {α ε : Type} {store : Entries → α → Except ε Entries} {key : α → Value}
  {things : List α} {values : List Value} {stored : Entries}

/-- If each thing stores a value under a key of its own, they stand there one after the other. -/
theorem foldlM_store_append
    (h : List.Forall₂ (fun a v => ∀ stored, store stored a = .ok (Entries.put (key a) v stored))
      things values)
    (hdistinct : DistinctKeys (stored.map (·.1) ++ things.map key)) :
    things.foldlM store stored = .ok (stored ++ (things.map key).zip values) := by
  induction h generalizing stored with
  | nil => rw [List.foldlM_nil]; simp
  | @cons a v rest values ha _ ih =>
    have hput := Entries.put_new v (Entries.new_of_distinct hdistinct)
    rw [List.foldlM_cons, ha, hput, Outcome.bind_ok, ih (by simpa using hdistinct)]
    simp

theorem foldlM_store
    (h : List.Forall₂ (fun a v => ∀ stored, store stored a = .ok (Entries.put (key a) v stored))
      things values) (hdistinct : DistinctKeys (things.map key)) :
    things.foldlM store [] = .ok ((things.map key).zip values) :=
  foldlM_store_append h hdistinct

end Store

/-! ## Maps -/

/-- Storing an entry whose key and whose value are converted before. -/
def storeConverted (key inner : Value → Except CodecError Value) (stored : Entries)
    (entry : Value × Value) : Except CodecError Entries := do
  let k ← key entry.1
  let v ← inner entry.2
  storeKey k v stored

section Maps

variable {key inner : Value → Except CodecError Value} {entries stored out : Entries}

theorem storeKey_eq_ok {k v : Value} (h : storeKey k v stored = .ok out) :
    k.isKey = true ∧ out = stored.put k v := by
  unfold storeKey at h
  split at h
  · rename_i hk
    exact ⟨hk, (Except.ok.inj h).symm⟩
  · cases h

/-- If no key changes, the entries keep their order. -/
theorem of_storeConverted_append (hkeys : ∀ e ∈ entries, ∀ k, key e.1 = .ok k → k = e.1)
    (hdistinct : DistinctKeys (stored.map (·.1) ++ entries.map (·.1)))
    (h : entries.foldlM (storeConverted key inner) stored = .ok out) :
    ∃ values, out = stored ++ (entries.map (·.1)).zip values
      ∧ List.Forall₂ (fun e v => key e.1 = .ok e.1 ∧ inner e.2 = .ok v ∧ e.1.isKey = true)
          entries values := by
  induction entries generalizing stored with
  | nil => cases h; exact ⟨[], by simp, .nil⟩
  | cons e rest ih =>
    rw [List.foldlM_cons] at h
    obtain ⟨next, hstore, hrest⟩ := Outcome.bind_eq_ok.mp h
    obtain ⟨k, hk, hstore⟩ := Outcome.bind_eq_ok.mp hstore
    obtain ⟨v, hv, hstore⟩ := Outcome.bind_eq_ok.mp hstore
    obtain ⟨hiskey, hnext⟩ := storeKey_eq_ok hstore
    obtain rfl := hkeys e List.mem_cons_self k hk
    -- the key is new to what is stored, so the entry goes to the end
    rw [Entries.put_new v (Entries.new_of_distinct hdistinct)] at hnext
    subst hnext
    obtain ⟨values, rfl, hvalues⟩ := ih (fun e' he => hkeys e' (List.mem_cons_of_mem _ he))
      (by simpa using hdistinct) hrest
    exact ⟨v :: values, by simp, .cons ⟨hk, hv, hiskey⟩ hvalues⟩

theorem of_storeConverted (key inner : Value → Except CodecError Value)
    (hkeys : ∀ e ∈ entries, ∀ k, key e.1 = .ok k → k = e.1)
    (hdistinct : DistinctKeys (entries.map (·.1)))
    (h : entries.foldlM (storeConverted key inner) [] = .ok out) :
    ∃ values, out = (entries.map (·.1)).zip values
      ∧ List.Forall₂ (fun e v => key e.1 = .ok e.1 ∧ inner e.2 = .ok v ∧ e.1.isKey = true)
          entries values := by
  refine of_storeConverted_append hkeys ?_ h
  exact hdistinct

/-- An entry whose key stays and can be one is stored under it. -/
theorem storeConverted_eq (key inner : Value → Except CodecError Value) {e : Value × Value}
    {v : Value} (hkey : key e.1 = .ok e.1) (hinner : inner e.2 = .ok v)
    (hiskey : e.1.isKey = true) (stored : Entries) :
    storeConverted key inner stored e = .ok (stored.put e.1 v) := by
  simp [storeConverted, hkey, hinner, storeKey, hiskey]

end Maps

/-! ## Structs -/

/-- What is stored for the fields of a struct that are not left out. -/
def storedFields (fields : List (Field Text)) (items : List (Option Value)) : Entries :=
  (fields.zip items).filterMap fun (field, item?) =>
    item?.map fun item => (.str (fieldWireKey field.name), item)

theorem storedFields_cons {field : Field Text} {fields : List (Field Text)}
    {item? : Option Value} {items : List (Option Value)} :
    storedFields (field :: fields) (item? :: items)
      = (item?.map fun item => (.str (fieldWireKey field.name), item)).toList
          ++ storedFields fields items := by
  cases item? with
  | none => simp [storedFields]
  | some item => simp [storedFields]

section Structs

variable {fields : List (Field Text)} {items : List (Option Value)}

theorem mem_storedFields {e : Value × Value} (h : e ∈ storedFields fields items) :
    ∃ field ∈ fields, e.1 = .str (fieldWireKey field.name) := by
  obtain ⟨⟨field, item?⟩, hmem, he⟩ := List.mem_filterMap.mp h
  obtain ⟨item, -, rfl⟩ := Option.map_eq_some_iff.mp he
  exact ⟨field, (List.of_mem_zip hmem).1, rfl⟩

theorem distinctKeys_storedFields (h : (fields.map fun f => fieldWireKey f.name).Nodup) :
    DistinctKeys ((storedFields fields items).map (·.1)) := by
  refine (distinctKeys_names h).sublist ?_
  induction fields generalizing items with
  | nil => exact List.Sublist.refl _
  | cons field fields ih =>
    cases items with
    | nil => exact List.nil_sublist _
    | cons item? items =>
      have hrest := @ih items (List.nodup_cons.mp h).2
      rw [storedFields_cons]
      cases item? with
      | none => exact hrest.cons _
      | some item => exact hrest.cons_cons _

/-- Under the key of a field stands what was stored for it. -/
theorem findName?_storedFields {field : Field Text} {item? : Option Value}
    (hkeys : (fields.map fun f => fieldWireKey f.name).Nodup)
    (h : (field, item?) ∈ fields.zip items) :
    (storedFields fields items).findName? (fieldWireKey field.name) = item? := by
  induction fields generalizing items with
  | nil => cases h
  | cons first fields ih =>
    cases items with
    | nil => cases h
    | cons first? items =>
      obtain ⟨hnew, hkeys⟩ := List.nodup_cons.mp hkeys
      rw [storedFields_cons]
      rcases List.mem_cons.mp h with heq | hmem
      · cases heq
        cases item? with
        | none =>
          -- no later field has the key
          refine Entries.findName?_eq_none_iff.mpr fun e he heq => hnew ?_
          obtain ⟨other, hother, hkey⟩ := mem_storedFields he
          rw [hkey] at heq
          injection heq with heq
          exact List.mem_map.mpr ⟨other, hother, heq⟩
        | some item => exact Entries.findName?_head
      · have hother : Value.str (fieldWireKey first.name) ≠ .str (fieldWireKey field.name) := by
          intro heq
          injection heq with heq
          exact hnew (List.mem_map.mpr ⟨field, (List.of_mem_zip hmem).1, heq.symm⟩)
        cases first? with
        | none => exact ih hkeys hmem
        | some item => rw [← ih hkeys hmem]; exact Entries.findName?_tail hother

end Structs

end WasmBridge
