import WasmBridge.Proofs.Wire.Chains
import WasmBridge.Proofs.Wire.Faults

/-!
# Descent

A call of the codec is about a part of the value that the call before it was about, or about
the same value in a place that this is handed on to. So if chains of places come to an end
and the parts get smaller by some measure, there is room enough to go through the value. The
measure is left open here, and so is the direction; what the parts of a value are in one
direction is said where it is needed.
-/

namespace WasmBridge

open Outcome

variable {types : TypeMap Text} {d : Direction} {place next start : Place} {v : Value}
  {part : Place × Value} {room : Nat} {ident aliased inner : TypeIdent} {name : Text}

/-! ## Parts -/

/-- What a value has for a field is a value that it has for some key. -/
theorem exists_entry_of_mem_fieldParts {fields : List (Field Text)} {bs : List (Text × TypeIdent)}
    (h : part ∈ d.fieldParts fields bs v) :
    ∃ entries, v = .map entries ∧ ∃ e ∈ entries, part.2 = e.2 := by
  obtain ⟨entries, rfl, f, _, hitem, _⟩ := mem_fieldParts h
  cases d with
  | encoding => exact ⟨entries, rfl, _, Entries.mem_of_findName? hitem, rfl⟩
  | decoding => exact ⟨entries, rfl, _, Entries.mem_of_findName? hitem, rfl⟩

/-- What the codec goes on to with a value. -/
inductive Direction.GoesOn (types : TypeMap Text) (d : Direction) (place : Place) (v : Value)
    (part : Place × Value) : Prop where
  | item (h : part.2 ∈ d.items v)
  | key {entries : Entries} {e : Value × Value} (hmap : v = .map entries) (hmem : e ∈ entries)
      (h : part.2 = e.1)
  | value {entries : Entries} {e : Value × Value} (hmap : v = .map entries) (hmem : e ∈ entries)
      (h : part.2 = e.2)
  | payload {ident : TypeIdent} {enum : Text} {generics doc : List Text}
      {variants : List (Variant Text)} {options : EnumOptions Text} {variant : Variant Text}
      (hplace : place = .type ident)
      (hresolve : types.resolve ident = .ok (.enum enum generics variants options doc))
      (h : (variant, part.2) ∈ d.variantParts variants options v)
  /-- The value is handed on. -/
  | same (heq : part.2 = v) (h : place.PassesOn types part.1)

/-- **A part is an item, a key or a value, or what a variant carries, or the value itself.** -/
theorem goesOn_of_mem_parts (h : part ∈ d.parts types place v) : d.GoesOn types place v part := by
  cases place with
  | type ident =>
    cases hresolve : types.resolve ident with
    | error cause => simp only [Direction.parts, hresolve] at h; cases h
    | ok type =>
      simp only [Direction.parts, hresolve] at h
      cases type with
      | synonym name aliased =>
        cases List.mem_singleton.mp h
        exact .same rfl (.synonym hresolve)
      | container name inner =>
        dsimp only at h
        split at h
        · cases h
        · cases List.mem_singleton.mp h
          exact .same rfl (.optional hresolve)
      | list name inner =>
        obtain ⟨item, hitem, rfl⟩ := List.mem_map.mp h
        exact .item hitem
      | map name key value =>
        dsimp only at h
        split at h
        · obtain ⟨e, he, hpart⟩ := List.mem_flatMap.mp h
          rcases List.mem_pair.mp hpart with rfl | rfl
          · exact .key rfl he rfl
          · exact .value rfl he rfl
        · cases h
      | tuple items => exact .item (mem_itemParts h).1
      | struct name generics fields doc =>
        obtain ⟨_, hmap, e, he, hpart⟩ := exists_entry_of_mem_fieldParts h
        exact .value hmap he hpart
      | enum name generics variants options doc =>
        obtain ⟨found, hfound, rfl⟩ := List.mem_map.mp h
        exact .payload rfl hresolve hfound
      | _ => cases h
  | payload variant bs =>
    simp only [Direction.parts] at h
    split at h
    · obtain ⟨_, hmap, e, he, hpart⟩ := exists_entry_of_mem_fieldParts h
      exact .value hmap he hpart
    · rename_i hpayload
      cases List.mem_singleton.mp h
      exact .same rfl (.item hpayload)
    · exact .item (mem_itemParts h).1
    · cases h

/-! ## Handing on -/

theorem run_zero : d.run types 0 v place = .error .tooDeep := by
  cases d <;> cases place <;> rfl

theorem run_synonym (h : types.resolve ident = .ok (.synonym name aliased)) :
    d.run types (room + 1) v (.type ident) = d.run types room v (.type aliased) := by
  cases d with
  | encoding =>
    show toWire types (room + 1) v ident = toWire types room v aliased
    conv_lhs => unfold toWire
    rw [resolveWithin_eq_ok.mpr h]
    rfl
  | decoding =>
    show fromWire types (room + 1) v ident = fromWire types room v aliased
    conv_lhs => unfold fromWire
    rw [resolveWithin_eq_ok.mpr h]
    rfl

/-- An option hands on what is there. -/
theorem run_optional (h : types.resolve ident = .ok (.container name inner))
    (hthere : ¬v.isNull = true) :
    d.run types (room + 1) v (.type ident)
      = d.run types room v (.type (ident.args.headD default)) := by
  cases d with
  | encoding =>
    show toWire types (room + 1) v ident = toWire types room v _
    conv_lhs => unfold toWire
    rw [resolveWithin_eq_ok.mpr h]
    exact if_neg hthere
  | decoding =>
    show fromWire types (room + 1) v ident = fromWire types room v _
    conv_lhs => unfold fromWire
    rw [resolveWithin_eq_ok.mpr h]
    exact if_neg hthere

theorem run_item {variant : Variant Text} {bs : List (Text × TypeIdent)} {item : TypeIdent}
    (h : variant.payload = .tuple [item]) :
    d.run types (room + 1) v (.payload variant bs)
      = d.run types room v (.type (item.substitute bs)) := by
  cases d with
  | encoding =>
    show payloadToWire types (room + 1) v variant bs = toWire types room v _
    rw [payloadToWire, h]
  | decoding =>
    show payloadFromWire types (room + 1) v variant bs = fromWire types room v _
    rw [payloadFromWire, h]

/-- **What is handed on is worked on where it is handed on to**, with one call less. -/
theorem run_passed (hpasses : place.PassesOn types next) (hthere : ¬v.isNull = true) :
    d.run types (room + 1) v place = d.run types room v next := by
  cases hpasses with
  | synonym h => exact run_synonym h
  | optional h => exact run_optional h hthere
  | item h => exact run_item h

/-! ## Room for the parts -/

theorem exists_bound {α : Type} {Q : α → Nat → Prop} (xs : List α)
    (h : ∀ x ∈ xs, ∃ enough, ∀ n, enough ≤ n → Q x n) :
    ∃ enough, ∀ x ∈ xs, ∀ n, enough ≤ n → Q x n := by
  induction xs with
  | nil => exact ⟨0, nofun⟩
  | cons x rest ih =>
    obtain ⟨first, hfirst⟩ := h x List.mem_cons_self
    obtain ⟨others, hothers⟩ := ih fun y hy => h y (List.mem_cons_of_mem _ hy)
    refine ⟨first + others, fun y hy n hn => ?_⟩
    rcases List.mem_cons.mp hy with rfl | hy
    · exact hfirst n (by omega)
    · exact hothers y hy n (by omega)

/-- One call has enough room if the calls for the parts have. -/
theorem enough_room_of_parts
    (h : ∀ part ∈ d.parts types place v, ∃ enough, ∀ room, enough ≤ room →
      FailsOnly (· ≠ .tooDeep) (d.run types room part.2 part.1)) :
    ∃ enough, ∀ room, enough ≤ room → FailsOnly (· ≠ .tooDeep) (d.run types room v place) := by
  obtain ⟨enough, henough⟩ := exists_bound _ h
  refine ⟨place.wordingRoom v + 4 + enough, fun room hroom => ?_⟩
  refine run_failsOnly (fun e hfault => ?_) fun part hpart r _ hr => ?_
  · cases hfault with
    | noRoom hnone => omega
    | _ => exact nofun
  · exact henough part hpart r (by omega)

/-- **There is room enough for every value**, if from each place that can be reached the codec goes
on to something smaller, or hands the value on along a chain that ends. -/
theorem enough_room_of_descent (size : Value → Nat)
    (hends : ∀ place, start.Reaches types place → place.Ends types)
    (hdescends : ∀ place, start.Reaches types place → ∀ v, ∀ part ∈ d.parts types place v,
      size part.2 < size v ∨ (part.2 = v ∧ place.PassesOn types part.1)) (v : Value) :
    ∃ enough, ∀ room, enough ≤ room → FailsOnly (· ≠ .tooDeep) (d.run types room v start) := by
  -- by the size of the value, and while that stays the same by the chain it is handed along
  induction hsize : size v using Nat.strongRecOn generalizing start v with
  | ind n ihSize =>
    subst hsize
    have hchain := hends start .refl
    induction hchain with
    | intro place _ ihChain =>
      refine enough_room_of_parts fun part hpart => ?_
      have hnext : place.Reaches types part.1 := .single (place_mem_inner hpart)
      have hends' : ∀ place, part.1.Reaches types place → place.Ends types :=
        fun place hplace => hends place (hnext.trans hplace)
      have hdescends' : ∀ place, part.1.Reaches types place → ∀ v, ∀ next ∈ d.parts types place v,
          size next.2 < size v ∨ (next.2 = v ∧ place.PassesOn types next.1) :=
        fun place hplace => hdescends place (hnext.trans hplace)
      rcases hdescends place .refl v part hpart with hsmaller | ⟨heq, hpasses⟩
      · exact ihSize _ hsmaller hends' hdescends' part.2 rfl
      · rw [heq]
        exact ihChain _ hpasses hends' hdescends'

end WasmBridge
