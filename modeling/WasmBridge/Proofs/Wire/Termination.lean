import WasmBridge.Proofs.Schema.Declared
import WasmBridge.Proofs.Wire.EncodingRoom
import WasmBridge.Proofs.Wire.Packed
import WasmBridge.Proofs.Wire.Untrusted

/-!
# The codec comes to an end

Each call of the codec either goes on to something smaller, or it hands the value on. What it
hands a value on along is a chain of places, and only aliases can make such a chain go round
in a circle. Whether they do can be told from the names that aliased types are written with,
and nothing has to be known of any place: of all the names in an ident, only those that have
not been met yet can lead on. It makes no difference that idents grow as arguments are put in
the place of parameters, for this happens where a value is taken apart.

So where no alias reaches itself there is room enough for every value, and then more room
changes nothing. Where a chain does not end, no room is enough for anything but null.
-/

namespace WasmBridge

open Outcome Relation

variable {types : TypeMap Text} {d : Direction} {place : Place} {ident inner : TypeIdent}
  {name : Text} {v a : Value} {part : Place × Value}

/-! ## Aliases -/

/-- The names that the type which an alias stands for is written with. -/
def TypeDef.aliasedNames : TypeDef Text → List Text
  | .synonym _ aliased => aliased.names
  | _ => []

/-- One name is an alias of a type that is written with the other. -/
def TypeMap.Aliases (types : TypeMap Text) (name written : Text) : Prop :=
  ∃ type, types.find? name = some type ∧ written ∈ type.aliasedNames

theorem name_mem_names (ident : TypeIdent) : ident.name ∈ ident.names := by
  obtain ⟨name, args⟩ := ident
  exact List.mem_cons_self

/-- What an option may hold is written with names of the option. -/
theorem mem_names_of_option (h : types.resolve ident = .ok (.container name inner)) {written : Text}
    (hwritten : written ∈ (ident.args.headD default).names) : written ∈ ident.names := by
  obtain ⟨option, held, rfl⟩ := args_of_option h
  exact List.mem_cons_of_mem _ (List.mem_append_left _ hwritten)

/-- **All chains end where no alias reaches itself.** -/
theorem Place.ends_of_aliases (haliases : ∀ name, ¬TransGen types.Aliases name name)
    (place : Place) : place.Ends types := by
  refine Place.ends_of_types fun ident _ => ?_
  -- an alias that has been met reaches every name in the ident that the chain has come to
  refine ends_of_met (fun met ident =>
    ∀ seen ∈ met, ∀ written ∈ ident.names, TransGen types.Aliases seen written)
    ?synonym ?optional [] ident nofun
  case synonym =>
    intro met ident name aliased hmet h
    obtain ⟨hfind, -⟩ := named_of_resolve h nofun
    have hreaches : ∀ seen ∈ met, TransGen types.Aliases seen ident.name :=
      fun seen hmem => hmet seen hmem ident.name (name_mem_names ident)
    have hnew : ident.name ∉ met := fun hmem => haliases _ (hreaches _ hmem)
    refine ⟨hnew, fun seen hmem written hwritten => ?_⟩
    have hstep : types.Aliases ident.name written := ⟨_, hfind, hwritten⟩
    rcases List.mem_cons.mp hmem with rfl | hmem
    · exact .single hstep
    · exact (hreaches seen hmem).tail hstep
  case optional =>
    intro met ident name inner hmet h seen hmem written hwritten
    exact hmet seen hmem written (mem_names_of_option h hwritten)

/-- No alias reaches itself if each is written with names of lower rank only. -/
theorem TypeMap.not_aliases_self (rank : Text → Nat)
    (h : ∀ e ∈ types.entries, ∀ written ∈ e.2.aliasedNames, rank written < rank e.1)
    (name : Text) : ¬TransGen types.Aliases name name := by
  have hlower : ∀ {name written}, TransGen types.Aliases name written →
      rank written < rank name := by
    intro name written hreaches
    induction hreaches with
    | single hstep =>
      obtain ⟨type, hfind, hwritten⟩ := hstep
      exact h _ (TypeMap.mem_entries_of_find? hfind) _ hwritten
    | tail _ hstep ih =>
      obtain ⟨type, hfind, hwritten⟩ := hstep
      exact Nat.lt_trans (h _ (TypeMap.mem_entries_of_find? hfind) _ hwritten) ih
  exact fun hself => Nat.lt_irrefl _ (hlower hself)

/-! ## What encoding goes on to -/

/-- A measure of values. An extension counts for more than the pair of its code and its data, which
it is encoded as, though nothing in it is nested. -/
def Value.weight : Value → Nat
  | .ext .. => 1
  | v => 2 * v.depth

theorem Value.weight_bounds (v : Value) : 2 * v.depth ≤ v.weight ∧ v.weight ≤ 2 * v.depth + 1 := by
  cases v <;> simp [Value.weight, Value.depth]

theorem Value.weight_lt (h : a.depth < v.depth) : a.weight < v.weight := by
  obtain ⟨-, hupper⟩ := a.weight_bounds
  obtain ⟨hlower, -⟩ := v.weight_bounds
  omega

/-- An item of a sequence weighs less than the sequence. -/
theorem Value.weight_lt_of_mem_items (h : a ∈ Direction.encoding.items v) :
    a.weight < v.weight := by
  cases v with
  | list items | tuple items =>
    have hitem : a.depth ≤ depthAll items := MessagePack.depth_le_depthAll h
    exact weight_lt (by rw [depth]; omega)
  | ext code data => rcases List.mem_pair.mp h with rfl | rfl <;> exact Nat.one_pos
  | _ => cases h

/-- Keys and values of a map weigh less than the map. -/
theorem Value.weight_lt_of_mem_entries {entries : Entries} {e : Value × Value} (h : e ∈ entries) :
    e.1.weight < (Value.map entries).weight ∧ e.2.weight < (Value.map entries).weight := by
  obtain ⟨hkey, hvalue⟩ := MessagePack.depth_le_depthEntries h
  exact ⟨weight_lt (by rw [depth]; omega), weight_lt (by rw [depth]; omega)⟩

/-- What a variant carries weighs less than the variant. -/
theorem Value.weight_lt_of_mem_variantParts {variants : List (Variant Text)}
    {options : EnumOptions Text} {found : Variant Text × Value}
    (h : found ∈ Direction.encoding.variantParts variants options v) :
    found.2.weight < v.weight := by
  cases v with
  | variant carried payload =>
    obtain ⟨_, _, rfl⟩ := List.mem_map.mp h
    have hinside : payload.depth < (Value.variant carried payload).depth := by rw [depth]; omega
    exact weight_lt hinside
  | _ => cases h

/-- **Encoding goes on to what weighs less, or it hands the value on.** -/
theorem encoding_descends (h : part ∈ Direction.encoding.parts types place v) :
    part.2.weight < v.weight ∨ (part.2 = v ∧ place.PassesOn types part.1) := by
  cases goesOn_of_mem_parts h with
  | item hitem => exact .inl (Value.weight_lt_of_mem_items hitem)
  | key hmap hmem hpart =>
    rw [hmap, hpart]
    exact .inl (Value.weight_lt_of_mem_entries hmem).1
  | value hmap hmem hpart =>
    rw [hmap, hpart]
    exact .inl (Value.weight_lt_of_mem_entries hmem).2
  | payload _ _ hfound => exact .inl (Value.weight_lt_of_mem_variantParts hfound)
  | same heq hpasses => exact .inr ⟨heq, hpasses⟩

/-! ## Runs that end -/

/-- A run ends: with room enough it comes to something, and with more room it comes to the same. -/
def Settles {α : Type} (run : Nat → Except CodecError α) : Prop :=
  ∃ result, result ≠ .error .tooDeep ∧ ∃ enough, ∀ room, enough ≤ room → run room = result

theorem settles_of_enough_room {α : Type} {run : Nat → Except CodecError α}
    (hmore : ∀ room more, room ≤ more → CutShort .tooDeep (run room) (run more))
    (henough : ∃ enough, ∀ room, enough ≤ room → FailsOnly (· ≠ .tooDeep) (run room)) :
    Settles run := by
  obtain ⟨enough, henough⟩ := henough
  have hresult : run enough ≠ .error .tooDeep :=
    fun h => henough enough (Nat.le_refl _) _ h rfl
  refine ⟨run enough, hresult, enough, fun room hroom => ?_⟩
  rcases hmore enough room hroom with hshort | heq
  · exact absurd hshort hresult
  · exact heq.symm

/-- The definition is an enum whose variants are tried one after the other. -/
def TypeDef.isUntagged : TypeDef Text → Bool
  | .enum _ _ _ options _ => options.encoding = .untagged
  | _ => false

theorem Place.not_untagged
    (h : ∀ name type, types.find? name = some type → type.isUntagged = false) :
    ¬place.Untagged types := by
  rintro ⟨ident, enum, generics, variants, options, doc, -, hresolve, huntagged⟩
  obtain ⟨hfind, -⟩ := named_of_resolve hresolve nofun
  have htagged := h _ _ hfind
  simp [TypeDef.isUntagged, huntagged] at htagged

/--
**The codec comes to an end.** Let no alias reach itself through the names that the aliased
types are written with. Then every value is encoded, or refused, as any ident; and so is
every value decoded if no enum is untagged.
-/
theorem codec_settles (haliases : ∀ name, ¬TransGen types.Aliases name name) :
    (∀ v ident, Settles (toWire types · v ident))
      ∧ ((∀ name type, types.find? name = some type → type.isUntagged = false) →
        ∀ v ident, Settles (fromWire types · v ident)) := by
  -- the chains are the same in both directions, and only the measures of a value differ
  have hends : ∀ place : Place, place.Ends types := Place.ends_of_aliases haliases
  constructor
  · intro v ident
    have henough : ∃ enough, ∀ room, enough ≤ room →
        FailsOnly (· ≠ .tooDeep) (Direction.encoding.run types room v (.type ident)) :=
      enough_room_of_descent Value.weight (fun place _ => hends place)
        (fun _ _ _ _ => encoding_descends) v
    exact settles_of_enough_room (fun _ _ hle => encoding_more (.type ident) v hle) henough
  · intro htagged v ident
    have henough : ∃ enough, ∀ room, enough ≤ room →
        FailsOnly (· ≠ .tooDeep) (Direction.decoding.run types room v (.type ident)) :=
      enough_room_of_descent (fun v => sizeOf v) (fun place _ => hends place)
        (fun _ _ _ _ => decoding_descends (Place.not_untagged htagged)) v
    exact settles_of_enough_room (fun _ _ hle => run_more (.type ident) v hle) henough

/-! ## Growing idents -/

namespace Growing

/-- A row has cells that may be empty, and what is nested in a value is nested in a list of such
values, and so on. -/
def known : TypeMap Text := .ofTypes [
  .synonym "Row" ⟨"Vec", [⟨"Cell", []⟩]⟩,
  .synonym "Cell" ⟨"Option", [⟨"Nest", [⟨"u8", []⟩]⟩]⟩,
  .struct "Nest" ["T"] [
    { name := "value", type := ⟨"T", []⟩ },
    { name := "deeper", type := ⟨"Option", [⟨"Nest", [⟨"Vec", [⟨"T", []⟩]⟩]⟩]⟩ }] []]

/-- A row is written with cells, and a cell with no alias. -/
def rank (name : Text) : Nat :=
  if name = "Row" then 2 else if name = "Cell" then 1 else 0

theorem not_aliases_self (name : Text) : ¬TransGen known.Aliases name name := by
  have hlower : ∀ e ∈ known.entries, ∀ written ∈ e.2.aliasedNames, rank written < rank e.1 := by
    decide
  exact TypeMap.not_aliases_self rank hlower name

theorem tagged (name : Text) (type : TypeDef Text) (h : known.find? name = some type) :
    type.isUntagged = false := by
  have hentries : ∀ e ∈ known.entries, e.2.isUntagged = false := by decide
  exact hentries _ (TypeMap.mem_entries_of_find? h)

end Growing

/-- Rows are encoded and decoded to an end, however deep the values in them are nested. -/
theorem codec_settles_growing :
    (∀ name, ¬TransGen Growing.known.Aliases name name)
      ∧ (∀ name type, Growing.known.find? name = some type → type.isUntagged = false)
      ∧ (∀ v, Settles (toWire Growing.known · v ⟨"Row", []⟩))
      ∧ ∀ v, Settles (fromWire Growing.known · v ⟨"Row", []⟩) := by
  obtain ⟨hencoded, hdecoded⟩ := codec_settles Growing.not_aliases_self
  exact ⟨Growing.not_aliases_self, Growing.tagged, fun v => hencoded v _,
    fun v => hdecoded Growing.tagged v _⟩

/-! ## Chains that do not end -/

/-- **No room is enough where a chain does not end**, for whatever is handed on along it. -/
theorem tooDeep_of_endless (hendless : ¬place.Ends types) (hthere : ¬v.isNull = true) (room : Nat) :
    d.run types room v place = .error .tooDeep := by
  induction room generalizing place with
  | zero => exact run_zero
  | succ room ih =>
    -- a chain that does not end has a next place from which it does not end
    obtain ⟨next, hpasses, hnext⟩ : ∃ next, place.PassesOn types next ∧ ¬next.Ends types := by
      by_contra hnone
      refine hendless (Acc.intro _ fun next hpasses => ?_)
      by_contra hnext
      exact hnone ⟨next, hpasses, hnext⟩
    rw [run_passed hpasses hthere]
    exact ih hnext

end WasmBridge
