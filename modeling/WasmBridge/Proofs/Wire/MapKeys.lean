import WasmBridge.Proofs.Wire.Untrusted

/-!
# The keys of a map on the wire

A map goes to the other side entry by entry. Each key and each value is converted on its
own, and what comes out is stored in a new map. That every entry can be converted is not
enough for the map: a key may come out as a list or a map, which cannot be a key, and two
keys may come out as one, and then the later entry takes the place of the earlier.

So the entries that are kept are counted here for both directions at once. The map comes
into being exactly if every converted key can be a key, and it has as many entries as
there were exactly if the converted keys are distinct. A key that is encoded is a key
again unless it has become a list or a map; a key that is decoded always is.
-/

namespace WasmBridge

open Outcome

variable {types : TypeMap Text} {d : Direction} {room : Nat} {ident : TypeIdent}
  {entries stored converted wires : Entries}

/-! ## How many entries are stored -/

namespace Entries

variable {key value : Value}

/-- A key that is there already stays as it is. -/
theorem keys_put_present (value : Value) (h : ∃ e ∈ entries, e.1.same key = true) :
    (entries.put key value).map (·.1) = entries.map (·.1) := by
  obtain ⟨e, he, hsame⟩ := h
  induction entries with
  | nil => cases he
  | cons first rest ih =>
    rw [put]
    split
    · rfl
    · rename_i hother
      rcases List.mem_cons.mp he with rfl | he
      · exact absurd hsame hother
      · rw [List.map_cons, ih he, List.map_cons]

/-- A key is new to some entries, or it takes the place of one of theirs. -/
theorem new_or_present (entries : Entries) (key : Value) :
    (∀ e ∈ entries, e.1.same key = false) ∨ ∃ e ∈ entries, e.1.same key = true := by
  by_cases h : ∃ e ∈ entries, e.1.same key = true
  · exact .inr h
  · exact .inl fun e he => Bool.eq_false_iff.mpr fun hsame => h ⟨e, he, hsame⟩

theorem length_put_present (value : Value) (h : ∃ e ∈ entries, e.1.same key = true) :
    (entries.put key value).length = entries.length := by
  have hkeys := congrArg List.length (keys_put_present value h)
  rwa [List.length_map, List.length_map] at hkeys

theorem length_put_le (entries : Entries) (key value : Value) :
    (entries.put key value).length ≤ entries.length + 1 := by
  rcases new_or_present entries key with hnew | hpresent
  · rw [put_new value hnew, List.length_append]
    rfl
  · rw [length_put_present value hpresent]
    exact Nat.le_succ _

theorem length_putAll_le (stored more : Entries) :
    (stored.putAll more).length ≤ stored.length + more.length := by
  induction more generalizing stored with
  | nil => exact Nat.le_refl _
  | cons e more ih =>
    have hrest : (stored.putAll (e :: more)).length ≤ (stored.put e.1 e.2).length + more.length :=
      ih (stored.put e.1 e.2)
    have hput := length_put_le stored e.1 e.2
    rw [List.length_cons]
    omega

/-- **Nothing is lost exactly if the keys are distinct.** -/
theorem length_putAll_eq_iff {more : Entries} (hstored : DistinctKeys (stored.map (·.1))) :
    (stored.putAll more).length = stored.length + more.length
      ↔ DistinctKeys (stored.map (·.1) ++ more.map (·.1)) := by
  constructor
  · intro hlength
    induction more generalizing stored with
    | nil => rwa [List.map_nil, List.append_nil]
    | cons e more ih =>
      replace hlength : ((stored.put e.1 e.2).putAll more).length
          = stored.length + (more.length + 1) := hlength
      rcases new_or_present stored e.1 with hnew | hpresent
      · -- the entry goes to the end, and the rest is stored behind it
        have hput := put_new e.2 hnew
        have hnext : DistinctKeys ((stored.put e.1 e.2).map (·.1)) := by
          rw [hput, List.map_append]
          refine List.pairwise_append.mpr ⟨hstored, List.pairwise_singleton _ _, ?_⟩
          intro k hk k' hk'
          obtain ⟨e', he', rfl⟩ := List.mem_map.mp hk
          cases List.mem_singleton.mp hk'
          exact hnew e' he'
        have hcount : (stored.put e.1 e.2).length = stored.length + 1 := by
          rw [hput, List.length_append]
          rfl
        have hrest := ih hnext (by omega)
        rw [hput] at hrest
        simpa using hrest
      · -- one entry is short already
        have hle := length_putAll_le (stored.put e.1 e.2) more
        have hcount := length_put_present e.2 hpresent
        omega
  · intro hdistinct
    rw [putAll_new hdistinct, List.length_append]

theorem putAll_nil {more : Entries} (h : DistinctKeys (more.map (·.1))) :
    Entries.putAll [] more = more :=
  putAll_new h

theorem length_putAll_nil_eq_iff {more : Entries} :
    (Entries.putAll [] more).length = more.length ↔ DistinctKeys (more.map (·.1)) := by
  have h := @length_putAll_eq_iff [] more List.Pairwise.nil
  rwa [List.length_nil, Nat.zero_add] at h

end Entries

/-! ## Storing what has been converted -/

section Store

variable {key inner : Value → Except CodecError Value}

/-- An entry with its key and its value converted. -/
def convertEntry (key inner : Value → Except CodecError Value) (e : Value × Value) :
    Except CodecError (Value × Value) := do
  return (← key e.1, ← inner e.2)

theorem storeConverted_eq_bind (e : Value × Value) :
    storeConverted key inner stored e
      = convertEntry key inner e >>= fun c => storeKey c.1 c.2 stored := by
  unfold storeConverted convertEntry
  cases key e.1 with
  | error => rfl
  | ok k => cases inner e.2 <;> rfl

/-- The converted entries are stored one after the other, up to one whose key is none. -/
theorem foldlM_storeConverted (h : entries.mapM (convertEntry key inner) = .ok converted) :
    entries.foldlM (storeConverted key inner) stored
      = if converted.all (·.1.isKey) then .ok (stored.putAll converted)
        else .error .unhashableKey := by
  have hpieces := mapM_eq_ok_iff.mp h
  clear h
  induction hpieces generalizing stored with
  | nil => rfl
  | @cons e c entries converted hc _ ih =>
    rw [List.foldlM_cons, storeConverted_eq_bind, hc, bind_ok, storeKey, List.all_cons]
    cases hkey : c.1.isKey with
    | true => exact ih
    | false => rfl

/-- What could be stored could be converted. -/
theorem exists_converted {out : Entries}
    (h : entries.foldlM (storeConverted key inner) stored = .ok out) :
    ∃ converted, entries.mapM (convertEntry key inner) = .ok converted := by
  suffices hpieces : ∃ converted, List.Forall₂ (fun e c => convertEntry key inner e = .ok c)
      entries converted from hpieces.imp fun _ => mapM_eq_ok_iff.mpr
  induction entries generalizing stored with
  | nil => exact ⟨[], .nil⟩
  | cons e entries ih =>
    rw [List.foldlM_cons, storeConverted_eq_bind] at h
    obtain ⟨next, hstore, hrest⟩ := bind_eq_ok.mp h
    obtain ⟨c, hc, -⟩ := bind_eq_ok.mp hstore
    obtain ⟨converted, hconverted⟩ := ih hrest
    exact ⟨c :: converted, .cons hc hconverted⟩

end Store

/-! ## Maps in either direction -/

/-- An entry of a map, each side of it converted at the type that the map has for it. -/
def Direction.entry (types : TypeMap Text) (d : Direction) (room : Nat) (ident : TypeIdent) :
    Value × Value → Except CodecError (Value × Value) :=
  convertEntry (d.run types room · (.type (ident.args.headD default)))
    (d.run types room · (.type ((ident.args.drop 1).headD default)))

section Maps

variable {name : Text} {keyType valueType : TypeIdent}

theorem run_map (hresolve : types.resolve ident = .ok (.map name keyType valueType)) :
    d.run types (room + 2) (.map entries) (.type ident)
      = .map <$> entries.foldlM
          (storeConverted (d.run types room · (.type (ident.args.headD default)))
            (d.run types room · (.type ((ident.args.drop 1).headD default)))) [] := by
  cases d with
  | encoding =>
    show toWire types (room + 2) (.map entries) ident = _
    unfold toWire
    rw [resolveWithin_eq_ok.mpr hresolve, bind_ok]
    dsimp only
    unfold entriesToWire
    rfl
  | decoding =>
    show fromWire types (room + 2) (.map entries) ident = _
    unfold fromWire
    rw [resolveWithin_eq_ok.mpr hresolve, bind_ok]
    dsimp only
    unfold entriesFromWire
    rfl

/-- The map comes into being exactly if every converted key can be a key. -/
theorem run_map_eq (hresolve : types.resolve ident = .ok (.map name keyType valueType))
    (hconverted : entries.mapM (d.entry types room ident) = .ok converted) :
    d.run types (room + 2) (.map entries) (.type ident)
      = if converted.all (·.1.isKey) then .ok (.map (Entries.putAll [] converted))
        else .error .unhashableKey := by
  rw [run_map hresolve, foldlM_storeConverted hconverted]
  split <;> rfl

theorem length_converted {f : Value × Value → Except CodecError (Value × Value)}
    (h : entries.mapM f = .ok converted) : converted.length = entries.length :=
  (mapM_eq_ok_iff.mp h).length_eq.symm

/-- **The map keeps all entries exactly if the converted keys are keys, and distinct.** Then the
entries stand in the order in which they were. -/
theorem run_map_keeps_iff (hresolve : types.resolve ident = .ok (.map name keyType valueType))
    (hconverted : entries.mapM (d.entry types room ident) = .ok converted) {out : Entries} :
    d.run types (room + 2) (.map entries) (.type ident) = .ok (.map out)
        ∧ out.length = entries.length
      ↔ (∀ c ∈ converted, c.1.isKey = true) ∧ DistinctKeys (converted.map (·.1))
        ∧ out = converted := by
  have hall : converted.all (·.1.isKey) = true ↔ ∀ c ∈ converted, c.1.isKey = true :=
    List.all_eq_true
  rw [run_map_eq hresolve hconverted]
  constructor
  · rintro ⟨hrun, hlength⟩
    split at hrun
    · rename_i hkeys
      cases hrun
      rw [← length_converted hconverted] at hlength
      have hdistinct := Entries.length_putAll_nil_eq_iff.mp hlength
      exact ⟨hall.mp hkeys, hdistinct, Entries.putAll_nil hdistinct⟩
    · cases hrun
  · rintro ⟨hkeys, hdistinct, rfl⟩
    rw [if_pos (hall.mpr hkeys), Entries.putAll_nil hdistinct]
    exact ⟨rfl, length_converted hconverted⟩

end Maps

/-! ## What becomes of a key -/

/-- The value is a list or a map. -/
def Value.isCollection : Value → Bool
  | .list _ | .map _ => true
  | _ => false

/-- What becomes of a key: a key again, a list or a map. -/
def Value.KeyOrCollection (w : Value) : Prop := w.isKey = true ∨ w.isCollection = true

theorem Value.KeyOrCollection.isKey_iff {w : Value} (h : w.KeyOrCollection) :
    w.isKey = true ↔ w.isCollection = false := by
  cases w with
  | list | map => exact ⟨fun h => (nomatch h), fun h => (nomatch h)⟩
  | _ => exact ⟨fun _ => rfl, fun _ => h.resolve_right nofun⟩

section Keys

variable {v w k : Value}

theorem itemsToWire_collection {items : List Value} {inner : TypeIdent}
    (h : itemsToWire types room items inner = .ok w) : w.KeyOrCollection := by
  cases room with
  | zero => cases h
  | succ room =>
    unfold itemsToWire at h
    obtain ⟨out, -, heq⟩ := bind_eq_ok.mp h
    cases heq
    exact .inr rfl

theorem tupleToWire_collection {idents : List TypeIdent}
    (h : tupleToWire types room v idents ident = .ok w) : w.KeyOrCollection := by
  cases room with
  | zero => cases h
  | succ room =>
    unfold tupleToWire at h
    split at h
    · split at h
      · cases room with
        | zero => cases h
        | succ room =>
          unfold eachToWire at h
          obtain ⟨out, -, heq⟩ := bind_eq_ok.mp h
          cases heq
          exact .inr rfl
      · cases h
    · cases h

/-- A key is no map, so it is not encoded as a struct. -/
theorem structToWire_key {name : Text} {fields : List (Field Text)} {bs : List (Text × TypeIdent)}
    (hkey : v.isKey = true) : structToWire types room v name fields bs ≠ .ok w := by
  intro h
  cases room with
  | zero => cases h
  | succ room =>
    cases v with
    | map => cases hkey
    | _ => cases h

/-- An enum without tags passes a payload on, and any other has a text or a map for it. -/
theorem wrapVariant_collection {enum key : Text} {encoding : Encoding Text}
    {variant : Variant Text} {payload : Value} (hpayload : payload.KeyOrCollection)
    (h : wrapVariant room enum encoding variant key payload = .ok w) : w.KeyOrCollection := by
  unfold wrapVariant at h
  cases encoding with
  | untagged => cases h; exact hpayload
  | external =>
    cases h
    split
    · exact .inl rfl
    · exact .inr rfl
  | adjacent => cases h; exact .inr rfl
  | internal =>
    dsimp only at h
    split at h
    · cases h; exact .inr rfl
    · split at h
      · cases h; exact .inr rfl
      · cases h

/-- **A key is encoded to a key, to a list or to a map.** -/
theorem keyOrCollection_of_encoded {place : Place} (hkey : v.isKey = true)
    (h : Direction.encoding.run types room v place = .ok w) : w.KeyOrCollection := by
  induction room using Nat.strongRecOn generalizing v place w with
  | ind room ih =>
    cases place with
    | type ident =>
      replace h : toWire types room v ident = .ok w := h
      cases room with
      | zero => cases h
      | succ r =>
        have ih' : ∀ {ident : TypeIdent}, toWire types r v ident = .ok w → w.KeyOrCollection :=
          fun {ident} h => ih r (Nat.lt_succ_self r) hkey
            (show Direction.encoding.run types r v (.type ident) = .ok w from h)
        unfold toWire at h
        obtain ⟨type, _, h⟩ := bind_eq_ok.mp h
        cases type with
        | primitive p =>
          rcases checkPrimitive_eq_ok h with ⟨-, b, rfl, rfl⟩ | ⟨-, x, rfl, -⟩ | ⟨-, -, n, rfl, rfl⟩
          · exact .inl rfl
          · exact .inl rfl
          · exact .inl rfl
        | string name =>
          obtain ⟨s, -, rfl⟩ := checkText_eq_ok h
          exact .inl rfl
        | unit name =>
          dsimp only at h
          split at h
          · cases h; exact .inl rfl
          · cases h
        | synonym name aliased => exact ih' h
        | container name inner =>
          dsimp only at h
          split at h
          · cases h; exact .inl rfl
          · exact ih' h
        | custom name args rust typescript =>
          cases h
          exact .inl hkey
        | list name inner =>
          dsimp only at h
          split at h
          · exact itemsToWire_collection h
          · cases h
        | map name key inner =>
          cases v with
          | map => cases hkey
          | _ => cases h
        | tuple items => exact tupleToWire_collection h
        | struct name generics fields doc => exact absurd h (structToWire_key hkey)
        | enum name generics variants options doc =>
          cases v with
          | variant chosen payload =>
            cases r with
            | zero => cases h
            | succ r =>
              dsimp only at h
              unfold enumToWire at h
              obtain ⟨variant, -, h⟩ := bind_eq_ok.mp h
              obtain ⟨wire, hwire, h⟩ := bind_eq_ok.mp h
              rw [Value.isKey] at hkey
              exact wrapVariant_collection (ih r (by omega) hkey
                (show Direction.encoding.run types r payload (.payload variant _) = .ok wire
                  from hwire)) h
          | _ => cases h
        | generic name => cases h
    | payload variant bs =>
      replace h : payloadToWire types room v variant bs = .ok w := h
      cases room with
      | zero => cases h
      | succ r =>
        unfold payloadToWire at h
        split at h
        · cases h; exact .inl rfl
        · exact absurd h (structToWire_key hkey)
        · exact ih r (Nat.lt_succ_self r) hkey
            (show Direction.encoding.run types r v (.type _) = .ok w from h)
        · exact tupleToWire_collection h
        · cases h

theorem converted_key {e c : Value × Value} (h : d.entry types room ident e = .ok c) :
    d.run types room e.1 (.type (ident.args.headD default)) = .ok c.1 := by
  obtain ⟨k, hk, h⟩ := bind_eq_ok.mp h
  obtain ⟨x, -, h⟩ := bind_eq_ok.mp h
  cases h
  exact hk

end Keys

/-! ## There and back -/

section Back

variable {name : Text} {keyType valueType : TypeIdent}

theorem isKey_encoded_iff (hkeys : ∀ e ∈ entries, e.1.isKey = true)
    (hwires : entries.mapM (Direction.encoding.entry types room ident) = .ok wires) :
    (∀ w ∈ wires, w.1.isKey = true) ↔ ∀ w ∈ wires, w.1.isCollection = false := by
  refine forall₂_congr fun w hw => ?_
  obtain ⟨e, he, hconverted⟩ := exists_of_mem_results hwires hw
  exact (keyOrCollection_of_encoded (hkeys e he) (converted_key hconverted)).isKey_iff

theorem isKey_decoded {read : Entries} (hkeys : ∀ w ∈ wires, w.1.isKey = true)
    (hread : wires.mapM (Direction.decoding.entry types room ident) = .ok read) :
    ∀ r ∈ read, r.1.isKey = true := by
  intro r hr
  obtain ⟨w, hw, hconverted⟩ := exists_of_mem_results hread hr
  exact isKey_of_decoded (hkeys w hw) (converted_key hconverted)

/-- What is stored of a map is there again as a whole exactly if its entries are, one by one, and no
two keys are read as one. -/
theorem fromWire_map_kept_iff (hresolve : types.resolve ident = .ok (.map name keyType valueType))
    (hkeys : ∀ w ∈ wires, w.1.isKey = true) :
    (∃ back, fromWire types (room + 2) (.map wires) ident = .ok (.map back)
        ∧ back.length = wires.length)
      ↔ ∃ read, wires.mapM (Direction.decoding.entry types room ident) = .ok read
        ∧ DistinctKeys (read.map (·.1)) := by
  constructor
  · rintro ⟨back, hback, hlength⟩
    replace hback : Direction.decoding.run types (room + 2) (.map wires) (.type ident)
      = .ok (.map back) := hback
    -- what has been read at all has been read entry by entry
    obtain ⟨out, hfold, -⟩ := map_eq_ok.mp (run_map hresolve ▸ hback)
    obtain ⟨read, hread⟩ := exists_converted hfold
    obtain ⟨-, hdistinct, -⟩ := (run_map_keeps_iff hresolve hread).mp ⟨hback, hlength⟩
    exact ⟨read, hread, hdistinct⟩
  · rintro ⟨read, hread, hdistinct⟩
    exact ⟨read, (run_map_keeps_iff hresolve hread).mpr
      ⟨isKey_decoded hkeys hread, hdistinct, rfl⟩⟩

/-- Encoding fails exactly if a key has become a list or a map. -/
theorem toWire_map_eq (hresolve : types.resolve ident = .ok (.map name keyType valueType))
    (hkeys : ∀ e ∈ entries, e.1.isKey = true)
    (hwires : entries.mapM (Direction.encoding.entry types room ident) = .ok wires) :
    toWire types (room + 2) (.map entries) ident
      = if wires.any (·.1.isCollection) then .error .unhashableKey
        else .ok (.map (Entries.putAll [] wires)) := by
  have hcollections := isKey_encoded_iff hkeys hwires
  have hrun : toWire types (room + 2) (.map entries) ident = _ := run_map_eq hresolve hwires
  rw [hrun]
  by_cases hall : ∀ w ∈ wires, w.1.isCollection = false
  · rw [if_pos (List.all_eq_true.mpr (hcollections.mpr hall)), if_neg]
    rw [Bool.not_eq_true, List.any_eq_false]
    exact fun w hw => Bool.not_eq_true _ ▸ hall w hw
  · rw [if_neg fun h => hall (hcollections.mp (List.all_eq_true.mp h)), if_pos]
    push Not at hall
    obtain ⟨w, hw, hcollection⟩ := hall
    exact List.any_eq_true.mpr ⟨w, hw, Bool.not_eq_false _ ▸ hcollection⟩

/--
**What becomes of the entries of a map whose keys and values can each be encoded.**
The map can be encoded exactly if no key has become a list or a map. It has as many
entries as before exactly if, besides, no two keys have become one. And it has as many
entries when it is read again exactly if, besides, each of the two sides of each entry can
be read, and no two keys are read as one.
-/
theorem map_entries_kept_iff (hresolve : types.resolve ident = .ok (.map name keyType valueType))
    (hkeys : ∀ e ∈ entries, e.1.isKey = true)
    (hwires : entries.mapM (Direction.encoding.entry types room ident) = .ok wires) :
    (toWire types (room + 2) (.map entries) ident
        = if wires.any (·.1.isCollection) then .error .unhashableKey
          else .ok (.map (Entries.putAll [] wires)))
      ∧ (Entries.putAll [] wires).length ≤ entries.length
      ∧ ((∃ stored, toWire types (room + 2) (.map entries) ident = .ok (.map stored)
            ∧ stored.length = entries.length)
          ↔ (∀ w ∈ wires, w.1.isCollection = false) ∧ DistinctKeys (wires.map (·.1)))
      ∧ ∀ room', (∃ stored back, toWire types (room + 2) (.map entries) ident = .ok (.map stored)
            ∧ stored.length = entries.length
            ∧ fromWire types (room' + 2) (.map stored) ident = .ok (.map back)
            ∧ back.length = entries.length)
          ↔ (∀ w ∈ wires, w.1.isCollection = false) ∧ DistinctKeys (wires.map (·.1))
            ∧ ∃ read, wires.mapM (Direction.decoding.entry types room' ident) = .ok read
              ∧ DistinctKeys (read.map (·.1)) := by
  have hcollections := isKey_encoded_iff hkeys hwires
  have hstored : ∀ {stored : Entries},
      toWire types (room + 2) (.map entries) ident = .ok (.map stored)
          ∧ stored.length = entries.length
        ↔ (∀ w ∈ wires, w.1.isKey = true) ∧ DistinctKeys (wires.map (·.1)) ∧ stored = wires :=
    run_map_keeps_iff hresolve hwires
  have hcount := length_converted hwires
  refine ⟨toWire_map_eq hresolve hkeys hwires, ?_, ?_, fun room' => ?_⟩
  · rw [← hcount]
    simpa using Entries.length_putAll_le [] wires
  · constructor
    · rintro ⟨stored, hrun⟩
      obtain ⟨hkeys, hdistinct, -⟩ := hstored.mp hrun
      exact ⟨hcollections.mp hkeys, hdistinct⟩
    · rintro ⟨hnone, hdistinct⟩
      exact ⟨wires, hstored.mpr ⟨hcollections.mpr hnone, hdistinct, rfl⟩⟩
  · constructor
    · rintro ⟨stored, back, hrun, hlength, hback, hcounted⟩
      obtain ⟨hkeys, hdistinct, rfl⟩ := hstored.mp ⟨hrun, hlength⟩
      exact ⟨hcollections.mp hkeys, hdistinct,
        (fromWire_map_kept_iff hresolve hkeys).mp ⟨back, hback, hcounted.trans hcount.symm⟩⟩
    · rintro ⟨hnone, hdistinct, hread⟩
      have hkeys := hcollections.mpr hnone
      obtain ⟨hrun, hlength⟩ := hstored.mpr ⟨hkeys, hdistinct, rfl⟩
      obtain ⟨back, hback, hcounted⟩ := (fromWire_map_kept_iff hresolve hkeys).mpr hread
      exact ⟨wires, back, hrun, hlength, hback, hcounted.trans hcount⟩

namespace PairKeys

/-- The type of small numbers by pairs of them. -/
def byPair : TypeIdent := ⟨"HashMap", [⟨"Tuple", [⟨"u8", []⟩, ⟨"u8", []⟩]⟩, ⟨"u8", []⟩]⟩

def one : Entries := [(.tuple [.int 1, .int 2], .int 5)]

theorem resolve_byPair : (TypeMap.builtin : TypeMap Text).resolve byPair
    = .ok (.map "HashMap" ⟨"K", []⟩ ⟨"V", []⟩) := by rfl

end PairKeys

/-- A pair is a key, but not on the wire. -/
theorem map_entries_kept_iff_pair :
    (∀ e ∈ PairKeys.one, e.1.isKey = true)
      ∧ PairKeys.one.mapM (Direction.encoding.entry .builtin 5 PairKeys.byPair)
        = .ok [(.list [.int 1, .int 2], .int 5)]
      ∧ toWire .builtin 7 (.map PairKeys.one) PairKeys.byPair = .error .unhashableKey
      ∧ ¬∃ stored, toWire .builtin 7 (.map PairKeys.one) PairKeys.byPair = .ok (.map stored)
        ∧ stored.length = PairKeys.one.length := by
  have hkeys : ∀ e ∈ PairKeys.one, e.1.isKey = true := by
    intro e he
    cases List.mem_singleton.mp he
    rfl
  have hwires : PairKeys.one.mapM (Direction.encoding.entry .builtin 5 PairKeys.byPair)
      = .ok [(.list [.int 1, .int 2], .int 5)] := by rfl
  obtain ⟨hrun, -, hkept, -⟩ := map_entries_kept_iff PairKeys.resolve_byPair hkeys hwires
  refine ⟨hkeys, hwires, hrun, fun h => ?_⟩
  have hnone := (hkept.mp h).1 _ List.mem_cons_self
  cases hnone

/-- Two integers without a float of their own are one key. -/
example : toWire (.builtin : TypeMap Text) 7
    (.map [(.int 0x20000000000000, .bool true), (.int 0x20000000000001, .bool false)])
    ⟨"HashMap", [⟨"f64", []⟩, ⟨"bool", []⟩]⟩
      = .ok (.map [(.float ⟨0x4340000000000000⟩, .bool false)]) := by rfl

/-- **Nothing is lost under texts, truth values and integers**, for they stay what they are. -/
theorem scalar_entries_kept (hresolve : types.resolve ident = .ok (.map name keyType valueType))
    (hscalar : Scalar types (ident.args.headD default))
    (hdistinct : DistinctKeys (entries.map (·.1)))
    (hwires : entries.mapM (Direction.encoding.entry types room ident) = .ok wires) :
    toWire types (room + 2) (.map entries) ident = .ok (.map wires)
      ∧ wires.map (·.1) = entries.map (·.1)
      ∧ ∀ read, wires.mapM (Direction.decoding.entry types room ident) = .ok read →
        fromWire types (room + 2) (.map wires) ident = .ok (.map read)
          ∧ read.map (·.1) = entries.map (·.1) := by
  have hsame : ∀ e w, Direction.encoding.entry types room ident e = .ok w →
      w.1 = e.1 ∧ e.1.isKey = true ∧ fromWire types room w.1 (ident.args.headD default) = .ok e.1 :=
    fun e w hw => hscalar.toWire_eq (converted_key hw)
  have hnames : wires.map (·.1) = entries.map (·.1) :=
    map_eq_of_mapM hwires fun e w hw => (hsame e w hw).1
  have hkeys : ∀ w ∈ wires, w.1.isKey = true := by
    intro w hw
    obtain ⟨e, -, hconverted⟩ := exists_of_mem_results hwires hw
    obtain ⟨heq, hkey, -⟩ := hsame e w hconverted
    rwa [heq]
  have hrun := (run_map_keeps_iff hresolve hwires).mpr ⟨hkeys, hnames ▸ hdistinct, rfl⟩
  refine ⟨hrun.1, hnames, fun read hread => ?_⟩
  have hnamesRead : read.map (·.1) = entries.map (·.1) := by
    refine map_eq_of_mapM (mapM_eq_ok_iff.mpr (forall₂_of_mapM_mapM hwires hread)) fun e r hr => ?_
    obtain ⟨w, hw, hr⟩ := bind_eq_ok.mp hr
    obtain ⟨-, -, hback⟩ := hsame e w hw
    exact Except.ok.inj ((converted_key hr).symm.trans hback)
  have hback := (run_map_keeps_iff hresolve hread).mpr
    ⟨isKey_decoded hkeys hread, hnamesRead ▸ hdistinct, rfl⟩
  exact ⟨hback.1, hnamesRead⟩

end Back

end WasmBridge
