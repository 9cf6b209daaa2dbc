import WasmBridge.Proofs.Schema.Resolution
import WasmBridge.Proofs.Wire.Places
import WasmBridge.Proofs.Wire.Readable

/-!
# How a run of the codec can fail

A run fails in a place, or in one of the calls that go on from it. What can go wrong in
a place itself is listed by `Fault`, the same list for both directions. `run_failsOnly`
is the step that everything else is derived from: to bound the errors of a run, it is
enough to bound the faults of its place and the errors of the calls for its parts.

Each of these calls leaves at most three calls less than there were. So an error says
that there is no room only where there are no more than a few calls left besides those
that it takes to word an error about the value.
-/

namespace WasmBridge

open Outcome

/-- The value is at fault, and not the schema. -/
def WireError.OfValue : WireError → Prop
  | .unboundParameter _ | .unsupportedPayload _ => False
  | _ => True

/-- A variant can carry what a definition stands for. -/
def TypeDef.isPayload {ν : Type} : TypeDef ν → Bool
  | .unit _ | .struct .. | .tuple _ => true
  | _ => false

/-- The room that the wording of an error about a value in a place takes at most. -/
def Place.wordingRoom : Place → Value → Nat
  | .type ident, v => 3 + max ident.textRoom v.describeRoom
  | .payload .., v => 3 + v.describeRoom

/-- What can go wrong in a place, before or after the calls that go on from it. -/
inductive Fault (types : TypeMap Text) (d : Direction) (room : Nat) :
    Place → Value → CodecError → Prop where
  | noRoom {place : Place} {v : Value} (h : room < place.wordingRoom v + 4) :
      Fault types d room place v .tooDeep
  | misfit {place : Place} {v : Value} {cause : WireError} (h : cause.OfValue) :
      Fault types d room place v (.wire cause)
  | unresolved {ident : TypeIdent} {v : Value} {cause : SchemaError}
      (h : types.resolve ident = .error cause) :
      Fault types d room (.type ident) v (.schema cause)
  | unbound {ident : TypeIdent} {v : Value} {name : Text}
      (h : types.resolve ident = .ok (.generic name)) :
      Fault types d room (.type ident) v (.wire (.unboundParameter name))
  | unsupported {variant : Variant Text} {bs : List (Text × TypeIdent)} {v : Value}
      (h : variant.payload.isPayload = false) :
      Fault types d room (.payload variant bs) v (.wire (.unsupportedPayload variant.name))
  | floatRange {ident : TypeIdent} {n : Int} (h : Binary64.ofInt? n = none) :
      Fault types d room (.type ident) (.int n) .floatRange
  | unhashableKey {ident : TypeIdent} {entries : Entries} {e : Value × Value} {r : Nat}
      {k : Value} (he : e ∈ entries)
      (hk : d.run types r e.1 (.type (ident.args.headD default)) = .ok k)
      (hkey : k.isKey = false) :
      Fault types d room (.type ident) (.map entries) .unhashableKey
  | unorderedKeys {place : Place} {v : Value} (h : d = .encoding) :
      Fault types d room place v .unorderedKeys

variable {types : TypeMap Text} {d : Direction} {room words : Nat} {place : Place} {v : Value}
  {P : CodecError → Prop} {α : Type}

/-! ## Wordings -/

namespace Value

theorem describeRoomAll_le {items : List Value} {n : Nat} :
    describeRoomAll items ≤ n ↔ ∀ item ∈ items, item.describeRoom ≤ n := by
  induction items with
  | nil => simp [describeRoomAll]
  | cons item items ih =>
    rw [describeRoomAll, List.forall_mem_cons, ← ih]
    exact Nat.max_le

theorem describeRoomEntries_le {entries : Entries} {n : Nat} :
    describeRoomEntries entries ≤ n
      ↔ ∀ e ∈ entries, e.1.describeRoom ≤ n ∧ e.2.describeRoom ≤ n := by
  induction entries with
  | nil => simp [describeRoomEntries]
  | cons e entries ih =>
    rw [describeRoomEntries, List.forall_mem_cons, ← ih]
    exact Nat.max_le.trans (and_congr_left' Nat.max_le)

theorem describeRoomEntries_lt (entries : Entries) :
    describeRoomEntries entries < (map entries).describeRoom := by
  rw [describeRoom]
  omega

/-- To write out a key or a value of a map takes no more room than the map does. -/
theorem describeRoom_lt_of_mem {entries : Entries} {e : Value × Value} (he : e ∈ entries) :
    e.1.describeRoom < (map entries).describeRoom
      ∧ e.2.describeRoom < (map entries).describeRoom :=
  (describeRoomEntries_le.mp (Nat.le_refl _) e he).imp
    (fun h => Nat.lt_of_le_of_lt h (describeRoomEntries_lt entries))
    (fun h => Nat.lt_of_le_of_lt h (describeRoomEntries_lt entries))

end Value

theorem Entries.mem_of_findName? {entries : Entries} {name : Text} {item : Value}
    (h : entries.findName? name = some item) : (.str name, item) ∈ entries := by
  induction entries with
  | nil => cases h
  | cons e entries ih =>
    rw [findName?] at h
    split at h
    · rename_i hname
      obtain ⟨k, x⟩ := e
      cases h
      cases k with
      | str s => rw [show s = name by simpa [Value.isName] using hname]; exact List.mem_cons_self
      | _ => cases hname
    · exact List.mem_cons_of_mem _ (ih h)

/-! ## Errors of a place itself -/

/-- `P` admits what a call can fail with that has `room` calls left and words no error that takes
more room than `words`. -/
structure Admits (P : CodecError → Prop) (room words : Nat) : Prop where
  noRoom : room < words + 4 → P .tooDeep
  misfit : ∀ cause : WireError, cause.OfValue → P (.wire cause)

/-- A call that is made soon fails with errors of `P` only. -/
def Soon (P : CodecError → Prop) (room : Nat) (run : Nat → Except CodecError Value) : Prop :=
  ∀ r < room, room ≤ r + 3 → FailsOnly P (run r)

namespace Admits

/-- Where only few calls are left there may be no room. -/
theorem tooDeep {few : Nat} (h : Admits P few words) (hfew : few ≤ 3) :
    FailsOnly P (.error .tooDeep : Except CodecError α) :=
  failsOnly_error (h.noRoom (by omega))

/-- A wire error is worded soon. -/
theorem failWire {r : Nat} {cause : WireError} (h : Admits P room words) (hr : room ≤ r + 3)
    (hcause : cause.OfValue) (hwords : cause.messageRoom ≤ words) :
    FailsOnly P (WasmBridge.failWire r cause : Except CodecError α) := by
  unfold WasmBridge.failWire
  refine failsOnly_error ?_
  split
  · exact h.misfit cause hcause
  · rename_i hroom
    exact h.noRoom (by omega)

end Admits

section Leaves

variable {ident : TypeIdent} {r : Nat}

theorem checkText_failsOnly (hP : Admits P room ((Place.type ident).wordingRoom v))
    (hr : room ≤ r + 3) : FailsOnly P (checkText r ident v) := by
  unfold checkText
  split
  · exact failsOnly_ok _
  · exact hP.failWire hr trivial (Nat.le_refl _)

theorem checkPrimitive_failsOnly {p : Primitive}
    (hP : Admits P room ((Place.type ident).wordingRoom v)) (hr : room ≤ r + 3)
    (hfloat : ∀ n, v = .int n → Binary64.ofInt? n = none → P .floatRange) :
    FailsOnly P (checkPrimitive r p ident v) := by
  unfold checkPrimitive
  split
  · split
    · exact failsOnly_ok _
    · exact hP.failWire hr trivial (Nat.le_refl _)
  split
  · split
    · exact failsOnly_ok _
    · rename_i n
      unfold toFloat
      split
      · exact failsOnly_ok _
      · rename_i hn
        exact failsOnly_error (hfloat n rfl hn)
    · exact hP.failWire hr trivial (Nat.le_refl _)
  · split
    · rename_i n
      split
      · refine hP.failWire hr trivial ?_
        simp only [WireError.messageRoom, Place.wordingRoom]
        omega
      split
      · exact hP.failWire hr trivial (Nat.zero_le _)
      · exact failsOnly_ok _
    · exact hP.failWire hr trivial (Nat.le_refl _)

theorem storeKey_failsOnly {k x : Value} {stored : Entries}
    (h : k.isKey = false → P .unhashableKey) : FailsOnly P (storeKey k x stored) := by
  unfold storeKey
  split
  · exact failsOnly_ok _
  · rename_i hkey
    exact failsOnly_error (h (Bool.not_eq_true _ ▸ hkey))

end Leaves

/-! ## Encoding -/

section Encoding

variable {r : Nat} {name : Text} {fields : List (Field Text)} {bs : List (Text × TypeIdent)}

theorem itemsToWire_failsOnly {items : List Value} {inner : TypeIdent} (hP : Admits P room words)
    (hr : room ≤ r + 1) (hlt : r < room)
    (h : ∀ item ∈ items, Soon P room (toWire types · item inner)) :
    FailsOnly P (itemsToWire types r items inner) := by
  cases r with
  | zero => rw [itemsToWire]; exact hP.tooDeep (by omega)
  | succ r =>
    rw [itemsToWire]
    have hitems : ∀ item ∈ items, FailsOnly P (toWire types r item inner) :=
      fun item hmem => h item hmem r (by omega) (by omega)
    exact (failsOnly_mapM hitems).bind fun _ _ => failsOnly_ok _

theorem eachToWire_failsOnly {items : List (Value × TypeIdent)} (hP : Admits P room words)
    (hr : room ≤ r + 2) (hlt : r < room)
    (h : ∀ e ∈ items, Soon P room (toWire types · e.1 e.2)) :
    FailsOnly P (eachToWire types r items) := by
  cases r with
  | zero => rw [eachToWire]; exact hP.tooDeep (by omega)
  | succ r =>
    rw [eachToWire]
    have hitems : ∀ e ∈ items, FailsOnly P (toWire types r e.1 e.2) :=
      fun e hmem => h e hmem r (by omega) (by omega)
    exact (failsOnly_mapM hitems).bind fun _ _ => failsOnly_ok _

theorem entriesToWire_failsOnly {entries : Entries} {key inner : TypeIdent}
    (hP : Admits P room words) (hr : room ≤ r + 1) (hlt : r < room)
    (hkeys : ∀ e ∈ entries, Soon P room (toWire types · e.1 key))
    (hvalues : ∀ e ∈ entries, Soon P room (toWire types · e.2 inner))
    (hkey : ∀ e ∈ entries, ∀ r k, toWire types r e.1 key = .ok k → k.isKey = false →
      P .unhashableKey) :
    FailsOnly P (entriesToWire types r entries key inner) := by
  cases r with
  | zero => rw [entriesToWire]; exact hP.tooDeep (by omega)
  | succ r =>
    rw [entriesToWire]
    refine FailsOnly.bind (failsOnly_foldlM fun e hmem stored => ?_) fun _ _ => failsOnly_ok _
    refine (hkeys e hmem r (by omega) (by omega)).bind fun k hk => ?_
    refine (hvalues e hmem r (by omega) (by omega)).bind fun x _ => ?_
    exact storeKey_failsOnly (hkey e hmem r k hk)

theorem tupleToWire_failsOnly {idents : List TypeIdent} {ident : TypeIdent}
    (hP : Admits P room words) (hr : room ≤ r + 1) (hlt : r < room)
    (hwords : 3 + max ident.textRoom v.describeRoom ≤ words)
    (hparts : ∀ part ∈ Direction.encoding.itemParts idents v,
      Soon P room (Direction.encoding.run types · part.2 part.1)) :
    FailsOnly P (tupleToWire types r v idents ident) := by
  cases r with
  | zero => rw [tupleToWire]; exact hP.tooDeep (by omega)
  | succ r =>
    rw [tupleToWire]
    split
    · rename_i items hitems
      have hsame : Direction.encoding.items v = items := by simp [Direction.items, hitems]
      split
      · refine eachToWire_failsOnly hP (by omega) (by omega) fun e hmem => ?_
        refine hparts (.type e.2, e.1) (List.mem_map.mpr ⟨e, ?_, rfl⟩)
        rwa [hsame]
      · refine hP.failWire (by omega) trivial (Nat.le_trans ?_ hwords)
        simp only [WireError.messageRoom]
        omega
    · exact hP.failWire (by omega) trivial hwords

theorem checkFields_failsOnly {known : List Text} {entries : Entries} (hP : Admits P room words)
    (hr : room ≤ r + 3) (hwords : 3 + Value.describeRoomEntries entries ≤ words)
    (hsort : P .unorderedKeys) : FailsOnly P (checkFields r name known entries) := by
  unfold checkFields
  dsimp only
  split
  · exact failsOnly_ok _
  split
  · rename_i names hnames
    refine hP.failWire hr trivial (Nat.le_trans (Nat.add_le_add_left ?_ 3) hwords)
    refine Value.describeRoomAll_le.mpr fun key hkey => ?_
    unfold Value.sort? at hnames
    split at hnames
    · cases hnames
      have hmem := List.mem_of_mem_filter ((List.mergeSort_perm _ _).subset hkey)
      obtain ⟨e, he, rfl⟩ := List.mem_map.mp hmem
      exact (Value.describeRoomEntries_le.mp (Nat.le_refl _) e he).1
    · cases hnames
  · exact failsOnly_error hsort

theorem fieldToStore_failsOnly {entries stored : Entries} {field : Field Text}
    (hP : Admits P room words) (hr : room ≤ r + 3) :
    FailsOnly P (fieldToStore types r name bs entries stored field) := by
  unfold fieldToStore
  dsimp only
  split
  · exact failsOnly_ok _
  split
  · exact hP.failWire hr trivial (Nat.zero_le _)
  split
  · exact hP.failWire hr trivial (Nat.zero_le _)
  · exact failsOnly_ok _

/-- What is stored for a field is one of the parts. -/
theorem mem_fieldParts_of_toStore {entries stored : Entries} {field : Field Text}
    {key : Text} {item : Value} {type : TypeIdent} (hmem : field ∈ fields)
    (h : fieldToStore types r name bs entries stored field = .ok (some (key, item, type))) :
    (.type type, item) ∈ Direction.encoding.fieldParts fields bs (.map entries) := by
  have ⟨hfind, htype⟩ : entries.findName? field.name = some item
      ∧ field.type.substitute bs = type := by
    unfold fieldToStore at h
    dsimp only at h
    split at h
    · cases h
    split at h
    · exact nomatch h
    split at h
    · exact nomatch h
    · rename_i hitem _
      cases h
      exact ⟨hitem, rfl⟩
  refine List.mem_filterMap.mpr ⟨field, hmem, ?_⟩
  simp [Direction.fieldItem?, hfind, htype]

theorem structToWire_failsOnly (hP : Admits P room words) (hr : room ≤ r + 1) (hlt : r < room)
    (hwords : 3 + v.describeRoom ≤ words) (hsort : P .unorderedKeys)
    (hparts : ∀ part ∈ Direction.encoding.fieldParts fields bs v,
      Soon P room (Direction.encoding.run types · part.2 part.1)) :
    FailsOnly P (structToWire types r v name fields bs) := by
  cases r with
  | zero => rw [structToWire]; exact hP.tooDeep (by omega)
  | succ r =>
    cases v with
    | map entries =>
      rw [structToWire]
      have hentries := Value.describeRoomEntries_lt entries
      refine (checkFields_failsOnly hP (by omega) (by omega) hsort).bind fun _ _ => ?_
      refine FailsOnly.bind (failsOnly_foldlM fun field hmem stored => ?_) fun _ _ => failsOnly_ok _
      refine (fieldToStore_failsOnly hP (by omega)).bind fun stored? hstore => ?_
      cases stored? with
      | none => exact failsOnly_ok _
      | some found =>
        obtain ⟨key, item, type⟩ := found
        have hpart := hparts _ (mem_fieldParts_of_toStore hmem hstore)
        exact (hpart r (by omega) (by omega)).bind fun _ _ => failsOnly_ok _
    | _ =>
      rw [structToWire]
      · refine hP.failWire (by omega) trivial (Nat.le_trans ?_ hwords)
        simp [WireError.messageRoom, TypeIdent.textRoom, Value.describeRoom]
      · exact nofun

theorem findVariant_failsOnly {enum : Text} {variants : List (Variant Text)}
    (hP : Admits P room words) (hr : room ≤ r + 3) (hwords : 3 ≤ words) :
    FailsOnly P (findVariant r enum variants name) := by
  unfold findVariant
  split
  · exact failsOnly_ok _
  · exact hP.failWire hr trivial hwords

theorem wrapVariant_failsOnly {enum key : Text} {encoding : Encoding Text} {variant : Variant Text}
    (hP : Admits P room words) (hr : room ≤ r + 3) :
    FailsOnly P (wrapVariant r enum encoding variant key v) := by
  unfold wrapVariant
  dsimp only
  split
  · exact failsOnly_ok _
  · exact failsOnly_ok _
  · exact failsOnly_ok _
  split
  · exact failsOnly_ok _
  split
  · exact failsOnly_ok _
  · exact hP.failWire hr trivial (Nat.zero_le _)

theorem enumToWire_failsOnly {enum : Text} {variants : List (Variant Text)}
    {options : EnumOptions Text} (hP : Admits P room words) (hr : room ≤ r + 1) (hlt : r < room)
    (hwords : 3 ≤ words)
    (hparts : ∀ found ∈ Direction.encoding.variantParts variants options (.variant name v),
      Soon P room (payloadToWire types · found.2 found.1 bs)) :
    FailsOnly P (enumToWire types r name v enum variants options bs) := by
  cases r with
  | zero => rw [enumToWire]; exact hP.tooDeep (by omega)
  | succ r =>
    rw [enumToWire]
    refine (findVariant_failsOnly hP (by omega) hwords).bind fun variant hvariant => ?_
    have hfound : (variant, v) ∈ Direction.encoding.variantParts variants options
        (.variant name v) := by
      unfold findVariant at hvariant
      split at hvariant
      · rename_i hfind
        cases hvariant
        simp [Direction.variantParts, hfind]
      · cases hvariant
    refine (hparts _ hfound r (by omega) (by omega)).bind fun payload _ => ?_
    exact wrapVariant_failsOnly hP (by omega)

end Encoding

/-! ## Decoding -/

section Decoding

variable {r : Nat} {name : Text} {fields : List (Field Text)} {bs : List (Text × TypeIdent)}

theorem itemsFromWire_failsOnly {items : List Value} {inner : TypeIdent}
    (hP : Admits P room words) (hr : room ≤ r + 1) (hlt : r < room)
    (h : ∀ item ∈ items, Soon P room (fromWire types · item inner)) :
    FailsOnly P (itemsFromWire types r items inner) := by
  cases r with
  | zero => rw [itemsFromWire]; exact hP.tooDeep (by omega)
  | succ r =>
    rw [itemsFromWire]
    have hitems : ∀ item ∈ items, FailsOnly P (fromWire types r item inner) :=
      fun item hmem => h item hmem r (by omega) (by omega)
    exact (failsOnly_mapM hitems).bind fun _ _ => failsOnly_ok _

theorem eachFromWire_failsOnly {items : List (Value × TypeIdent)} (hP : Admits P room words)
    (hr : room ≤ r + 2) (hlt : r < room)
    (h : ∀ e ∈ items, Soon P room (fromWire types · e.1 e.2)) :
    FailsOnly P (eachFromWire types r items) := by
  cases r with
  | zero => rw [eachFromWire]; exact hP.tooDeep (by omega)
  | succ r =>
    rw [eachFromWire]
    have hitems : ∀ e ∈ items, FailsOnly P (fromWire types r e.1 e.2) :=
      fun e hmem => h e hmem r (by omega) (by omega)
    exact (failsOnly_mapM hitems).bind fun _ _ => failsOnly_ok _

theorem entriesFromWire_failsOnly {entries : Entries} {key inner : TypeIdent}
    (hP : Admits P room words) (hr : room ≤ r + 1) (hlt : r < room)
    (hkeys : ∀ e ∈ entries, Soon P room (fromWire types · e.1 key))
    (hvalues : ∀ e ∈ entries, Soon P room (fromWire types · e.2 inner))
    (hkey : ∀ e ∈ entries, ∀ r k, fromWire types r e.1 key = .ok k → k.isKey = false →
      P .unhashableKey) :
    FailsOnly P (entriesFromWire types r entries key inner) := by
  cases r with
  | zero => rw [entriesFromWire]; exact hP.tooDeep (by omega)
  | succ r =>
    rw [entriesFromWire]
    refine FailsOnly.bind (failsOnly_foldlM fun e hmem stored => ?_) fun _ _ => failsOnly_ok _
    refine (hkeys e hmem r (by omega) (by omega)).bind fun k hk => ?_
    refine (hvalues e hmem r (by omega) (by omega)).bind fun x _ => ?_
    exact storeKey_failsOnly (hkey e hmem r k hk)

theorem tupleFromWire_failsOnly {idents : List TypeIdent} {ident : TypeIdent}
    (hP : Admits P room words) (hr : room ≤ r + 1) (hlt : r < room)
    (hwords : 3 + max ident.textRoom v.describeRoom ≤ words)
    (hparts : ∀ part ∈ Direction.decoding.itemParts idents v,
      Soon P room (Direction.decoding.run types · part.2 part.1)) :
    FailsOnly P (tupleFromWire types r v idents ident) := by
  cases r with
  | zero => rw [tupleFromWire]; exact hP.tooDeep (by omega)
  | succ r =>
    cases v with
    | list items =>
      rw [tupleFromWire]
      split
      · refine eachFromWire_failsOnly hP (by omega) (by omega) fun e hmem => ?_
        exact hparts (.type e.2, e.1) (List.mem_map.mpr ⟨e, hmem, rfl⟩)
      · refine hP.failWire (by omega) trivial (Nat.le_trans ?_ hwords)
        simp only [WireError.messageRoom]
        omega
    | _ =>
      rw [tupleFromWire]
      · exact hP.failWire (by omega) trivial hwords
      · exact nofun

theorem structFromWire_failsOnly (hP : Admits P room words) (hr : room ≤ r + 1) (hlt : r < room)
    (hwords : 3 + v.describeRoom ≤ words)
    (hparts : ∀ part ∈ Direction.decoding.fieldParts fields bs v,
      Soon P room (Direction.decoding.run types · part.2 part.1)) :
    FailsOnly P (structFromWire types r v name fields bs) := by
  cases r with
  | zero => rw [structFromWire]; exact hP.tooDeep (by omega)
  | succ r =>
    cases v with
    | map entries =>
      rw [structFromWire]
      refine FailsOnly.bind (failsOnly_foldlM fun field hmem stored => ?_) fun _ _ => failsOnly_ok _
      dsimp only
      split
      · rename_i item hfind
        have hpart := hparts (.type (field.type.substitute bs), item)
          (List.mem_filterMap.mpr ⟨field, hmem, by simp [Direction.fieldItem?, hfind]⟩)
        exact (hpart r (by omega) (by omega)).bind fun _ _ => failsOnly_ok _
      split
      · exact failsOnly_ok _
      · exact hP.failWire (by omega) trivial (Nat.zero_le _)
    | _ =>
      rw [structFromWire]
      · refine hP.failWire (by omega) trivial (Nat.le_trans ?_ hwords)
        simp [WireError.messageRoom, TypeIdent.textRoom, Value.describeRoom]
      · exact nofun

/-- What is done with the variant of a key fails as that does for a variant that has the key. -/
theorem findWireVariant_bind_failsOnly {enum : Text} {variants : List (Variant Text)}
    {casing : Casing} {key : Value} {next : Variant Text → Except CodecError α}
    (hP : Admits P room words) (hr : room ≤ r + 3) (hwords : 3 + key.describeRoom ≤ words)
    (hnext : ∀ variant, variants.find? (fun variant =>
        key.isName (variantWireKey variant.name casing)) = some variant →
      FailsOnly P (next variant)) :
    FailsOnly P (findWireVariant r enum variants casing key >>= next) := by
  unfold findWireVariant
  split
  · rename_i variant hfind
    exact hnext variant hfind
  · have hfail : FailsOnly P (failWire r (.unknownVariant key enum)
        : Except CodecError (Variant Text)) := hP.failWire hr trivial hwords
    exact hfail.bind nofun

theorem firstFit_failsOnly {enum : Text} {payloadOf : Variant Text → Except CodecError Value}
    {variants : List (Variant Text)} (hP : Admits P room words) (hr : room ≤ r + 3)
    (h : ∀ variant ∈ variants, FailsOnly P (payloadOf variant)) :
    FailsOnly P (firstFit r enum payloadOf variants) := by
  induction variants with
  | nil => exact hP.failWire hr trivial (Nat.zero_le _)
  | cons variant rest ih =>
    rw [firstFit]
    split
    · exact failsOnly_ok _
    · exact ih fun variant hmem => h variant (List.mem_cons_of_mem _ hmem)
    · rename_i e _ he
      exact failsOnly_error (h variant List.mem_cons_self e he)

theorem enumFromWire_failsOnly {ident : TypeIdent} {enum : Text} {variants : List (Variant Text)}
    {options : EnumOptions Text} (hP : Admits P room words) (hr : room ≤ r + 1) (hlt : r < room)
    (hwords : 3 + max ident.textRoom v.describeRoom ≤ words)
    (hparts : ∀ found ∈ Direction.wireVariants variants options v,
      Soon P room (payloadFromWire types · found.2 found.1 bs)) :
    FailsOnly P (enumFromWire types r v ident enum variants options bs) := by
  cases r with
  | zero => rw [enumFromWire]; exact hP.tooDeep (by omega)
  | succ r =>
    have hpayload : ∀ found ∈ Direction.wireVariants variants options v,
        FailsOnly P (payloadFromWire types r found.2 found.1 bs) :=
      fun found hmem => hparts found hmem r (by omega) (by omega)
    have hmisfit : ∀ cause : WireError, cause.OfValue → cause.messageRoom ≤ words →
        FailsOnly P (failWire r cause : Except CodecError Value) :=
      fun cause hcause hroom => hP.failWire (by omega) hcause hroom
    -- The key of a variant stands in the value, so an error about it can be worded.
    have hkey : ∀ {key : Value}, key.describeRoom < v.describeRoom →
        3 + key.describeRoom ≤ words := fun h => by omega
    unfold enumFromWire
    unfold Direction.wireVariants at hpayload
    dsimp only at hpayload ⊢
    split
    · rename_i hencoding
      simp only [hencoding] at hpayload
      exact firstFit_failsOnly hP (by omega) fun variant hmem =>
        hpayload (variant, v) (List.mem_map.mpr ⟨variant, hmem, rfl⟩)
    · rename_i hencoding
      simp only [hencoding] at hpayload
      split
      · refine findWireVariant_bind_failsOnly hP (by omega) (by simp [Value.describeRoom]; omega)
          fun variant hfind => ?_
        have := hpayload (variant, .null) (by simp [hfind])
        exact this.bind fun _ _ => failsOnly_ok _
      · rename_i key payload
        have hstands := Value.describeRoom_lt_of_mem (List.mem_singleton_self (key, payload))
        refine findWireVariant_bind_failsOnly hP (by omega) (hkey hstands.1) fun variant hfind => ?_
        have := hpayload (variant, payload) (by simp [hfind])
        exact this.bind fun _ _ => failsOnly_ok _
      · exact hmisfit _ trivial (Nat.zero_le _)
      · exact hmisfit _ trivial hwords
    · rename_i tag content hencoding
      simp only [hencoding] at hpayload
      split
      · rename_i entries
        split
        · exact hmisfit _ trivial (Nat.zero_le _)
        · rename_i key hfindKey
          have hstands := Value.describeRoom_lt_of_mem (Entries.mem_of_findName? hfindKey)
          refine findWireVariant_bind_failsOnly hP (by omega) (hkey hstands.2)
            fun variant hfind => ?_
          have := hpayload (variant, (Entries.findName? entries content).getD .null)
            (by simp [hfindKey, hfind])
          exact this.bind fun _ _ => failsOnly_ok _
      · exact hmisfit _ trivial hwords
    · rename_i tag hencoding
      simp only [hencoding] at hpayload
      split
      · rename_i entries
        split
        · exact hmisfit _ trivial (Nat.zero_le _)
        · rename_i key hfindKey
          have hstands := Value.describeRoom_lt_of_mem (Entries.mem_of_findName? hfindKey)
          refine findWireVariant_bind_failsOnly hP (by omega) (hkey hstands.2)
            fun variant hfind => ?_
          have := hpayload (variant, .map (Entries.withoutName entries tag))
            (by simp [hfindKey, hfind])
          split
          · exact failsOnly_ok _
          · exact this.bind fun _ _ => failsOnly_ok _
      · exact hmisfit _ trivial hwords

end Decoding

/-! ## One call -/

section Calls

variable {r : Nat} {ident : TypeIdent} {variant : Variant Text} {bs : List (Text × TypeIdent)}

theorem admits_of_fault (hfault : ∀ e, Fault types d room place v e → P e) :
    Admits P room (place.wordingRoom v) where
  noRoom h := hfault _ (.noRoom h)
  misfit _ h := hfault _ (.misfit h)

theorem resolveWithin_failsOnly (hfault : ∀ e, Fault types d room (.type ident) v e → P e)
    (hr : room ≤ r + 3) : FailsOnly P (resolveWithin types r ident) := by
  unfold resolveWithin
  split
  · exact failsOnly_ok _
  · rename_i cause hresolve
    refine failsOnly_error ?_
    split
    · exact hfault _ (.unresolved hresolve)
    · refine hfault _ (.noRoom ?_)
      have hmessage := resolve_messageRoom_le hresolve
      simp only [Place.wordingRoom]
      omega

theorem unboundParameter_failsOnly {name : Text}
    (hfault : ∀ e, Fault types d room (.type ident) v e → P e)
    (hresolve : types.resolve ident = .ok (.generic name)) :
    FailsOnly P (failWire r (.unboundParameter name) : Except CodecError α) := by
  unfold failWire
  rw [if_pos (show (WireError.unboundParameter name).messageRoom ≤ r from Nat.zero_le r)]
  exact failsOnly_error (hfault _ (.unbound hresolve))

theorem unsupportedPayload_failsOnly
    (hfault : ∀ e, Fault types d room (.payload variant bs) v e → P e)
    (hpayload : variant.payload.isPayload = false) :
    FailsOnly P (failWire r (.unsupportedPayload variant.name) : Except CodecError α) := by
  unfold failWire
  rw [if_pos (show (WireError.unsupportedPayload variant.name).messageRoom ≤ r from Nat.zero_le r)]
  exact failsOnly_error (hfault _ (.unsupported hpayload))

theorem toWire_failsOnly (hfault : ∀ e, Fault types .encoding room (.type ident) v e → P e)
    (hparts : ∀ part ∈ Direction.encoding.parts types (.type ident) v,
      Soon P room (Direction.encoding.run types · part.2 part.1)) :
    FailsOnly P (toWire types room v ident) := by
  have hP := admits_of_fault hfault
  cases room with
  | zero => rw [toWire]; exact hP.tooDeep (by omega)
  | succ r =>
    unfold toWire
    refine (resolveWithin_failsOnly hfault (by omega)).bind fun type hwithin => ?_
    have hresolve := resolveWithin_eq_ok.mp hwithin
    simp only [Direction.parts, hresolve] at hparts
    cases type with
    | primitive p =>
      exact checkPrimitive_failsOnly hP (by omega) fun n hn hfloat =>
        hfault _ (by subst hn; exact .floatRange hfloat)
    | string name => exact checkText_failsOnly hP (by omega)
    | unit name =>
      dsimp only
      split
      · exact failsOnly_ok _
      · exact hP.failWire (by omega) trivial (Nat.le_refl _)
    | synonym name aliased =>
      exact hparts (.type aliased, v) (List.mem_singleton_self _) r (by omega) (by omega)
    | container name inner =>
      dsimp only at hparts ⊢
      split
      · exact failsOnly_ok _
      · rename_i hnull
        rw [if_neg hnull] at hparts
        exact hparts _ (List.mem_singleton_self _) r (by omega) (by omega)
    | custom name args rust typescript => exact failsOnly_ok _
    | list name inner =>
      dsimp only
      split
      · rename_i items hitems
        refine itemsToWire_failsOnly hP (by omega) (by omega) fun item hmem => ?_
        refine hparts (_, item) (List.mem_map.mpr ⟨item, ?_, rfl⟩)
        simpa [Direction.items, hitems] using hmem
      · exact hP.failWire (by omega) trivial (Nat.le_refl _)
    | map name key value =>
      dsimp only at hparts ⊢
      split
      · refine entriesToWire_failsOnly hP (by omega) (by omega) (fun e hmem => ?_)
          (fun e hmem => ?_) fun e hmem r k hk hkey => hfault _ (.unhashableKey hmem hk hkey)
        · exact hparts (_, e.1) (List.mem_flatMap.mpr ⟨e, hmem, List.mem_cons_self⟩)
        · exact hparts (_, e.2) (List.mem_flatMap.mpr ⟨e, hmem, List.mem_of_mem_getLast? rfl⟩)
      · exact hP.failWire (by omega) trivial (Nat.le_refl _)
    | tuple items => exact tupleToWire_failsOnly hP (by omega) (by omega) (Nat.le_refl _) hparts
    | struct name generics fields doc =>
      refine structToWire_failsOnly hP (by omega) (by omega) ?_ (hfault _ (.unorderedKeys rfl))
        hparts
      simp only [Place.wordingRoom]
      omega
    | enum name generics variants options doc =>
      dsimp only
      split
      · rename_i variant payload
        refine enumToWire_failsOnly hP (by omega) (by omega) (Nat.le_add_right 3 _)
          fun found hfound => ?_
        exact hparts (_, found.2) (List.mem_map.mpr ⟨found, hfound, rfl⟩)
      · exact hP.failWire (by omega) trivial (Nat.le_refl _)
    | generic name => exact unboundParameter_failsOnly hfault hresolve

theorem payloadToWire_failsOnly
    (hfault : ∀ e, Fault types .encoding room (.payload variant bs) v e → P e)
    (hparts : ∀ part ∈ Direction.encoding.parts types (.payload variant bs) v,
      Soon P room (Direction.encoding.run types · part.2 part.1)) :
    FailsOnly P (payloadToWire types room v variant bs) := by
  have hP := admits_of_fault hfault
  cases room with
  | zero => rw [payloadToWire]; exact hP.tooDeep (by omega)
  | succ r =>
    unfold payloadToWire
    dsimp only [Direction.parts] at hparts
    cases hpayload : variant.payload with
    | unit name => exact failsOnly_ok _
    | struct name generics fields doc =>
      rw [hpayload] at hparts
      exact structToWire_failsOnly hP (by omega) (by omega) (Nat.le_refl _)
        (hfault _ (.unorderedKeys rfl)) hparts
    | tuple items =>
      rw [hpayload] at hparts
      match items, hparts with
      | [item], hparts => exact hparts _ (List.mem_singleton_self _) r (by omega) (by omega)
      | [], hparts | _ :: _ :: _, hparts =>
        refine tupleToWire_failsOnly hP (by omega) (by omega) ?_ hparts
        simp [TypeIdent.textRoom, Place.wordingRoom]
    | _ => exact unsupportedPayload_failsOnly hfault (by rw [hpayload]; rfl)

theorem fromWire_failsOnly (hfault : ∀ e, Fault types .decoding room (.type ident) v e → P e)
    (hparts : ∀ part ∈ Direction.decoding.parts types (.type ident) v,
      Soon P room (Direction.decoding.run types · part.2 part.1)) :
    FailsOnly P (fromWire types room v ident) := by
  have hP := admits_of_fault hfault
  cases room with
  | zero => rw [fromWire]; exact hP.tooDeep (by omega)
  | succ r =>
    unfold fromWire
    refine (resolveWithin_failsOnly hfault (by omega)).bind fun type hwithin => ?_
    have hresolve := resolveWithin_eq_ok.mp hwithin
    simp only [Direction.parts, hresolve] at hparts
    cases type with
    | primitive p =>
      exact checkPrimitive_failsOnly hP (by omega) fun n hn hfloat =>
        hfault _ (by subst hn; exact .floatRange hfloat)
    | string name => exact checkText_failsOnly hP (by omega)
    | unit name =>
      dsimp only
      split
      · exact failsOnly_ok _
      · exact hP.failWire (by omega) trivial (Nat.le_refl _)
    | synonym name aliased =>
      exact hparts (.type aliased, v) (List.mem_singleton_self _) r (by omega) (by omega)
    | container name inner =>
      dsimp only at hparts ⊢
      split
      · exact failsOnly_ok _
      · rename_i hnull
        rw [if_neg hnull] at hparts
        exact hparts _ (List.mem_singleton_self _) r (by omega) (by omega)
    | custom name args rust typescript => exact failsOnly_ok _
    | list name inner =>
      dsimp only
      split
      · rename_i items
        exact itemsFromWire_failsOnly hP (by omega) (by omega) fun item hmem =>
          hparts (_, item) (List.mem_map.mpr ⟨item, hmem, rfl⟩)
      · exact hP.failWire (by omega) trivial (Nat.le_refl _)
    | map name key value =>
      dsimp only at hparts ⊢
      split
      · refine entriesFromWire_failsOnly hP (by omega) (by omega) (fun e hmem => ?_)
          (fun e hmem => ?_) fun e hmem r k hk hkey => hfault _ (.unhashableKey hmem hk hkey)
        · exact hparts (_, e.1) (List.mem_flatMap.mpr ⟨e, hmem, List.mem_cons_self⟩)
        · exact hparts (_, e.2) (List.mem_flatMap.mpr ⟨e, hmem, List.mem_of_mem_getLast? rfl⟩)
      · exact hP.failWire (by omega) trivial (Nat.le_refl _)
    | tuple items => exact tupleFromWire_failsOnly hP (by omega) (by omega) (Nat.le_refl _) hparts
    | struct name generics fields doc =>
      refine structFromWire_failsOnly hP (by omega) (by omega) ?_ hparts
      simp only [Place.wordingRoom]
      omega
    | enum name generics variants options doc =>
      exact enumFromWire_failsOnly hP (by omega) (by omega) (Nat.le_refl _) fun found hfound =>
        hparts (_, found.2) (List.mem_map.mpr ⟨found, hfound, rfl⟩)
    | generic name => exact unboundParameter_failsOnly hfault hresolve

theorem payloadFromWire_failsOnly
    (hfault : ∀ e, Fault types .decoding room (.payload variant bs) v e → P e)
    (hparts : ∀ part ∈ Direction.decoding.parts types (.payload variant bs) v,
      Soon P room (Direction.decoding.run types · part.2 part.1)) :
    FailsOnly P (payloadFromWire types room v variant bs) := by
  have hP := admits_of_fault hfault
  cases room with
  | zero => rw [payloadFromWire]; exact hP.tooDeep (by omega)
  | succ r =>
    unfold payloadFromWire
    dsimp only [Direction.parts] at hparts
    cases hpayload : variant.payload with
    | unit name =>
      dsimp only
      split
      · exact failsOnly_ok _
      · exact hP.failWire (by omega) trivial (Nat.zero_le _)
    | struct name generics fields doc =>
      rw [hpayload] at hparts
      exact structFromWire_failsOnly hP (by omega) (by omega) (Nat.le_refl _) hparts
    | tuple items =>
      rw [hpayload] at hparts
      match items, hparts with
      | [item], hparts => exact hparts _ (List.mem_singleton_self _) r (by omega) (by omega)
      | [], hparts | _ :: _ :: _, hparts =>
        refine tupleFromWire_failsOnly hP (by omega) (by omega) ?_ hparts
        simp [TypeIdent.textRoom, Place.wordingRoom]
    | _ => exact unsupportedPayload_failsOnly hfault (by rw [hpayload]; rfl)

/-- **What a run can fail with is a fault of its place, or an error of a call for one of the
parts.** -/
theorem run_failsOnly (hfault : ∀ e, Fault types d room place v e → P e)
    (hparts : ∀ part ∈ d.parts types place v, Soon P room (d.run types · part.2 part.1)) :
    FailsOnly P (d.run types room v place) := by
  match d, place, hfault, hparts with
  | .encoding, .type _, hfault, hparts => exact toWire_failsOnly hfault hparts
  | .encoding, .payload .., hfault, hparts => exact payloadToWire_failsOnly hfault hparts
  | .decoding, .type _, hfault, hparts => exact fromWire_failsOnly hfault hparts
  | .decoding, .payload .., hfault, hparts => exact payloadFromWire_failsOnly hfault hparts

/-- What no fault of a place that can be reached is, no run from there fails with. -/
theorem run_failsOnly_of_reaches {start : Place}
    (hfault : ∀ place, start.Reaches types place → ∀ room v e, Fault types d room place v e → P e)
    (room : Nat) (v : Value) : FailsOnly P (d.run types room v start) := by
  induction room using Nat.strongRecOn generalizing start v with
  | ind room ih =>
    refine run_failsOnly (fun e => hfault start .refl room v e) fun part hpart r hr _ => ?_
    exact ih r hr (fun place hreaches => hfault place
      (Relation.ReflTransGen.head (place_mem_inner hpart) hreaches)) part.2

end Calls

end WasmBridge
