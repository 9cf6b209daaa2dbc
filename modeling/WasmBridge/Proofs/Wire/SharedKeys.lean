import WasmBridge.Proofs.Wire.Parts
import WasmBridge.Proofs.Wire.Places

/-!
# Fields that share a wire key

Nothing keeps two fields of a struct from having one wire key, so the encoder looks whether
a key is in use before it stores a field under it. An option that is absent is not stored,
and for it the encoder does not look. So the guard sees two fields with one key only if
both are there: a value is encoded exactly if its fields are, each by itself, and the keys
of those that are there are different from each other.
-/

namespace WasmBridge

open Outcome

variable {types : TypeMap Text} {room : Nat} {name : Text} {fields : List (Field Text)}
  {bs : List (Text × TypeIdent)} {entries stored : Entries} {field : Field Text} {place : Place}
  {v : Value}

/-- The codec takes a value apart into fields: at a struct, or at a variant that has some. -/
inductive Place.TakesFields (types : TypeMap Text) :
    Place → Text → List (Field Text) → List (Text × TypeIdent) → Prop where
  | struct {ident : TypeIdent} {name : Text} {generics : List Text} {fields : List (Field Text)}
      {doc : List Text} (h : types.resolve ident = .ok (.struct name generics fields doc)) :
      TakesFields types (.type ident) name fields (bindings generics ident)
  | variant {variant : Variant Text} {bs : List (Text × TypeIdent)} {name : Text}
      {generics : List Text} {fields : List (Field Text)} {doc : List Text}
      (h : variant.payload = .struct name generics fields doc) :
      TakesFields types (.payload variant bs) name fields bs

theorem Place.TakesFields.run_encoding (h : place.TakesFields types name fields bs) :
    Direction.encoding.run types (room + 1) v place
      = structToWire types room v name fields bs := by
  cases h with
  | struct h =>
    show toWire types (room + 1) v _ = _
    unfold toWire
    rw [resolveWithin_eq_ok.mpr h]
    rfl
  | variant h =>
    show payloadToWire types (room + 1) v _ _ = _
    rw [payloadToWire, h]

theorem Place.TakesFields.run_decoding (h : place.TakesFields types name fields bs) :
    Direction.decoding.run types (room + 1) v place
      = structFromWire types room v name fields bs := by
  cases h with
  | struct h =>
    show fromWire types (room + 1) v _ = _
    unfold fromWire
    rw [resolveWithin_eq_ok.mpr h]
    rfl
  | variant h =>
    show payloadFromWire types (room + 1) v _ _ = _
    rw [payloadFromWire, h]

/-- A field that is an option, with null or nothing in its place. -/
def Field.isAbsent (types : TypeMap Text) (bs : List (Text × TypeIdent)) (entries : Entries)
    (field : Field Text) : Bool :=
  (fieldValue entries field).isNull && types.isOptional (field.type.substitute bs)

/-- What stands for a field can be encoded. -/
def Field.Encodes (types : TypeMap Text) (room : Nat) (bs : List (Text × TypeIdent))
    (entries : Entries) (field : Field Text) : Prop :=
  ∃ item w, entries.findName? field.name = some item
    ∧ toWire types room item (field.type.substitute bs) = .ok w

/-- The wire keys of the fields that are there. -/
def presentKeys (types : TypeMap Text) (bs : List (Text × TypeIdent)) (entries : Entries)
    (fields : List (Field Text)) : List Text :=
  (fields.filter fun f => !f.isAbsent types bs entries).map fun f => fieldWireKey f.name

/-- Each field is absent or can be encoded, and there are no others. -/
structure Fits (types : TypeMap Text) (room : Nat) (fields : List (Field Text))
    (bs : List (Text × TypeIdent)) (entries : Entries) : Prop where
  known : ∀ e ∈ entries, ∃ f ∈ fields, e.1 = .str f.name
  encodes : ∀ f ∈ fields, f.isAbsent types bs entries = false → f.Encodes types room bs entries

/-! ## One field -/

theorem presentKeys_absent (h : field.isAbsent types bs entries = true) :
    presentKeys types bs entries (field :: fields) = presentKeys types bs entries fields := by
  simp [presentKeys, h]

theorem presentKeys_present (h : field.isAbsent types bs entries = false) :
    presentKeys types bs entries (field :: fields)
      = fieldWireKey field.name :: presentKeys types bs entries fields := by
  simp [presentKeys, h]

theorem storeField_absent (h : field.isAbsent types bs entries = true) :
    storeField types room name bs entries stored field = .ok stored := by
  have hskip : fieldToStore types room name bs entries stored field = .ok none := if_pos h
  rw [storeField, hskip]
  rfl

/-- A field that is there is looked up, and then its key is looked for among those in use. -/
theorem storeField_present (h : field.isAbsent types bs entries = false) :
    storeField types room name bs entries stored field
      = match entries.findName? field.name with
        | none => failWire room (.missingField name field.name)
        | some item =>
          if (stored.findName? (fieldWireKey field.name)).isSome then
            .error (.wire (.reusedKey name field.name (fieldWireKey field.name)))
          else
            toWire types room item (field.type.substitute bs) >>= fun w =>
              .ok (stored ++ [(.str (fieldWireKey field.name), w)]) := by
  have hhere : ¬(((entries.findName? field.name).getD .null).isNull
      && types.isOptional (field.type.substitute bs)) = true := by
    rw [Bool.not_eq_true]
    exact h
  unfold storeField fieldToStore
  dsimp only
  rw [if_neg hhere]
  cases entries.findName? field.name with
  | none => rfl
  | some item =>
    dsimp only
    split
    · rfl
    · rfl

/-! ## All fields -/

/-- None of some keys is in use, and no two of them are the same. -/
def KeysFree (stored : Entries) (keys : List Text) : Prop :=
  keys.Nodup ∧ ∀ key ∈ keys, stored.findName? key = none

/-- To store something under the first of some keys puts it in use for the others. -/
theorem keysFree_cons {key : Text} {keys : List Text} (w : Value) :
    KeysFree stored (key :: keys)
      ↔ stored.findName? key = none ∧ KeysFree (stored ++ [(.str key, w)]) keys := by
  have hstored : ∀ other, Entries.findName? (stored ++ [(.str key, w)]) other = none
      ↔ stored.findName? other = none ∧ other ≠ key := by
    intro other
    have hone : Entries.findName? [(.str key, w)] other = none ↔ other ≠ key := by
      rw [Entries.findName?_eq_none_iff]
      simp [eq_comm]
    rw [Entries.findName?_append, Option.or_eq_none_iff, hone]
  constructor
  · rintro ⟨hnodup, hfree⟩
    obtain ⟨hnew, hnodup⟩ := List.nodup_cons.mp hnodup
    obtain ⟨hkey, hfree⟩ := List.forall_mem_cons.mp hfree
    refine ⟨hkey, hnodup, fun other hother => (hstored other).mpr ⟨hfree other hother, ?_⟩⟩
    rintro rfl
    exact hnew hother
  · rintro ⟨hkey, hnodup, hfree⟩
    have hothers := fun other hother => (hstored other).mp (hfree other hother)
    refine ⟨List.nodup_cons.mpr ⟨fun hmem => (hothers key hmem).2 rfl, hnodup⟩, ?_⟩
    exact List.forall_mem_cons.mpr ⟨hkey, fun other hother => (hothers other hother).1⟩

/-- What is stored has been encoded. -/
theorem encodes_of_storeFields {out : Entries}
    (h : fields.foldlM (storeField types room name bs entries) stored = .ok out) :
    ∀ f ∈ fields, f.isAbsent types bs entries = false → f.Encodes types room bs entries := by
  induction fields generalizing stored with
  | nil => nofun
  | cons field fields ih =>
    rw [List.foldlM_cons] at h
    obtain ⟨next, hstore, hrest⟩ := bind_eq_ok.mp h
    refine List.forall_mem_cons.mpr ⟨fun hpresent => ?_, ih hrest⟩
    rw [storeField_present hpresent] at hstore
    split at hstore
    · cases hstore
    · rename_i item hitem
      split at hstore
      · cases hstore
      · obtain ⟨w, hw, -⟩ := bind_eq_ok.mp hstore
        exact ⟨item, w, hitem, hw⟩

/-- **Fields that can be encoded are stored if their keys are free**, and otherwise the first of
them whose key is in use is refused. -/
theorem storeFields_cases (name : Text) (stored : Entries)
    (h : ∀ f ∈ fields, f.isAbsent types bs entries = false → f.Encodes types room bs entries) :
    (KeysFree stored (presentKeys types bs entries fields)
        ∧ ∃ out, fields.foldlM (storeField types room name bs entries) stored = .ok out)
      ∨ (¬KeysFree stored (presentKeys types bs entries fields)
        ∧ ∃ f ∈ fields, fields.foldlM (storeField types room name bs entries) stored
          = .error (.wire (.reusedKey name f.name (fieldWireKey f.name)))) := by
  induction fields generalizing stored with
  | nil => exact .inl ⟨⟨List.nodup_nil, nofun⟩, stored, rfl⟩
  | cons field fields ih =>
    obtain ⟨hfield, hfields⟩ := List.forall_mem_cons.mp h
    have hlater : ∀ {P : Field Text → Prop}, (∃ f ∈ fields, P f) → ∃ f ∈ field :: fields, P f :=
      fun ⟨f, hf, hP⟩ => ⟨f, List.mem_cons_of_mem _ hf, hP⟩
    rw [List.foldlM_cons]
    cases habsent : field.isAbsent types bs entries with
    | true =>
      rw [storeField_absent habsent, presentKeys_absent habsent, bind_ok]
      exact (ih _ hfields).imp_right (And.imp_right hlater)
    | false =>
      obtain ⟨item, w, hitem, hw⟩ := hfield habsent
      rw [storeField_present habsent, presentKeys_present habsent, hitem, keysFree_cons w]
      dsimp only
      cases hused : stored.findName? (fieldWireKey field.name) with
      | some x => exact .inr ⟨fun hfree => (nomatch hfree.1), field, List.mem_cons_self, rfl⟩
      | none =>
        rw [hw]
        exact (ih _ hfields).imp (And.imp_left fun hfree => ⟨rfl, hfree⟩)
          (And.imp (fun hmeet hfree => hmeet hfree.2) hlater)

/-! ## A struct -/

/-- A struct of some entries stores its fields, once it has found no others. -/
theorem structToWire_map (hknown : ∀ e ∈ entries, ∃ f ∈ fields, e.1 = .str f.name) :
    structToWire types (room + 1) (.map entries) name fields bs
      = (do return .map (← fields.foldlM (storeField types room name bs entries) [])) := by
  have hcheck : checkFields room name (fields.map (·.name)) entries = .ok () := by
    have hunknown : (entries.map (·.1)).filter
        (fun key => !(fields.map (·.name)).any key.isName) = [] := by
      refine List.filter_eq_nil_iff.mpr fun key hkey => ?_
      obtain ⟨e, he, rfl⟩ := List.mem_map.mp hkey
      obtain ⟨f, hf, hname⟩ := hknown e he
      have hany : (fields.map (·.name)).any e.1.isName = true :=
        List.any_eq_true.mpr ⟨f.name, List.mem_map_of_mem hf, Value.isName_iff.mpr hname⟩
      rw [hany]
      decide
    unfold checkFields
    rw [hunknown]
    rfl
  unfold structToWire
  dsimp only
  rw [hcheck]
  rfl

theorem known_of_checkFields (h : checkFields room name (fields.map (·.name)) entries = .ok ()) :
    ∀ e ∈ entries, ∃ f ∈ fields, e.1 = .str f.name := by
  intro e he
  unfold checkFields at h
  dsimp only at h
  split at h
  · rename_i hunknown
    have hnone := List.filter_eq_nil_iff.mp (List.isEmpty_iff.mp hunknown) e.1
      (List.mem_map_of_mem he)
    have hany : (fields.map (·.name)).any e.1.isName = true := by simpa using hnone
    obtain ⟨known, hmem, hname⟩ := List.any_eq_true.mp hany
    obtain ⟨f, hf, rfl⟩ := List.mem_map.mp hmem
    exact ⟨f, hf, Value.isName_iff.mp hname⟩
  · split at h
    · cases h
    · cases h

theorem structToWire_ok_iff :
    (∃ w, structToWire types (room + 1) v name fields bs = .ok w)
      ↔ ∃ entries, v = .map entries ∧ Fits types room fields bs entries
        ∧ (presentKeys types bs entries fields).Nodup := by
  have hfree : ∀ keys, KeysFree [] keys ↔ keys.Nodup :=
    fun keys => ⟨And.left, fun hnodup => ⟨hnodup, fun _ _ => rfl⟩⟩
  constructor
  · rintro ⟨w, h⟩
    unfold structToWire at h
    cases v with
    | map entries =>
      obtain ⟨_, hcheck, h⟩ := bind_eq_ok.mp h
      obtain ⟨out, hout, -⟩ := bind_eq_ok.mp h
      have hencodes := encodes_of_storeFields hout
      refine ⟨entries, rfl, ⟨known_of_checkFields hcheck, hencodes⟩, (hfree _).mp ?_⟩
      rcases storeFields_cases name [] hencodes with hfree | ⟨-, f, -, herror⟩
      · exact hfree.1
      · cases hout.symm.trans herror
    | _ => cases h
  · rintro ⟨entries, rfl, hfits, hnodup⟩
    rw [structToWire_map hfits.known]
    rcases storeFields_cases name [] hfits.encodes with
      ⟨-, out, hout⟩ | ⟨hmeet, -⟩
    · exact ⟨.map out, bind_eq_ok.mpr ⟨out, hout, rfl⟩⟩
    · exact absurd ((hfree _).mpr hnodup) hmeet

/-- Of two fields with one wire key one is absent, if the keys of those that are there differ. -/
theorem absent_of_nodup (hnodup : (presentKeys types bs entries fields).Nodup) {f g : Field Text}
    (hf : f ∈ fields) (hg : g ∈ fields) (hother : f.name ≠ g.name)
    (hkey : fieldWireKey f.name = fieldWireKey g.name) :
    f.isAbsent types bs entries = true ∨ g.isAbsent types bs entries = true := by
  by_contra hpresent
  obtain ⟨hf', hg'⟩ := not_or.mp hpresent
  have hmem : ∀ {x : Field Text}, x ∈ fields → ¬x.isAbsent types bs entries = true →
      x ∈ fields.filter fun f => !f.isAbsent types bs entries :=
    fun hx hx' => List.mem_filter.mpr ⟨hx, by simpa using hx'⟩
  exact hother (congrArg Field.name
    (List.inj_on_of_nodup_map hnodup (hmem hf hf') (hmem hg hg') hkey))

/--
**A value of a struct is encoded exactly if its fields are, and no two of those that are
there share a wire key.** So two fields with one key are encoded only if one of them is an
option that is absent; and where nothing but their key is in the way, the error says so.
-/
theorem shared_key_refused_iff (hplace : place.TakesFields types name fields bs) (room : Nat)
    (v : Value) :
    ((∃ w, Direction.encoding.run types (room + 2) v place = .ok w)
        ↔ ∃ entries, v = .map entries ∧ Fits types room fields bs entries
          ∧ (presentKeys types bs entries fields).Nodup)
      ∧ (∀ f ∈ fields, ∀ g ∈ fields, f.name ≠ g.name → fieldWireKey f.name = fieldWireKey g.name →
          (∃ w, Direction.encoding.run types (room + 2) v place = .ok w) →
          ∃ entries, v = .map entries
            ∧ (f.isAbsent types bs entries = true ∨ g.isAbsent types bs entries = true))
      ∧ ∀ entries, v = .map entries → Fits types room fields bs entries →
          ¬(presentKeys types bs entries fields).Nodup →
          ∃ f ∈ fields, Direction.encoding.run types (room + 2) v place
            = .error (.wire (.reusedKey name f.name (fieldWireKey f.name))) := by
  rw [hplace.run_encoding]
  refine ⟨structToWire_ok_iff, fun f hf g hg hother hkey h => ?_, ?_⟩
  · obtain ⟨entries, rfl, -, hnodup⟩ := structToWire_ok_iff.mp h
    exact ⟨entries, rfl, absent_of_nodup hnodup hf hg hother hkey⟩
  · rintro entries rfl hfits hmeet
    rw [structToWire_map hfits.known]
    rcases storeFields_cases name [] hfits.encodes with
      ⟨hfree, -⟩ | ⟨-, f, hf, herror⟩
    · exact absurd hfree.1 hmeet
    · exact ⟨f, hf, by rw [herror]; rfl⟩

/-- **Fields that share a wire key come back from one entry.** So an option that was absent takes
over what was stored for the other field. -/
theorem shared_key_read_alike (hplace : place.TakesFields types name fields bs)
    (hnames : (fields.map (·.name)).Nodup) {f g : Field Text} (hf : f ∈ fields) (hg : g ∈ fields)
    (hkey : fieldWireKey f.name = fieldWireKey g.name) {w c : Value}
    (h : Direction.decoding.run types (room + 2) w place = .ok c) :
    ∃ (out : Entries) (item? : Option Value) (a b : Value), c = .map out
      ∧ out.findName? f.name = some a ∧ ReadAs types room (f.type.substitute bs) a item?
      ∧ out.findName? g.name = some b ∧ ReadAs types room (g.type.substitute bs) b item? := by
  rw [hplace.run_decoding] at h
  unfold structFromWire at h
  cases w with
  | map stored =>
    obtain ⟨out, hout, heq⟩ := bind_eq_ok.mp h
    cases heq
    have hread := (of_restoreFields hnames hout).2
    obtain ⟨a, ha, hfa⟩ := hread f hf
    obtain ⟨b, hb, hgb⟩ := hread g hg
    exact ⟨out, _, a, b, rfl, ha, hfa, hb, hkey ▸ hgb⟩
  | _ => cases h

namespace Users

/-- A user has a number, and perhaps another one whose name differs in its casing only. -/
def members : List (Field Text) :=
  [{ name := "user_id", type := ⟨"u32", []⟩ },
    { name := "userId", type := ⟨"Option", [⟨"u32", []⟩]⟩ }]

def known : TypeMap Text := .ofTypes [.struct "User" [] members []]

theorem takesFields : (Place.type ⟨"User", []⟩).TakesFields known "User" members [] :=
  .struct (show known.resolve ⟨"User", []⟩ = .ok (.struct "User" [] members []) by rfl)

/-- What is known of a user whose other number is given. -/
def numbers (other : Value) : Entries := [(.str "user_id", .int 1), (.str "userId", other)]

theorem fits {other w : Value} (h : toWire known 988 other ⟨"Option", [⟨"u32", []⟩]⟩ = .ok w) :
    Fits known 988 members [] (numbers other) where
  known e he := by
    rcases List.mem_pair.mp he with rfl | rfl
    · exact ⟨_, List.mem_cons_self, rfl⟩
    · exact ⟨_, List.mem_cons_of_mem _ List.mem_cons_self, rfl⟩
  encodes f hf _ := by
    rcases List.mem_pair.mp hf with rfl | rfl
    · exact ⟨.int 1, .int 1, rfl, rfl⟩
    · exact ⟨other, w, rfl, h⟩

end Users

/-- A user without the other number is encoded, and one with both numbers is refused. -/
theorem shared_key_refused_iff_user :
    (∃ w, toWire Users.known callRoom (.map (Users.numbers .null)) ⟨"User", []⟩ = .ok w)
      ∧ ∃ f ∈ Users.members,
        toWire Users.known callRoom (.map (Users.numbers (.int 2))) ⟨"User", []⟩
          = .error (.wire (.reusedKey "User" f.name (fieldWireKey f.name))) := by
  obtain ⟨hone, -, -⟩ := shared_key_refused_iff Users.takesFields 988 (.map (Users.numbers .null))
  obtain ⟨-, -, htwo⟩ :=
    shared_key_refused_iff Users.takesFields 988 (.map (Users.numbers (.int 2)))
  constructor
  · exact hone.mpr ⟨_, rfl, Users.fits (w := .null) rfl, by decide +kernel⟩
  · exact htwo _ rfl (Users.fits (w := .int 2) rfl) (by decide +kernel)

end WasmBridge
