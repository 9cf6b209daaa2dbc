import WasmBridge.Proofs.Wire.Readable

/-!
# Parts that come back

What is encoded comes back as its canonical form if its parts do: the items of a
sequence, the values of a map, the members of a struct, the payload of a variant. Both
directions are made of the same calls, one inside the other, so all this is said for
calls within a given room, and of the parts no more is asked than that they come back
where there is less room. No call of one direction needs more room than its
counterpart in the other, and so whatever can be encoded can be decoded.

There is one exception. A variant without payload does not look at the payload that
it is given, and so what comes back carries none.
-/

namespace WasmBridge

variable {types : TypeMap Text} {room : Nat} {slot : Slot} {v w : Value}

/-- What comes back of a value: its canonical form, but payloads that have no place are lost. -/
abbrev Received (types : TypeMap Text) : Slot → Value → Value → Prop :=
  CanonicalForm types fun _ => .null

theorem received_made {parts : List (Slot × Value)} {build : List Value → Value}
    {forms : List Value} (h : shape? types slot v = some (.made parts build))
    (hforms : List.Forall₂ (fun p c => Received types p.1 p.2 c) parts forms) :
    Received types slot v (build forms) := by
  obtain ⟨hlength, hzip⟩ := List.forall₂_iff_zip.mp hforms
  exact .made h hlength fun p hp => hzip hp

/-- `c` comes back of `v`, which was encoded to `w`. -/
structure RoundTrip (types : TypeMap Text) (slot : Slot) (v w c : Value) : Prop where
  received : Received types slot v c
  /-- A payload can be put behind a tag, and is found there again. -/
  keys : ∀ entries, w = .map entries → DistinctKeys (entries.map (·.1))

/-- Where `room` calls are left, all values come back, and nothing but null is taken for null. -/
def RoundTrips (types : TypeMap Text) (room : Nat) : Prop :=
  ∀ ident v w, Safe types (.type ident) v → toWire types room v ident = .ok w →
    (w = .null → v = .null)
      ∧ ∃ c, fromWire types room w ident = .ok c ∧ RoundTrip types (.type ident) v w c

theorem RoundTrips.back (h : RoundTrips types room) {ident : TypeIdent}
    (hsafe : Safe types (.type ident) v) (hw : toWire types room v ident = .ok w) :
    ∃ c, fromWire types room w ident = .ok c ∧ Received types (.type ident) v c := by
  obtain ⟨-, c, hc, hround⟩ := h ident v w hsafe hw
  exact ⟨c, hc, hround.received⟩

/-! ## Sequences -/

theorem items_return {inner : TypeIdent} {items : List Value} (ih : ∀ r < room, RoundTrips types r)
    (hsafe : ∀ item ∈ items, Safe types (.type inner) item)
    (h : itemsToWire types room items inner = .ok w) :
    ∃ ws cs, w = .list ws ∧ itemsFromWire types room ws inner = .ok (.list cs)
      ∧ List.Forall₂ (Received types (.type inner)) items cs := by
  cases room with
  | zero => cases h
  | succ room =>
    unfold itemsToWire at h
    obtain ⟨ws, hws, heq⟩ := Outcome.bind_eq_ok.mp h
    cases heq
    have hback : ∀ item ∈ items, ∀ w, toWire types room item inner = .ok w →
        ∃ c, fromWire types room w inner = .ok c ∧ Received types (.type inner) item c :=
      fun item hitem w hw => (ih room (Nat.lt_succ_self _)).back (hsafe item hitem) hw
    obtain ⟨cs, hcs, hforms⟩ := Outcome.mapM_back hws hback
    refine ⟨ws, cs, rfl, ?_, hforms⟩
    unfold itemsFromWire
    rw [hcs]
    rfl

theorem list_returns {ident inner : TypeIdent} {name : Text} {items : List Value}
    (hresolve : types.resolve ident = .ok (.list name inner)) (hitems : v.items? = some items)
    (ih : ∀ r < room, RoundTrips types r) (hsafe : Safe types (.type ident) v)
    (h : itemsToWire types room items (ident.args.headD default) = .ok w) :
    ∃ ws c, w = .list ws ∧ itemsFromWire types room ws (ident.args.headD default) = .ok c
      ∧ Received types (.type ident) v c := by
  have hshape : shape? types (.type ident) v = some (.made
      (items.map fun item => (.type (ident.args.headD default), item)) .list) := by
    rw [shape?_type hresolve]
    simp only [shapeOf?, hitems, Option.map_some]
  have hparts : ∀ item ∈ items, Safe types (.type (ident.args.headD default)) item :=
    fun item hitem => hsafe.part ⟨_, _, hshape, List.mem_map_of_mem hitem⟩
  obtain ⟨ws, cs, hw, hcs, hforms⟩ := items_return ih hparts h
  refine ⟨ws, .list cs, hw, hcs, received_made hshape ?_⟩
  rw [List.forall₂_map_left_iff]
  exact hforms

theorem each_return {items : List (Value × TypeIdent)} (ih : ∀ r < room, RoundTrips types r)
    (hsafe : ∀ x ∈ items, Safe types (.type x.2) x.1)
    (h : eachToWire types room items = .ok w) :
    ∃ ws cs, w = .list ws ∧ ws.length = items.length
      ∧ eachFromWire types room (ws.zip (items.map (·.2))) = .ok (.tuple cs)
      ∧ List.Forall₂ (fun x c => Received types (.type x.2) x.1 c) items cs := by
  cases room with
  | zero => cases h
  | succ room =>
    unfold eachToWire at h
    obtain ⟨ws, hws, heq⟩ := Outcome.bind_eq_ok.mp h
    cases heq
    have hlength := (Outcome.mapM_eq_ok_iff.mp hws).length_eq
    have hback : ∀ x ∈ items, ∀ w, toWire types room x.1 x.2 = .ok w →
        ∃ c, fromWire types room w x.2 = .ok c ∧ Received types (.type x.2) x.1 c :=
      fun x hx w hw => (ih room (Nat.lt_succ_self _)).back (hsafe x hx) hw
    obtain ⟨cs, hcs, hforms⟩ := Outcome.mapM_back_zip
      (g := fun x => fromWire types room x.1 x.2) hws hback
    refine ⟨ws, cs, rfl, hlength.symm, ?_, hforms⟩
    unfold eachFromWire
    rw [hcs]
    rfl

theorem tuple_returns {idents : List TypeIdent} {ident : TypeIdent}
    (ih : ∀ r < room, RoundTrips types r) (hsafe : Safe types (.items idents) v)
    (h : tupleToWire types room v idents ident = .ok w) :
    ∃ ws c, w = .list ws ∧ tupleFromWire types room w idents ident = .ok c
      ∧ Received types (.items idents) v c := by
  cases room with
  | zero => cases h
  | succ room =>
    unfold tupleToWire at h
    split at h
    · rename_i items hitems
      split at h
      · rename_i hlength
        have hshape : shape? types (.items idents) v = some (.made
            ((items.zip idents).map fun x => (.type x.2, x.1)) .tuple) := by
          simp [shape?, hitems, hlength]
        have hparts : ∀ x ∈ items.zip idents, Safe types (.type x.2) x.1 := fun x hx =>
          hsafe.part ⟨_, _, hshape, List.mem_map_of_mem hx⟩
        obtain ⟨ws, cs, rfl, hws, hcs, hforms⟩ :=
          each_return (fun r hr => ih r (Nat.lt_succ_of_lt hr)) hparts h
        have hidents : (items.zip idents).map (·.2) = idents :=
          List.map_snd_zip (Nat.le_of_eq hlength.symm)
        have hcount : ws.length = idents.length := by
          rw [hws, List.length_zip, hlength, Nat.min_self]
        refine ⟨ws, .tuple cs, rfl, ?_, received_made hshape ?_⟩
        · unfold tupleFromWire
          rw [hidents] at hcs
          simp only [hcount, if_true, hcs]
        · rw [List.forall₂_map_left_iff]
          exact hforms
      · cases h
    · cases h

/-! ## Maps -/

theorem entries_return {key inner : TypeIdent} {entries : Entries}
    (ih : ∀ r < room, RoundTrips types r) (hscalar : Scalar types key)
    (hdistinct : DistinctKeys (entries.map (·.1)))
    (hsafe : ∀ e ∈ entries, Safe types (.type inner) e.2)
    (h : entriesToWire types room entries key inner = .ok w) :
    ∃ ws cs, w = .map ((entries.map (·.1)).zip ws) ∧ ws.length = entries.length
      ∧ entriesFromWire types room ((entries.map (·.1)).zip ws) key inner
          = .ok (.map ((entries.map (·.1)).zip cs))
      ∧ List.Forall₂ (fun e c => Received types (.type inner) e.2 c) entries cs := by
  cases room with
  | zero => cases h
  | succ room =>
    unfold entriesToWire at h
    obtain ⟨out, hout, heq⟩ := Outcome.bind_eq_ok.mp h
    cases heq
    obtain ⟨ws, rfl, hws⟩ := of_storeConverted (fun k => toWire types room k key)
      (fun v => toWire types room v inner) (fun e _ k hk => (hscalar.toWire_eq hk).1) hdistinct hout
    have hlength := hws.length_eq
    have hvalues : entries.mapM (fun e => toWire types room e.2 inner) = .ok ws :=
      Outcome.mapM_eq_ok_iff.mpr (hws.imp fun _ _ he => he.2.1)
    have hback : ∀ e ∈ entries, ∀ w, toWire types room e.2 inner = .ok w →
        ∃ c, fromWire types room w inner = .ok c ∧ Received types (.type inner) e.2 c :=
      fun e he w hw => (ih room (Nat.lt_succ_self _)).back (hsafe e he) hw
    obtain ⟨cs, hcs, hforms⟩ := Outcome.mapM_back hvalues hback
    refine ⟨ws, cs, rfl, hlength.symm, ?_, hforms⟩
    -- the way back: under keys that have not changed, the values that come back
    have hkeys : ((entries.map (·.1)).zip ws).map (·.1) = entries.map (·.1) :=
      List.map_fst_zip (by rw [List.length_map]; exact Nat.le_of_eq hlength)
    have hreads : List.Forall₂ (fun k _ => fromWire types room k key = .ok k ∧ k.isKey = true)
        (entries.map (·.1)) ws := by
      rw [List.forall₂_map_left_iff]
      refine hws.imp fun e w he => ?_
      obtain ⟨-, hkey, hread⟩ := hscalar.toWire_eq he.1
      exact ⟨hread, hkey⟩
    have hstores := (forall₂_zip_left hreads (Outcome.mapM_eq_ok_iff.mp hcs)).imp
      fun e c he => storeConverted_eq (fun k => fromWire types room k key)
        (fun v => fromWire types room v inner) he.1.1 he.2 he.1.2
    have hfold := foldlM_store hstores (by rw [hkeys]; exact hdistinct)
    rw [hkeys] at hfold
    unfold entriesFromWire
    exact Outcome.bind_eq_ok.mpr ⟨_, hfold, rfl⟩

theorem map_returns {ident key inner : TypeIdent} {name : Text} {entries : Entries}
    (hresolve : types.resolve ident = .ok (.map name key inner))
    (ih : ∀ r < room, RoundTrips types r) (hsafe : Safe types (.type ident) (.map entries))
    (h : entriesToWire types room entries (ident.args.headD default)
      ((ident.args.drop 1).headD default) = .ok w) :
    ∃ stored c, w = .map stored ∧ entriesFromWire types room stored (ident.args.headD default)
        ((ident.args.drop 1).headD default) = .ok c
      ∧ RoundTrip types (.type ident) (.map entries) w c := by
  have hscalar : Slot.Readable types (.type ident) := hsafe.self
  simp only [Slot.Readable, hresolve] at hscalar
  have hdistinct := hsafe.keys _ entries .refl
  have hshape := shape?_type (v := .map entries) hresolve
  have hparts : ∀ e ∈ entries, Safe types (.type ((ident.args.drop 1).headD default)) e.2 :=
    fun e he => hsafe.part ⟨_, _, hshape, List.mem_map_of_mem he⟩
  obtain ⟨ws, cs, rfl, hlength, hcs, hforms⟩ :=
    entries_return ih hscalar hdistinct hparts h
  refine ⟨_, _, rfl, hcs, received_made hshape ?_, fun stored heq => ?_⟩
  · rw [List.forall₂_map_left_iff]
    exact hforms
  · cases heq
    rw [List.map_fst_zip (by rw [List.length_map, hlength])]
    exact hdistinct

/-! ## Structs -/

/-- What a struct has for a field. -/
def fieldValue (entries : Entries) (field : Field Text) : Value :=
  (entries.findName? field.name).getD .null

/-- What is stored for a member: nothing for an option that is absent. -/
def StoredAs (types : TypeMap Text) (room : Nat) (ident : TypeIdent) (v : Value) :
    Option Value → Prop
  | none => (v.isNull && types.isOptional ident) = true
  | some w => (v.isNull && types.isOptional ident) = false ∧ toWire types room v ident = .ok w

/-- What is read for a member: null for an option where nothing is stored. -/
def ReadAs (types : TypeMap Text) (room : Nat) (ident : TypeIdent) (c : Value) :
    Option Value → Prop
  | none => types.isOptional ident = true ∧ c = .null
  | some w => fromWire types room w ident = .ok c

theorem member_returns {ident : TypeIdent} {item? : Option Value} (hreturns : RoundTrips types room)
    (hsafe : Safe types (.member ident) v) (h : StoredAs types room ident v item?) :
    ∃ c, Received types (.member ident) v c ∧ ReadAs types room ident c item? := by
  cases item? with
  | none =>
    have habsent : (v.isNull && types.isOptional ident) = true := h
    refine ⟨.null, .whole (by simp only [shape?, habsent, if_true]), ?_, rfl⟩
    exact (Bool.and_eq_true_iff.mp habsent).2
  | some w =>
    obtain ⟨hpresent, hw⟩ := h
    have hshape : shape? types (.member ident) v = some (.one (.type ident) v) := by
      simp only [shape?, hpresent, Bool.false_eq_true, if_false]
    obtain ⟨c, hc, hreceived⟩ := hreturns.back (hsafe.one hshape) hw
    exact ⟨c, .one hshape hreceived, hc⟩

section Structs

variable {fields : List (Field Text)} {items : List (Option Value)}
  {bs : List (Text × TypeIdent)} {name : Text} {entries stored out : Entries}

theorem fieldToStore_eq_ok {field : Field Text} {item? : Option (Text × Value × TypeIdent)}
    (h : fieldToStore types room name bs entries stored field = .ok item?) :
    let type := field.type.substitute bs
    let absent := (fieldValue entries field).isNull && types.isOptional type
    (item? = none ∧ absent = true)
      ∨ (item? = some (fieldWireKey field.name, fieldValue entries field, type)
          ∧ absent = false) := by
  unfold fieldToStore at h
  unfold fieldValue
  dsimp only at h ⊢
  split at h
  · rename_i habsent
    cases h
    exact .inl ⟨rfl, habsent⟩
  · rename_i hpresent
    split at h
    · cases h
    · rename_i item hitem
      split at h
      · cases h
      · cases h
        refine .inr ⟨?_, Bool.not_eq_true _ ▸ hpresent⟩
        rw [hitem]
        rfl

/-- Storing a field of a struct. -/
def storeField (types : TypeMap Text) (room : Nat) (name : Text) (bs : List (Text × TypeIdent))
    (entries stored : Entries) (field : Field Text) : Except CodecError Entries := do
  match ← fieldToStore types room name bs entries stored field with
  | none => return stored
  | some (key, item, type) => return stored ++ [(.str key, ← toWire types room item type)]

theorem of_storeFields_append
    (h : fields.foldlM (storeField types room name bs entries) stored = .ok out) :
    ∃ items, out = stored ++ storedFields fields items
      ∧ List.Forall₂ (fun field item? =>
          StoredAs types room (field.type.substitute bs) (fieldValue entries field) item?)
        fields items := by
  induction fields generalizing stored with
  | nil => cases h; exact ⟨[], (List.append_nil _).symm, .nil⟩
  | cons field fields ih =>
    rw [List.foldlM_cons] at h
    obtain ⟨next, hstore, hrest⟩ := Outcome.bind_eq_ok.mp h
    obtain ⟨item?, hitem, hnext⟩ := Outcome.bind_eq_ok.mp hstore
    obtain ⟨items, rfl, hitems⟩ := ih hrest
    rcases fieldToStore_eq_ok hitem with ⟨rfl, habsent⟩ | ⟨rfl, hpresent⟩
    · cases hnext
      exact ⟨none :: items, by rw [storedFields_cons]; rfl, .cons habsent hitems⟩
    · obtain ⟨w, hw, hnext⟩ := Outcome.bind_eq_ok.mp hnext
      cases hnext
      refine ⟨some w :: items, ?_, .cons ⟨hpresent, hw⟩ hitems⟩
      rw [storedFields_cons, List.append_assoc]
      rfl

/-- What is stored for the fields, one after the other. -/
theorem of_storeFields (h : fields.foldlM (storeField types room name bs entries) [] = .ok out) :
    ∃ items, out = storedFields fields items
      ∧ List.Forall₂ (fun field item? =>
          StoredAs types room (field.type.substitute bs) (fieldValue entries field) item?)
        fields items :=
  of_storeFields_append h

/-- Storing a field of a struct that is decoded. -/
def restoreField (types : TypeMap Text) (room : Nat) (name : Text)
    (bs : List (Text × TypeIdent)) (entries stored : Entries) (field : Field Text) :
    Except CodecError Entries := do
  let type := field.type.substitute bs
  let key := fieldWireKey field.name
  match entries.findName? key with
  | some item => return stored.put (.str field.name) (← fromWire types room item type)
  | none =>
    if types.isOptional type then return stored.put (.str field.name) .null
    else failWire room (.missingField name key)

/-- What is read for a field is put under its name, whatever stands there before it. -/
theorem restoreField_of_readAs {field : Field Text} {c : Value}
    (h : ReadAs types room (field.type.substitute bs) c
      (entries.findName? (fieldWireKey field.name))) (stored : Entries) :
    restoreField types room name bs entries stored field
      = .ok (stored.put (.str field.name) c) := by
  unfold restoreField
  dsimp only
  cases hitem : entries.findName? (fieldWireKey field.name) with
  | none =>
    rw [hitem] at h
    obtain ⟨hoptional, rfl⟩ := h
    exact if_pos hoptional
  | some w =>
    rw [hitem] at h
    exact Outcome.bind_eq_ok.mpr ⟨c, h, rfl⟩

/-- What is read for a field is put under its name. -/
theorem of_restoreField {f : Field Text}
    (h : restoreField types room name bs entries stored f = .ok out) :
    ∃ c, out = stored.put (.str f.name) c
      ∧ ReadAs types room (f.type.substitute bs) c
        (Entries.findName? entries (fieldWireKey f.name)) := by
  unfold restoreField at h
  dsimp only at h
  cases hitem : Entries.findName? entries (fieldWireKey f.name) with
  | some item =>
    rw [hitem] at h
    obtain ⟨c, hc, heq⟩ := Outcome.bind_eq_ok.mp h
    cases heq
    exact ⟨c, rfl, hc⟩
  | none =>
    rw [hitem] at h
    dsimp only at h
    split at h
    · rename_i hoptional
      cases h
      exact ⟨.null, rfl, hoptional, rfl⟩
    · cases h

/-- What is read of the fields of a struct, one after the other. -/
theorem of_restoreFields (hnames : (fields.map (·.name)).Nodup)
    (h : fields.foldlM (restoreField types room name bs entries) stored = .ok out) :
    (∀ other, other ∉ fields.map (·.name) → out.findName? other = stored.findName? other)
      ∧ ∀ f ∈ fields, ∃ c, out.findName? f.name = some c
        ∧ ReadAs types room (f.type.substitute bs) c (entries.findName? (fieldWireKey f.name)) := by
  induction fields generalizing stored with
  | nil => cases h; exact ⟨fun _ _ => rfl, nofun⟩
  | cons first fields ih =>
    obtain ⟨hnew, hnames⟩ := List.nodup_cons.mp hnames
    rw [List.foldlM_cons] at h
    obtain ⟨next, hfirst, h⟩ := Outcome.bind_eq_ok.mp h
    obtain ⟨hothers, hfields⟩ := ih hnames h
    obtain ⟨c, rfl, hread⟩ := of_restoreField hfirst
    -- names are distinct, so the later fields leave alone what was put for the first
    refine ⟨fun other hother => ?_, fun f hf => ?_⟩
    · rw [List.map_cons, List.mem_cons, not_or] at hother
      rw [hothers other hother.2, Entries.findName?_put, if_neg]
      intro hsame
      exact hother.1 (Value.str.inj (Value.isName_iff.mp hsame)).symm
    · rcases List.mem_cons.mp hf with rfl | hf
      · refine ⟨c, ?_, hread⟩
        rw [hothers _ hnew, Entries.findName?_put, if_pos (Value.isName_iff.mpr rfl)]
      · exact hfields f hf

/-- Fields that have wire keys of their own have names of their own. -/
theorem nodup_names (hkeys : (fields.map fun f => fieldWireKey f.name).Nodup) :
    (fields.map (·.name)).Nodup := by
  refine List.Nodup.of_map fieldWireKey ?_
  rw [List.map_map]
  exact hkeys

theorem distinctKeys_fields (hkeys : (fields.map fun f => fieldWireKey f.name).Nodup) :
    DistinctKeys (fields.map fun f => .str f.name) := by
  have hdistinct := distinctKeys_names (nodup_names hkeys)
  rwa [List.map_map] at hdistinct

theorem struct_returns (ih : ∀ r < room, RoundTrips types r)
    (hsafe : Safe types (.fields fields bs) v)
    (h : structToWire types room v name fields bs = .ok w) :
    ∃ entries c, w = .map entries ∧ structFromWire types room w name fields bs = .ok c
      ∧ RoundTrip types (.fields fields bs) v w c := by
  cases room with
  | zero => cases h
  | succ room =>
    unfold structToWire at h
    cases v with
    | map entries =>
      obtain ⟨_, _, h⟩ := Outcome.bind_eq_ok.mp h
      obtain ⟨out, hout, heq⟩ := Outcome.bind_eq_ok.mp h
      cases heq
      obtain ⟨items, rfl, hitems⟩ := of_storeFields hout
      have hkeys : (fields.map fun f => fieldWireKey f.name).Nodup := hsafe.self
      have hshape : shape? types (.fields fields bs) (.map entries) = some (.made
          (fields.map fun f => (.member (f.type.substitute bs), fieldValue entries f))
          fun forms => .map ((fields.map fun f => .str f.name).zip forms)) := rfl
      -- what each field stores depends on those before it, what is read for it does not
      have hfields : ∀ f ∈ fields, ∃ c,
          Received types (.member (f.type.substitute bs)) (fieldValue entries f) c
          ∧ ∀ stored, restoreField types room name bs (storedFields fields items) stored f
              = .ok (stored.put (.str f.name) c) := by
        intro f hf
        obtain ⟨hlength, hzip⟩ := List.forall₂_iff_zip.mp hitems
        obtain ⟨item?, hmem⟩ := exists_mem_zip hlength hf
        have hsafeMember := hsafe.part ⟨_, _, hshape, List.mem_map_of_mem hf⟩
        obtain ⟨c, hc, hread⟩ :=
          member_returns (ih room (Nat.lt_succ_self _)) hsafeMember (hzip hmem)
        refine ⟨c, hc, restoreField_of_readAs ?_⟩
        rwa [findName?_storedFields hkeys hmem]
      obtain ⟨cs, hcs⟩ := exists_forall₂ hfields
      refine ⟨_, .map ((fields.map fun f => .str f.name).zip cs), rfl, ?_, ?_, ?_⟩
      · unfold structFromWire
        have hfold := foldlM_store (hcs.imp fun _ _ hc => hc.2) (distinctKeys_fields hkeys)
        exact Outcome.bind_eq_ok.mpr ⟨_, hfold, rfl⟩
      · refine received_made hshape ?_
        rw [List.forall₂_map_left_iff]
        exact hcs.imp fun _ _ hc => hc.1
      · intro entries' heq
        cases heq
        exact distinctKeys_storedFields hkeys
    | _ => cases h

end Structs

/-! ## Enums -/

/-- `c` comes back of what a variant carries, which was encoded to `payload`. -/
structure Carried (types : TypeMap Text) (room : Nat) (variant : Variant Text)
    (bs : List (Text × TypeIdent)) (payload c : Value) : Prop where
  back : payloadFromWire types room payload variant bs = .ok c
  keys : ∀ entries, payload = .map entries → DistinctKeys (entries.map (·.1))
  unit : variant.payload.isUnit = true → payload = .null ∧ c = .null

/-- The variant of an enum comes back with `c`, having been encoded to `w`. -/
structure Unwraps (types : TypeMap Text) (room : Nat) (ident : TypeIdent) (enum : Text)
    (variants : List (Variant Text)) (options : EnumOptions Text) (bs : List (Text × TypeIdent))
    (variant : Variant Text) (w c : Value) : Prop where
  back : enumFromWire types (room + 1) w ident enum variants options bs
    = .ok (.variant variant.name c)
  present : w ≠ .null
  keys : ∀ entries, w = .map entries → DistinctKeys (entries.map (·.1))

section Enums

variable {variant : Variant Text} {bs : List (Text × TypeIdent)}

theorem payload_returns (ih : ∀ r < room, RoundTrips types r)
    (hsafe : Safe types (.payload variant bs) v)
    (h : payloadToWire types room v variant bs = .ok w) :
    ∃ c, Carried types room variant bs w c ∧ Received types (.payload variant bs) v c := by
  cases room with
  | zero => cases h
  | succ room =>
    have ihBelow : ∀ r < room, RoundTrips types r := fun r hr => ih r (Nat.lt_succ_of_lt hr)
    unfold payloadToWire at h
    split at h
    · -- whatever the variant was given is not looked at
      rename_i name hpayload
      cases h
      refine ⟨.null, ⟨?_, by simp, fun _ => ⟨rfl, rfl⟩⟩, ?_⟩
      · unfold payloadFromWire
        rw [hpayload]
        rfl
      · have hshape : shape? types (.payload variant bs) v = some (.unused v) := by
          simp only [shape?, hpayload]
        exact CanonicalForm.unused hshape
    · rename_i name generics fields doc hpayload
      have hshape : shape? types (.payload variant bs) v = some (.one (.fields fields bs) v) := by
        simp only [shape?, hpayload]
      obtain ⟨entries, c, rfl, hc, hround⟩ := struct_returns ihBelow (hsafe.one hshape) h
      refine ⟨c, ⟨?_, hround.keys, ?_⟩, .one hshape hround.received⟩
      · unfold payloadFromWire
        rw [hpayload]
        exact hc
      · simp [hpayload, TypeDef.isUnit]
    · rename_i item hpayload
      have hshape : shape? types (.payload variant bs) v
          = some (.one (.type (item.substitute bs)) v) := by
        simp only [shape?, hpayload]
      obtain ⟨-, c, hc, hround⟩ :=
        ih room (Nat.lt_succ_self _) _ v w (hsafe.one hshape) h
      refine ⟨c, ⟨?_, hround.keys, ?_⟩, .one hshape hround.received⟩
      · unfold payloadFromWire
        rw [hpayload]
        exact hc
      · simp [hpayload, TypeDef.isUnit]
    · rename_i items hmany hpayload
      have hshape : shape? types (.payload variant bs) v
          = some (.one (.items (items.map (·.substitute bs))) v) := by
        simp only [shape?, hpayload]
      obtain ⟨ws, c, rfl, hc, hreceived⟩ := tuple_returns ihBelow (hsafe.one hshape) h
      refine ⟨c, ⟨?_, by simp, ?_⟩, .one hshape hreceived⟩
      · unfold payloadFromWire
        simp only [hpayload]
        exact hc
      · simp [hpayload, TypeDef.isUnit]
    · cases h

/-- Among keys of their own each thing is found under its key. -/
theorem find?_of_nodup {α : Type} (key : α → Text) {x : α} {xs : List α}
    (hkeys : (xs.map key).Nodup) (hx : x ∈ xs) :
    xs.find? (fun y => (Value.str (key x)).isName (key y)) = some x := by
  induction xs with
  | nil => cases hx
  | cons y ys ih =>
    obtain ⟨hnew, hkeys⟩ := List.nodup_cons.mp hkeys
    rcases List.mem_cons.mp hx with rfl | hmem
    · exact List.find?_cons_of_pos (Value.isName_iff.mpr rfl)
    · rw [List.find?_cons_of_neg, ih hkeys hmem]
      intro hname
      have heq := Value.isName_iff.mp hname
      injection heq with heq
      exact hnew (heq ▸ List.mem_map_of_mem hmem)

variable {variants : List (Variant Text)} {options : EnumOptions Text} {enum : Text}
  {ident : TypeIdent} {payload c : Value}

theorem findVariant_eq_ok {name : Text} (h : findVariant room enum variants name = .ok variant) :
    variants.find? (·.name == name) = some variant := by
  unfold findVariant at h
  split at h
  · rename_i hfound
    cases h
    exact hfound
  · cases h

/-- The wire key of a variant leads back to it. -/
theorem findWireVariant_eq (room : Nat) (enum : Text)
    (hkeys : (variants.map fun v => variantWireKey v.name options.variantCasing).Nodup)
    (hmem : variant ∈ variants) :
    findWireVariant room enum variants options.variantCasing
      (.str (variantWireKey variant.name options.variantCasing)) = .ok variant := by
  unfold findWireVariant
  rw [find?_of_nodup (fun v => variantWireKey v.name options.variantCasing) hkeys hmem]

/-- A tag that a payload leaves free is a new key in front of it. -/
theorem distinctKeys_tagged {tag : Text} {entries : Entries}
    (hfree : entries.findName? tag = none) (hdistinct : DistinctKeys (entries.map (·.1))) :
    DistinctKeys (.str tag :: entries.map (·.1)) := by
  refine List.pairwise_cons.mpr ⟨fun k hk => ?_, hdistinct⟩
  obtain ⟨e, he, rfl⟩ := List.mem_map.mp hk
  rw [← Bool.not_eq_true, Value.same_str]
  exact Entries.findName?_eq_none_iff.mp hfree e he

section Encodings

variable (hfind : findWireVariant room enum variants options.variantCasing
    (.str (variantWireKey variant.name options.variantCasing)) = .ok variant)
  (hcarried : Carried types room variant bs payload c)
  (hwrap : wrapVariant room enum options.encoding variant
    (variantWireKey variant.name options.variantCasing) payload = .ok w)

include hfind hcarried hwrap

theorem external_unwraps (hencoding : options.encoding = .external) :
    Unwraps types room ident enum variants options bs variant w c := by
  have hback := hcarried.back
  rw [hencoding] at hwrap
  cases hunit : variant.payload.isUnit with
  | true =>
    obtain ⟨rfl, rfl⟩ := hcarried.unit hunit
    simp only [wrapVariant, hunit, if_true] at hwrap
    cases hwrap
    refine ⟨?_, by simp, by simp⟩
    simp only [enumFromWire, hencoding, hfind, hback, Outcome.bind_ok, Outcome.pure_eq]
  | false =>
    simp only [wrapVariant, hunit, Bool.false_eq_true, if_false] at hwrap
    cases hwrap
    refine ⟨?_, by simp, fun entries heq => ?_⟩
    · simp only [enumFromWire, hencoding, hfind, hback, Outcome.bind_ok, Outcome.pure_eq]
    · cases heq
      exact List.pairwise_singleton _ _

theorem adjacent_unwraps {tag content : Text} (hencoding : options.encoding = .adjacent tag content)
    (hother : tag ≠ content) :
    Unwraps types room ident enum variants options bs variant w c := by
  have hback := hcarried.back
  have hnodup : [tag, content].Nodup := by simpa using hother
  have hnames : DistinctKeys [.str tag, .str content] := distinctKeys_names hnodup
  have htail : ∀ key rest, Entries.findName? ((.str tag, key) :: rest) content
      = Entries.findName? rest content :=
    fun key rest => Entries.findName?_tail fun heq => hother (by injection heq)
  rw [hencoding] at hwrap
  cases hunit : variant.payload.isUnit with
  | true =>
    obtain ⟨rfl, rfl⟩ := hcarried.unit hunit
    simp only [wrapVariant, hunit, if_true] at hwrap
    cases hwrap
    refine ⟨?_, by simp, fun entries heq => ?_⟩
    · -- nothing stands under the content name, which is taken for null
      simp only [enumFromWire, hencoding, Entries.findName?_head, hfind, htail, Outcome.bind_ok]
      rw [Entries.findName?, Option.getD_none, hback]
      rfl
    · cases heq
      exact List.pairwise_singleton _ _
  | false =>
    have hput : ∀ key, Entries.put (.str content) payload [(.str tag, key)]
        = [(.str tag, key), (.str content, payload)] :=
      fun key => Entries.put_new payload (Entries.new_of_distinct hnames)
    simp only [wrapVariant, hunit, Bool.false_eq_true, if_false, hput] at hwrap
    cases hwrap
    refine ⟨?_, by simp, fun entries heq => ?_⟩
    · simp only [enumFromWire, hencoding, Entries.findName?_head, hfind, htail, hback,
        Option.getD_some, Outcome.bind_ok, Outcome.pure_eq]
    · cases heq
      exact hnames

theorem internal_unwraps {tag : Text} (hencoding : options.encoding = .internal tag)
    (hfree : ∀ entries, payload = .map entries → Entries.findName? entries tag = none) :
    Unwraps types room ident enum variants options bs variant w c := by
  have hback := hcarried.back
  rw [hencoding] at hwrap
  cases hunit : variant.payload.isUnit with
  | true =>
    obtain ⟨rfl, rfl⟩ := hcarried.unit hunit
    simp only [wrapVariant, hunit, if_true] at hwrap
    cases hwrap
    refine ⟨?_, by simp, fun entries heq => ?_⟩
    · simp only [enumFromWire, hencoding, Entries.findName?_head, hfind, hunit, if_true,
        Outcome.bind_ok, Outcome.pure_eq]
    · cases heq
      exact List.pairwise_singleton _ _
  | false =>
    simp only [wrapVariant, hunit, Bool.false_eq_true, if_false] at hwrap
    split at hwrap
    · -- the tag has a place of its own, so it can be taken off again
      rename_i entries
      have hfree := hfree entries rfl
      have hdistinct := distinctKeys_tagged hfree (hcarried.keys entries rfl)
      have htagged : ∀ key, Entries.putAll [(.str tag, key)] entries = (.str tag, key) :: entries :=
        fun key => Entries.putAll_new hdistinct
      rw [htagged] at hwrap
      cases hwrap
      refine ⟨?_, by simp, fun entries' heq => ?_⟩
      · simp only [enumFromWire, hencoding, Entries.findName?_head, hfind,
          hunit, Bool.false_eq_true, if_false, Entries.withoutName_head hfree, hback,
          Outcome.bind_ok, Outcome.pure_eq]
      · cases heq
        exact hdistinct
    · cases hwrap

end Encodings

theorem enum_returns {generics : List Text} {doc : List Text} {name : Text}
    (hresolve : types.resolve ident = .ok (.enum enum generics variants options doc))
    (ih : ∀ r < room, RoundTrips types r) (hsafe : Safe types (.type ident) (.variant name v))
    (h : enumToWire types room name v enum variants options (bindings generics ident) = .ok w) :
    w ≠ .null ∧ ∃ c,
      enumFromWire types room w ident enum variants options (bindings generics ident) = .ok c
      ∧ RoundTrip types (.type ident) (.variant name v) w c := by
  cases room with
  | zero => cases h
  | succ room =>
    unfold enumToWire at h
    obtain ⟨variant, hvariant, h⟩ := Outcome.bind_eq_ok.mp h
    obtain ⟨payload, hpayload, hwrap⟩ := Outcome.bind_eq_ok.mp h
    have hfound := findVariant_eq_ok hvariant
    have hname : variant.name = name := by simpa using List.find?_some hfound
    have hshape : shape? types (.type ident) (.variant name v) = some (.made
        [(.payload variant (bindings generics ident), v)]
        fun forms => .variant name (forms.headD .null)) := by
      rw [shape?_type hresolve]
      simp only [shapeOf?, hfound, Option.map_some]
    obtain ⟨c, hcarried, hreceived⟩ := payload_returns (fun r hr => ih r (Nat.lt_succ_of_lt hr))
      (hsafe.part ⟨_, _, hshape, List.mem_singleton_self _⟩) hpayload
    have hreadable : Slot.Readable types (.type ident) := hsafe.self
    simp only [Slot.Readable, hresolve] at hreadable
    obtain ⟨hkeys, htells⟩ := hreadable
    have hfind := findWireVariant_eq room enum hkeys (List.mem_of_find?_eq_some hfound)
    have hunwraps : Unwraps types room ident enum variants options (bindings generics ident)
        variant w c := by
      cases hencoding : options.encoding with
      | untagged => rw [hencoding] at htells; cases htells
      | external => exact external_unwraps hfind hcarried hwrap hencoding
      | adjacent tag content =>
        rw [hencoding] at htells
        exact adjacent_unwraps hfind hcarried hwrap hencoding htells
      | internal tag =>
        refine internal_unwraps hfind hcarried hwrap hencoding fun entries heq => ?_
        subst heq
        exact hsafe.tags _ _ .refl _ _ _ _ _ _ _ _ _ hresolve hencoding hfound hpayload
    refine ⟨hunwraps.present, _, hunwraps.back, ?_, hunwraps.keys⟩
    rw [hname]
    exact received_made hshape (List.Forall₂.cons hreceived .nil)

end Enums

end WasmBridge
