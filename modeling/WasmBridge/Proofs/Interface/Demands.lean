import WasmBridge.Proofs.Interface.Written

/-!
# What a document has to be

Reading a document asks one thing after the other of its parts: that an object has a
member, that a text is an ident, that a list has items. Where nothing but the parts
decides what is asked next, the demands of a whole document can be written down
beforehand, in the order in which they are made. `Asks` says that a reader does what its
demands say: it succeeds if all are met, and fails as the first one does that is not.
-/

namespace WasmBridge

open Outcome

namespace Document

/-- What stands under a key, or `fallback` where nothing does. -/
def part (v : Value) (key : Text) (fallback : Value := .null) : Value :=
  match v with
  | .map entries => (Entries.findName? entries key).getD fallback
  | _ => fallback

/-- The items of what stands under a key. -/
def partItems (v : Value) (key : Text) : List Value := (items? (part v key (.list []))).getD []

/-- What reading asks of a part of a document. -/
inductive Demand where
  /-- The document is an object. -/
  | document (v : Value)
  /-- Something has a member. -/
  | member (v : Value) (key : Text)
  /-- Something may have members. -/
  | object (v : Value)
  | items (v : Value)
  | ident (v : Value)
  | casing (v : Value)
  /-- The options of an enum fit together. -/
  | options (enum tag content untagged : Value)
  | kind (given name : Value)
  /-- No function before has the name. -/
  | newFunction (names : List Value) (name : Value)
  /-- All names can be looked up. -/
  | keys (names : List Value)
  /-- A list of types, if there is one, holds names of declared types. -/
  | listed (types : List Value) (key : Text) (v : Value)

/-- The error of a demand that is not met. -/
def Demand.fault? : Demand → Option LoadError
  | document (.map _) => none
  | document _ => some .notObject
  | member v key =>
    match v with
    | .map entries =>
      if (Entries.findName? entries key).isSome then none else some (.malformed (.missing key))
    | _ => some (.malformed .shape)
  | object (.map _) => none
  | object _ => some .notMembers
  | items v => if (items? v).isSome then none else some (.malformed .shape)
  | ident (.str s) =>
    match TypeIdent.parse s with
    | .ok _ => none
    | .error e => some (if e = .tooDeep then .tooDeep else .malformed (.ident e))
  | ident _ => some .notText
  | casing (.str s) => if (Casing.ofName? s).isSome then none else some (.malformed (.casing s))
  | casing _ => some .notText
  | options enum tag content untagged =>
    match EnumOptions.make .verbatim (optional tag) (optional content) untagged.isSet with
    | .ok _ => none
    | .error e => some (.options enum e)
  | kind given name =>
    if given.isName "struct" || given.isName "enum" || given.isName "alias"
        || given.isName "custom" then none
    else some (.unknownKind given name)
  | newFunction names name =>
    if names.any fun other => Label.equals other name then
      some (.duplicateFunction (.duplicateFunction (Label.display name)))
    else none
  | keys names => if Value.allKeys names then none else some .notNames
  | listed types key v =>
    if v.isNull then none
    else
      match items? v with
      | none => some .notNames
      | some names =>
        if !Value.allKeys names then some .notNames
        else
          let missing := names.filter fun name => !types.any (Label.same · name)
          if missing.isEmpty then none else some (.unknownTypes key missing)

/-- The error of the first demand that is not met. -/
def firstFault (demands : List Demand) : Option LoadError := demands.findSome? Demand.fault?

/-- A reader succeeds if all demands are met, and fails as the first one that is not. -/
def Asks {α : Type} (demands : List Demand) (x : Read α) : Prop :=
  match firstFault demands with
  | none => ∃ a, x = .ok a
  | some e => x = .error e

/-! ## The demands of a document -/

/-- What is asked of a field. -/
def fieldDemands (v : Value) : List Demand :=
  [.member v "name", .member v "type", .ident (part v "type"), .items (part v "doc" (.list []))]

/-- What is asked of the fields under a key. -/
def fieldsDemands (v : Value) : List Demand :=
  .items (part v "fields" (.list [])) :: (partItems v "fields").flatMap fieldDemands

/-- What is asked of the options of an enum. -/
def optionsDemands (enum v : Value) : List Demand :=
  [.object v, .casing (part v "variant_casing" (.str "original")),
    .options enum (part v "tag") (part v "content") (part v "untagged" (.bool false))]

/-- What is asked of the payload of a variant. -/
def payloadDemands (v : Value) : List Demand :=
  if hasMember v "fields" then .member v "name" :: fieldsDemands v
  else if hasMember v "tuple" then
    .items (part v "tuple" (.list [])) :: (partItems v "tuple").flatMap fun item => [.ident item]
  else []

/-- What is asked of a variant. -/
def variantDemands (v : Value) : List Demand :=
  payloadDemands v ++ [.member v "name", .items (part v "doc" (.list []))]

/-- What is asked of a type of a kind. -/
def kindDemands (v kind : Value) : List Demand :=
  if kind.isName "struct" then fieldsDemands v
  else if kind.isName "enum" then
    optionsDemands (part v "name") (part v "options" (.map [])) ++
      .items (part v "variants" (.list [])) :: (partItems v "variants").flatMap variantDemands
  else if kind.isName "alias" then [.member v "type", .ident (part v "type")]
  else if kind.isName "custom" then [.member v "rs_ty", .member v "ts_ty"]
  else []

/-- What is asked of a type. -/
def typeDemands (v : Value) : List Demand :=
  [.member v "kind", .member v "name", .items (part v "doc" (.list [])),
    .items (part v "generics" (.list [])), .kind (part v "kind") (part v "name")] ++
    kindDemands v (part v "kind")

/-- What is asked of an argument. -/
def argumentDemands (v : Value) : List Demand :=
  [.member v "name", .member v "type", .ident (part v "type")]

/-- What is asked of a function. -/
def functionDemands (v : Value) : List Demand :=
  [.object v, .member v "name", .items (part v "args" (.list []))] ++
    ((partItems v "args").flatMap argumentDemands ++
      ((if (part v "return").isSet then [.ident (part v "return")] else []) ++
        [.items (part v "doc" (.list [])), .items (part v "modifiers" (.list []))]))

/-- What is asked of functions that come after others. -/
def functionsDemands (names : List Value) : List Value → List Demand
  | [] => []
  | v :: rest =>
    functionDemands v ++
      .newFunction names (part v "name") :: functionsDemands (names ++ [part v "name"]) rest

/-- The names of the types of a document. -/
def typeNames (v : Value) : List Value := (partItems v "types").map (part · "name")

/-- What is asked of the declarations of a document. -/
def declarationDemands (v : Value) : List Demand :=
  .items (part v "types" (.list [])) :: ((partItems v "types").flatMap typeDemands ++
    (.items (part v "imports" (.list [])) :: functionsDemands [] (partItems v "imports") ++
      (.items (part v "exports" (.list [])) :: functionsDemands [] (partItems v "exports"))))

/-- What is asked of a document. -/
def demands (v : Value) : List Demand :=
  .document v :: (declarationDemands v ++
    [.keys (typeNames v), .listed (typeNames v) "serializable" (part v "serializable"),
      .listed (typeNames v) "deserializable" (part v "deserializable")])

/-! ## Readers and their demands -/

variable {α β : Type} {v : Value} {key : Text} {demand : Demand} {ds es : List Demand}

/-- A value has members. -/
def IsObject (v : Value) : Prop := ∃ entries, v = .map entries

theorem asks_ok (a : α) : Asks [] (.ok a) := ⟨a, rfl⟩

theorem asks_met {x : Read α} {a : α} (hx : x = .ok a) (hd : demand.fault? = none) :
    Asks [demand] x := by
  unfold Asks firstFault
  rw [List.findSome?_cons, hd]
  exact ⟨a, hx⟩

theorem asks_unmet {x : Read α} {e : LoadError} (hx : x = .error e)
    (hd : demand.fault? = some e) : Asks (demand :: ds) x := by
  unfold Asks firstFault
  rw [List.findSome?_cons, hd]
  exact hx

/-- What a chain asks is what its parts ask, one after the other. -/
theorem Asks.bind {x : Read α} {f : α → Read β} (hx : Asks ds x)
    (hf : ∀ a, x = .ok a → Asks es (f a)) : Asks (ds ++ es) (x >>= f) := by
  unfold Asks firstFault at hx ⊢
  rw [List.findSome?_append]
  cases hds : ds.findSome? Demand.fault? with
  | none =>
    rw [hds] at hx
    obtain ⟨a, ha⟩ := hx
    rw [ha]
    exact hf a ha
  | some e =>
    rw [hds] at hx
    rw [show x = .error e from hx]
    rfl

/-- A part that asks one thing. -/
theorem Asks.cons {x : Read α} {f : α → Read β} (hx : Asks [demand] x)
    (hf : ∀ a, x = .ok a → Asks es (f a)) : Asks (demand :: es) (x >>= f) := hx.bind hf

/-- What is made of a result in the end asks nothing. -/
theorem Asks.last {x : Read α} (hx : Asks ds x) (f : α → β) :
    Asks ds (x >>= fun a => pure (f a)) := by
  rw [← List.append_nil ds]
  exact hx.bind fun a _ => asks_ok _

theorem Asks.map {x : Read α} (hx : Asks ds x) (f : α → β) : Asks ds (f <$> x) := by
  rw [map_eq_pure_bind]
  exact hx.last f

/-- A demand that is met makes no difference. -/
theorem Asks.met {x : Read α} (hx : Asks ds x) (hd : demand.fault? = none) :
    Asks (demand :: ds) x := by
  unfold Asks firstFault
  rw [List.findSome?_cons, hd]
  exact hx

theorem asks_mapM {f : Value → Read α} {g : Value → List Demand} (vs : List Value)
    (h : ∀ v, Asks (g v) (f v)) : Asks (vs.flatMap g) (vs.mapM f) := by
  induction vs with
  | nil => exact asks_ok []
  | cons v vs ih =>
    rw [List.flatMap_cons, List.mapM_cons]
    exact (h v).bind fun a _ => ih.last (a :: ·)

/-! ### Members -/

theorem asks_member (v : Value) (key : Text) : Asks [.member v key] (member v key) := by
  cases v with
  | map entries =>
    cases h : Entries.findName? entries key with
    | none => exact asks_unmet (by rw [member, h]) (by rw [Demand.fault?, h]; rfl)
    | some found => exact asks_met (by rw [member, h]) (by rw [Demand.fault?, h]; rfl)
  | _ => exact asks_unmet rfl rfl

theorem part_of_member {a : Value} (h : member v key = .ok a) :
    IsObject v ∧ a = part v key := by
  unfold member at h
  split at h
  · rename_i entries
    split at h
    · rename_i found hfound
      cases h
      refine ⟨⟨entries, rfl⟩, ?_⟩
      unfold part
      dsimp only
      rw [hfound]
      rfl
    · cases h
  · cases h

theorem asks_memberOr (v : Value) (key : Text) (fallback : Value) :
    Asks [.object v] (memberOr v key fallback) := by
  cases v with
  | map entries => exact asks_met rfl rfl
  | _ => exact asks_unmet rfl rfl

theorem part_of_memberOr {a fallback : Value} (h : memberOr v key fallback = .ok a) :
    IsObject v ∧ a = part v key fallback := by
  unfold memberOr at h
  split at h
  · cases h
    exact ⟨⟨_, rfl⟩, rfl⟩
  · cases h

theorem memberOr_of_isObject (hv : IsObject v) (key : Text) (fallback : Value) :
    memberOr v key fallback = .ok (part v key fallback) := by
  obtain ⟨entries, rfl⟩ := hv
  rfl

theorem asks_itemsOf (hv : IsObject v) (key : Text) :
    Asks [.items (part v key (.list []))] (itemsOf v key) := by
  unfold itemsOf
  rw [memberOr_of_isObject hv, bind_ok]
  cases h : items? (part v key (.list [])) with
  | none => exact asks_unmet rfl (by rw [Demand.fault?, h]; rfl)
  | some items => exact asks_met rfl (by rw [Demand.fault?, h]; rfl)

theorem partItems_of_itemsOf {items : List Value} (hv : IsObject v)
    (h : itemsOf v key = .ok items) : items = partItems v key := by
  unfold itemsOf at h
  rw [memberOr_of_isObject hv, bind_ok] at h
  unfold partItems
  split at h
  · rename_i found hfound
    cases h
    rw [hfound]
    rfl
  · cases h

theorem asks_ident (v : Value) : Asks [.ident v] (readIdent v) := by
  cases v with
  | str s =>
    cases h : TypeIdent.parse s with
    | ok ident => exact asks_met (by rw [readIdent, h]; rfl) (by rw [Demand.fault?, h])
    | error e => exact asks_unmet (by rw [readIdent, h]; rfl) (by rw [Demand.fault?, h])
  | _ => exact asks_unmet rfl rfl

theorem asks_casing (v : Value) : Asks [.casing v] (readCasing v) := by
  cases v with
  | str s =>
    cases h : Casing.ofName? s with
    | none => exact asks_unmet (by rw [readCasing, h]) (by rw [Demand.fault?, h]; rfl)
    | some casing => exact asks_met (by rw [readCasing, h]) (by rw [Demand.fault?, h]; rfl)
  | _ => exact asks_unmet rfl rfl

/-! ### Types -/

theorem asks_readField (v : Value) : Asks (fieldDemands v) (readField v) := by
  refine (asks_member v "name").cons fun name hname => ?_
  obtain ⟨hv, -⟩ := part_of_member hname
  refine (asks_member v "type").cons fun given hgiven => ?_
  obtain ⟨-, rfl⟩ := part_of_member hgiven
  refine (asks_ident _).cons fun type _ => ?_
  exact (asks_itemsOf hv "doc").cons fun doc _ => asks_ok _

/-- Whether options fit together has nothing to do with a convention. -/
theorem make_eq (casing : Casing) (tag content : Option Value) (untagged : Bool) :
    EnumOptions.make casing tag content untagged
      = (fun o => { o with variantCasing := casing }) <$>
          EnumOptions.make .verbatim tag content untagged := by
  unfold EnumOptions.make
  split
  · rfl
  · split <;> rfl

theorem asks_readOptions (enum v : Value) : Asks (optionsDemands enum v) (readOptions enum v) := by
  refine (asks_memberOr v "variant_casing" _).cons fun given hgiven => ?_
  obtain ⟨hv, rfl⟩ := part_of_memberOr hgiven
  refine (asks_casing _).cons fun casing _ => ?_
  rw [memberOr_of_isObject hv, bind_ok, memberOr_of_isObject hv, bind_ok,
    memberOr_of_isObject hv, bind_ok, make_eq]
  cases h : EnumOptions.make .verbatim (optional (part v "tag")) (optional (part v "content"))
      (part v "untagged" (.bool false)).isSet with
  | ok o => exact asks_met rfl (by rw [Demand.fault?, h])
  | error e => exact asks_unmet rfl (by rw [Demand.fault?, h])

theorem asks_fields (hv : IsObject v) (f : List (Field Value) → α) :
    Asks (fieldsDemands v) (do return f (← (← itemsOf v "fields").mapM readField)) := by
  refine (asks_itemsOf hv "fields").cons fun items hitems => ?_
  cases partItems_of_itemsOf hv hitems
  exact (asks_mapM _ asks_readField).last f

theorem isObject_of_hasMember (h : hasMember v key = true) : IsObject v := by
  unfold hasMember at h
  split at h
  · exact ⟨_, rfl⟩
  · cases h

theorem asks_readPayload (v : Value) : Asks (payloadDemands v) (readPayload v) := by
  unfold payloadDemands readPayload
  split
  · refine (asks_member v "name").cons fun name hname => ?_
    obtain ⟨hv, -⟩ := part_of_member hname
    exact asks_fields hv _
  · split
    · rename_i hmember
      have hv := isObject_of_hasMember hmember
      refine (asks_itemsOf hv "tuple").cons fun items hitems => ?_
      cases partItems_of_itemsOf hv hitems
      exact (asks_mapM _ asks_ident).last _
    · exact asks_ok _

theorem asks_readVariant (v : Value) : Asks (variantDemands v) (readVariant v) := by
  rw [readVariant_eq]
  refine (asks_readPayload v).bind fun payload _ => ?_
  refine (asks_member v "name").cons fun name hname => ?_
  obtain ⟨hv, -⟩ := part_of_member hname
  exact (asks_itemsOf hv "doc").last _

theorem asks_readType (v : Value) : Asks (typeDemands v) (readType v) := by
  refine (asks_member v "kind").cons fun kind hkind => ?_
  obtain ⟨hv, rfl⟩ := part_of_member hkind
  refine (asks_member v "name").cons fun name hname => ?_
  obtain ⟨-, rfl⟩ := part_of_member hname
  refine (asks_itemsOf hv "doc").cons fun doc _ => ?_
  refine (asks_itemsOf hv "generics").cons fun generics _ => ?_
  unfold kindDemands
  by_cases hstruct : (part v "kind").isName "struct" = true
  · rw [if_pos hstruct, if_pos hstruct]
    refine Asks.met ?_ (by simp [Demand.fault?, hstruct])
    exact asks_fields hv _
  rw [if_neg hstruct, if_neg hstruct]
  by_cases henum : (part v "kind").isName "enum" = true
  · rw [if_pos henum, if_pos henum]
    refine Asks.met ?_ (by simp [Demand.fault?, henum])
    rw [memberOr_of_isObject hv, bind_ok]
    refine (asks_readOptions _ _).bind fun options _ => ?_
    refine (asks_itemsOf hv "variants").cons fun items hitems => ?_
    cases partItems_of_itemsOf hv hitems
    exact (asks_mapM _ asks_readVariant).last _
  rw [if_neg henum, if_neg henum]
  by_cases halias : (part v "kind").isName "alias" = true
  · rw [if_pos halias, if_pos halias]
    refine Asks.met ?_ (by simp [Demand.fault?, halias])
    refine (asks_member v "type").cons fun given hgiven => ?_
    obtain ⟨-, rfl⟩ := part_of_member hgiven
    exact (asks_ident _).last _
  rw [if_neg halias, if_neg halias]
  by_cases hcustom : (part v "kind").isName "custom" = true
  · rw [if_pos hcustom, if_pos hcustom]
    refine Asks.met ?_ (by simp [Demand.fault?, hcustom])
    refine (asks_member v "rs_ty").cons fun rust _ => ?_
    exact (asks_member v "ts_ty").last _
  · rw [if_neg hcustom, if_neg hcustom]
    exact asks_unmet rfl (by simp [Demand.fault?, hstruct, henum, halias, hcustom])

/-! ### Functions -/

theorem asks_readArgument (v : Value) : Asks (argumentDemands v) (readArgument v) := by
  refine (asks_member v "name").cons fun name hname => ?_
  refine (asks_member v "type").cons fun given hgiven => ?_
  obtain ⟨-, rfl⟩ := part_of_member hgiven
  exact (asks_ident _).last _

/-- The type of a result, if there is one. -/
def readReturn (v : Value) : Read (Option TypeIdent) :=
  if v.isSet then some <$> readIdent v else return none

theorem readFunction_eq (v : Value) : readFunction v = (do
    let returns ← memberOr v "return" .null
    let name ← member v "name"
    let args ← (← itemsOf v "args").mapM readArgument
    let returns ← readReturn returns
    let isAsync ← memberOr v "async" (.bool false)
    let doc ← itemsOf v "doc"
    let modifiers ← itemsOf v "modifiers"
    return { name, args, returns, isAsync := isAsync.isSet, doc, modifiers }) := by
  unfold readFunction readReturn
  refine bind_congr fun returns => ?_
  refine bind_congr fun name => ?_
  refine bind_congr fun items => ?_
  refine bind_congr fun args => ?_
  split <;> rfl

theorem asks_readReturn (v : Value) :
    Asks (if v.isSet then [.ident v] else []) (readReturn v) := by
  unfold readReturn
  split
  · exact (asks_ident v).map some
  · exact asks_ok none

theorem asks_readFunction (v : Value) : Asks (functionDemands v) (readFunction v) := by
  rw [readFunction_eq]
  refine (asks_memberOr v "return" _).cons fun returns hreturns => ?_
  obtain ⟨hv, rfl⟩ := part_of_memberOr hreturns
  refine (asks_member v "name").cons fun name hname => ?_
  refine (asks_itemsOf hv "args").cons fun items hitems => ?_
  cases partItems_of_itemsOf hv hitems
  refine (asks_mapM _ asks_readArgument).bind fun args _ => ?_
  refine (asks_readReturn _).bind fun returns _ => ?_
  rw [memberOr_of_isObject hv, bind_ok]
  refine (asks_itemsOf hv "doc").cons fun doc _ => ?_
  exact (asks_itemsOf hv "modifiers").last _

theorem name_of_readFunction {f : Function Value} (h : readFunction v = .ok f) :
    f.name = part v "name" := by
  rw [readFunction_eq] at h
  obtain ⟨returns, -, h⟩ := bind_eq_ok.mp h
  obtain ⟨name, hname, h⟩ := bind_eq_ok.mp h
  obtain ⟨items, -, h⟩ := bind_eq_ok.mp h
  obtain ⟨args, -, h⟩ := bind_eq_ok.mp h
  obtain ⟨returns, -, h⟩ := bind_eq_ok.mp h
  obtain ⟨isAsync, -, h⟩ := bind_eq_ok.mp h
  obtain ⟨doc, -, h⟩ := bind_eq_ok.mp h
  obtain ⟨modifiers, -, h⟩ := bind_eq_ok.mp h
  cases h
  exact (part_of_member hname).2

/-- A name is refused if a function before has it. -/
theorem asks_add (functions : FunctionList Value) (f : Function Value) :
    Asks [.newFunction functions.names f.name]
      ((functions.add f).mapError .duplicateFunction) := by
  have hnames : functions.contains f.name
      = functions.names.any fun other => Label.equals other f.name := by
    unfold FunctionList.contains FunctionList.names
    rw [List.any_map]
    rfl
  unfold FunctionList.add
  split
  · rename_i h
    exact asks_unmet rfl (by rw [Demand.fault?, ← hnames, if_pos h])
  · rename_i h
    exact asks_met rfl (by rw [Demand.fault?, ← hnames, if_neg h])

theorem names_of_add {functions longer : FunctionList Value} {f : Function Value}
    (h : functions.add f = .ok longer) : longer.names = functions.names ++ [f.name] := by
  unfold FunctionList.add at h
  split at h
  · cases h
  · cases h
    exact List.map_append

/-- Functions are read and added one after the other. -/
theorem asks_functions (vs : List Value) (functions : FunctionList Value) :
    Asks (functionsDemands functions.names vs) (vs.foldlM (fun functions v => do
      let function ← readFunction v
      (functions.add function).mapError .duplicateFunction) functions) := by
  induction vs generalizing functions with
  | nil => exact asks_ok functions
  | cons v vs ih =>
    rw [functionsDemands, List.foldlM_cons, bind_assoc]
    refine (asks_readFunction v).bind fun f hf => ?_
    rw [← name_of_readFunction hf]
    refine (asks_add functions f).cons fun longer hlonger => ?_
    rw [← names_of_add (mapError_eq_ok.mp hlonger)]
    exact ih longer

theorem asks_readFunctions (hv : IsObject v) (key : Text) :
    Asks (.items (part v key (.list [])) :: functionsDemands [] (partItems v key))
      (readFunctions v key) := by
  refine (asks_itemsOf hv key).cons fun items hitems => ?_
  cases partItems_of_itemsOf hv hitems
  exact asks_functions _ FunctionList.empty

/-! ### Whole documents -/

theorem names_of_ofMembers {d : InterfaceDocument} (hv : IsObject v)
    (h : InterfaceDocument.ofMembers v = .ok d) :
    d.members = v ∧ d.types.map (·.name) = typeNames v := by
  obtain ⟨items, hitems, h⟩ := bind_eq_ok.mp h
  obtain ⟨types, htypes, h⟩ := bind_eq_ok.mp h
  obtain ⟨imports, -, h⟩ := bind_eq_ok.mp h
  obtain ⟨exports, -, h⟩ := bind_eq_ok.mp h
  cases h
  cases partItems_of_itemsOf hv hitems
  refine ⟨rfl, map_eq_of_mapM htypes fun item type hread => ?_⟩
  exact (part_of_member (readType_eq_ok hread).2).2

theorem asks_ofMembers (hv : IsObject v) :
    Asks (declarationDemands v) (InterfaceDocument.ofMembers v) := by
  refine (asks_itemsOf hv "types").cons fun items hitems => ?_
  cases partItems_of_itemsOf hv hitems
  refine (asks_mapM _ asks_readType).bind fun types _ => ?_
  refine (asks_readFunctions hv "imports").bind fun imports _ => ?_
  exact (asks_readFunctions hv "exports").last _

theorem find?_isNone {d : InterfaceDocument} (name : Value) :
    (d.find? name).isNone = !(d.types.map (·.name)).any (Label.same · name) := by
  unfold InterfaceDocument.find?
  rw [Bool.eq_iff_iff, Option.isNone_iff_eq_none, List.find?_eq_none, Bool.not_eq_true',
    List.any_eq_false, List.forall_mem_map]
  simp only [List.mem_reverse]

theorem asks_listed? {d : InterfaceDocument} (hv : IsObject d.members) (key : Text) :
    Asks [.listed (d.types.map (·.name)) key (part d.members key)] (d.listed? key) := by
  unfold InterfaceDocument.listed?
  rw [memberOr_of_isObject hv, bind_ok]
  by_cases hnull : (part d.members key).isNull = true
  · rw [if_pos hnull]
    exact asks_met rfl (by rw [Demand.fault?, if_pos hnull])
  rw [if_neg hnull]
  dsimp only
  cases hitems : items? (part d.members key) with
  | none => exact asks_unmet rfl (by rw [Demand.fault?, if_neg hnull, hitems])
  | some names =>
    dsimp only
    by_cases hkeys : (!Value.allKeys names) = true
    · rw [if_pos hkeys]
      exact asks_unmet rfl (by rw [Demand.fault?, if_neg hnull, hitems]; exact if_pos hkeys)
    rw [if_neg hkeys]
    simp only [find?_isNone]
    by_cases hmissing : (names.filter fun name =>
        !(d.types.map (·.name)).any (Label.same · name)).isEmpty = true
    · rw [if_pos hmissing]
      refine asks_met rfl ?_
      rw [Demand.fault?, if_neg hnull, hitems]
      dsimp only
      rw [if_neg hkeys, if_pos hmissing]
    · rw [if_neg hmissing]
      refine asks_unmet rfl ?_
      rw [Demand.fault?, if_neg hnull, hitems]
      dsimp only
      rw [if_neg hkeys, if_neg hmissing]

theorem asks_interface {d : InterfaceDocument} (hv : IsObject d.members) :
    Asks [.keys (d.types.map (·.name)),
      .listed (d.types.map (·.name)) "serializable" (part d.members "serializable"),
      .listed (d.types.map (·.name)) "deserializable" (part d.members "deserializable")]
      d.interface := by
  unfold InterfaceDocument.interface
  by_cases hkeys : Value.allKeys (d.types.map (·.name)) = true
  · rw [if_neg (by simpa using hkeys)]
    refine Asks.met ?_ (by rw [Demand.fault?, if_pos hkeys])
    refine (asks_listed? hv "serializable").cons fun sent _ => ?_
    exact (asks_listed? hv "deserializable").last _
  · rw [if_pos (by simpa using hkeys)]
    exact asks_unmet rfl (by rw [Demand.fault?, if_neg hkeys])

/-- **Loading a document succeeds if all demands are met, and fails as the first that is not.** -/
theorem asks_load {text : Text} (h : JsonText.read text = .ok v) :
    Asks (demands v) (Interface.load text) := by
  unfold Interface.load InterfaceDocument.parse
  rw [h]
  cases v with
  | map entries =>
    have hv : IsObject (.map entries) := ⟨entries, rfl⟩
    refine Asks.met ?_ rfl
    refine (asks_ofMembers hv).bind fun d hd => ?_
    obtain ⟨hmembers, hnames⟩ := names_of_ofMembers hv hd
    rw [← hnames, ← hmembers]
    exact asks_interface (hmembers ▸ hv)
  | _ => exact asks_unmet rfl rfl

end Document

end WasmBridge
