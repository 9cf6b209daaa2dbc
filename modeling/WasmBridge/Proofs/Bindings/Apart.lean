import WasmBridge.Proofs.Bindings.Members
import WasmBridge.Proofs.Bindings.Methods
import WasmBridge.Proofs.Schema.Declared
import WasmBridge.Proofs.Wire.Faults
import WasmBridge.Proofs.Wire.Parts

/-!
# Accepted interfaces

A target that accepts an interface has kept apart whatever it renders of it: the members
of each declared type, in whatever form, and the methods of a host. The codec may rely on
it. It never finds a wire key used already, and a wire key leads back to the variant that
it belongs to.

Two things are not looked at, and for each of them it is said exactly when names come out
alike all the same: the tag of an enum beside the fields of its variants, and exports whose
names are raw identifiers.
-/

namespace WasmBridge

open Outcome

/-! ## Wire keys in use -/

/-- An error says that a wire key has been used already. -/
def CodecError.ReusesKey : CodecError → Prop
  | .wire (.reusedKey ..) => True
  | _ => False

section Encoding

variable {types : TypeMap Text} {room : Nat} {name : Text} {fields : List (Field Text)}
  {bs : List (Text × TypeIdent)} {entries stored : Entries} {v : Value} {P : CodecError → Prop}

theorem failWire_failsOnly {α : Type} {cause : WireError} (hdeep : P .tooDeep)
    (hwire : P (.wire cause)) : FailsOnly P (failWire room cause : Except CodecError α) := by
  unfold failWire
  refine failsOnly_error ?_
  split
  · exact hwire
  · exact hdeep

/-- To look for unknown fields is to say nothing of keys in use. -/
theorem checkFields_reuses {known : List Text} (hP : ∀ e : CodecError, ¬e.ReusesKey → P e) :
    FailsOnly P (checkFields room name known entries) := by
  unfold checkFields
  dsimp only
  split
  · exact failsOnly_ok _
  split
  · exact failWire_failsOnly (hP _ id) (hP _ id)
  · exact failsOnly_error (hP _ id)

theorem fieldToStore_reuses {field : Field Text} (hP : ∀ e : CodecError, ¬e.ReusesKey → P e)
    (hnew : stored.findName? (fieldWireKey field.name) = none) :
    FailsOnly P (fieldToStore types room name bs entries stored field) := by
  unfold fieldToStore
  dsimp only
  split
  · exact failsOnly_ok _
  split
  · exact failWire_failsOnly (hP _ id) (hP _ id)
  split
  · rename_i hused
    rw [hnew] at hused
    cases hused
  · exact failsOnly_ok _

/-- Storing a field leaves all keys free but that of the field. -/
theorem findName?_of_storeField {field : Field Text} {next : Entries} {key : Text}
    (hne : key ≠ fieldWireKey field.name) (hfree : stored.findName? key = none)
    (h : storeField types room name bs entries stored field = .ok next) :
    next.findName? key = none := by
  obtain ⟨item?, hitem, hnext⟩ := bind_eq_ok.mp h
  rcases fieldToStore_eq_ok hitem with ⟨rfl, -⟩ | ⟨rfl, -⟩
  · cases hnext
    exact hfree
  · obtain ⟨w, _, hnext⟩ := bind_eq_ok.mp hnext
    cases hnext
    refine Entries.findName?_eq_none_iff.mpr fun e he => ?_
    rcases List.mem_append.mp he with he | he
    · exact Entries.findName?_eq_none_iff.mp hfree e he
    · cases List.mem_singleton.mp he
      exact fun hname => hne (Value.str.inj hname).symm

/-- Where the keys of fields are apart from each other and from those that are stored, storing
fails for other reasons, or for a part. -/
theorem storeFields_reuses (hP : ∀ e : CodecError, ¬e.ReusesKey → P e)
    (hparts : ∀ field ∈ fields, ∀ stored key item type,
      fieldToStore types room name bs entries stored field = .ok (some (key, item, type)) →
      FailsOnly P (toWire types room item type))
    (hkeys : (fields.map fun f => fieldWireKey f.name).Nodup)
    (hnew : ∀ f ∈ fields, stored.findName? (fieldWireKey f.name) = none) :
    FailsOnly P (fields.foldlM (storeField types room name bs entries) stored) := by
  induction fields generalizing stored with
  | nil => exact failsOnly_ok _
  | cons field fields ih =>
    obtain ⟨hother, hkeys⟩ := List.nodup_cons.mp hkeys
    obtain ⟨hfree, hnew⟩ := List.forall_mem_cons.mp hnew
    obtain ⟨hpart, hparts⟩ := List.forall_mem_cons.mp hparts
    rw [List.foldlM_cons]
    refine FailsOnly.bind ?_ fun next hnext => ih hparts hkeys fun f hf => ?_
    · refine (fieldToStore_reuses hP hfree).bind fun item? hitem => ?_
      cases item? with
      | none => exact failsOnly_ok _
      | some found =>
        obtain ⟨key, item, type⟩ := found
        exact (hpart stored key item type hitem).bind fun _ _ => failsOnly_ok _
    · have hne : fieldWireKey f.name ≠ fieldWireKey field.name :=
        fun heq => hother (List.mem_map.mpr ⟨f, hf, heq⟩)
      exact findName?_of_storeField hne (hnew f hf) hnext

/-- The encoder says that a wire key of these fields has been used only if it says so about a
part. -/
def KeysUnused (types : TypeMap Text) (fields : List (Field Text)) : Prop :=
  ∀ room v name bs e, e.ReusesKey → structToWire types room v name fields bs = .error e →
    ∃ part ∈ Direction.encoding.fieldParts fields bs v, ∃ r < room,
      Direction.encoding.run types r part.2 part.1 = .error e

theorem keysUnused_of_nodup (hkeys : (fields.map fun f => fieldWireKey f.name).Nodup) :
    KeysUnused types fields := by
  intro room v name bs e he h
  -- all errors but those about keys in use are admitted
  have hP : ∀ e : CodecError, ¬e.ReusesKey → (e.ReusesKey →
      ∃ part ∈ Direction.encoding.fieldParts fields bs v, ∃ r < room,
        Direction.encoding.run types r part.2 part.1 = .error e) :=
    fun e he he' => absurd he' he
  suffices hfails : FailsOnly (fun e => e.ReusesKey →
      ∃ part ∈ Direction.encoding.fieldParts fields bs v, ∃ r < room,
        Direction.encoding.run types r part.2 part.1 = .error e)
      (structToWire types room v name fields bs) from hfails e h he
  cases room with
  | zero => rw [structToWire]; exact failsOnly_error (hP _ id)
  | succ r =>
    cases v with
    | map entries =>
      rw [structToWire]
      refine (checkFields_reuses hP).bind fun _ _ => ?_
      refine FailsOnly.bind ?_ fun _ _ => failsOnly_ok _
      refine storeFields_reuses hP (fun field hmem stored key item type hstore e he _ => ?_) hkeys
        fun _ _ => rfl
      exact ⟨_, mem_fieldParts_of_toStore hmem hstore, r, Nat.lt_succ_self r, he⟩
    | _ =>
      rw [structToWire]
      · exact failWire_failsOnly (hP _ id) (hP _ id)
      · intro entries heq
        cases heq

end Encoding

/-! ## Variants by their keys -/

/-- A wire key is that of one variant, and leads back to it. -/
def KeysFound (options : EnumOptions Text) (variants : List (Variant Text)) : Prop :=
  ∀ room enum key variant,
    findWireVariant room enum variants options.variantCasing (.str key) = .ok variant
      ↔ variant ∈ variants ∧ variantWireKey variant.name options.variantCasing = key

theorem keysFound_of_nodup {options : EnumOptions Text} {variants : List (Variant Text)}
    (hkeys : (variants.map fun v => variantWireKey v.name options.variantCasing).Nodup) :
    KeysFound options variants := by
  intro room enum key variant
  constructor
  · intro h
    unfold findWireVariant at h
    split at h
    · rename_i found hfind
      cases h
      have hname := List.find?_some hfind
      exact ⟨List.mem_of_find?_eq_some hfind, (Value.str.inj (Value.isName_iff.mp hname)).symm⟩
    · cases h
  · rintro ⟨hmem, rfl⟩
    exact findWireVariant_eq room enum hkeys hmem

/-! ## Accepted interfaces -/

/-- The codec can tell the members of a definition apart. -/
def TypeDef.CodedApart (types : TypeMap Text) : TypeDef Text → Prop
  | .struct _ _ fields _ => KeysUnused types fields
  | .enum _ _ variants options _ => KeysFound options variants
      ∧ ∀ v ∈ variants, ∀ name generics fields doc,
          v.payload = .struct name generics fields doc → KeysUnused types fields
  | _ => True

theorem TypeDef.MembersApart.coded {types : TypeMap Text} {type : TypeDef Text}
    (h : type.MembersApart) : type.CodedApart types := by
  cases type with
  | struct name generics fields doc => exact keysUnused_of_nodup h.wire
  | enum name generics variants options doc =>
    exact ⟨keysFound_of_nodup h.wire, fun v hv name generics fields doc hpayload =>
      keysUnused_of_nodup (h.fields v hv name generics fields doc hpayload).wire⟩
  | _ => trivial

/--
**What is rendered of an accepted interface does not collide, but for tags and raw
identifiers.** If a target has made its files, then

* no two members of a declared type have one name, be it as an identifier in Rust, as a
  property in TypeScript or as a wire key, and the codec tells them apart by it;
* the same holds for the declarations, which stand in the files line by line, except that a
  member of a union in TypeScript has two properties of one name exactly if one of them is
  the tag;
* the methods of a host in Rust are apart by the names of the exports, and so they are in
  its code, unless the name of one export is a reserved word and that of another one is
  this word as a raw identifier.
-/
theorem rendered_members_apart {s : BindingSource Text} {t : Target} {files : List (Text × Text)}
    (h : s.files t = .ok files) :
    ∃ declared, s.declared = .ok declared
      ∧ (∀ type ∈ declared, type.MembersApart ∧ type.CodedApart s.types)
      ∧ (t ≠ .typeScriptRuntime → ∃ target derives rust,
          Rust.typeDecls target s derives = .ok rust
            ∧ (("types.rs" : Text), Rust.typesFile rust) ∈ files
            ∧ ∀ decl ∈ rust, StandIn decl.lines (Rust.typesFile rust) ∧ decl.MembersApart)
      ∧ (t = .typeScriptRuntime → ∃ ts,
          TypeScript.typeDecls TypeScriptRuntime.target s = .ok ts
            ∧ (("types.ts" : Text), TypeScript.typesFile ts) ∈ files
            ∧ ∀ decl ∈ ts, StandIn decl.lines (TypeScript.typesFile ts) ∧ decl.MembersApart)
      ∧ (t = .wasmerRuntime → WasmerRuntime.MethodsApart s files) := by
  obtain ⟨declared, hdeclared, happart⟩ := membersApart_of_files h
  refine ⟨declared, hdeclared, fun type htype => ?_, fun ht => ?_, ?_, ?_⟩
  · exact ⟨happart type htype, (happart type htype).coded⟩
  · obtain ⟨target, derives, rust, -, hrust, hfile⟩ := rust_of_files ht h
    refine ⟨target, derives, rust, hrust, hfile, fun decl hdecl => ?_⟩
    obtain ⟨type, htype, hmade⟩ := exists_of_mem_declarations hdeclared hrust hdecl
    exact ⟨Rust.standIn_typesFile hdecl, Rust.membersApart_of_typeDecl (happart type htype) hmade⟩
  · rintro rfl
    obtain ⟨ts, hts, hfile⟩ := typeScriptDecls_of_files h
    refine ⟨ts, hts, hfile, fun decl hdecl => ?_⟩
    obtain ⟨type, htype, hmade⟩ := exists_of_mem_declarations hdeclared hts hdecl
    exact ⟨TypeScript.standIn_typesFile hdecl,
      TypeScript.membersApart_of_typeDecl (happart type htype) hmade⟩
  · rintro rfl
    exact WasmerRuntime.methodsApart_of_files h

namespace Colliding

/-- An event is told apart by its type, and one of its variants has a field of that name. -/
def event : TypeDef Text := .enum "Event" []
  [.mk "Named" (.struct "Named" [] [{ name := "type", type := ⟨"String", []⟩ }] []) []]
  { tag := some "type" } []

/-- Two exports whose names differ by the mark of raw identifiers. -/
def exports : FunctionList Text := ⟨[{ name := "type" }, { name := "r#type" }], by decide +kernel⟩

def source : BindingSource Text := (⟨.empty, exports, [event], []⟩ : Interface Text).source {}

/-- In the declarations for a host in TypeScript some property comes twice. -/
def comesTwice : TypeScript.TypeDecl → Bool
  | .enum _ _ _ members => members.any fun m => !decide m.propertyNames.Nodup
  | _ => false

theorem exists_comesTwice {ts : List TypeScript.TypeDecl}
    (hts : TypeScript.typeDecls TypeScriptRuntime.target source = .ok ts) :
    ∃ decl ∈ ts, comesTwice decl = true := by
  have hany : (match TypeScript.typeDecls TypeScriptRuntime.target source with
      | .ok ts => ts.any comesTwice
      | .error _ => false) = true := by decide +kernel
  rw [hts] at hany
  exact List.any_eq_true.mp hany

end Colliding

/-- An event that is tagged by the name of a field, and two exports that differ by the mark of raw
identifiers, are accepted: a host in TypeScript is given a property twice, and one in Rust a
method. -/
theorem rendered_members_apart_event :
    ∃ rustFiles tsFiles, Colliding.source.files .wasmerRuntime = .ok rustFiles
      ∧ Colliding.source.files .typeScriptRuntime = .ok tsFiles
      ∧ Colliding.event.MembersApart
      ∧ ¬(WasmerRuntime.ownMethods
          ++ Colliding.exports.toList.flatMap WasmerRuntime.emittedNames).Nodup
      ∧ ∃ ts, (("types.ts" : Text), TypeScript.typesFile ts) ∈ tsFiles
          ∧ ∃ name generics doc members, .enum name generics doc members ∈ ts
            ∧ ∃ m ∈ members, ¬m.propertyNames.Nodup ∧ ¬m.TagApart := by
  obtain ⟨rustFiles, hrust⟩ := exists_of_isOk
    (show (Colliding.source.files .wasmerRuntime).isOk = true by decide +kernel)
  obtain ⟨tsFiles, hts⟩ := exists_of_isOk
    (show (Colliding.source.files .typeScriptRuntime).isOk = true by decide +kernel)
  obtain ⟨declared, hdeclared, happart, -, -, hmethods⟩ := rendered_members_apart hrust
  obtain ⟨-, -, -, -, hmembers, -⟩ := rendered_members_apart hts
  have hevent : Colliding.event ∈ declared :=
    mem_declared hdeclared
      (show Colliding.source.types.find? "Event" = some Colliding.event by rfl) rfl
  refine ⟨rustFiles, tsFiles, hrust, hts, (happart _ hevent).1, fun hnodup => ?_, ?_⟩
  · exact (hmethods rfl).apart_iff.mp hnodup "type" (by decide +kernel) (by decide +kernel)
      (by decide +kernel)
  · obtain ⟨ts, hdecls, hfile, hmembers⟩ := hmembers rfl
    obtain ⟨decl, hdecl, htwice⟩ := Colliding.exists_comesTwice hdecls
    refine ⟨ts, hfile, ?_⟩
    cases decl with
    | enum name generics doc members =>
      obtain ⟨m, hm, htwice⟩ := List.any_eq_true.mp htwice
      have htwice : ¬m.propertyNames.Nodup := by simpa using htwice
      have hiff := ((hmembers _ hdecl).2.2 m hm).2
      exact ⟨name, generics, doc, members, hdecl, m, hm, htwice, fun htag => htwice (hiff.mpr htag)⟩
    | _ => cases htwice

end WasmBridge
