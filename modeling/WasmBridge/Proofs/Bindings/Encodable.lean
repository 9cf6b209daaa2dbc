import WasmBridge.Proofs.Bindings.Declarations
import WasmBridge.Proofs.Bindings.Distinct
import WasmBridge.Proofs.Schema.Declared
import WasmBridge.Proofs.Wire.EncodingRoom
import WasmBridge.Proofs.Wire.SentAgain
import WasmBridge.Proofs.Wire.SharedKeys

/-!
# Enums that targets accept

Before a target declares an enum, it counts what the variants carry. The codec looks at more than
that: an encoding that puts the tag into the map of the payload has to have a map there, and
whether it has shows when the payload is encoded. A single item may be anything, a parameter
even, so that no target could tell from the declaration.

This is all that stands between the two. Take a variant of an enum that some target has accepted,
and let each part of what it carries be encoded by itself. Then the variant is encoded too, with
five more calls than its parts, or its encoding lacks a map.
-/

namespace WasmBridge

open Outcome

variable {types : TypeMap Text} {room more : Nat} {bs : List (Text × TypeIdent)}
  {enum key : Text} {encoding : Encoding Text} {variant : Variant Text} {v p : Value}

/-! ## What targets accept -/

section Accepted

variable {s : BindingSource Text} {t : Target} {files : List (Text × Text)}
  {declared : List (TypeDef Text)} {name : Text} {generics : List Text}
  {variants : List (Variant Text)} {options : EnumOptions Text} {doc : List Text}

theorem length_of_expressible {target : Text} {payload : Payload Text} {items : List TypeIdent}
    (hpayload : variant.payload = .tuple items)
    (h : variant.expressible target enum true = .ok payload) : items.length = 1 := by
  unfold Variant.expressible at h
  rw [hpayload] at h
  dsimp only at h
  split at h
  · cases h
  split at h
  · cases h
  · rename_i hsingle
    simpa using hsingle

/-- **A tag within the payload is only accepted with a single item.** -/
theorem single_item_of_files (h : s.files t = .ok files) (hdeclared : s.declared = .ok declared)
    (henum : .enum name generics variants options doc ∈ declared) (hvariant : variant ∈ variants)
    {tag : Text} (hencoding : options.encoding = .internal tag) {items : List TypeIdent}
    (hpayload : variant.payload = .tuple items) : items.length = 1 := by
  by_cases ht : t = .typeScriptRuntime
  · subst ht
    obtain ⟨ts, hts, -⟩ := typeScriptDecls_of_files h
    obtain ⟨_, hdecl, -⟩ := declaration_mem hdeclared hts henum
    obtain ⟨_, -, hdecl⟩ := bind_eq_ok.mp hdecl
    obtain ⟨_, hmembers, -⟩ := bind_eq_ok.mp hdecl
    obtain ⟨_, hmember⟩ := exists_of_mem_mapM hmembers hvariant
    obtain ⟨_, hexpressible, -⟩ := bind_eq_ok.mp hmember
    exact length_of_expressible hpayload hexpressible
  · obtain ⟨target, derives, rust, -, hrust, -⟩ := rust_of_files ht h
    obtain ⟨_, hdecl, -⟩ := declaration_mem hdeclared hrust henum
    obtain ⟨_, -, hdecl⟩ := bind_eq_ok.mp hdecl
    obtain ⟨_, hdecls, -⟩ := bind_eq_ok.mp hdecl
    obtain ⟨_, hdecl⟩ := exists_of_mem_mapM hdecls hvariant
    obtain ⟨_, hexpressible, -⟩ := bind_eq_ok.mp hdecl
    rw [encoding_display, hencoding] at hexpressible
    exact length_of_expressible hpayload hexpressible

end Accepted

/-! ## What a variant carries -/

/-- What a variant carries can be encoded, each part of it by itself. -/
inductive PartsEncode (types : TypeMap Text) (room : Nat) (bs : List (Text × TypeIdent)) :
    TypeDef Text → Value → Prop where
  | unit {name : Text} {v : Value} : PartsEncode types room bs (.unit name) v
  | item {type : TypeIdent} {v w : Value} (h : toWire types room v (type.substitute bs) = .ok w) :
      PartsEncode types room bs (.tuple [type]) v
  | items {items : List TypeIdent} {v : Value} {given : List Value} (hmany : items.length ≠ 1)
      (hgiven : v.items? = some given)
      (h : List.Forall₂ (fun x type => ∃ w, toWire types room x (type.substitute bs) = .ok w)
        given items) :
      PartsEncode types room bs (.tuple items) v
  | fields {name : Text} {generics doc : List Text} {fields : List (Field Text)}
      {entries : Entries} (h : Fits types room fields bs entries) :
      PartsEncode types room bs (.struct name generics fields doc) (.map entries)

/-- The tag belongs into the map of an encoded payload, and the payload is none. -/
def Untaggable (encoding : Encoding Text) (variant : Variant Text) (p : Value) : Prop :=
  ∃ tag, encoding = .internal tag ∧ variant.payload.isUnit = false ∧ ∀ entries, p ≠ .map entries

/-- The tag belongs into the map of the payload, and the only item of the payload is encoded to
something else. -/
def LacksMap (types : TypeMap Text) (room : Nat) (bs : List (Text × TypeIdent))
    (encoding : Encoding Text) (carried : TypeDef Text) (v : Value) : Prop :=
  ∃ tag item w, encoding = .internal tag ∧ carried = .tuple [item]
    ∧ toWire types room v (item.substitute bs) = .ok w ∧ ∀ entries, w ≠ .map entries

theorem payloadToWire_of_le (h : payloadToWire types room v variant bs = .ok p)
    (hmore : room ≤ more) : payloadToWire types more v variant bs = .ok p :=
  (encoding_more (.payload variant bs) v hmore).ok h

theorem payloadToWire_item {item : TypeIdent} (hpayload : variant.payload = .tuple [item])
    (h : toWire types room v (item.substitute bs) = .ok p) :
    payloadToWire types (room + 1) v variant bs = .ok p := by
  rw [payloadToWire, hpayload]
  exact h

/-- Several items are encoded as a tuple, and so are none. -/
theorem payloadToWire_tuple {items : List TypeIdent} (hpayload : variant.payload = .tuple items)
    (hmany : items.length ≠ 1) :
    payloadToWire types (room + 1) v variant bs
      = tupleToWire types room v (items.map (·.substitute bs)) ⟨variant.name, []⟩ := by
  rw [payloadToWire, hpayload]
  rcases items with _ | ⟨item, _ | ⟨second, rest⟩⟩
  · rfl
  · exact absurd rfl hmany
  · rfl

theorem payloadToWire_items {items : List TypeIdent} {given : List Value}
    (hpayload : variant.payload = .tuple items) (hmany : items.length ≠ 1)
    (hgiven : v.items? = some given)
    (h : List.Forall₂ (fun x type => ∃ w, toWire types room x (type.substitute bs) = .ok w)
      given items) :
    ∃ ws, payloadToWire types (room + 3) v variant bs = .ok (.list ws) := by
  have hpairs : List.Forall₂ (fun x type => ∃ w, toWire types room x type = .ok w) given
      (items.map (·.substitute bs)) := List.forall₂_map_right_iff.mpr h
  obtain ⟨hlength, hzip⟩ := List.forall₂_iff_zip.mp hpairs
  obtain ⟨ws, hws⟩ : ∃ ws, (given.zip (items.map (·.substitute bs))).mapM
      (fun x => toWire types room x.1 x.2) = .ok ws := exists_mapM fun x hx => hzip hx
  refine ⟨ws, ?_⟩
  rw [payloadToWire_tuple hpayload hmany, tupleToWire, hgiven]
  dsimp only
  rw [if_pos hlength, eachToWire]
  exact bind_eq_ok.mpr ⟨ws, hws, rfl⟩

theorem payloadToWire_fields {name : Text} {generics doc : List Text}
    {fields : List (Field Text)} {entries : Entries}
    (hpayload : variant.payload = .struct name generics fields doc)
    (hkeys : (fields.map fun f => fieldWireKey f.name).Nodup)
    (h : Fits types room fields bs entries) :
    ∃ out, payloadToWire types (room + 2) (.map entries) variant bs = .ok (.map out) := by
  have hpresent : (presentKeys types bs entries fields).Nodup :=
    hkeys.sublist (List.filter_sublist.map _)
  obtain ⟨w, hw⟩ : ∃ w, structToWire types (room + 1) (.map entries) name fields bs = .ok w :=
    structToWire_ok_iff.mpr ⟨entries, rfl, h, hpresent⟩
  have hrun : payloadToWire types (room + 2) (.map entries) variant bs = .ok w :=
    (Place.TakesFields.variant hpayload).run_encoding.trans hw
  rw [structToWire_map h.known] at hw
  obtain ⟨out, -, heq⟩ := bind_eq_ok.mp hw
  cases heq
  exact ⟨out, hrun⟩

/-- **What a variant carries is encoded if its parts are.** There is a map for the tag unless
the encoding lacks one. -/
theorem PartsEncode.exists_payload (h : PartsEncode types room bs variant.payload v)
    (hkeys : ∀ name generics fields doc, variant.payload = .struct name generics fields doc →
      (fields.map fun f => fieldWireKey f.name).Nodup)
    (hsingle : ∀ tag items, encoding = .internal tag → variant.payload = .tuple items →
      items.length = 1) :
    ∃ p, payloadToWire types (room + 3) v variant bs = .ok p
      ∧ (LacksMap types room bs encoding variant.payload v ↔ Untaggable encoding variant p) := by
  unfold Untaggable
  generalize hpayload : variant.payload = carried at h
  cases h with
  | unit =>
    refine ⟨.null, payloadToWire_unit (by rw [hpayload]; rfl) (Nat.lt_succ_self _), ?_⟩
    exact iff_of_false (fun ⟨_, _, _, _, heq, _⟩ => nomatch heq)
      fun ⟨_, _, hunit, _⟩ => nomatch hunit
  | @item type _ w hw =>
    refine ⟨w, payloadToWire_of_le (payloadToWire_item hpayload hw) (by omega), ?_, ?_⟩
    · rintro ⟨tag, item, w', htag, heq, hw', hmap⟩
      cases heq
      cases hw.symm.trans hw'
      exact ⟨tag, htag, rfl, hmap⟩
    · rintro ⟨tag, htag, -, hmap⟩
      exact ⟨tag, type, w, htag, rfl, hw, hmap⟩
  | @items items _ given hmany hgiven hitems =>
    obtain ⟨ws, hws⟩ := payloadToWire_items hpayload hmany hgiven hitems
    have htag : ∀ tag, encoding ≠ .internal tag :=
      fun tag htag => hmany (hsingle tag items htag hpayload)
    exact ⟨.list ws, hws, iff_of_false (fun ⟨tag, _, _, heq, _⟩ => htag tag heq)
      fun ⟨tag, heq, _⟩ => htag tag heq⟩
  | @fields name generics doc fields entries hfits =>
    obtain ⟨out, hout⟩ := payloadToWire_fields hpayload (hkeys _ _ _ _ hpayload) hfits
    refine ⟨.map out, payloadToWire_of_le hout (by omega), ?_⟩
    exact iff_of_false (fun ⟨_, _, _, _, heq, _⟩ => nomatch heq)
      fun ⟨_, _, _, hmap⟩ => hmap out rfl

/-- **A payload is wrapped unless it cannot be tagged.** -/
theorem wrapVariant_cases (room : Nat) (enum key : Text) (encoding : Encoding Text)
    (variant : Variant Text) (p : Value) :
    (∃ w, wrapVariant room enum encoding variant key p = .ok w)
        ∧ ¬Untaggable encoding variant p
      ∨ wrapVariant room enum encoding variant key p
          = .error (.wire (.payloadNotMap enum variant.name))
        ∧ Untaggable encoding variant p := by
  unfold wrapVariant Untaggable
  cases encoding with
  | internal tag =>
    cases hunit : variant.payload.isUnit with
    | true => exact .inl ⟨⟨_, rfl⟩, fun ⟨_, _, heq, _⟩ => nomatch heq⟩
    | false =>
      cases p with
      | map entries => exact .inl ⟨⟨_, rfl⟩, fun ⟨_, _, _, hmap⟩ => hmap entries rfl⟩
      | _ => exact .inr ⟨rfl, tag, rfl, rfl, nofun⟩
  | _ => exact .inl ⟨⟨_, rfl⟩, fun ⟨_, heq, _⟩ => nomatch heq⟩

/-! ## What can be encoded -/

/--
**An enum that a target accepts can be encoded, but for a tag that lacks a map.** Take an enum
that an interface declares and that one of the targets accepts, with an argument for each of its
parameters, and a variant of it with a payload whose parts are encoded with some room.

* With five more calls, or with any number above that, the variant is encoded to the same,
  and with fewer either to that or not at all, as there is no room.
* It can be encoded exactly if the tag does not lack a map to be put into.
* If it does, the error says so.
-/
theorem accepted_enum_encodes {i : Interface Text} {settings : Settings} {t : Target}
    {files : List (Text × Text)} {declared : List (TypeDef Text)} {name : Text}
    {generics : List Text} {variants : List (Variant Text)} {options : EnumOptions Text}
    {doc : List Text} {args : List TypeIdent}
    (hfiles : (i.source settings).files t = .ok files)
    (hdeclared : (i.source settings).declared = .ok declared)
    (henum : .enum name generics variants options doc ∈ declared) (hvariant : variant ∈ variants)
    (hargs : args.length = generics.length)
    (hparts : PartsEncode (i.source settings).types room (bindings generics ⟨name, args⟩)
      variant.payload v) :
    let types := (i.source settings).types
    let run := fun more => toWire types more (.variant variant.name v) ⟨name, args⟩
    let lacksMap := LacksMap types room (bindings generics ⟨name, args⟩) options.encoding
      variant.payload v
    (∀ more, room + 5 ≤ more → run more = run (room + 5))
      ∧ (∀ more, CutShort .tooDeep (run more) (run (room + 5)))
      ∧ ((∃ w, run (room + 5) = .ok w) ↔ ¬lacksMap)
      ∧ (lacksMap → run (room + 5) = .error (.wire (.payloadNotMap name variant.name))) := by
  intro types run lacksMap
  obtain ⟨target, hnames⟩ := checkNames_of_files hfiles
  have hchecked := checked_of_checkNames hnames hdeclared henum
  have hresolve : types.resolve ⟨name, args⟩ = .ok (.enum name generics variants options doc) :=
    resolve_of_find? (find?_of_declared hdeclared henum rfl) nofun hargs
  obtain ⟨p, hp, hlacks⟩ := hparts.exists_payload
    (fun _ _ _ _ hpayload => nodup_payloadWireKeys hchecked hvariant hpayload)
    (fun tag items (hencoding : options.encoding = .internal tag) hpayload =>
      single_item_of_files hfiles hdeclared henum hvariant hencoding hpayload)
  have hrun : run (room + 5) = wrapVariant (room + 3) name options.encoding variant
      (variantWireKey variant.name options.variantCasing) p :=
    toWire_variant hresolve (find?_name_of_nodup (nodup_variantWireKeys hchecked) hvariant) hp
  have hcases := wrapVariant_cases (room + 3) name
    (variantWireKey variant.name options.variantCasing) options.encoding variant p
  rw [← hrun, ← hlacks] at hcases
  -- there is room enough for the one outcome as for the other
  have hroom : run (room + 5) ≠ .error .tooDeep := by
    rcases hcases with ⟨⟨w, hw⟩, -⟩ | ⟨herror, -⟩
    · rw [hw]
      nofun
    · rw [herror]
      nofun
  have hmore : ∀ more, room + 5 ≤ more → run more = run (room + 5) := fun more hle =>
    ((encoding_more (.type ⟨name, args⟩) _ hle).resolve_left hroom).symm
  have hcut : ∀ more, CutShort .tooDeep (run more) (run (room + 5)) := by
    intro more
    rcases Nat.le_total more (room + 5) with hle | hle
    · exact encoding_more (.type ⟨name, args⟩) _ hle
    · exact .inr (hmore more hle)
  refine ⟨hmore, hcut, ?_⟩
  rcases hcases with ⟨hw, hnot⟩ | ⟨herror, hlack⟩
  · exact ⟨iff_of_true hw hnot, fun hlack => absurd hlack hnot⟩
  · refine ⟨iff_of_false (fun ⟨w, hw⟩ => ?_) (not_not_intro hlack), fun _ => herror⟩
    cases hw.symm.trans herror

namespace Replies

def done : Variant Text := .mk "Done" (.tuple [⟨"()", []⟩]) []

def found : Variant Text := .mk "Found" (.tuple [⟨"T", []⟩]) []

/-- A reply is told apart by its kind, which stands in what it is about. -/
def reply : TypeDef Text := .enum "Reply" ["T"] [done, found] { tag := some "kind" } []

def source : BindingSource Text := (⟨.empty, .empty, [reply], []⟩ : Interface Text).source {}

theorem accepted : ∃ files declared, source.files .rustPlugin = .ok files
    ∧ source.declared = .ok declared ∧ reply ∈ declared := by
  obtain ⟨files, hfiles⟩ := exists_of_isOk
    (show (source.files .rustPlugin).isOk = true by decide +kernel)
  obtain ⟨declared, hdeclared⟩ := exists_of_isOk
    (show source.declared.isOk = true by decide +kernel)
  exact ⟨files, declared, hfiles, hdeclared,
    mem_declared hdeclared (show source.types.find? "Reply" = some reply by rfl) rfl⟩

/-- What a reply is about, where it is about a value of some type. -/
theorem partsEncode {type : TypeIdent} {v w : Value} (h : toWire source.types 3 v type = .ok w) :
    PartsEncode source.types 3 (bindings ["T"] ⟨"Reply", [type]⟩) found.payload v :=
  .item h

/-- Numbers by their names. -/
def numbers : TypeIdent := ⟨"HashMap", [⟨"String", []⟩, ⟨"u16", []⟩]⟩

end Replies

open Replies in
/-- A reply about a map is encoded, and one about a number is refused. -/
theorem accepted_enum_encodes_reply :
    (∃ w, toWire source.types 8 (.variant "Found" (.map [(.str "code", .int 404)]))
        ⟨"Reply", [numbers]⟩ = .ok w)
      ∧ toWire source.types 8 (.variant "Found" (.int 404)) ⟨"Reply", [⟨"u16", []⟩]⟩
        = .error (.wire (.payloadNotMap "Reply" "Found")) := by
  obtain ⟨files, declared, hfiles, hdeclared, hreply⟩ := accepted
  have hfound : found ∈ [done, found] := List.mem_cons_of_mem _ List.mem_cons_self
  constructor
  · have hmap : toWire source.types 3 (.map [(.str "code", .int 404)]) numbers
        = .ok (.map [(.str "code", .int 404)]) := by rfl
    obtain ⟨-, -, hiff, -⟩ :=
      accepted_enum_encodes hfiles hdeclared hreply hfound rfl (partsEncode hmap)
    refine hiff.mpr fun ⟨tag, item, w, _, hitem, hw, hnomap⟩ => ?_
    cases hitem
    cases hw.symm.trans hmap
    exact hnomap _ rfl
  · have hint : toWire source.types 3 (.int 404) ⟨"u16", []⟩ = .ok (.int 404) := by rfl
    obtain ⟨-, -, -, herror⟩ :=
      accepted_enum_encodes hfiles hdeclared hreply hfound rfl (partsEncode hint)
    exact herror ⟨"kind", ⟨"T", []⟩, .int 404, rfl, rfl, hint, nofun⟩

open Replies in
/-- Nothing at all is encoded by itself, and a reply that is done is not: with the same room it is
too deep, and with more it lacks a map. -/
theorem done_lacks_map :
    ∃ files declared, source.files .rustPlugin = .ok files
      ∧ source.declared = .ok declared ∧ reply ∈ declared
      ∧ toWire source.types 1 .null ⟨"()", []⟩ = .ok .null
      ∧ toWire source.types 1 (.variant "Done" .null) ⟨"Reply", [⟨"u8", []⟩]⟩ = .error .tooDeep
      ∧ toWire source.types callRoom (.variant "Done" .null) ⟨"Reply", [⟨"u8", []⟩]⟩
        = .error (.wire (.payloadNotMap "Reply" "Done")) := by
  obtain ⟨files, declared, hfiles, hdeclared, hreply⟩ := accepted
  exact ⟨files, declared, hfiles, hdeclared, hreply, rfl, rfl, rfl⟩

end WasmBridge
