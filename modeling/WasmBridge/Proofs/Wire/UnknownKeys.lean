import WasmBridge.Proofs.Wire.SentAgain
import WasmBridge.Proofs.Wire.SharedKeys
import WasmBridge.Proofs.Wire.Termination

/-!
# Keys that are not declared

A struct asks a map for the wire keys of its fields, one after the other, an enum with a tag
for its tag first and then for what its variant needs. Nothing else of the map is looked at.
So two maps that have the same under the declared keys are decoded to the same value, or are
refused with the same error, in whatever order their entries stand and whatever else there is
in them.

An enum whose tag stands beside the fields takes the tag out before it looks for them. Then
the rest of two maps is still the same under the keys of the fields, also where a field goes
by the name of the tag: neither map has one.
-/

namespace WasmBridge

open Outcome Relation

variable {types : TypeMap Text} {room : Nat} {a b : Entries} {keys : List Text} {tag key : Text}
  {name : Text} {fields : List (Field Text)} {bs : List (Text × TypeIdent)}

/-! ## Declared keys -/

/-- Two maps have the same under some keys. -/
def SameUnder (keys : List Text) (a b : Entries) : Prop :=
  ∀ key ∈ keys, a.findName? key = b.findName? key

/-- The wire keys of some fields. -/
def fieldKeys (fields : List (Field Text)) : List Text := fields.map fun f => fieldWireKey f.name

/-- The keys that the payload of a variant has beside a tag. -/
def TypeDef.payloadKeys : TypeDef Text → List Text
  | .struct _ _ fields _ => fieldKeys fields
  | _ => []

/-- A type is decoded from maps by the keys that it declares. -/
inductive TypeDef.KeyedBy : TypeDef Text → List Text → Prop where
  | struct {name : Text} {generics doc : List Text} {fields : List (Field Text)} :
      KeyedBy (.struct name generics fields doc) (fieldKeys fields)
  | adjacent {enum tag content : Text} {generics doc : List Text} {variants : List (Variant Text)}
      {options : EnumOptions Text} (h : options.encoding = .adjacent tag content) :
      KeyedBy (.enum enum generics variants options doc) [tag, content]
  | internal {enum tag : Text} {generics doc : List Text} {variants : List (Variant Text)}
      {options : EnumOptions Text} (h : options.encoding = .internal tag)
      (hvariants : ∀ variant ∈ variants, variant.payload.isUnit = true
        ∨ ∃ name generics fields doc, variant.payload = .struct name generics fields doc) :
      KeyedBy (.enum enum generics variants options doc)
        (tag :: variants.flatMap fun variant => variant.payload.payloadKeys)

theorem SameUnder.mono {more : List Text} (h : SameUnder more a b)
    (hsub : ∀ key ∈ keys, key ∈ more) : SameUnder keys a b :=
  fun key hmem => h key (hsub key hmem)

theorem Entries.findName?_withoutName_ne {entries : Entries} (hother : key ≠ tag) :
    (entries.withoutName tag).findName? key = entries.findName? key := by
  induction entries with
  | nil => rfl
  | cons e rest ih =>
    rw [withoutName_cons]
    by_cases hname : e.1.isName tag = true
    · have hne : e.1 ≠ .str key := by
        rw [Value.isName_iff.mp hname]
        exact fun heq => hother (Value.str.inj heq).symm
      rw [if_pos hname, findName?_tail hne, ih]
    · rw [if_neg hname, findName?, findName?, ih]

/-- What is left without the tag is the same under the other keys, and under the tag there is
nothing left. -/
theorem SameUnder.withoutName (h : SameUnder keys a b) :
    SameUnder keys (a.withoutName tag) (b.withoutName tag) := by
  intro key hmem
  by_cases htag : key = tag
  · rw [htag, findName?_withoutName, findName?_withoutName]
  · rw [Entries.findName?_withoutName_ne htag, Entries.findName?_withoutName_ne htag, h key hmem]

/-! ## What is looked up -/

theorem restoreFields_congr (h : SameUnder (fieldKeys fields) a b) (stored : Entries) :
    fields.foldlM (restoreField types room name bs a) stored
      = fields.foldlM (restoreField types room name bs b) stored := by
  induction fields generalizing stored with
  | nil => rfl
  | cons f rest ih =>
    have hfield : restoreField types room name bs a stored f
        = restoreField types room name bs b stored f := by
      unfold restoreField
      dsimp only
      rw [h _ List.mem_cons_self]
    have hrest : SameUnder (fieldKeys rest) a b := h.mono fun _ => List.mem_cons_of_mem _
    rw [List.foldlM_cons, List.foldlM_cons, hfield]
    exact congrArg _ (funext (ih hrest))

/-- A struct looks for its fields alone. -/
theorem structFromWire_congr (h : SameUnder (fieldKeys fields) a b) :
    structFromWire types room (.map a) name fields bs
      = structFromWire types room (.map b) name fields bs := by
  cases room with
  | zero => rfl
  | succ room =>
    have hfields : fields.foldlM (restoreField types room name bs a) []
        = fields.foldlM (restoreField types room name bs b) [] := restoreFields_congr h []
    unfold structFromWire
    exact congrArg (fun read => read >>= fun out => Except.ok (Value.map out)) hfields

theorem payloadFromWire_congr {variant : Variant Text} {generics doc : List Text}
    (hpayload : variant.payload = .struct name generics fields doc)
    (h : SameUnder (fieldKeys fields) a b) :
    payloadFromWire types room (.map a) variant bs
      = payloadFromWire types room (.map b) variant bs := by
  cases room with
  | zero => rfl
  | succ room =>
    unfold payloadFromWire
    rw [hpayload]
    exact structFromWire_congr h

section Enums

variable {ident : TypeIdent} {enum content : Text} {variants : List (Variant Text)}
  {options : EnumOptions Text}

/-- An enum with its content beside the tag looks for the two alone. -/
theorem enumFromWire_adjacent_congr (hencoding : options.encoding = .adjacent tag content)
    (h : SameUnder [tag, content] a b) :
    enumFromWire types room (.map a) ident enum variants options bs
      = enumFromWire types room (.map b) ident enum variants options bs := by
  have htag : a.findName? tag = b.findName? tag := h tag List.mem_cons_self
  have hcontent : a.findName? content = b.findName? content :=
    h content (List.mem_cons_of_mem _ List.mem_cons_self)
  cases room with
  | zero => rfl
  | succ room =>
    unfold enumFromWire
    rw [hencoding]
    dsimp only
    rw [htag, hcontent]

/-- An enum with its fields beside the tag looks for the tag and for the fields of the variant. -/
theorem enumFromWire_internal_congr (hencoding : options.encoding = .internal tag)
    (hvariants : ∀ variant ∈ variants, variant.payload.isUnit = true
      ∨ ∃ name generics fields doc, variant.payload = .struct name generics fields doc)
    (h : SameUnder (tag :: variants.flatMap fun variant => variant.payload.payloadKeys) a b) :
    enumFromWire types room (.map a) ident enum variants options bs
      = enumFromWire types room (.map b) ident enum variants options bs := by
  have htag : a.findName? tag = b.findName? tag := h tag List.mem_cons_self
  have hpayload : ∀ r, ∀ variant ∈ variants, variant.payload.isUnit = false →
      payloadFromWire types r (.map (a.withoutName tag)) variant bs
        = payloadFromWire types r (.map (b.withoutName tag)) variant bs := by
    intro r variant hmem hunit
    rcases hvariants variant hmem with hisUnit | ⟨name, generics, fields, doc, hstruct⟩
    · rw [hunit] at hisUnit
      cases hisUnit
    · have hfields : SameUnder (fieldKeys fields) a b := by
        refine h.mono fun key hkey => List.mem_cons_of_mem _ ?_
        refine List.mem_flatMap.mpr ⟨variant, hmem, ?_⟩
        rw [hstruct]
        exact hkey
      exact payloadFromWire_congr hstruct hfields.withoutName
  cases room with
  | zero => rfl
  | succ room =>
    unfold enumFromWire
    rw [hencoding]
    dsimp only
    rw [htag]
    cases b.findName? tag with
    | none => rfl
    | some carried =>
      dsimp only
      cases hfind : findWireVariant room enum variants options.variantCasing carried with
      | error e => rfl
      | ok variant =>
        rw [bind_ok, bind_ok]
        -- a unit is told by the tag alone; before anything else is looked for the tag is taken out
        by_cases hunit : variant.payload.isUnit = true
        · rw [if_pos hunit, if_pos hunit]
        · have hmem := (findWireVariant_eq_ok hfind).1
          rw [if_neg hunit, if_neg hunit, hpayload room variant hmem (by simpa using hunit)]

end Enums

/-- A type that is keyed looks for the keys that it declares. -/
theorem TypeDef.KeyedBy.fromWire_congr {type : TypeDef Text} {ident : TypeIdent}
    (hkeyed : type.KeyedBy keys) (hresolve : types.resolve ident = .ok type)
    (h : SameUnder keys a b) :
    fromWire types room (.map a) ident = fromWire types room (.map b) ident := by
  cases room with
  | zero => rfl
  | succ room =>
    cases hkeyed with
    | struct =>
      have hplace : (Place.type ident).TakesFields types _ _ _ := .struct hresolve
      exact hplace.run_decoding.trans ((structFromWire_congr h).trans hplace.run_decoding.symm)
    | adjacent hencoding =>
      rw [fromWire_enum hresolve, fromWire_enum hresolve]
      exact enumFromWire_adjacent_congr hencoding h
    | internal hencoding hvariants =>
      rw [fromWire_enum hresolve, fromWire_enum hresolve]
      exact enumFromWire_internal_congr hencoding hvariants h

/--
**Decoding does not see order and unknown keys.** Let an ident stand for a struct, for an
enum with its content beside the tag, or for one with a tag in which all variants are units
or have fields; or let it stand for an alias or an option that leads there. Then two maps
that have the same under the keys that the type declares come to the same, be it a value or
an error, whatever room there is.
-/
theorem declared_keys_decide {type : TypeDef Text} {ident keyed : TypeIdent}
    (hleads : ReflTransGen (Place.PassesOn types) (.type ident) (.type keyed))
    (hresolve : types.resolve keyed = .ok type) (hkeyed : type.KeyedBy keys)
    (h : SameUnder keys a b) (room : Nat) :
    fromWire types room (.map a) ident = fromWire types room (.map b) ident := by
  have hrun : ∀ place, ReflTransGen (Place.PassesOn types) place (.type keyed) → ∀ room,
      Direction.decoding.run types room (.map a) place
        = Direction.decoding.run types room (.map b) place := by
    intro place hleads
    -- along the chain both maps are handed on, with one call less for each step
    induction hleads using ReflTransGen.head_induction_on with
    | refl => exact fun room => hkeyed.fromWire_congr hresolve h
    | @head place next hpasses _ ih =>
      intro room
      cases room with
      | zero => rw [run_zero, run_zero]
      | succ room =>
        have hthere : ∀ entries : Entries, ¬(Value.map entries).isNull = true :=
          fun _ => Bool.false_ne_true
        rw [run_passed hpasses (hthere a), run_passed hpasses (hthere b), ih room]
  exact hrun (.type ident) hleads room

/-! ## A map from a later version -/

namespace Notices

/-- An event has a name and perhaps a size. -/
def named : Variant Text := .mk "Named" (.struct "Named" [] [
  { name := "file_name", type := ⟨"String", []⟩ },
  { name := "size", type := ⟨"Option", [⟨"u32", []⟩]⟩ }] []) []

def closed : Variant Text := .mk "Closed" (.unit "()") []

def event : TypeDef Text := .enum "Event" [] [named, closed] { tag := some "type" } []

/-- There may be an event in a notice. -/
def known : TypeMap Text := .ofTypes [.synonym "Notice" ⟨"Option", [⟨"Event", []⟩]⟩, event]

/-- The keys of an event: its tag and the wire keys of its fields. -/
def declared : List Text := ["type", "fileName", "size"]

theorem keyedBy : event.KeyedBy declared := by
  have hkeys : declared
      = ("type" : Text) :: [named, closed].flatMap fun variant => variant.payload.payloadKeys := by
    decide +kernel
  rw [hkeys]
  refine .internal rfl fun variant hmem => ?_
  rcases List.mem_pair.mp hmem with rfl | rfl
  · exact .inr ⟨_, _, _, _, rfl⟩
  · exact .inl rfl

/-- A notice is an alias of an option, and that holds an event. -/
theorem leads :
    ReflTransGen (Place.PassesOn known) (.type ⟨"Notice", []⟩) (.type ⟨"Event", []⟩) := by
  have halias : known.resolve ⟨"Notice", []⟩
      = .ok (.synonym "Notice" ⟨"Option", [⟨"Event", []⟩]⟩) := by rfl
  have hoption : known.resolve ⟨"Option", [⟨"Event", []⟩]⟩
      = .ok (.container "Option" ⟨"T", []⟩) := by rfl
  exact .tail (.single (.synonym halias)) (.optional hoption)

/-- A notice that was sent by this version. -/
def sent : Entries := [(.str "type", .str "Named"), (.str "fileName", .str "a")]

/-- The same with a key of which this version knows nothing, and with the tag at the end. -/
def later : Entries :=
  [(.str "owner", .list [.int 1]), (.str "fileName", .str "a"), (.str "type", .str "Named")]

end Notices

/-- A notice from a later version is decoded to what it is without the new key. -/
theorem declared_keys_decide_later :
    Notices.known.resolve ⟨"Event", []⟩ = .ok Notices.event
      ∧ Notices.event.KeyedBy Notices.declared
      ∧ SameUnder Notices.declared Notices.sent Notices.later
      ∧ (∀ room, fromWire Notices.known room (.map Notices.sent) ⟨"Notice", []⟩
          = fromWire Notices.known room (.map Notices.later) ⟨"Notice", []⟩)
      ∧ fromWire Notices.known callRoom (.map Notices.later) ⟨"Notice", []⟩
        = .ok (.variant "Named" (.map [(.str "file_name", .str "a"), (.str "size", .null)])) := by
  have hresolve : Notices.known.resolve ⟨"Event", []⟩ = .ok Notices.event := by rfl
  have hsame : SameUnder Notices.declared Notices.sent Notices.later := by
    intro key hmem
    simp only [Notices.declared, List.mem_cons, List.not_mem_nil, or_false] at hmem
    rcases hmem with rfl | rfl | rfl <;> rfl
  exact ⟨hresolve, Notices.keyedBy, hsame,
    declared_keys_decide Notices.leads hresolve Notices.keyedBy hsame, by rfl⟩

end WasmBridge
