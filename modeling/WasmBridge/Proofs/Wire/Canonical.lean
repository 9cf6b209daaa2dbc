import Mathlib.Data.List.Basic
import Mathlib.Logic.Relation
import WasmBridge.Wire.Encode

/-!
# Canonical forms

What a value should look like once it has been to the other side and back. A value
takes a *slot*: it stands for a type, for the items of a tuple, for the fields of a
struct, for one of these fields, or for the payload of a variant. In its slot it is
either a whole, whose canonical form is known at once, or it is made of parts that
take slots of their own, and its canonical form is made of theirs in a given way.
`shape?` says which, and is all there is to the definition: absent options become
null, sequences become lists or tuples as their type says, integers become floats
where floats are expected, and nothing else changes.

Nothing here mentions the wire.
-/

namespace WasmBridge

/-- What a value stands for. -/
inductive Slot where
  | type (ident : TypeIdent)
  /-- The items of a tuple, of one type each. -/
  | items (idents : List TypeIdent)
  /-- The fields of a struct, whose parameters are bound. -/
  | fields (fields : List (Field Text)) (bindings : List (Text × TypeIdent))
  /-- One field of a struct; an absent option is null here. -/
  | member (ident : TypeIdent)
  | payload (variant : Variant Text) (bindings : List (Text × TypeIdent))

/-- How a value in a slot is made up. -/
inductive Shape where
  /-- The value has no parts, and this is its canonical form. -/
  | whole (form : Value)
  /-- The value is what a variant without payload carries all the same. -/
  | unused (value : Value)
  /-- The value has parts, and its canonical form is built from theirs. -/
  | made (parts : List (Slot × Value)) (build : List Value → Value)

/-- A value that stands for something else as a whole. -/
def Shape.one (slot : Slot) (value : Value) : Shape :=
  .made [(slot, value)] fun forms => forms.headD .null

/-- How a value is made up that stands for a type with that definition. -/
def shapeOf? (ident : TypeIdent) (value : Value) : TypeDef Text → Option Shape
  | .primitive p =>
    match p.isFloat, value with
    | true, .int n => (Binary64.ofInt? n).map fun x => .whole (.float x)
    | _, value => some (.whole value)
  | .string _ | .unit _ | .custom .. => some (.whole value)
  | .synonym _ aliased => some (.one (.type aliased) value)
  | .container .. =>
    some (if value.isNull then .whole .null else .one (.type (ident.args.headD default)) value)
  | .list .. =>
    value.items?.map fun items =>
      .made (items.map fun item => (.type (ident.args.headD default), item)) .list
  | .map .. =>
    match value with
    | .map entries => some (.made
        (entries.map fun e => (.type ((ident.args.drop 1).headD default), e.2))
        fun forms => .map ((entries.map (·.1)).zip forms))
    | _ => none
  | .tuple items => some (.one (.items items) value)
  | .struct _ generics fields _ => some (.one (.fields fields (bindings generics ident)) value)
  | .enum _ generics variants _ _ =>
    match value with
    | .variant name payload =>
      (variants.find? (·.name == name)).map fun variant =>
        .made [(.payload variant (bindings generics ident), payload)]
          fun forms => .variant name (forms.headD .null)
    | _ => none
  | .generic _ => none

/-- How a value in a slot is made up, if it fits the slot at all. -/
def shape? (types : TypeMap Text) : Slot → Value → Option Shape
  | .type ident, value =>
    match types.resolve ident with
    | .ok type => shapeOf? ident value type
    | .error _ => none
  | .items idents, value =>
    value.items?.bind fun items =>
      if items.length = idents.length then
        some (.made ((items.zip idents).map fun (item, ident) => (.type ident, item)) .tuple)
      else none
  | .fields fields bindings, value =>
    match value with
    | .map entries => some (.made
        (fields.map fun f => (.member (f.type.substitute bindings),
          (Entries.findName? entries f.name).getD .null))
        fun forms => .map ((fields.map fun f => .str f.name).zip forms))
    | _ => none
  | .member ident, value =>
    some (if value.isNull && types.isOptional ident then .whole .null
      else .one (.type ident) value)
  | .payload variant bindings, value =>
    match variant.payload with
    | .unit _ => some (.unused value)
    | .struct _ _ fields _ => some (.one (.fields fields bindings) value)
    | .tuple [item] => some (.one (.type (item.substitute bindings)) value)
    | .tuple items => some (.one (.items (items.map (·.substitute bindings))) value)
    | _ => none

/--
`CanonicalForm types units slot v c`: the canonical form of `v` in a slot is `c`,
where `units` says what becomes of a payload at a variant that has none.
-/
inductive CanonicalForm (types : TypeMap Text) (units : Value → Value) :
    Slot → Value → Value → Prop where
  | whole {slot : Slot} {v c : Value} (h : shape? types slot v = some (.whole c)) :
      CanonicalForm types units slot v c
  | unused {slot : Slot} {v x : Value} (h : shape? types slot v = some (.unused x)) :
      CanonicalForm types units slot v (units x)
  | made {slot : Slot} {v : Value} {parts : List (Slot × Value)} {build : List Value → Value}
      {forms : List Value} (h : shape? types slot v = some (.made parts build))
      (hlength : parts.length = forms.length)
      (hforms : ∀ p ∈ parts.zip forms, CanonicalForm types units p.1.1 p.1.2 p.2) :
      CanonicalForm types units slot v (build forms)

variable {types : TypeMap Text} {units : Value → Value} {slot : Slot} {v c : Value}

theorem CanonicalForm.one {part : Slot} {u : Value} (h : shape? types slot v = some (.one part u))
    (hc : CanonicalForm types units part u c) : CanonicalForm types units slot v c :=
  have hforms : ∀ p ∈ [(part, u)].zip [c], CanonicalForm types units p.1.1 p.1.2 p.2 := by
    simpa using hc
  .made h rfl hforms

/-! ## There is only one -/

/-- In lists of the same length each member has a counterpart. -/
theorem exists_mem_zip {α β : Type} {xs : List α} {ys : List β} (hlength : xs.length = ys.length)
    {x : α} (hx : x ∈ xs) : ∃ y, (x, y) ∈ xs.zip ys := by
  obtain ⟨i, hi, rfl⟩ := List.getElem_of_mem hx
  exact ⟨ys[i], List.mem_iff_getElem.mpr ⟨i, by simp; omega, by simp⟩⟩

/-- Forms that belong to the same parts are the same, if each of them is the only one. -/
theorem forms_unique {parts : List (Slot × Value)} {R : Slot → Value → Value → Prop} :
    ∀ {forms forms' : List Value}, parts.length = forms.length → parts.length = forms'.length →
      (∀ p ∈ parts.zip forms, ∀ c, R p.1.1 p.1.2 c → p.2 = c) →
      (∀ p ∈ parts.zip forms', R p.1.1 p.1.2 p.2) → forms = forms' := by
  induction parts with
  | nil =>
    intro forms forms' h h' _ _
    rw [List.eq_nil_of_length_eq_zero h.symm, List.eq_nil_of_length_eq_zero h'.symm]
  | cons part parts ih =>
    intro forms forms' h h' honly hforms
    cases forms with
    | nil => cases h
    | cons c cs =>
      cases forms' with
      | nil => cases h'
      | cons c' cs' =>
        have hhead : c = c' := honly ((part), c) List.mem_cons_self c'
          (hforms (part, c') List.mem_cons_self)
        rw [hhead, ih (Nat.succ.inj h) (Nat.succ.inj h')
          (fun p hp => honly p (List.mem_cons_of_mem _ hp))
          (fun p hp => hforms p (List.mem_cons_of_mem _ hp))]

/-- **A value has one canonical form.** -/
theorem CanonicalForm.unique (h : CanonicalForm types units slot v c) :
    ∀ {c' : Value}, CanonicalForm types units slot v c' → c = c' := by
  induction h with
  | whole h =>
    intro c' h'
    cases h' with
    | whole h' => rw [h] at h'; cases h'; rfl
    | unused h' => rw [h] at h'; cases h'
    | made h' => rw [h] at h'; cases h'
  | unused h =>
    intro c' h'
    cases h' with
    | whole h' => rw [h] at h'; cases h'
    | unused h' => rw [h] at h'; cases h'; rfl
    | made h' => rw [h] at h'; cases h'
  | made h hlength _ ih =>
    intro c' h'
    cases h' with
    | whole h' => rw [h] at h'; cases h'
    | unused h' => rw [h] at h'; cases h'
    | made h' hlength' hforms' =>
      rw [h] at h'
      cases h'
      rw [forms_unique hlength hlength' (fun p hp c hc => ih p hp hc) hforms']

/-! ## What a value visits -/

/-- One value is a part of another one, each in its slot. -/
def Part (types : TypeMap Text) (a b : Slot × Value) : Prop :=
  ∃ parts build, shape? types a.1 a.2 = some (.made parts build) ∧ b ∈ parts

/-- One value is found somewhere in another one, each in its slot. -/
def Visits (types : TypeMap Text) (a b : Slot × Value) : Prop :=
  Relation.ReflTransGen (Part types) a b

/-- No variant without payload carries one. -/
def UnitsBare (types : TypeMap Text) (slot : Slot) (v : Value) : Prop :=
  ∀ s u x, Visits types (slot, v) (s, u) → shape? types s u = some (.unused x) → x = .null

theorem UnitsBare.part {s : Slot} {u : Value} (h : UnitsBare types slot v)
    (hpart : Part types (slot, v) (s, u)) : UnitsBare types s u :=
  fun s' u' x hvisits => h s' u' x (.head hpart hvisits)

/-- What a value visits is the value itself or is visited by one of its parts. -/
theorem Visits.cases {a b : Slot × Value} (h : Visits types a b) :
    a = b ∨ ∃ part, Part types a part ∧ Visits types part b := by
  rcases Relation.ReflTransGen.cases_head h with heq | ⟨part, hpart, hrest⟩
  · exact .inl heq
  · exact .inr ⟨part, hpart, hrest⟩

theorem unitsBare_made {parts : List (Slot × Value)} {build : List Value → Value}
    (h : shape? types slot v = some (.made parts build)) :
    UnitsBare types slot v ↔ ∀ part ∈ parts, UnitsBare types part.1 part.2 := by
  constructor
  · exact fun hbare part hpart => hbare.part ⟨parts, build, h, hpart⟩
  · intro hparts s u x hvisits hunused
    rcases hvisits.cases with heq | ⟨part, ⟨parts', build', h', hpart⟩, hrest⟩
    · cases heq
      rw [h] at hunused
      cases hunused
    · rw [h] at h'
      cases h'
      exact hparts part hpart s u x hrest hunused

/-! ## What becomes of payloads that have no place -/

/-- The forms of the parts can be told from what is built of them. -/
def Shape.Tells : Shape → Prop
  | .made parts build => ∀ forms forms' : List Value, forms.length = parts.length →
      forms'.length = parts.length → build forms = build forms' → forms = forms'
  | _ => True

theorem tells_single {part : Slot × Value} {wrap : Value → Value}
    (hwrap : ∀ c c', wrap c = wrap c' → c = c') :
    (Shape.made [part] fun forms => wrap (forms.headD .null)).Tells := by
  intro forms forms' h h' heq
  obtain ⟨c, rfl⟩ := List.length_eq_one_iff.mp h
  obtain ⟨c', rfl⟩ := List.length_eq_one_iff.mp h'
  rw [hwrap c c' heq]

theorem tells_one (part : Slot) (u : Value) : (Shape.one part u).Tells :=
  tells_single fun _ _ h => h

theorem tells_zip {parts : List (Slot × Value)} {keys : List Value}
    (hlength : keys.length = parts.length) :
    (Shape.made parts fun forms => .map (keys.zip forms)).Tells := by
  intro forms forms' h h' heq
  have hzip : keys.zip forms = keys.zip forms' := by injection heq
  have := congrArg (List.map Prod.snd) hzip
  rwa [List.map_snd_zip (by omega), List.map_snd_zip (by omega)] at this

theorem shapeOf?_tells {ident : TypeIdent} {type : TypeDef Text} {shape : Shape}
    (h : shapeOf? ident v type = some shape) : shape.Tells := by
  cases type with
  | primitive p =>
    simp only [shapeOf?] at h
    split at h
    · obtain ⟨_, _, rfl⟩ := Option.map_eq_some_iff.mp h; trivial
    · cases h; trivial
  | string name => cases h; trivial
  | unit name => cases h; trivial
  | custom name args rust typescript => cases h; trivial
  | synonym name aliased => cases h; exact tells_one _ _
  | container name inner =>
    cases h
    split
    · trivial
    · exact tells_one _ _
  | list name inner =>
    obtain ⟨items, _, rfl⟩ := Option.map_eq_some_iff.mp h
    intro forms forms' _ _ heq
    injection heq
  | map name key value =>
    simp only [shapeOf?] at h
    split at h
    · cases h; exact tells_zip (by simp)
    · cases h
  | tuple items => cases h; exact tells_one _ _
  | struct name generics fields doc => cases h; exact tells_one _ _
  | enum name generics variants options doc =>
    simp only [shapeOf?] at h
    split at h
    · obtain ⟨variant, _, rfl⟩ := Option.map_eq_some_iff.mp h
      exact tells_single fun c c' heq => by injection heq
    · cases h
  | generic name => cases h

theorem shape?_tells {shape : Shape} (h : shape? types slot v = some shape) : shape.Tells := by
  cases slot with
  | type ident =>
    simp only [shape?] at h
    split at h
    · exact shapeOf?_tells h
    · cases h
  | items idents =>
    obtain ⟨items, _, hsome⟩ := Option.bind_eq_some_iff.mp h
    split at hsome
    · cases hsome
      intro forms forms' _ _ heq
      injection heq
    · cases hsome
  | fields fields bs =>
    simp only [shape?] at h
    split at h
    · cases h; exact tells_zip (by simp)
    · cases h
  | member ident =>
    cases h
    split
    · trivial
    · exact tells_one _ _
  | payload variant bs =>
    simp only [shape?] at h
    split at h
    · cases h; trivial
    · cases h; exact tells_one _ _
    · cases h; exact tells_one _ _
    · cases h; exact tells_one _ _
    · cases h

/--
What is left of a value when payloads of variants that have none become null is its
canonical form exactly if there are no such payloads in it.
-/
theorem canonicalForm_iff_unitsBare (h : CanonicalForm types (fun _ => .null) slot v c) :
    CanonicalForm types id slot v c ↔ UnitsBare types slot v := by
  induction h with
  | whole h =>
    refine ⟨fun _ s u x hvisits hunused => ?_, fun _ => .whole h⟩
    rcases hvisits.cases with heq | ⟨part, ⟨parts, build, h', _⟩, _⟩
    · cases heq
      rw [h] at hunused
      cases hunused
    · rw [h] at h'; cases h'
  | @unused slot v x h =>
    constructor
    · intro hc s u x' hvisits hunused
      rcases hvisits.cases with heq | ⟨part, ⟨parts, build, h', _⟩, _⟩
      · cases heq
        rw [h] at hunused
        cases hunused
        have hself : CanonicalForm types id slot v (id x) := .unused h
        exact hself.unique hc
      · rw [h] at h'; cases h'
    · intro hbare
      have hx := hbare slot v x .refl h
      subst hx
      exact .unused h
  | @made slot v parts build forms h hlength _ ih =>
    rw [unitsBare_made h]
    constructor
    · intro hc part hpart
      obtain ⟨form, hform⟩ := exists_mem_zip hlength hpart
      refine (ih _ hform).mp ?_
      -- forms that are built into the same result are the same
      generalize hresult : build forms = result at hc
      cases hc with
      | whole h' => rw [h] at h'; cases h'
      | unused h' => rw [h] at h'; cases h'
      | made h' hlength' hforms' =>
        rw [h] at h'
        cases h'
        obtain rfl := shape?_tells h forms _ hlength.symm hlength'.symm hresult
        exact hforms' _ hform
    · intro hparts
      exact .made h hlength fun p hp => (ih p hp).mpr (hparts p.1 (List.of_mem_zip hp).1)

end WasmBridge
