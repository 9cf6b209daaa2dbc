import WasmBridge.Proofs.Wire.Canonical
import WasmBridge.Proofs.Wire.Entries
import WasmBridge.Wire.Decode

/-!
# What can be read again

Not every schema has a wire form that can be read again: two fields may share a wire
key, variants may be told apart by nothing, the key of a map may come back as another
one. What must not be is said here slot by slot, for the slots that a type leads to.
It is mostly a matter of types. Two things depend on the value: its maps must be
maps, with no key twice, and where the tag of a variant stands among the entries of
its payload, the payload must leave the place free.
-/

namespace WasmBridge

variable {types : TypeMap Text} {room : Nat} {ident : TypeIdent} {slot : Slot} {v : Value}

/-! ## Resolving -/

theorem resolveWithin_eq_ok {type : TypeDef Text} :
    resolveWithin types room ident = .ok type ↔ types.resolve ident = .ok type := by
  unfold resolveWithin
  cases types.resolve ident with
  | ok t => exact ⟨fun h => by cases h; rfl, fun h => by cases h; rfl⟩
  | error cause => exact ⟨fun h => (by cases h), fun h => (by cases h)⟩

theorem shape?_type {type : TypeDef Text} (h : types.resolve ident = .ok type) :
    shape? types (.type ident) v = shapeOf? ident v type := by
  simp only [shape?, h]

/-! ## Keys -/

/-- A type whose values are keys: a text, a truth value or an integer, by whatever name. -/
inductive Scalar (types : TypeMap Text) : TypeIdent → Prop where
  | text {ident : TypeIdent} {name : Text} (h : types.resolve ident = .ok (.string name)) :
      Scalar types ident
  | primitive {ident : TypeIdent} {p : Primitive} (h : types.resolve ident = .ok (.primitive p))
      (hp : p.isFloat = false) : Scalar types ident
  | synonym {ident aliased : TypeIdent} {name : Text}
      (h : types.resolve ident = .ok (.synonym name aliased)) (haliased : Scalar types aliased) :
      Scalar types ident

theorem checkText_eq_ok {w : Value} (h : checkText room ident v = .ok w) :
    ∃ s, v = .str s ∧ w = .str s := by
  cases v with
  | str s => cases h; exact ⟨s, rfl, rfl⟩
  | _ => cases h

/-- A value of a primitive type is a truth value, an integer or a float, and only an integer where
a float should be is changed. -/
theorem checkPrimitive_eq_ok {p : Primitive} {w : Value}
    (h : checkPrimitive room p ident v = .ok w) :
    (p = .bool ∧ ∃ b, v = .bool b ∧ w = v)
      ∨ (p.isFloat = true
        ∧ ∃ x, w = .float x ∧ (v = w ∨ ∃ n, v = .int n ∧ Binary64.ofInt? n = some x))
      ∨ (p ≠ .bool ∧ p.isFloat = false ∧ ∃ n, v = .int n ∧ w = v) := by
  unfold checkPrimitive at h
  split at h
  · rename_i hp
    cases v with
    | bool b => cases h; exact .inl ⟨hp, b, rfl, rfl⟩
    | _ => cases h
  split at h
  · rename_i hp
    cases v with
    | float x => cases h; exact .inr (.inl ⟨hp, x, rfl, .inl rfl⟩)
    | int n =>
      simp only [toFloat] at h
      split at h
      · rename_i x hx
        cases h
        exact .inr (.inl ⟨hp, x, rfl, .inr ⟨n, rfl, hx⟩⟩)
      · cases h
    | _ => cases h
  · rename_i hbool hfloat
    cases v with
    | int n =>
      simp only at h
      split at h
      · cases h
      split at h
      · cases h
      · cases h
        exact .inr (.inr ⟨hbool, by simpa using hfloat, n, rfl, rfl⟩)
    | _ => cases h

theorem checkPrimitive_unchanged {p : Primitive} {w : Value} (hp : p.isFloat = false)
    (h : checkPrimitive room p ident v = .ok w) : w = v ∧ v.isKey = true := by
  rcases checkPrimitive_eq_ok h with ⟨_, b, rfl, hw⟩ | ⟨hfloat, _⟩ | ⟨_, _, n, rfl, hw⟩
  · exact ⟨hw, rfl⟩
  · rw [hp] at hfloat; cases hfloat
  · exact ⟨hw, rfl⟩

/-- What a value of a primitive type is encoded to is its canonical form, and is read as it is. -/
theorem primitive_returns {p : Primitive} {w : Value} (h : checkPrimitive room p ident v = .ok w) :
    checkPrimitive room p ident w = .ok w ∧ shapeOf? ident v (.primitive p) = some (.whole w)
      ∧ w ≠ .null ∧ ∀ entries, w ≠ .map entries := by
  rcases checkPrimitive_eq_ok h with ⟨rfl, b, rfl, rfl⟩ | ⟨hp, x, rfl, hv⟩ | ⟨_, hp, n, rfl, rfl⟩
  · exact ⟨h, rfl, by simp, by simp⟩
  · have hback : checkPrimitive room p ident (.float x) = .ok (.float x) := by
      have hbool : p ≠ .bool := by rintro rfl; cases hp
      simp only [checkPrimitive, hbool, hp, if_true, if_false]
    refine ⟨hback, ?_, by simp, by simp⟩
    rcases hv with rfl | ⟨n, rfl, hx⟩
    · simp only [shapeOf?, hp]
    · simp only [shapeOf?, hp, hx, Option.map_some]
  · exact ⟨h, by simp only [shapeOf?, hp], by simp, by simp⟩

/-- **A key stays what it is in both directions.** -/
theorem Scalar.toWire_eq (hscalar : Scalar types ident) {k : Value}
    (h : toWire types room v ident = .ok k) :
    k = v ∧ v.isKey = true ∧ fromWire types room k ident = .ok v := by
  induction hscalar generalizing room with
  | text hresolve =>
    cases room with
    | zero => cases h
    | succ room =>
      unfold toWire at h
      unfold fromWire
      rw [resolveWithin_eq_ok.mpr hresolve, Outcome.bind_ok] at h ⊢
      obtain ⟨s, rfl, rfl⟩ := checkText_eq_ok h
      exact ⟨rfl, rfl, rfl⟩
  | primitive hresolve hp =>
    cases room with
    | zero => cases h
    | succ room =>
      unfold toWire at h
      unfold fromWire
      rw [resolveWithin_eq_ok.mpr hresolve, Outcome.bind_ok] at h ⊢
      obtain ⟨rfl, hkey⟩ := checkPrimitive_unchanged hp h
      exact ⟨rfl, hkey, h⟩
  | synonym hresolve _ ih =>
    cases room with
    | zero => cases h
    | succ room =>
      unfold toWire at h
      unfold fromWire
      rw [resolveWithin_eq_ok.mpr hresolve, Outcome.bind_ok] at h ⊢
      exact ih h

/-! ## Slots -/

/-- The variants of an enum can be told apart by what stands beside or around their payloads. -/
def Encoding.TellsApart : Encoding Text → Prop
  | .untagged => False
  | .adjacent tag content => tag ≠ content
  | .external | .internal _ => True

/-- What stands in a slot can be read again, as far as it depends on the slot itself. -/
def Slot.Readable (types : TypeMap Text) : Slot → Prop
  | .type ident =>
    match types.resolve ident with
    | .ok (.enum _ _ variants options _) =>
      (variants.map fun v => variantWireKey v.name options.variantCasing).Nodup
        ∧ options.encoding.TellsApart
    | .ok (.map ..) => Scalar types (ident.args.headD default)
    | _ => True
  | .fields members _ => (members.map fun f => fieldWireKey f.name).Nodup
  | _ => True

/-- Something in one slot can have a part in another. -/
def Leads (types : TypeMap Text) (a b : Slot) : Prop :=
  ∃ v u, Part types (a, v) (b, u)

/-- A type all of whose values can be read again. -/
def Readable (types : TypeMap Text) (ident : TypeIdent) : Prop :=
  ∀ slot, Relation.ReflTransGen (Leads types) (.type ident) slot → slot.Readable types

/-- Slots that lead to each other only are not left. -/
theorem mem_of_leads {S : Slot → Prop} {start : Slot} (hstart : S start)
    (hclosed : ∀ a b, S a → Leads types a b → S b)
    (h : Relation.ReflTransGen (Leads types) start slot) : S slot := by
  induction h with
  | refl => exact hstart
  | tail _ hleads ih => exact hclosed _ _ ih hleads

/-- It is enough to look at slots that lead to each other only. -/
theorem readable_of_closed {S : Slot → Prop} (hstart : S (.type ident))
    (hclosed : ∀ a b, S a → Leads types a b → S b)
    (hreadable : ∀ slot, S slot → slot.Readable types) : Readable types ident :=
  fun slot hreaches => hreadable slot (mem_of_leads hstart hclosed hreaches)

/-- What the payload of a variant is encoded to has nothing under the tag it is put behind. -/
def TagFree (types : TypeMap Text) : Slot → Value → Prop
  | .type ident, .variant name payload =>
    ∀ enum generics variants options doc tag variant room entries,
      types.resolve ident = .ok (.enum enum generics variants options doc) →
      options.encoding = .internal tag → variants.find? (·.name == name) = some variant →
      payloadToWire types room payload variant (bindings generics ident) = .ok (.map entries) →
      Entries.findName? entries tag = none
  | _, _ => True

/-- Maps in a value are maps, and tags have their place. -/
def Clean (types : TypeMap Text) (ident : TypeIdent) (v : Value) : Prop :=
  ∀ s u, Visits types (.type ident, v) (s, u) →
    (∀ entries, u = .map entries → DistinctKeys (entries.map (·.1))) ∧ TagFree types s u

/-- Everything that a value in a slot visits can be read again. -/
structure Safe (types : TypeMap Text) (slot : Slot) (v : Value) : Prop where
  readable : ∀ s u, Visits types (slot, v) (s, u) → s.Readable types
  keys : ∀ s entries, Visits types (slot, v) (s, .map entries) → DistinctKeys (entries.map (·.1))
  tags : ∀ s u, Visits types (slot, v) (s, u) → TagFree types s u

theorem Visits.leads {a b : Slot × Value} (h : Visits types a b) :
    Relation.ReflTransGen (Leads types) a.1 b.1 :=
  Relation.ReflTransGen.lift Prod.fst (fun a b hpart => ⟨a.2, b.2, hpart⟩) _ _ h

theorem safe_of_readable (hread : Readable types ident) (hclean : Clean types ident v) :
    Safe types (.type ident) v where
  readable s _ hvisits := hread s hvisits.leads
  keys s entries hvisits := (hclean s _ hvisits).1 entries rfl
  tags s u hvisits := (hclean s u hvisits).2

theorem Safe.self (h : Safe types slot v) : slot.Readable types := h.readable slot v .refl

theorem Safe.part {s : Slot} {u : Value} (h : Safe types slot v)
    (hpart : Part types (slot, v) (s, u)) : Safe types s u where
  readable s' u' hvisits := h.readable s' u' (.head hpart hvisits)
  keys s' entries hvisits := h.keys s' entries (.head hpart hvisits)
  tags s' u' hvisits := h.tags s' u' (.head hpart hvisits)

theorem Safe.one {s : Slot} {u : Value} (h : Safe types slot v)
    (hshape : shape? types slot v = some (.one s u)) : Safe types s u :=
  h.part ⟨_, _, hshape, List.mem_singleton_self _⟩

end WasmBridge
