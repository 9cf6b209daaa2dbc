import WasmBridge.Proofs.Wire.MoreRoom
import WasmBridge.Proofs.Wire.SentAgain

/-!
# Untagged enums

A value of an untagged enum is encoded to its payload alone, and it is decoded by trying the
variants one after the other. So what comes back is the earliest variant that takes the
payload of another one for its own, which may be an earlier one than the value had.

For this to be all that there is to it, each attempt must come to a result or be a wire
error, which only makes the search go on. Other errors end it: an ident that stands for
nothing, an integer that no float is near, a chain of types that comes back to where it was.
Without these, some room is enough for all attempts, and more room changes nothing.
-/

namespace WasmBridge

open Outcome

variable {types : TypeMap Text} {room : Nat} {v w c : Value} {place next start : Place}
  {ident : TypeIdent}

/-! ## Places that slots lead to -/

/-- Some value in the one slot has the value as a part in the other. -/
theorem leads_of_one {a b : Slot} {u : Value} (h : shape? types a v = some (.one b u)) :
    Leads types a b :=
  ⟨v, u, _, _, h, List.mem_singleton_self _⟩

theorem leads_items {idents : List TypeIdent} (h : ident ∈ idents) :
    Leads types (.items idents) (.type ident) := by
  have hlength : (idents.map fun _ => Value.null).length = idents.length := List.length_map _
  obtain ⟨item, hmem⟩ := exists_mem_zip hlength.symm h
  have hshape : shape? types (.items idents) (.list (idents.map fun _ => .null)) = some (.made
      (((idents.map fun _ => .null).zip idents).map fun x => (.type x.2, x.1)) .tuple) := by
    simp [shape?, Value.items?]
  refine ⟨_, item, _, _, hshape, List.mem_map.mpr ⟨(item, ident), ?_, rfl⟩⟩
  rw [← List.zip_swap] at hmem
  obtain ⟨⟨i, x⟩, hpair, heq⟩ := List.mem_map.mp hmem
  cases heq
  exact hpair

/-- A field leads to its type, for it need not be absent. -/
theorem leads_fields {members : List (Field Text)} {bs : List (Text × TypeIdent)} {f : Field Text}
    (h : f ∈ members) :
    Relation.ReflTransGen (Leads types) (.fields members bs) (.type (f.type.substitute bs)) := by
  have hmember : Leads types (.fields members bs) (.member (f.type.substitute bs)) :=
    ⟨.map [], .null, _, _, rfl, List.mem_map_of_mem (f := fun f : Field Text =>
      (Slot.member (f.type.substitute bs), (Entries.findName? [] f.name).getD .null)) h⟩
  have hpresent : shape? types (.member (f.type.substitute bs)) (.bool true)
      = some (.one (.type (f.type.substitute bs)) (.bool true)) := rfl
  exact .tail (.single hmember) (leads_of_one hpresent)

/-- Where the codec goes on to, there a slot leads as well, unless it is the keys of a map. -/
theorem leads_of_mem_inner (hreadable : place.slot.Readable types)
    (h : next ∈ place.inner types) :
    Relation.ReflTransGen (Leads types) place.slot next.slot
      ∨ ∃ ident, next = .type ident ∧ Scalar types ident := by
  cases place with
  | type ident =>
    cases hresolve : types.resolve ident with
    | error cause => simp only [Place.inner, hresolve] at h; cases h
    | ok type =>
      have hshape := fun v : Value => shape?_type (v := v) hresolve
      simp only [Place.inner, hresolve] at h
      simp only [Place.slot, Slot.Readable, hresolve] at hreadable
      cases type with
      | synonym name aliased =>
        cases List.mem_singleton.mp h
        exact .inl (.single (leads_of_one (hshape .null)))
      | container name inner =>
        cases List.mem_singleton.mp h
        exact .inl (.single (leads_of_one (hshape (.bool true))))
      | list name inner =>
        cases List.mem_singleton.mp h
        exact .inl (.single ⟨_, .null, _, _, hshape (.list [.null]), List.mem_singleton_self _⟩)
      | map name key value =>
        rcases List.mem_pair.mp h with rfl | rfl
        · exact .inr ⟨_, rfl, hreadable⟩
        · exact .inl (.single ⟨_, .null, _, _, hshape (.map [(.null, .null)]),
            List.mem_singleton_self _⟩)
      | tuple items =>
        obtain ⟨item, hitem, rfl⟩ := List.mem_map.mp h
        exact .inl (.head (leads_of_one (hshape .null)) (.single (leads_items hitem)))
      | struct name generics fields doc =>
        obtain ⟨f, hf, rfl⟩ := List.mem_map.mp h
        exact .inl (.head (leads_of_one (hshape .null)) (leads_fields hf))
      | enum name generics variants options doc =>
        obtain ⟨variant, hmem, rfl⟩ := List.mem_map.mp h
        have hfound := find?_name_of_nodup hreadable.1 hmem
        have hpart : shape? types (.type ident) (.variant variant.name .null) = some (.made
            [(.payload variant (bindings generics ident), .null)]
            fun forms => .variant variant.name (forms.headD .null)) := by
          rw [hshape]
          simp only [shapeOf?, hfound, Option.map_some]
        exact .inl (.single ⟨_, _, _, _, hpart, List.mem_singleton_self _⟩)
      | _ => cases h
  | payload variant bs =>
    have hshape : ∀ v, shape? types (Place.payload variant bs).slot v
        = shape? types (.payload variant bs) v := fun _ => rfl
    simp only [Place.inner] at h
    cases hpayload : variant.payload with
    | struct name generics fields doc =>
      rw [hpayload] at h
      obtain ⟨f, hf, rfl⟩ := List.mem_map.mp h
      have hone : shape? types (.payload variant bs) .null
          = some (.one (.fields fields bs) .null) := by
        simp only [shape?, hpayload]
      exact .inl (.head (leads_of_one hone) (leads_fields hf))
    | tuple items =>
      rw [hpayload] at h
      obtain ⟨item, hitem, rfl⟩ := List.mem_map.mp h
      cases items with
      | nil => cases hitem
      | cons first rest =>
        cases rest with
        | nil =>
          cases List.mem_singleton.mp hitem
          have hone : shape? types (.payload variant bs) .null
              = some (.one (.type (item.substitute bs)) .null) := by
            simp only [shape?, hpayload]
          exact .inl (.single (leads_of_one hone))
        | cons second rest =>
          have hone : shape? types (.payload variant bs) .null
              = some (.one (.items ((first :: second :: rest).map (·.substitute bs))) .null) := by
            simp only [shape?, hpayload]
          exact .inl (.head (leads_of_one hone)
            (.single (leads_items (List.mem_map_of_mem hitem))))
    | _ => rw [hpayload] at h; cases h

/-- A type whose values are keys leads to others of the kind only. -/
theorem Scalar.of_mem_inner (h : Scalar types ident)
    (hnext : next ∈ (Place.type ident).inner types) :
    ∃ inner, next = .type inner ∧ Scalar types inner := by
  cases h with
  | text h => simp only [Place.inner, h] at hnext; cases hnext
  | primitive h _ => simp only [Place.inner, h] at hnext; cases hnext
  | synonym h haliased =>
    simp only [Place.inner, h] at hnext
    exact ⟨_, List.mem_singleton.mp hnext, haliased⟩

/-- **Where all slots can be read again, no untagged enum can be reached.** -/
theorem not_untagged_of_readable
    (hreadable : ∀ slot, Relation.ReflTransGen (Leads types) start.slot slot → slot.Readable types)
    (h : start.Reaches types place) : ¬place.Untagged types := by
  have hcases : Relation.ReflTransGen (Leads types) start.slot place.slot
      ∨ ∃ ident, place = .type ident ∧ Scalar types ident := by
    induction h with
    | refl => exact .inl .refl
    | tail _ hnext ih =>
      obtain hleads | ⟨ident, rfl, hscalar⟩ := ih
      · exact (leads_of_mem_inner (hreadable _ hleads) hnext).imp_left hleads.trans
      · exact .inr (hscalar.of_mem_inner hnext)
  rintro ⟨ident, enum, generics, variants, options, doc, rfl, hresolve, huntagged⟩
  obtain hleads | ⟨_, heq, hscalar⟩ := hcases
  · have hslot := hreadable _ hleads
    simp only [Place.slot, Slot.Readable, hresolve, huntagged] at hslot
    exact hslot.2
  · cases heq
    cases hscalar with
    | text h => cases h.symm.trans hresolve
    | primitive h _ => cases h.symm.trans hresolve
    | synonym h _ => cases h.symm.trans hresolve

/-! ## Attempts -/

/-- A wire value is decoded to `c` in a place, where there is room enough. -/
def Place.Takes (types : TypeMap Text) (place : Place) (w c : Value) : Prop :=
  ∃ enough, ∀ room, enough ≤ room → Direction.decoding.run types room w place = .ok c

/-- A wire value is a wire error in a place, where there is room enough. -/
def Place.Refuses (types : TypeMap Text) (place : Place) (w : Value) : Prop :=
  ∃ enough, ∀ room, enough ≤ room →
    ∃ cause, Direction.decoding.run types room w place = .error (.wire cause)

/-- To be decoded once is enough. -/
theorem takes_of_run (h : Direction.decoding.run types room w place = .ok c) :
    place.Takes types w c :=
  ⟨room, fun _ hmore => (run_more place w hmore).ok h⟩

theorem Place.Takes.unique {c' : Value} (h : place.Takes types w c) (h' : place.Takes types w c') :
    c = c' := by
  obtain ⟨enough, h⟩ := h
  obtain ⟨enough', h'⟩ := h'
  exact Except.ok.inj ((h _ (Nat.le_max_left enough enough')).symm.trans
    (h' _ (Nat.le_max_right enough enough')))

theorem Place.Refuses.not_takes (h : place.Refuses types w) : ¬place.Takes types w c := by
  rintro ⟨enough', h'⟩
  obtain ⟨enough, h⟩ := h
  obtain ⟨cause, herror⟩ := h _ (Nat.le_max_left enough enough')
  cases herror.symm.trans (h' _ (Nat.le_max_right enough enough'))

/-- **An attempt comes to a result or to a wire error**, if there is room enough. -/
theorem takes_or_refuses (hresolves : start.Resolves types) (hacyclic : start.Acyclic types)
    (htagged : ∀ place, start.Reaches types place → ¬place.Untagged types) (husable : w.Usable) :
    (∃ c, start.Takes types w c) ∨ start.Refuses types w := by
  obtain ⟨enough, henough⟩ := enough_room hacyclic htagged w
  cases hrun : Direction.decoding.run types enough w start with
  | ok c => exact .inl ⟨c, takes_of_run hrun⟩
  | error e =>
    have hroom := henough enough (Nat.le_refl _) e hrun
    obtain heq | ⟨cause, rfl⟩ := usable_failsOnly hresolves husable e hrun
    · exact absurd heq hroom
    · refine .inr ⟨enough, fun room hmore => ⟨cause, ?_⟩⟩
      obtain hshort | heq := run_more start w hmore
      · cases hrun.symm.trans hshort
      · rw [← heq, hrun]

/-! ## The search -/

section Search

variable {enum : Text} {variants before others : List (Variant Text)} {found variant : Variant Text}
  {bs : List (Text × TypeIdent)} {generics doc : List Text} {options : EnumOptions Text}

/-- What does not fit is passed over. -/
theorem firstFit_eq {f : Variant Text → Except CodecError Value}
    (hbefore : ∀ other ∈ before, ∃ cause, f other = .error (.wire cause))
    (hfound : f found = .ok c) :
    firstFit room enum f (before ++ found :: others) = .ok (.variant found.name c) := by
  induction before with
  | nil => rw [List.nil_append, firstFit, hfound]
  | cons other rest ih =>
    obtain ⟨cause, hother⟩ := hbefore other List.mem_cons_self
    rw [List.cons_append, firstFit, hother]
    exact ih fun other hmem => hbefore other (List.mem_cons_of_mem _ hmem)

/-- An untagged enum takes a value for the earliest variant whose payload takes it. -/
theorem takes_untagged
    (hresolve : types.resolve ident
      = .ok (.enum enum generics (before ++ found :: others) options doc))
    (huntagged : options.encoding = .untagged)
    (hbefore : ∀ other ∈ before, (Place.payload other (bindings generics ident)).Refuses types w)
    (hfound : (Place.payload found (bindings generics ident)).Takes types w c) :
    (Place.type ident).Takes types w (.variant found.name c) := by
  obtain ⟨enough, henough⟩ := exists_bound before hbefore
  obtain ⟨enough', henough'⟩ := hfound
  refine ⟨enough + enough' + 2, fun room hroom => ?_⟩
  obtain ⟨room, rfl⟩ : ∃ r, room = r + 2 := ⟨room - 2, by omega⟩
  show fromWire types (room + 2) w ident = _
  rw [fromWire_enum hresolve]
  unfold enumFromWire
  rw [huntagged]
  exact firstFit_eq (fun other hmem => henough other hmem room (by omega))
    (henough' room (by omega))

/-- Of some variants of which each takes a value or refuses it, all refuse it or one is first. -/
theorem first_taking
    (hsettled : ∀ other ∈ variants, (∃ c, (Place.payload other bs).Takes types w c)
      ∨ (Place.payload other bs).Refuses types w) :
    (∀ other ∈ variants, (Place.payload other bs).Refuses types w)
      ∨ ∃ before found others c, variants = before ++ found :: others
        ∧ (∀ other ∈ before, (Place.payload other bs).Refuses types w)
        ∧ (Place.payload found bs).Takes types w c := by
  induction variants with
  | nil => exact .inl nofun
  | cons variant rest ih =>
    obtain ⟨hvariant, hrest⟩ := List.forall_mem_cons.mp hsettled
    obtain ⟨c, htakes⟩ | hrefuses := hvariant
    · exact .inr ⟨[], variant, rest, c, rfl, nofun, htakes⟩
    · obtain hall | ⟨before, found, others, c, rfl, hbefore, htakes⟩ := ih hrest
      · exact .inl (List.forall_mem_cons.mpr ⟨hrefuses, hall⟩)
      · exact .inr ⟨variant :: before, found, others, c, rfl,
          List.forall_mem_cons.mpr ⟨hrefuses, hbefore⟩, htakes⟩

end Search

/-! ## Round trips -/

/-- What the variants of an enum carry can be read again. -/
def PayloadsReadable (types : TypeMap Text) (variants : List (Variant Text))
    (bs : List (Text × TypeIdent)) : Prop :=
  ∀ variant ∈ variants, ∀ slot,
    Relation.ReflTransGen (Leads types) (.payload variant bs) slot → slot.Readable types

section RoundTrips

variable {enum : Text} {before after : List (Variant Text)} {variant : Variant Text}
  {generics doc : List Text} {options : EnumOptions Text} {p : Value}

/--
**A value of an untagged enum comes back as the earliest variant that takes its payload.**
Let all that the variants carry be such that it can be read again, let the variants before
that of the value lead to types only that resolve and hand nothing on in a circle, and let
nothing in what the value is encoded to stop the decoder for good. Then what comes back is
the first variant that takes that for its payload, and all before are wire errors. It is the
variant that the value had, with its payload in canonical form, exactly if no variant before
takes it.
-/
theorem untagged_round_trip
    (hresolve : types.resolve ident
      = .ok (.enum enum generics (before ++ variant :: after) options doc))
    (huntagged : options.encoding = .untagged)
    (hnames : ((before ++ variant :: after).map (·.name)).Nodup)
    (hreadable : PayloadsReadable types (before ++ variant :: after) (bindings generics ident))
    (hends : ∀ other ∈ before, (Place.payload other (bindings generics ident)).Resolves types
      ∧ (Place.payload other (bindings generics ident)).Acyclic types)
    (hclean : Clean types ident (.variant variant.name p))
    (h : toWire types room (.variant variant.name p) ident = .ok w) (husable : w.Usable) :
    let place (other : Variant Text) := Place.payload other (bindings generics ident)
    ∃ c, (place variant).Takes types w c
      ∧ (UnitsBare types (place variant).slot p → CanonicalForm types id (place variant).slot p c)
      ∧ (∃ refusing found others c', before ++ variant :: after = refusing ++ found :: others
          ∧ (∀ other ∈ refusing, (place other).Refuses types w)
          ∧ (place found).Takes types w c'
          ∧ (Place.type ident).Takes types w (.variant found.name c'))
      ∧ ((Place.type ident).Takes types w (.variant variant.name c)
          ↔ ∀ other ∈ before, ∀ c', ¬(place other).Takes types w c') := by
  intro place
  have hmem : variant ∈ before ++ variant :: after := List.mem_append_right _ List.mem_cons_self
  have hother : ∀ other ∈ before, variant.name ≠ other.name := by
    rw [List.map_append] at hnames
    intro other hother heq
    exact (List.nodup_append.mp hnames).2.2 _ (List.mem_map_of_mem hother) _ List.mem_cons_self
      heq.symm
  obtain ⟨_, _, r, payload, heq, hfound', hpayload, hwrap⟩ := toWire_enum hresolve h
  obtain ⟨hname, rfl⟩ := Value.variant.inj heq
  have hfound := find?_of_nodup_names hnames hmem
  rw [← hname] at hfound'
  cases hfound'.symm.trans hfound
  rw [huntagged] at hwrap
  cases hwrap
  -- the payload comes back on its own
  have hpart : Part types (.type ident, .variant variant.name p)
      (.payload variant (bindings generics ident), p) := by
    refine ⟨_, fun forms => .variant variant.name (forms.headD .null), ?_,
      List.mem_singleton_self _⟩
    rw [shape?_type hresolve]
    simp only [shapeOf?, hfound, Option.map_some]
  have hsafe : Safe types (.payload variant (bindings generics ident)) p :=
    { readable := fun s u hvisits => hreadable variant hmem s hvisits.leads
      keys := fun s entries hvisits => (hclean s _ (.head hpart hvisits)).1 entries rfl
      tags := fun s u hvisits => (hclean s u (.head hpart hvisits)).2 }
  obtain ⟨c, hcarried, hreceived⟩ := payload_returns (fun r _ => all_return r) hsafe hpayload
  have hback : Direction.decoding.run types r w (place variant) = .ok c := hcarried.back
  have htakes : (place variant).Takes types w c := takes_of_run hback
  -- and each variant before takes what it is encoded to or refuses it
  have hsettled : ∀ other ∈ before,
      (∃ c', (place other).Takes types w c') ∨ (place other).Refuses types w := by
    intro other hother
    have hslots := hreadable other (List.mem_append_left _ hother)
    exact takes_or_refuses (hends other hother).1 (hends other hother).2
      (fun _ => not_untagged_of_readable hslots) husable
  refine ⟨c, htakes, (canonicalForm_iff_unitsBare hreceived).mpr, ?_⟩
  obtain hrefuse | ⟨refusing, found, others, c', rfl, hrefusing, hfirst⟩ := first_taking hsettled
  · have hback := takes_untagged hresolve huntagged hrefuse htakes
    exact ⟨⟨before, variant, after, c, rfl, hrefuse, htakes, hback⟩,
      fun _ other hother c' => (hrefuse other hother).not_takes, fun _ => hback⟩
  · have hmemFound : found ∈ refusing ++ found :: others :=
      List.mem_append_right _ List.mem_cons_self
    rw [List.append_assoc] at hresolve
    have hback := takes_untagged hresolve huntagged hrefusing hfirst
    refine ⟨⟨refusing, found, others ++ variant :: after, c', by simp, hrefusing, hfirst, hback⟩,
      fun hvariant => ?_, fun hnone => absurd hfirst (hnone found hmemFound c')⟩
    exact absurd (Value.variant.inj (hvariant.unique hback)).1 (hother found hmemFound)

end RoundTrips

/-! ## Numbers that are tried twice -/

namespace Guesses

variable {a b : TypeIdent}

/-- The variant that is tried first, of one item. -/
def first (a : TypeIdent) : Variant Text := .mk "First" (.tuple [a]) []

def second (b : TypeIdent) : Variant Text := .mk "Second" (.tuple [b]) []

/-- An untagged enum of two variants, beside an alias of itself and values that are passed on. -/
def known (a b : TypeIdent) : TypeMap Text :=
  .ofTypes [.synonym "Loop" ⟨"Loop", []⟩, .custom "Raw" [] "Raw" "unknown",
    .enum "Any" [] [first a, second b] { untagged := true } []]

theorem resolve_any : (known a b).resolve ⟨"Any", []⟩
    = .ok (.enum "Any" [] [first a, second b] { untagged := true } []) := by
  rfl

/-- An item that leads to itself at most. -/
structure IsLeaf (types : TypeMap Text) (item : TypeIdent) : Prop where
  leads : ∀ slot, Leads types (.type (item.substitute [])) slot → slot = .type (item.substitute [])
  readable : (Slot.type (item.substitute [])).Readable types

theorem payload_readable {types : TypeMap Text} {name : Text} {item : TypeIdent}
    (h : IsLeaf types item) {slot : Slot}
    (hreaches : Relation.ReflTransGen (Leads types)
      (.payload (.mk name (.tuple [item]) []) []) slot) :
    slot.Readable types := by
  have hslot : slot = .payload (.mk name (.tuple [item]) []) []
      ∨ slot = .type (item.substitute []) := by
    refine mem_of_leads (S := fun slot => slot = .payload (.mk name (.tuple [item]) []) []
      ∨ slot = .type (item.substitute [])) (.inl rfl) ?_ hreaches
    rintro _ b (rfl | rfl) hleads
    · obtain ⟨u, u', parts, build, hshape, hmem⟩ := hleads
      cases hshape
      obtain ⟨rfl, -⟩ := Prod.mk.inj (List.mem_singleton.mp hmem)
      exact .inr rfl
    · exact .inr (h.leads b hleads)
  obtain rfl | rfl := hslot
  · trivial
  · exact h.readable

theorem readable {types : TypeMap Text} (ha : IsLeaf types a) (hb : IsLeaf types b) :
    PayloadsReadable types [first a, second b] [] := by
  intro variant hmem slot hreaches
  rcases List.mem_pair.mp hmem with rfl | rfl
  · exact payload_readable ha hreaches
  · exact payload_readable hb hreaches

/-- What is a whole in the second variant is free of maps and tags. -/
theorem clean (form : Value) {x : Value} (hx : ∀ entries, x ≠ .map entries)
    (hname : ∀ name c, x ≠ .variant name c)
    (hshape : shape? (known a b) (.type (b.substitute [])) x = some (.whole form)) :
    Clean (known a b) ⟨"Any", []⟩ (.variant "Second" x) := by
  have hitem : ∀ s u, Visits (known a b) (.type (b.substitute []), x) (s, u) →
      s = .type (b.substitute []) ∧ u = x := by
    intro s u hvisits
    rcases hvisits.cases with heq | ⟨_, ⟨parts, build, hparts, -⟩, -⟩
    · cases heq; exact ⟨rfl, rfl⟩
    · cases hshape.symm.trans hparts
  have hpayload : ∀ s u, Visits (known a b) (.payload (second b) [], x) (s, u) →
      (s = .payload (second b) [] ∨ s = .type (b.substitute [])) ∧ u = x := by
    intro s u hvisits
    rcases hvisits.cases with heq | ⟨_, ⟨parts, build, hparts, hmem⟩, hrest⟩
    · cases heq; exact ⟨.inl rfl, rfl⟩
    · cases hparts
      rw [List.mem_singleton.mp hmem] at hrest
      exact (hitem s u hrest).imp_left .inr
  intro s u hvisits
  rcases hvisits.cases with heq | ⟨_, ⟨parts, build, hparts, hmem⟩, hrest⟩
  · cases heq
    refine ⟨nofun, fun enum generics variants options doc tag _ _ _ hresolve htag => ?_⟩
    cases resolve_any.symm.trans hresolve
    cases htag
  · rw [shape?_type resolve_any] at hparts
    cases hparts
    rw [List.mem_singleton.mp hmem] at hrest
    obtain ⟨hslot, rfl⟩ := hpayload s u hrest
    refine ⟨fun entries heq => absurd heq (hx entries), ?_⟩
    cases u with
    | variant name c => exact absurd rfl (hname name c)
    | _ => obtain rfl | rfl := hslot <;> trivial

/-- Where the first variant leads to: its item, and nothing behind it. -/
theorem mem_places {types : TypeMap Text} {item : TypeIdent} {place : Place}
    (hleaf : (Place.type (item.substitute [])).inner types = [])
    (h : (Place.payload (first item) []).Reaches types place) :
    place = .payload (first item) [] ∨ place = .type (item.substitute []) := by
  induction h with
  | refl => exact .inl rfl
  | tail _ hnext ih =>
    obtain rfl | rfl := ih
    · exact .inr (List.mem_singleton.mp hnext)
    · rw [hleaf] at hnext
      cases hnext

theorem resolves (types : TypeMap Text) (item : TypeIdent) {type : TypeDef Text}
    (hleaf : (Place.type (item.substitute [])).inner types = [])
    (hresolve : types.resolve (item.substitute []) = .ok type) :
    (Place.payload (first item) []).Resolves types := by
  intro ident hreaches
  obtain heq | heq := mem_places hleaf hreaches
  · cases heq
  · cases heq
    exact ⟨_, hresolve⟩

theorem acyclic (types : TypeMap Text) (item : TypeIdent)
    (hleaf : (Place.type (item.substitute [])).inner types = []) :
    (Place.payload (first item) []).Acyclic types := by
  intro place hreaches hcircle
  obtain ⟨next, hnext, hback⟩ := Relation.TransGen.head'_iff.mp hcircle
  obtain rfl | rfl := mem_places hleaf hreaches
  · -- from the item there is no way back
    obtain rfl := List.mem_singleton.mp hnext.mem_inner
    rcases Relation.ReflTransGen.cases_head hback with heq | ⟨_, hstep, _⟩
    · cases heq
    · have hmem := hstep.mem_inner
      rw [hleaf] at hmem
      cases hmem
  · have hmem := hnext.mem_inner
    rw [hleaf] at hmem
    cases hmem

theorem usable_int {n : Int} (h : Binary64.ofInt? n ≠ none) : (Value.int n).Usable := by
  have hreached : ∀ {u}, Relation.ReflTransGen (fun a b : Value => b.Below a) (.int n) u →
      u = .int n := by
    intro u hreach
    rcases Relation.ReflTransGen.cases_head hreach with heq | ⟨_, hbelow, _⟩
    · exact heq.symm
    · cases hbelow
  constructor
  · intro m hreach
    cases hreached hreach
    exact h
  · intro entries hreach
    cases hreached hreach

/-- A number of a primitive type leads nowhere. -/
theorem isLeaf_primitive {types : TypeMap Text} {item : TypeIdent} (kind : Primitive)
    (h : types.resolve (item.substitute []) = .ok (.primitive kind)) : IsLeaf types item where
  leads slot := by
    rintro ⟨u, u', parts, build, hshape, hmem⟩
    rw [shape?_type h] at hshape
    simp only [shapeOf?] at hshape
    split at hshape
    · obtain ⟨_, -, heq⟩ := Option.map_eq_some_iff.mp hshape; cases heq
    · cases hshape
  readable := by simp only [Slot.Readable, h]

end Guesses

/-- An integer of the second variant comes back as the float of the first one. -/
theorem untagged_round_trip_number :
    let types := Guesses.known ⟨"f64", []⟩ ⟨"u8", []⟩
    PayloadsReadable types [Guesses.first ⟨"f64", []⟩, Guesses.second ⟨"u8", []⟩] []
      ∧ (Place.payload (Guesses.first ⟨"f64", []⟩) []).Resolves types
      ∧ (Place.payload (Guesses.first ⟨"f64", []⟩) []).Acyclic types
      ∧ Clean types ⟨"Any", []⟩ (.variant "Second" (.int 1))
      ∧ toWire types callRoom (.variant "Second" (.int 1)) ⟨"Any", []⟩ = .ok (.int 1)
      ∧ ∃ c, (Place.payload (Guesses.second ⟨"u8", []⟩) []).Takes types (.int 1) c
        ∧ ¬(Place.type ⟨"Any", []⟩).Takes types (.int 1) (.variant "Second" c) := by
  intro types
  have hreadable : PayloadsReadable types
      [Guesses.first ⟨"f64", []⟩, Guesses.second ⟨"u8", []⟩] [] :=
    Guesses.readable (Guesses.isLeaf_primitive .f64 rfl) (Guesses.isLeaf_primitive .u8 rfl)
  have hresolves := Guesses.resolves types ⟨"f64", []⟩ rfl rfl
  have hacyclic := Guesses.acyclic types ⟨"f64", []⟩ rfl
  have hclean : Clean types ⟨"Any", []⟩ (.variant "Second" (.int 1)) :=
    Guesses.clean (.int 1) nofun nofun rfl
  have hwire : toWire types callRoom (.variant "Second" (.int 1)) ⟨"Any", []⟩ = .ok (.int 1) := by
    rfl
  obtain ⟨x, htaken⟩ : ∃ x, Direction.decoding.run types callRoom (.int 1)
      (.payload (Guesses.first ⟨"f64", []⟩) []) = .ok x := ⟨_, rfl⟩
  have hresolve : types.resolve ⟨"Any", []⟩ = .ok (.enum "Any" []
      ([Guesses.first ⟨"f64", []⟩] ++ Guesses.second ⟨"u8", []⟩ :: []) { untagged := true } []) :=
    Guesses.resolve_any
  obtain ⟨c, htakes, -, -, hiff⟩ := untagged_round_trip hresolve rfl (by decide) hreadable
    (fun other hother => by cases List.mem_singleton.mp hother; exact ⟨hresolves, hacyclic⟩)
    hclean hwire (Guesses.usable_int (by decide))
  refine ⟨hreadable, hresolves, hacyclic, hclean, hwire, c, htakes, fun hback => ?_⟩
  exact hiff.mp hback _ List.mem_cons_self _ (takes_of_run htaken)

namespace Guesses

variable {a b : TypeIdent} {w : Value}

/-- However much room there is, an item is not decoded, and that is no wire error. -/
def Stops (types : TypeMap Text) (item : TypeIdent) (w : Value) : Prop :=
  ∀ room, ∃ e, (∀ cause, e ≠ .wire cause)
    ∧ fromWire types room w (item.substitute []) = .error e

/-- An item that is not decoded ends the search. -/
theorem Stops.not_decoded (h : Stops (known a b) a w) (room : Nat) (v : Value) :
    fromWire (known a b) room w ⟨"Any", []⟩ ≠ .ok v := by
  intro hok
  cases room with
  | zero => cases hok
  | succ room =>
    rw [fromWire_enum resolve_any] at hok
    cases room with
    | zero => cases hok
    | succ room =>
      have hpayload : ∃ e, (∀ cause, e ≠ .wire cause)
          ∧ payloadFromWire (known a b) room w (first a) [] = .error e := by
        cases room with
        | zero => exact ⟨.tooDeep, by simp, rfl⟩
        | succ room => exact h room
      obtain ⟨e, hother, herror⟩ := hpayload
      have hsearch : firstFit room "Any"
          (fun variant => payloadFromWire (known a b) room w variant []) [first a, second b]
          = .error e := by
        rw [firstFit, herror]
        cases e with
        | wire cause => exact absurd rfl (hother cause)
        | _ => rfl
      cases hsearch.symm.trans hok

theorem stops_unresolved {types : TypeMap Text} {item : TypeIdent} {cause : SchemaError}
    (h : types.resolve (item.substitute []) = .error cause) : Stops types item w := by
  intro room
  cases room with
  | zero => exact ⟨.tooDeep, nofun, rfl⟩
  | succ room =>
    have hrun : fromWire types (room + 1) w (item.substitute [])
        = .error (if cause.messageRoom ≤ room then .schema cause else .tooDeep) := by
      unfold fromWire resolveWithin
      rw [h]
      rfl
    refine ⟨_, fun wire heq => ?_, hrun⟩
    split at heq
    · cases heq
    · cases heq

theorem stops_loop {types : TypeMap Text} {item : TypeIdent} {name : Text}
    (h : types.resolve (item.substitute []) = .ok (.synonym name (item.substitute []))) :
    Stops types item w := by
  intro room
  refine ⟨.tooDeep, nofun, ?_⟩
  show Direction.decoding.run types room w (.type _) = _
  induction room with
  | zero => rfl
  | succ room ih =>
    rw [run_synonym h]
    exact ih

theorem stops_float {types : TypeMap Text} {item : TypeIdent} {n : Int}
    (h : types.resolve (item.substitute []) = .ok (.primitive .f64))
    (hn : Binary64.ofInt? n = none) : Stops types item (.int n) := by
  intro room
  cases room with
  | zero => exact ⟨.tooDeep, nofun, rfl⟩
  | succ room =>
    refine ⟨.floatRange, nofun, ?_⟩
    unfold fromWire
    rw [resolveWithin_eq_ok.mpr h, bind_ok]
    show toFloat n = _
    rw [toFloat, hn]

/-- A number is encoded as the second variant, and its payload can be read again. -/
structure IsEncoded (a b : TypeIdent) (n : Int) : Prop where
  readable : PayloadsReadable (known a b) [first a, second b] []
  clean : Clean (known a b) ⟨"Any", []⟩ (.variant "Second" (.int n))
  encoded : toWire (known a b) callRoom (.variant "Second" (.int n)) ⟨"Any", []⟩ = .ok (.int n)
  takes : (Place.payload (second b) []).Takes (known a b) (.int n) (.int n)

theorem isLeaf_unresolved {types : TypeMap Text} {item : TypeIdent} {cause : SchemaError}
    (h : types.resolve (item.substitute []) = .error cause) : IsLeaf types item where
  leads slot := by
    rintro ⟨u, u', parts, build, hshape, hmem⟩
    simp only [shape?, h] at hshape
    cases hshape
  readable := by simp only [Slot.Readable, h]

theorem isLeaf_loop {types : TypeMap Text} {item : TypeIdent} {name : Text}
    (h : types.resolve (item.substitute []) = .ok (.synonym name (item.substitute []))) :
    IsLeaf types item where
  leads slot := by
    rintro ⟨u, u', parts, build, hshape, hmem⟩
    rw [shape?_type h] at hshape
    cases hshape
    exact (Prod.mk.inj (List.mem_singleton.mp hmem)).1
  readable := by simp only [Slot.Readable, h]

theorem isLeaf_custom {types : TypeMap Text} {item : TypeIdent} {name rust typescript : Text}
    {args : List TypeIdent}
    (h : types.resolve (item.substitute []) = .ok (.custom name args rust typescript)) :
    IsLeaf types item where
  leads slot := by
    rintro ⟨u, u', parts, build, hshape, hmem⟩
    rw [shape?_type h] at hshape
    cases hshape
  readable := by simp only [Slot.Readable, h]

theorem isEncoded_one (ha : IsLeaf (known a ⟨"u8", []⟩) a) : IsEncoded a ⟨"u8", []⟩ 1 where
  readable := readable ha (isLeaf_primitive .u8 rfl)
  clean := clean (.int 1) nofun nofun rfl
  encoded := rfl
  takes := takes_of_run (show Direction.decoding.run _ callRoom _ _ = .ok _ from rfl)

theorem isEncoded_raw (ha : IsLeaf (known a ⟨"Raw", []⟩) a) (n : Int) :
    IsEncoded a ⟨"Raw", []⟩ n where
  readable := readable ha (isLeaf_custom rfl)
  clean := clean (.int n) nofun nofun rfl
  encoded := rfl
  takes := takes_of_run (show Direction.decoding.run _ callRoom _ _ = .ok _ from rfl)

end Guesses

/--
The search for a variant is ended by an ident that stands for nothing, by an alias of itself,
and by an integer that no float is near. None of them is a wire error, and so the variants
behind are not tried.
-/
theorem search_ends_early :
    (∀ a, a = ⟨"Missing", []⟩ ∨ a = ⟨"Loop", []⟩ → Guesses.IsEncoded a ⟨"u8", []⟩ 1
        ∧ ∀ room v, fromWire (Guesses.known a ⟨"u8", []⟩) room (.int 1) ⟨"Any", []⟩ ≠ .ok v)
      ∧ Guesses.IsEncoded ⟨"f64", []⟩ ⟨"Raw", []⟩ (10 ^ 360)
      ∧ ∀ room v, fromWire (Guesses.known ⟨"f64", []⟩ ⟨"Raw", []⟩) room (.int (10 ^ 360))
          ⟨"Any", []⟩ ≠ .ok v := by
  refine ⟨?_, ?_, ?_⟩
  · rintro a (rfl | rfl)
    · exact ⟨Guesses.isEncoded_one (Guesses.isLeaf_unresolved rfl),
        (Guesses.stops_unresolved rfl).not_decoded⟩
    · exact ⟨Guesses.isEncoded_one (Guesses.isLeaf_loop rfl), (Guesses.stops_loop rfl).not_decoded⟩
  · exact Guesses.isEncoded_raw (Guesses.isLeaf_primitive .f64 rfl) _
  · exact (Guesses.stops_float rfl (by decide +kernel)).not_decoded

end WasmBridge
