import WasmBridge.Proofs.Wire.Parts

/-!
# Round trips

A value that has been encoded is decoded to its canonical form. The proof goes by the
number of calls that are left: a value comes back because its parts do, and these are
encoded and decoded within less room.

What does not come back is a payload that a variant without payload was given. A value
is told from what comes back by such payloads, and by nothing else.
-/

namespace WasmBridge

variable {types : TypeMap Text} {room : Nat} {v w : Value}

/-! ## All types -/

theorem type_returns (ih : ∀ r < room, RoundTrips types r) : RoundTrips types room := by
  intro ident v w hsafe h
  cases room with
  | zero => cases h
  | succ room =>
    have ihBelow : ∀ r < room, RoundTrips types r := fun r hr => ih r (Nat.lt_succ_of_lt hr)
    unfold toWire at h
    obtain ⟨type, hresolve, h⟩ := Outcome.bind_eq_ok.mp h
    unfold fromWire
    rw [hresolve, Outcome.bind_ok]
    have hresolve := resolveWithin_eq_ok.mp hresolve
    have hshape := shape?_type (v := v) hresolve
    -- one case for each kind of type, most of them a lemma about their parts
    cases type with
    | primitive p =>
      obtain ⟨hback, hwhole, hnull, hmap⟩ := primitive_returns h
      exact ⟨fun heq => absurd heq hnull, w, hback, .whole (hshape.trans hwhole),
        fun entries heq => absurd heq (hmap entries)⟩
    | string name =>
      obtain ⟨s, rfl, rfl⟩ := checkText_eq_ok h
      exact ⟨by simp, _, rfl, .whole hshape, by simp⟩
    | unit name =>
      dsimp only at h
      split at h
      · rename_i hv
        cases h
        obtain rfl := Value.isNull_iff.mp hv
        exact ⟨id, _, rfl, .whole hshape, by simp⟩
      · cases h
    | synonym name aliased =>
      obtain ⟨hnull, c, hc, hround⟩ :=
        ih room (Nat.lt_succ_self _) aliased v w (hsafe.one hshape) h
      exact ⟨hnull, c, hc, .one hshape hround.received, hround.keys⟩
    | container name inner =>
      dsimp only at h
      split at h
      · rename_i hv
        cases h
        obtain rfl := Value.isNull_iff.mp hv
        exact ⟨id, _, rfl, .whole hshape, by simp⟩
      · rename_i hv
        have hone : shape? types (.type ident) v
            = some (.one (.type (ident.args.headD default)) v) := by
          rw [hshape]
          simp only [shapeOf?, hv, Bool.false_eq_true, if_false]
        obtain ⟨hnull, c, hc, hround⟩ :=
          ih room (Nat.lt_succ_self _) _ v w (hsafe.one hone) h
        -- what is there is not taken for something absent
        have hw : ¬w.isNull = true := fun hw =>
          hv (Value.isNull_iff.mpr (hnull (Value.isNull_iff.mp hw)))
        exact ⟨hnull, c, (if_neg hw).trans hc, .one hone hround.received, hround.keys⟩
    | custom name args rust typescript =>
      cases h
      refine ⟨id, _, rfl, .whole hshape, fun entries heq => ?_⟩
      subst heq
      exact hsafe.keys _ _ .refl
    | list name inner =>
      dsimp only at h
      split at h
      · rename_i items hitems
        obtain ⟨ws, c, rfl, hc, hreceived⟩ := list_returns hresolve hitems ihBelow hsafe h
        exact ⟨by simp, c, hc, hreceived, by simp⟩
      · cases h
    | map name key value =>
      cases v with
      | map entries =>
        obtain ⟨stored, c, rfl, hc, hround⟩ := map_returns hresolve ihBelow hsafe h
        exact ⟨by simp, c, hc, hround⟩
      | _ => cases h
    | tuple items =>
      obtain ⟨ws, c, rfl, hc, hreceived⟩ := tuple_returns ihBelow (hsafe.one hshape) h
      exact ⟨by simp, c, hc, .one hshape hreceived, by simp⟩
    | struct name generics fields doc =>
      obtain ⟨entries, c, rfl, hc, hround⟩ := struct_returns ihBelow (hsafe.one hshape) h
      exact ⟨by simp, c, hc, .one hshape hround.received, hround.keys⟩
    | enum name generics variants options doc =>
      cases v with
      | variant vname payload =>
        obtain ⟨hpresent, c, hc, hround⟩ := enum_returns hresolve ihBelow hsafe h
        exact ⟨fun hnull => absurd hnull hpresent, c, hc, hround⟩
      | _ => cases h
    | generic name => cases h

theorem all_return (room : Nat) : RoundTrips types room := by
  induction room using Nat.strong_induction_on with
  | _ room ih => exact type_returns ih

/-- A value that is equal to a canonical form of its own. -/
def IsCanonical (types : TypeMap Text) (ident : TypeIdent) (v : Value) : Prop :=
  ∃ c, CanonicalForm types id (.type ident) v c ∧ c.equalsWith true v = true

/--
**Whatever is encoded can be decoded, and what comes back is its canonical form, unless
a variant that has no payload carries one.** Then that payload, and nothing else, is
lost. So a value that is canonical comes back as it was.
-/
theorem wire_round_trip {ident : TypeIdent} (hreadable : Readable types ident)
    (hclean : Clean types ident v) (h : toWire types room v ident = .ok w) :
    ∃ c, fromWire types room w ident = .ok c
      ∧ Received types (.type ident) v c
      ∧ (CanonicalForm types id (.type ident) v c ↔ UnitsBare types (.type ident) v)
      ∧ (UnitsBare types (.type ident) v → IsCanonical types ident v →
          c.equalsWith true v = true) := by
  obtain ⟨-, c, hc, hround⟩ :=
    all_return room ident v w (safe_of_readable hreadable hclean) h
  have hiff := canonicalForm_iff_unitsBare hround.received
  refine ⟨c, hc, hround.received, hiff, fun hbare hcanonical => ?_⟩
  obtain ⟨c', hc', hequal⟩ := hcanonical
  rwa [(hiff.mpr hbare).unique hc']

/-! ## A payload that is lost -/

namespace Modes

/-- The variant without payload. -/
def off : Variant Text := .mk "Off" (.unit "()") []

/-- The variant with a text. -/
def named : Variant Text := .mk "Named" (.tuple [⟨"String", []⟩]) []

/-- A mode is off, or it has a name. -/
def known : TypeMap Text := .ofTypes [.enum "Mode" [] [off, named] {} []]

theorem resolve_mode : known.resolve ⟨"Mode", []⟩ = .ok (.enum "Mode" [] [off, named] {} []) := by
  rfl

theorem resolve_string : known.resolve ⟨"String", []⟩ = .ok (.string "String") := by rfl

theorem readable : Readable known ⟨"Mode", []⟩ := by
  refine readable_of_closed
    (S := (· ∈ [.type ⟨"Mode", []⟩, .payload off [], .payload named [], .type ⟨"String", []⟩]))
    List.mem_cons_self ?_ ?_
  · rintro a b ha ⟨u, u', parts, build, hparts, hmem⟩
    simp only [List.mem_cons, List.not_mem_nil, or_false] at ha ⊢
    rcases ha with rfl | rfl | rfl | rfl
    · rw [shape?_type resolve_mode] at hparts
      cases u with
      | variant name payload =>
        obtain ⟨variant, hfound, heq⟩ := Option.map_eq_some_iff.mp hparts
        cases heq
        obtain ⟨rfl, -⟩ := Prod.mk.inj (List.mem_singleton.mp hmem)
        rcases List.mem_pair.mp (List.mem_of_find?_eq_some hfound) with rfl | rfl
        · exact .inr (.inl rfl)
        · exact .inr (.inr (.inl rfl))
      | _ => cases hparts
    · cases hparts
    · cases hparts
      obtain ⟨rfl, -⟩ := Prod.mk.inj (List.mem_singleton.mp hmem)
      exact .inr (.inr (.inr rfl))
    · rw [shape?_type resolve_string] at hparts
      cases hparts
  · intro slot hslot
    simp only [List.mem_cons, List.not_mem_nil, or_false] at hslot
    rcases hslot with rfl | rfl | rfl | rfl
    · simp only [Slot.Readable, resolve_mode]
      exact ⟨by decide +kernel, trivial⟩
    · trivial
    · trivial
    · simp only [Slot.Readable, resolve_string]

theorem part_off (payload : Value) :
    Part known (.type ⟨"Mode", []⟩, .variant "Off" payload) (.payload off [], payload) :=
  ⟨[(.payload off [], payload)], fun forms => .variant "Off" (forms.headD .null), rfl,
    List.mem_singleton_self _⟩

theorem clean (n : Int) : Clean known ⟨"Mode", []⟩ (.variant "Off" (.int n)) := by
  intro s u hvisits
  rcases hvisits.cases with heq | ⟨part, ⟨parts, build, hparts, hmem⟩, hrest⟩
  · cases heq
    refine ⟨by simp, fun enum generics variants options doc tag _ _ _ hresolve htag => ?_⟩
    rw [resolve_mode] at hresolve
    cases hresolve
    cases htag
  · cases hparts
    rw [List.mem_singleton.mp hmem] at hrest
    rcases hrest.cases with heq | ⟨_, ⟨_, _, hpart, _⟩, _⟩
    · cases heq
      exact ⟨by simp, trivial⟩
    · cases hpart

end Modes

/-- A mode that is off carries nothing, and what it was given does not come back. -/
theorem wire_round_trip_mode :
    Readable Modes.known ⟨"Mode", []⟩
      ∧ Clean Modes.known ⟨"Mode", []⟩ (.variant "Off" (.int 5))
      ∧ toWire Modes.known callRoom (.variant "Off" (.int 5)) ⟨"Mode", []⟩ = .ok (.str "Off")
      ∧ ∃ c, fromWire Modes.known callRoom (.str "Off") ⟨"Mode", []⟩ = .ok c
        ∧ ¬CanonicalForm Modes.known id (.type ⟨"Mode", []⟩) (.variant "Off" (.int 5)) c := by
  have hwire : toWire Modes.known callRoom (.variant "Off" (.int 5)) ⟨"Mode", []⟩
      = .ok (.str "Off") := by rfl
  obtain ⟨c, hc, -, hiff, -⟩ := wire_round_trip Modes.readable (Modes.clean 5) hwire
  refine ⟨Modes.readable, Modes.clean 5, hwire, c, hc, fun hcanonical => ?_⟩
  have hbare := (hiff.mp hcanonical).part (Modes.part_off (.int 5))
  cases hbare _ _ _ .refl rfl

end WasmBridge
