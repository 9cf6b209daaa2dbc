import WasmBridge.Proofs.Interface.Demands

/-!
# Documents that are not refused

A demand that is not met gives one of two kinds of errors. Most say what is wrong with
the document, and the document is refused with them. The others say only that something
is of a kind that was not expected: no text where an ident or a convention belongs, no
object where a function or the options of an enum do, no list where types are listed, no
key where the name of a type is. These are the misfits, and `load_escapes_iff` says that
it is they who break the loader, provided that nothing in front of them is found wrong.
-/

namespace WasmBridge

/-- The error is one that a document is refused with: it says what is wrong. -/
def LoadError.isReported : LoadError → Bool
  | json .. | notObject | malformed _ | unknownKind .. | options .. | unknownTypes ..
  | duplicateFunction _ => true
  | longInteger _ | notText | notMembers | notNames | tooDeep => false

namespace Document

variable {demand : Demand}

/-- A part of a document is of another kind than what belongs there, or an ident is nested too
deep. -/
def Demand.isMisfit : Demand → Bool
  | object (.map _) => false
  | object _ => true
  | ident (.str s) =>
    match TypeIdent.parse s with
    | .error e => e = .tooDeep
    | .ok _ => false
  | ident _ => true
  | casing (.str _) => false
  | casing _ => true
  | keys names => !Value.allKeys names
  | listed _ _ v => !v.isNull && !(items? v).any Value.allKeys
  | _ => false

theorem isReported_of_ident {s : Text} {e : LoadError}
    (h : (Demand.ident (.str s)).fault? = some e) :
    e.isReported = !(Demand.ident (.str s)).isMisfit := by
  rw [Demand.fault?] at h
  rw [Demand.isMisfit]
  cases hparse : TypeIdent.parse s with
  | ok ident => rw [hparse] at h; cases h
  | error cause =>
    rw [hparse] at h
    cases h
    dsimp only
    by_cases hdeep : cause = .tooDeep
    · rw [if_pos hdeep, decide_eq_true hdeep]; rfl
    · rw [if_neg hdeep, decide_eq_false hdeep]; rfl

theorem isReported_of_listed {types : List Value} {key : Text} {v : Value} {e : LoadError}
    (h : (Demand.listed types key v).fault? = some e) :
    e.isReported = !(Demand.listed types key v).isMisfit := by
  rw [Demand.fault?] at h
  rw [Demand.isMisfit]
  split at h
  · cases h
  · rename_i hnull
    rw [Bool.eq_false_iff.mpr hnull]
    cases hitems : items? v with
    | none =>
      rw [hitems] at h
      cases h
      rfl
    | some names =>
      rw [hitems] at h
      dsimp only at h
      rw [Option.any_some]
      cases hkeys : Value.allKeys names with
      | false =>
        rw [hkeys] at h
        cases h
        rfl
      | true =>
        rw [hkeys, Bool.not_true, if_neg Bool.false_ne_true] at h
        split at h <;> cases h
        rfl

/-- **A demand that is not met is reported unless something is of another kind.** -/
theorem isReported_of_fault {e : LoadError} (h : demand.fault? = some e) :
    e.isReported = !demand.isMisfit := by
  cases demand with
  | document v | object v => cases v <;> cases h <;> rfl
  | member v key =>
    cases v with
    | map entries =>
      rw [Demand.fault?] at h
      split at h <;> cases h
      rfl
    | _ => cases h; rfl
  | ident v =>
    cases v with
    | str s => exact isReported_of_ident h
    | _ => cases h; rfl
  | casing v =>
    cases v with
    | str s =>
      rw [Demand.fault?] at h
      split at h <;> cases h
      rfl
    | _ => cases h; rfl
  | items | options | kind | newFunction =>
    rw [Demand.fault?] at h
    split at h <;> cases h
    rfl
  | keys names =>
    rw [Demand.fault?] at h
    split at h
    · cases h
    · rename_i hkeys
      cases h
      rw [Demand.isMisfit, Bool.eq_false_iff.mpr hkeys]
      rfl
  | listed types key v => exact isReported_of_listed h

/-- The error that reading a text as JSON ends with, for the loader. -/
def ofJson : JsonText.JsonError → LoadError
  | .misplaced fault place => .json fault place
  | .longInteger digits => .longInteger digits
  | .tooDeep => .tooDeep

theorem load_of_json_error {text : Text} {stop : JsonText.JsonError}
    (h : JsonText.read text = .error stop) : Interface.load text = .error (ofJson stop) := by
  unfold Interface.load InterfaceDocument.parse
  rw [h]
  cases stop <;> rfl

theorem firstFault_eq (ds : List Demand) :
    firstFault ds = (ds.find? (·.fault?.isSome)).bind Demand.fault? := by
  unfold firstFault
  induction ds with
  | nil => rfl
  | cons d ds ih =>
    rw [List.findSome?_cons, List.find?_cons]
    cases h : d.fault? with
    | none => exact ih
    | some e => exact h.symm

/-- **How loading a document ends.** It fails as JSON does, or as the first demand that is not met;
otherwise there is an interface. -/
theorem load_error_iff (text : Text) (e : LoadError) :
    Interface.load text = .error e
      ↔ (∃ stop, JsonText.read text = .error stop ∧ e = ofJson stop)
        ∨ ∃ v, JsonText.read text = .ok v ∧ firstFault (demands v) = some e := by
  cases hread : JsonText.read text with
  | error stop =>
    rw [load_of_json_error hread]
    constructor
    · intro h
      cases h
      exact .inl ⟨stop, rfl, rfl⟩
    · rintro (⟨stop', hstop, rfl⟩ | ⟨v, hv, -⟩)
      · cases hstop; rfl
      · cases hv
  | ok v =>
    have hasks := asks_load hread
    unfold Asks at hasks
    constructor
    · intro h
      refine .inr ⟨v, rfl, ?_⟩
      split at hasks
      · obtain ⟨i, hi⟩ := hasks
        cases h.symm.trans hi
      · rename_i e' hfirst
        cases h.symm.trans hasks
        exact hfirst
    · rintro (⟨stop, hstop, -⟩ | ⟨v', hv, hfirst⟩)
      · cases hstop
      · cases hv
        rw [hfirst] at hasks
        exact hasks

/-- **When a document breaks the loader.** A text is loaded, or refused with an error that says
what is wrong with it, in all cases but two: as JSON it is nested too deep or has an integer that is
too long, or the first demand that it does not meet finds a misfit. -/
theorem load_escapes_iff (text : Text) :
    (∃ e, Interface.load text = .error e ∧ e.isReported = false)
      ↔ (∃ stop, JsonText.read text = .error stop ∧ ∀ fault place, stop ≠ .misplaced fault place)
        ∨ ∃ v demand, JsonText.read text = .ok v
          ∧ (demands v).find? (·.fault?.isSome) = some demand ∧ demand.isMisfit = true := by
  constructor
  · rintro ⟨e, he, hreported⟩
    rcases (load_error_iff text e).mp he with ⟨stop, hstop, rfl⟩ | ⟨v, hv, hfirst⟩
    · refine .inl ⟨stop, hstop, ?_⟩
      rintro fault place rfl
      cases hreported
    · rw [firstFault_eq, Option.bind_eq_some_iff] at hfirst
      obtain ⟨demand, hdemand, hfault⟩ := hfirst
      refine .inr ⟨v, demand, hv, hdemand, ?_⟩
      rw [isReported_of_fault hfault] at hreported
      simpa using hreported
  · rintro (⟨stop, hstop, hother⟩ | ⟨v, demand, hv, hdemand, hmisfit⟩)
    · refine ⟨ofJson stop, load_of_json_error hstop, ?_⟩
      cases stop with
      | misplaced fault place => exact absurd rfl (hother fault place)
      | longInteger digits => rfl
      | tooDeep => rfl
    · have hunmet := List.find?_some hdemand
      obtain ⟨e, hfault⟩ := Option.isSome_iff_exists.mp hunmet
      refine ⟨e, (load_error_iff text e).mpr (.inr ⟨v, hv, ?_⟩), ?_⟩
      · rw [firstFault_eq, hdemand]
        exact hfault
      · rw [isReported_of_fault hfault, hmisfit]
        rfl

/-- A number stands where the aliased type belongs. -/
example : (match Interface.load
      "\x7b\"types\":[\x7b\"kind\":\"alias\",\"name\":\"A\",\"type\":5\x7d]\x7d" with
    | .error e => e.isReported
    | .ok _ => true) = false := by decide +kernel

end Document

end WasmBridge
