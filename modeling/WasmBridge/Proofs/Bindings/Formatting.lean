import WasmBridge.Bindings.RustType
import WasmBridge.Bindings.TypeScriptType
import WasmBridge.Proofs.Schema.Resolution
import WasmBridge.Proofs.TypeIdent.Writing

/-!
# Types that can be written

Both languages write a type from its head on: first it is found out what the head stands for, then
the arguments are written, and at last they are put together. Only the last step depends on the
language, and it cannot fail, since by then each argument is known to be there. So whether a type
can be written, and what is wrong with it if not, is the same in both: it depends on the first part
that stands for nothing, and on the room that is left there.
-/

namespace WasmBridge

open Text Outcome

variable {types : TypeMap Text} {scope : List Text} {ident part : TypeIdent}
  {idents : List TypeIdent} {type : TypeDef Text} {cause e : SchemaError} {room : Nat}

/-! ## Idents that stand for something -/

/-- A parameter that is applied to nothing, or a known name that is applied to as many idents as its
definition has parameters. A tuple has any number of items. -/
def TypeMap.Admits (types : TypeMap Text) (scope : List Text) (ident : TypeIdent) : Prop :=
  (ident.name ∈ scope ∧ ident.args = [])
    ∨ (ident.name ∉ scope ∧ ∃ named, types.find? ident.name = some named
      ∧ ((∃ items, named = .tuple items) ∨ ident.args.length = named.generics.length))

theorem admits_iff : types.Admits scope ident ↔ ∃ type, types.resolve ident scope = .ok type := by
  unfold TypeMap.Admits TypeMap.resolve
  by_cases hmem : ident.name ∈ scope
  · rw [if_pos (any_isText.mpr hmem), ← List.isEmpty_iff]
    by_cases hempty : ident.args.isEmpty = true <;> simp [hmem, hempty]
  · rw [if_neg (mt any_isText.mp hmem)]
    cases types.find? ident.name with
    | none => simp [hmem]
    | some named =>
      by_cases harity : ident.args.length = named.generics.length
      · cases named <;> simp [hmem, harity]
      · cases named <;> simp [hmem, harity]

/-- An ident resolves throughout if each of its parts stands for something. -/
theorem resolves_of_parts : ∀ ident : TypeIdent, (∀ part ∈ ident.parts, types.Admits scope part) →
    Resolves types scope ident
  | ⟨name, args⟩, h => by
    obtain ⟨type, head⟩ := admits_iff.mp (h _ (TypeIdent.self_mem_parts _))
    refine .intro head fun a ha => ?_
    exact resolves_of_parts a fun part hpart =>
      h part (TypeIdent.mem_parts.mpr (.inr ⟨a, ha, hpart⟩))

/-- Of an ident that stands for nothing there is something to say, if there is room for it. -/
theorem resolve_worded (h : types.resolve ident scope = .error cause)
    (hroom : cause.messageRoom ≤ callRoom) : ∃ message, cause.message? = some message := by
  have hshown : ident.textRoom ≤ callRoom → ident.text? = some ident.text := fun h => if_pos h
  unfold TypeMap.resolve at h
  split at h
  · split at h
    · cases h
    · cases h
      exact ⟨_, rfl⟩
  · split at h
    · cases h
      exact ⟨_, by rw [SchemaError.message?, hshown hroom]; rfl⟩
    · cases h
    · split at h
      · cases h
      · cases h
        exact ⟨_, by rw [SchemaError.message?, hshown hroom]; rfl⟩

/-! ## Arguments that are there -/

/-- How many arguments a type is written with one by one. -/
def TypeDef.takes : TypeDef Text → Nat
  | .container .. | .list .. => 1
  | .map .. => 2
  | _ => 0

theorem takes_le_generics (type : TypeDef Text) : type.takes ≤ type.generics.length := by
  cases type <;> simp [TypeDef.takes, TypeDef.generics]

/-- What an ident stands for takes no argument that the ident does not have. -/
theorem takes_le_of_resolve (h : types.resolve ident scope = .ok type) :
    type.takes ≤ ident.args.length := by
  unfold TypeMap.resolve at h
  split at h
  · split at h
    · cases h
      exact Nat.zero_le _
    · cases h
  · split at h
    · cases h
    · cases h
      exact Nat.zero_le _
    · split at h
      · rename_i harity
        cases h
        rw [harity]
        exact takes_le_generics _
      · cases h

theorem displayAt_ok {labels : List Text} {place : Nat} (h : place < labels.length) :
    Label.displayAt labels place = .ok (labels[place]) := by
  rw [Label.displayAt, List.getElem?_eq_getElem h]
  rfl

/-- Nothing is missing where the arguments are put together. -/
theorem rustText_ok {args : List Text} (h : type.takes ≤ args.length) :
    ∃ shown, Rust.typeText type args = .ok shown := by
  unfold Rust.typeText
  cases type with
  | container | list =>
    simp only [displayAt_ok (show 0 < args.length from h)]
    exact ⟨_, rfl⟩
  | map =>
    simp only [displayAt_ok (show 1 < args.length from h),
      displayAt_ok (show 0 < args.length from Nat.lt_of_succ_lt h)]
    exact ⟨_, rfl⟩
  | synonym | struct | enum | tuple =>
    simp only [Label.texts_ok]
    split <;> exact ⟨_, rfl⟩
  | custom | generic | primitive | string | unit => exact ⟨_, rfl⟩

theorem scriptText_ok {args : List Text} (h : type.takes ≤ args.length) :
    ∃ shown, TypeScript.typeText type args = .ok shown := by
  unfold TypeScript.typeText
  cases type with
  | container | list =>
    simp only [displayAt_ok (show 0 < args.length from h)]
    exact ⟨_, rfl⟩
  | map =>
    simp only [displayAt_ok (show 1 < args.length from h),
      displayAt_ok (show 0 < args.length from Nat.lt_of_succ_lt h)]
    exact ⟨_, rfl⟩
  | synonym | struct | enum =>
    simp only [Label.texts_ok]
    split <;> exact ⟨_, rfl⟩
  | tuple =>
    simp only [Label.texts_ok]
    exact ⟨_, rfl⟩
  | custom | generic | primitive | string | unit => exact ⟨_, rfl⟩

/-! ## From the head on -/

/-- How types are written in some language. -/
structure TypeWriter (types : TypeMap Text) (scope : List Text) where
  /-- A type with its arguments. -/
  put : (type : TypeDef Text) → (args : List Text) → Except SchemaError Text
  one : (room : Nat) → (ident : TypeIdent) → Except SchemaError Text
  all : (room : Nat) → (idents : List TypeIdent) → Except SchemaError (List Text)
  put_ok : ∀ {type args}, type.takes ≤ args.length → ∃ shown, put type args = .ok shown
  one_eq : ∀ room name args, one room ⟨name, args⟩ =
    if room < 2 then .error .tooDeep
    else do
      let type ← (types.resolve ⟨name, args⟩ scope).mapError (.within (room - 3))
      let args ← all (room - 2) args
      put type args
  all_nil : ∀ room, all room [] = .ok []
  all_cons : ∀ room a as, all room (a :: as) = do return (← one room a) :: (← all room as)

/-- Types in Rust. -/
def Rust.typeWriter (types : TypeMap Text) (scope : List Text) : TypeWriter types scope where
  put := typeText
  one := typeWithin types scope
  all := typesWithin types scope
  put_ok := rustText_ok
  one_eq _ _ _ := by rw [typeWithin]
  all_nil _ := by rw [typesWithin]
  all_cons _ _ _ := by rw [typesWithin]

/-- Types in TypeScript. -/
def TypeScript.typeWriter (types : TypeMap Text) (scope : List Text) : TypeWriter types scope where
  put := typeText
  one := typeWithin types scope
  all := typesWithin types scope
  put_ok := scriptText_ok
  one_eq _ _ _ := by rw [typeWithin]
  all_nil _ := by rw [typesWithin]
  all_cons _ _ _ := by rw [typesWithin]

mutual

/-- The parts of an ident in the order in which they are come to, with the room that is left. -/
def TypeIdent.visits : (room : Nat) → TypeIdent → List (Nat × TypeIdent)
  | room, ⟨name, args⟩ => (room, ⟨name, args⟩) :: visitsAll (room - 2) args

/-- The parts of several idents, with the room that is left there. -/
def TypeIdent.visitsAll : (room : Nat) → List TypeIdent → List (Nat × TypeIdent)
  | _, [] => []
  | room, a :: as => visits room a ++ visitsAll room as

end

/-- What it takes to come past a part. -/
def TypeMap.pass (types : TypeMap Text) (scope : List Text) :
    (visited : Nat × TypeIdent) → Except SchemaError Unit
  | (room, part) =>
    if room < 2 then .error .tooDeep
    else do let _ ← (types.resolve part scope).mapError (.within (room - 3))

mutual

theorem map_visits : ∀ (room : Nat) (ident : TypeIdent),
    (ident.visits room).map (·.2) = ident.parts
  | room, ⟨name, args⟩ => by
    rw [TypeIdent.visits, TypeIdent.parts, List.map_cons, map_visitsAll (room - 2) args]

theorem map_visitsAll : ∀ (room : Nat) (idents : List TypeIdent),
    (TypeIdent.visitsAll room idents).map (·.2) = TypeIdent.partsAll idents
  | _, [] => rfl
  | room, a :: as => by
    rw [TypeIdent.visitsAll, TypeIdent.partsAll, List.map_append, map_visits room a,
      map_visitsAll room as]

end

mutual

/-- Each step down takes two calls, and there are fewer steps than idents that stand in each
other. -/
theorem room_of_mem_visits : ∀ (room : Nat) (ident : TypeIdent), ∀ visited ∈ ident.visits room,
    visited.1 ≤ room ∧ room + 2 ≤ visited.1 + 2 * ident.height
  | room, ⟨name, args⟩, visited, h => by
    rw [TypeIdent.visits] at h
    rw [TypeIdent.height]
    obtain rfl | h := List.mem_cons.mp h
    · omega
    · have := room_of_mem_visitsAll (room - 2) args visited h
      omega

theorem room_of_mem_visitsAll : ∀ (room : Nat) (idents : List TypeIdent),
    ∀ visited ∈ TypeIdent.visitsAll room idents,
      visited.1 ≤ room ∧ room + 2 ≤ visited.1 + 2 * TypeIdent.heightAll idents
  | room, a :: as, visited, h => by
    rw [TypeIdent.visitsAll] at h
    obtain h | h := List.mem_append.mp h
    · have ha : a.height ≤ TypeIdent.heightAll (a :: as) := Nat.le_max_left _ _
      have := room_of_mem_visits room a visited h
      omega
    · have has : TypeIdent.heightAll as ≤ TypeIdent.heightAll (a :: as) := Nat.le_max_right _ _
      have := room_of_mem_visitsAll room as visited h
      omega

end

theorem admits_of_pass (h : types.pass scope (room, part) = .ok ()) :
    types.Admits scope part := by
  rw [TypeMap.pass] at h
  split at h
  · cases h
  · obtain ⟨type, hresolve, -⟩ := bind_eq_ok.mp h
    exact admits_iff.mpr ⟨type, mapError_eq_ok.mp hresolve⟩

/-- A part cannot be come past without room to find out what it stands for, or if it stands for
nothing. -/
theorem pass_eq_error (h : types.pass scope (room, part) = .error e) :
    (e = .tooDeep ∧ room < 2) ∨
      ∃ cause, types.resolve part scope = .error cause ∧ e = cause.within (room - 3) := by
  rw [TypeMap.pass] at h
  split at h
  · rename_i hroom
    cases h
    exact .inl ⟨rfl, hroom⟩
  · cases hresolve : types.resolve part scope with
    | ok type =>
      rw [hresolve] at h
      cases h
    | error cause =>
      rw [hresolve] at h
      cases h
      exact .inr ⟨cause, rfl, rfl⟩

namespace TypeWriter

variable (w : TypeWriter types scope)

theorem length_all {shown : List Text} (h : w.all room idents = .ok shown) :
    shown.length = idents.length := by
  induction idents generalizing shown with
  | nil =>
    rw [w.all_nil] at h
    cases h
    rfl
  | cons a as ih =>
    rw [w.all_cons] at h
    obtain ⟨first, -, h⟩ := bind_eq_ok.mp h
    obtain ⟨rest, hrest, h⟩ := bind_eq_ok.mp h
    cases h
    rw [List.length_cons, List.length_cons, ih hrest]

mutual

/-- Writing a type fails where a part cannot be come past, and succeeds if there is none. -/
theorem void_one : ∀ (room : Nat) (ident : TypeIdent),
    (fun _ => ()) <$> w.one room ident = (ident.visits room).forM (types.pass scope)
  | room, ⟨name, args⟩ => by
    have hargs := void_all (room - 2) args
    rw [w.one_eq, TypeIdent.visits, List.forM, TypeMap.pass]
    split
    · rfl
    · cases hresolve : types.resolve ⟨name, args⟩ scope with
      | error cause => rfl
      | ok type =>
        -- Once the head stands for something, only the arguments can fail.
        have htakes := takes_le_of_resolve hresolve
        cases hall : w.all (room - 2) args with
        | error e =>
          rw [hall] at hargs
          exact hargs
        | ok shown =>
          rw [hall] at hargs
          obtain ⟨text, htext⟩ := w.put_ok (htakes.trans_eq (w.length_all hall).symm)
          simp only [Except.mapError, bind_ok, htext]
          exact hargs

theorem void_all : ∀ (room : Nat) (idents : List TypeIdent),
    (fun _ => ()) <$> w.all room idents
      = (TypeIdent.visitsAll room idents).forM (types.pass scope)
  | room, [] => by rw [w.all_nil]; rfl
  | room, a :: as => by
    have ha := void_one room a
    have has := void_all room as
    have happend : (a.visits room ++ TypeIdent.visitsAll room as).forM (types.pass scope)
        = ((a.visits room).forM (types.pass scope) >>= fun _ =>
          (TypeIdent.visitsAll room as).forM (types.pass scope)) := List.forM_append
    rw [w.all_cons, TypeIdent.visitsAll, happend, ← ha, ← has]
    cases w.one room a with
    | error e => rfl
    | ok text => cases w.all room as <;> rfl

end

theorem error_iff : w.one room ident = .error e
    ↔ (ident.visits room).forM (types.pass scope) = .error e := by
  rw [← w.void_one, map_eq_error]

theorem exists_ok_iff : (∃ shown, w.one room ident = .ok shown)
    ↔ (ident.visits room).forM (types.pass scope) = .ok () := by
  rw [← w.void_one, map_eq_ok]
  simp

/-- What is written stands for something in each of its parts. -/
theorem admits {shown : Text} (h : w.one room ident = .ok shown) :
    ∀ part ∈ ident.parts, types.Admits scope part := by
  intro part hpart
  rw [← map_visits room ident] at hpart
  obtain ⟨visited, hvisited, rfl⟩ := List.mem_map.mp hpart
  exact admits_of_pass (of_mem_forM (w.exists_ok_iff.mp ⟨shown, h⟩) hvisited)

theorem resolves {shown : Text} (h : w.one room ident = .ok shown) : Resolves types scope ident :=
  resolves_of_parts ident (w.admits h)

/-- What is not written has a part that stands for nothing, or there is no room. -/
theorem error_cases (h : w.one room ident = .error e) :
    e = .tooDeep ∨ ∃ part, types.resolve part scope = .error e := by
  obtain ⟨_, ⟨left, part⟩, _, _, _, hpart⟩ := forM_eq_error_iff.mp (w.error_iff.mp h)
  obtain ⟨rfl, -⟩ | ⟨cause, hcause, rfl⟩ := pass_eq_error hpart
  · exact .inl rfl
  · unfold SchemaError.within
    split
    · exact .inr ⟨part, hcause⟩
    · exact .inl rfl

end TypeWriter

/-! ## What both languages agree on -/

/-- The first part of an ident, from its head on, that stands for nothing. -/
def FirstUnresolved (types : TypeMap Text) (scope : List Text) (ident part : TypeIdent)
    (cause : SchemaError) : Prop :=
  ∃ before after, ident.parts = before ++ part :: after
    ∧ (∀ earlier ∈ before, types.Admits scope earlier) ∧ types.resolve part scope = .error cause

/-- **Both languages write the same idents.** An ident each of whose parts stands for something is
written in both. If a part does not, both are refused for the first one, in the same words. Neither
fails otherwise, unless there is no room: two calls are needed for each step down, and as many to
word a fault as it takes to write the ident that is shown there. -/
theorem languages_agree (types : TypeMap Text) (scope : List Text) (ident : TypeIdent) :
    ((∀ part ∈ ident.parts, types.Admits scope part)
        ∧ ∃ rust script, Rust.typeOf types scope ident = .ok rust
          ∧ TypeScript.typeOf types scope ident = .ok script)
      ∨ (∃ part cause message, FirstUnresolved types scope ident part cause
        ∧ cause.message? = some message
        ∧ Rust.typeOf types scope ident = .error cause
        ∧ TypeScript.typeOf types scope ident = .error cause)
      ∨ (Rust.typeOf types scope ident = .error .tooDeep
        ∧ TypeScript.typeOf types scope ident = .error .tooDeep
        ∧ (callRoom < 2 * ident.height ∨ ∃ part cause, FirstUnresolved types scope ident part cause
          ∧ callRoom < 2 * ident.height + 1 + part.textRoom)) := by
  have hparts := map_visits callRoom ident
  cases hrun : (ident.visits callRoom).forM (types.pass scope) with
  | ok _ =>
    obtain ⟨rust, hrust⟩ := (Rust.typeWriter types scope).exists_ok_iff.mpr hrun
    obtain ⟨script, hscript⟩ := (TypeScript.typeWriter types scope).exists_ok_iff.mpr hrun
    exact .inl ⟨(Rust.typeWriter types scope).admits hrust, rust, script, hrust, hscript⟩
  | error e =>
    have hrust := (Rust.typeWriter types scope).error_iff.mpr hrun
    have hscript := (TypeScript.typeWriter types scope).error_iff.mpr hrun
    -- The first visit that fails is the same in both languages.
    obtain ⟨before, ⟨room, part⟩, after, hsplit, hbefore, hpart⟩ := forM_eq_error_iff.mp hrun
    have hvisited : (room, part) ∈ ident.visits callRoom := by simp [hsplit]
    obtain ⟨hle, hroom⟩ := room_of_mem_visits callRoom ident (room, part) hvisited
    dsimp only at hle hroom
    have hfirst : ∀ cause, types.resolve part scope = .error cause →
        FirstUnresolved types scope ident part cause := by
      intro cause hcause
      refine ⟨before.map (·.2), after.map (·.2), ?_, fun earlier hearlier => ?_, hcause⟩
      · rw [← hparts, hsplit, List.map_append, List.map_cons]
      · obtain ⟨visited, hvisited, rfl⟩ := List.mem_map.mp hearlier
        exact admits_of_pass (hbefore visited hvisited)
    obtain ⟨rfl, hlack⟩ | ⟨cause, hcause, rfl⟩ := pass_eq_error hpart
    · exact .inr (.inr ⟨hrust, hscript, .inl (by omega)⟩)
    · -- The fault is known by now, but there may be no room to word it.
      have hshown := resolve_messageRoom_le hcause
      by_cases hwords : cause.messageRoom ≤ room - 3
      · rw [SchemaError.within, if_pos hwords] at hrust hscript
        obtain ⟨message, hmessage⟩ := resolve_worded hcause (by omega)
        exact .inr (.inl ⟨part, cause, message, hfirst cause hcause, hmessage, hrust, hscript⟩)
      · rw [SchemaError.within, if_neg hwords] at hrust hscript
        exact .inr (.inr ⟨hrust, hscript, .inr ⟨part, cause, hfirst cause hcause, by omega⟩⟩)

/-- A head that is not known cannot be complained of where there is no room to show what it is
applied to. -/
theorem missing_head_exhausts_room :
    let types : TypeMap Text := .builtin
    let ident : TypeIdent := ⟨"Missing", [TypeIdent.nestedList 300]⟩
    FirstUnresolved types [] ident ident (.unresolved ident)
      ∧ Rust.typeOf types [] ident = .error .tooDeep
      ∧ TypeScript.typeOf types [] ident = .error .tooDeep := by
  intro types ident
  have hresolve : types.resolve ident = .error (.unresolved ident) := rfl
  have hroom : ident.textRoom = 1204 := by
    have htuple : ("Missing" : Text) ≠ TypeIdent.tupleName := by decide
    have hnone : TypeIdent.textRoomAll [] = 0 := rfl
    simp [ident, TypeIdent.textRoom_applied, TypeIdent.textRoomAll_cons, hnone, htuple,
      (TypeIdent.rooms_nestedList 300).2]
  have htooDeep : ∀ w : TypeWriter types [], w.one callRoom ident = .error .tooDeep := by
    intro w
    rw [w.one_eq, if_neg (by decide), hresolve, Except.mapError, SchemaError.within,
      SchemaError.messageRoom, hroom, if_neg (by decide), bind_error]
  refine ⟨⟨[], TypeIdent.partsAll ident.args, rfl, List.forall_mem_nil _, hresolve⟩, ?_, ?_⟩
  · exact htooDeep (Rust.typeWriter _ _)
  · exact htooDeep (TypeScript.typeWriter _ _)

end WasmBridge
