import WasmBridge.Proofs.Schema.Resolution
import WasmBridge.Proofs.Wire.Faults

/-!
# Schemas that the codec can rely on

A type map is sound if whatever its declarations refer to resolves in the scope of their
parameters, and if variants carry nothing but units, structs and tuples. That is said of
each declaration by itself. What it is good for is said of places: a place is sound if the
codec finds there all that it looks for, every ident resolved and every parameter bound.
From a sound place it only goes on to sound ones, so none of its calls, however deep, fails
for want of a definition or an argument.
-/

namespace WasmBridge

/-- What a variant carries is a unit, a struct or a tuple, of idents that resolve under the
parameters of its enum. -/
def Variant.Sound (types : TypeMap Text) (scope : List Text) (variant : Variant Text) : Prop :=
  match variant.payload with
  | .unit _ => True
  | .struct _ _ fields _ => ∀ f ∈ fields, Resolves types scope f.type
  | .tuple items => ∀ item ∈ items, Resolves types scope item
  | _ => False

/-- What a definition refers to resolves under its own parameters. -/
def TypeDef.Sound (types : TypeMap Text) : TypeDef Text → Prop
  | .synonym _ aliased => Resolves types [] aliased
  | .struct _ generics fields _ => ∀ f ∈ fields, Resolves types generics f.type
  | .enum _ generics variants _ _ => ∀ variant ∈ variants, variant.Sound types generics
  | .generic _ => False
  | _ => True

/-- All definitions that can be found are sound. -/
def TypeMap.Sound (types : TypeMap Text) : Prop :=
  ∀ name type, types.find? name = some type → type.Sound types

/-- Whatever the codec looks for in a place is there. -/
def Place.Sound (types : TypeMap Text) : Place → Prop
  | .type ident => Resolves types [] ident
  | .payload variant bs => ∃ scope, variant.Sound types scope ∧ Binds types scope bs

/-- The error says that the schema does not hold together. -/
def CodecError.OfSchema : CodecError → Prop
  | .schema _ | .wire (.unboundParameter _) | .wire (.unsupportedPayload _) => True
  | _ => False

variable {types : TypeMap Text} {ident : TypeIdent} {type : TypeDef Text} {place next : Place}

/-- A sound definition is found, with an argument for each of its parameters. -/
theorem sound_of_resolve (htypes : types.Sound) (h : types.resolve ident = .ok type) :
    (type.Sound types ∧ ident.args.length = type.generics.length ∧ ∀ items, type ≠ .tuple items)
      ∨ type = .tuple ident.args :=
  (find?_of_resolve h).imp_left fun ⟨hfind, h⟩ => ⟨htypes _ _ hfind, h⟩

theorem Resolves.headD (h : Resolves types [] ident) (hargs : 0 < ident.args.length) :
    Resolves types [] (ident.args.headD default) := by
  cases hsplit : ident.args with
  | nil => rw [hsplit] at hargs; cases hargs
  | cons a as => exact h.of_mem_args a (hsplit ▸ List.mem_cons_self)

theorem Resolves.second (h : Resolves types [] ident) (hargs : 1 < ident.args.length) :
    Resolves types [] ((ident.args.drop 1).headD default) := by
  match hsplit : ident.args with
  | [] | [_] => rw [hsplit] at hargs; simp at hargs
  | a :: b :: rest =>
    exact h.of_mem_args b (hsplit ▸ List.mem_cons_of_mem _ List.mem_cons_self)

/-- **From a sound place the codec goes on to sound places.** -/
theorem Place.Sound.inner (htypes : types.Sound) (hplace : place.Sound types)
    (hnext : next ∈ place.inner types) : next.Sound types := by
  cases place with
  | type ident =>
    obtain ⟨type, hresolve⟩ := Resolves.exists_type hplace
    simp only [Place.inner, hresolve] at hnext
    obtain ⟨hsound, harity, htuple⟩ | rfl := sound_of_resolve htypes hresolve
    · have hbinds : ∀ generics : List Text, ident.args.length = generics.length →
          Binds types generics (bindings generics ident) :=
        fun generics hlength => binds_bindings hlength (Resolves.of_mem_args hplace)
      cases type with
      | synonym name aliased => cases List.mem_singleton.mp hnext; exact hsound
      | container name inner | list name inner =>
        cases List.mem_singleton.mp hnext
        exact Resolves.headD hplace (by rw [harity]; exact Nat.one_pos)
      | map name key value =>
        rcases List.mem_pair.mp hnext with rfl | rfl
        · exact Resolves.headD hplace (by rw [harity]; exact Nat.two_pos)
        · exact Resolves.second hplace (by rw [harity]; exact Nat.one_lt_two)
      | struct name generics fields doc =>
        obtain ⟨f, hf, rfl⟩ := List.mem_map.mp hnext
        exact (hsound f hf).substitute (hbinds generics harity)
      | enum name generics variants options doc =>
        obtain ⟨variant, hvariant, rfl⟩ := List.mem_map.mp hnext
        exact ⟨generics, hsound variant hvariant, hbinds generics harity⟩
      | tuple items => exact absurd rfl (htuple items)
      | _ => cases hnext
    · obtain ⟨item, hitem, rfl⟩ := List.mem_map.mp hnext
      exact Resolves.of_mem_args hplace item hitem
  | payload variant bs =>
    obtain ⟨scope, hsound, hbinds⟩ := hplace
    unfold Variant.Sound at hsound
    simp only [Place.inner] at hnext
    split at hnext
    · rename_i hpayload
      rw [hpayload] at hsound
      obtain ⟨f, hf, rfl⟩ := List.mem_map.mp hnext
      exact (hsound f hf).substitute hbinds
    · rename_i hpayload
      rw [hpayload] at hsound
      obtain ⟨item, hitem, rfl⟩ := List.mem_map.mp hnext
      exact (hsound item hitem).substitute hbinds
    · cases hnext

theorem Place.Sound.reaches (htypes : types.Sound) (hplace : place.Sound types)
    (h : place.Reaches types next) : next.Sound types := by
  induction h with
  | refl => exact hplace
  | tail _ hnext ih => exact ih.inner htypes hnext

/-- In a sound place no fault is one of the schema. -/
theorem Place.Sound.fault {d : Direction} {room : Nat} {v : Value} {e : CodecError}
    (htypes : types.Sound) (hplace : place.Sound types) (h : Fault types d room place v e) :
    ¬ e.OfSchema := by
  cases h with
  | misfit hcause =>
    rename_i cause
    cases cause <;> first | exact id | exact absurd hcause id
  | unresolved hresolve =>
    obtain ⟨type, hok⟩ := Resolves.exists_type hplace
    rw [hok] at hresolve
    cases hresolve
  | unbound hresolve =>
    obtain ⟨hsound, -⟩ | heq := sound_of_resolve htypes hresolve
    · exact absurd hsound id
    · cases heq
  | unsupported hpayload =>
    obtain ⟨scope, hsound, -⟩ := hplace
    unfold Variant.Sound at hsound
    split at hsound
    · rename_i heq; rw [heq] at hpayload; cases hpayload
    · rename_i heq; rw [heq] at hpayload; cases hpayload
    · rename_i heq; rw [heq] at hpayload; cases hpayload
    · exact absurd hsound id
  | _ => exact id

/-- **No run from a sound place fails for want of a definition or an argument.** -/
theorem Place.Sound.run {d : Direction} {room : Nat} {v : Value} {e : CodecError}
    (htypes : types.Sound) (hplace : place.Sound types) (h : d.run types room v place = .error e) :
    ¬ e.OfSchema :=
  run_failsOnly_of_reaches (P := fun e => ¬ e.OfSchema)
    (fun _ hreaches _ _ _ hfault => (hplace.reaches htypes hreaches).fault htypes hfault)
    room v e h

end WasmBridge
