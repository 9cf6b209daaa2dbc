import WasmBridge.Proofs.Wire.Descent
import WasmBridge.Proofs.Wire.Unpacked
import WasmBridge.Wire.Codec

/-!
# Bytes from anyone

What decoding can fail with when nothing is known about the bytes. A fault that is no
wire error would need something that never comes out of bytes: an integer that no float
is near, or a key that is decoded to something that is no key. What is left is a map that
cannot be unpacked, since a list or a map is one of its keys, and data that is nested
deeper than there is room.

There is always room enough for some bytes. Each call is about a smaller value, or hands
the value on along a chain that ends.
-/

namespace WasmBridge

open Outcome

variable {types : TypeMap Text} {room : Nat} {place : Place} {v k : Value} {part : Place × Value}

/-! ## Numbers -/

/-- There is a float near every integer of 64 bits. -/
theorem ofInt?_ne_none {n : Int} (least : -2 ^ 63 ≤ n) (greatest : n < 2 ^ 64) :
    Binary64.ofInt? n ≠ none := by
  have hmagnitude : n.natAbs < 2 ^ 64 := by omega
  unfold Binary64.ofInt?
  dsimp only
  split
  · simp
  · rename_i hzero
    have hwidth : n.natAbs.log2 < 64 := (Nat.log2_lt hzero).mpr hmagnitude
    by_cases hnarrow : n.natAbs.log2 + 1 ≤ 53
    · simp only [hnarrow, if_true]
      rw [if_neg (by omega)]
      simp
    · simp only [hnarrow, if_false]
      rw [if_neg]
      · simp
      · split <;> omega

/-! ## Keys -/

theorem firstFit_eq_ok {enum : Text} {payloadOf : Variant Text → Except CodecError Value}
    {variants : List (Variant Text)} (h : firstFit room enum payloadOf variants = .ok k) :
    ∃ variant ∈ variants, ∃ payload, payloadOf variant = .ok payload
      ∧ k = .variant variant.name payload := by
  induction variants with
  | nil => cases h
  | cons variant rest ih =>
    rw [firstFit] at h
    split at h
    · rename_i payload hpayload
      cases h
      exact ⟨variant, List.mem_cons_self, payload, hpayload, rfl⟩
    · obtain ⟨found, hmem, hfound⟩ := ih h
      exact ⟨found, List.mem_cons_of_mem _ hmem, hfound⟩
    · cases h

theorem tupleFromWire_key {idents : List TypeIdent} {ident : TypeIdent} (hkey : v.isKey = true) :
    tupleFromWire types room v idents ident ≠ .ok k := by
  intro h
  cases room with
  | zero => cases h
  | succ room =>
    cases v with
    | list => cases hkey
    | _ => cases h

theorem structFromWire_key {name : Text} {fields : List (Field Text)}
    {bs : List (Text × TypeIdent)} (hkey : v.isKey = true) :
    structFromWire types room v name fields bs ≠ .ok k := by
  intro h
  cases room with
  | zero => cases h
  | succ room =>
    cases v with
    | map => cases hkey
    | _ => cases h

theorem isKey_of_enumFromWire {ident : TypeIdent} {enum : Text} {variants : List (Variant Text)}
    {options : EnumOptions Text} {bs : List (Text × TypeIdent)}
    (ih : ∀ r < room, ∀ (variant : Variant Text) (v k : Value), v.isKey = true →
      payloadFromWire types r v variant bs = .ok k → k.isKey = true)
    (hkey : v.isKey = true)
    (h : enumFromWire types room v ident enum variants options bs = .ok k) : k.isKey = true := by
  cases room with
  | zero => cases h
  | succ r =>
    unfold enumFromWire at h
    split at h
    · obtain ⟨variant, _, payload, hpayload, rfl⟩ := firstFit_eq_ok h
      exact ih r (Nat.lt_succ_self r) variant v payload hkey hpayload
    · split at h
      · obtain ⟨variant, _, h⟩ := bind_eq_ok.mp h
        obtain ⟨payload, hpayload, heq⟩ := bind_eq_ok.mp h
        cases heq
        exact ih r (Nat.lt_succ_self r) variant .null payload rfl hpayload
      · cases hkey
      · cases h
      · cases h
    · split at h
      · cases hkey
      · cases h
    · split at h
      · cases hkey
      · cases h

/-- **A key is decoded to a key**, whatever it is taken for. -/
theorem isKey_of_decoded (hkey : v.isKey = true)
    (h : Direction.decoding.run types room v place = .ok k) : k.isKey = true := by
  induction room using Nat.strongRecOn generalizing v place k with
  | ind room ih =>
    cases place with
    | type ident =>
      replace h : fromWire types room v ident = .ok k := h
      cases room with
      | zero => cases h
      | succ r =>
        have ih' : ∀ (v k : Value) (ident : TypeIdent), v.isKey = true →
            fromWire types r v ident = .ok k → k.isKey = true :=
          fun v k ident hkey h => ih r (Nat.lt_succ_self r) hkey
            (show Direction.decoding.run types r v (.type ident) = .ok k from h)
        unfold fromWire at h
        obtain ⟨type, _, h⟩ := bind_eq_ok.mp h
        cases type with
        | primitive p =>
          rcases checkPrimitive_eq_ok h with ⟨-, b, rfl, rfl⟩ | ⟨-, x, rfl, -⟩ | ⟨-, -, n, rfl, rfl⟩
          · rfl
          · rfl
          · rfl
        | string name =>
          obtain ⟨s, rfl, rfl⟩ := checkText_eq_ok h
          rfl
        | unit name =>
          dsimp only at h
          split at h
          · cases h; rfl
          · cases h
        | synonym name aliased => exact ih' v k aliased hkey h
        | container name inner =>
          dsimp only at h
          split at h
          · cases h; rfl
          · exact ih' v k _ hkey h
        | custom name args rust typescript =>
          cases h
          exact hkey
        | enum name generics variants options doc =>
          refine isKey_of_enumFromWire (fun r' hr variant v k hkey h => ?_) hkey h
          exact ih r' (Nat.lt_succ_of_lt hr) hkey
            (show Direction.decoding.run types r' v (.payload variant _) = .ok k from h)
        | tuple items => exact absurd h (tupleFromWire_key hkey)
        | struct name generics fields doc => exact absurd h (structFromWire_key hkey)
        | list | map | generic =>
          cases v with
          | list | map => cases hkey
          | _ => cases h
    | payload variant bs =>
      replace h : payloadFromWire types room v variant bs = .ok k := h
      cases room with
      | zero => cases h
      | succ r =>
        unfold payloadFromWire at h
        split at h
        · split at h
          · cases h; rfl
          · cases h
        · exact absurd h (structFromWire_key hkey)
        · exact ih r (Nat.lt_succ_self r) hkey
            (show Direction.decoding.run types r v (.type _) = .ok k from h)
        · exact absurd h (tupleFromWire_key hkey)
        · cases h

/-! ## Parts -/

/-- What decoding goes on to within a value. -/
inductive Value.Below : Value → Value → Prop where
  /-- What a variant carries that is given by its name alone. -/
  | named (s : Text) : Below .null (.str s)
  /-- A payload that is not there. -/
  | absent (entries : Entries) : Below .null (.map entries)
  | item {items : List Value} {item : Value} (h : item ∈ items) : Below item (.list items)
  | key {entries : Entries} {e : Value × Value} (h : e ∈ entries) : Below e.1 (.map entries)
  | value {entries : Entries} {e : Value × Value} (h : e ∈ entries) : Below e.2 (.map entries)
  /-- What stands beside a tag. -/
  | rest {entries : Entries} {tag : Text} {x : Value} (h : entries.findName? tag = some x) :
      Below (.map (entries.withoutName tag)) (.map entries)

/-- The variants of an enum are tried one after the other. -/
def Place.Untagged (types : TypeMap Text) (place : Place) : Prop :=
  ∃ ident enum generics variants options doc, place = .type ident
    ∧ types.resolve ident = .ok (.enum enum generics variants options doc)
    ∧ options.encoding = .untagged

theorem below_of_findName? {entries : Entries} {name : Text} {item : Value}
    (h : entries.findName? name = some item) : item.Below (.map entries) :=
  .value (Entries.mem_of_findName? h)

theorem below_of_mem_items {item : Value} (h : item ∈ Direction.decoding.items v) :
    item.Below v := by
  cases v with
  | list items => exact .item h
  | _ => cases h

theorem below_of_mem_wireVariants {variants : List (Variant Text)} {options : EnumOptions Text}
    {found : Variant Text × Value} (h : found ∈ Direction.wireVariants variants options v) :
    found.2.Below v ∨ (found.2 = v ∧ options.encoding = .untagged) := by
  unfold Direction.wireVariants at h
  dsimp only at h
  split at h
  · rename_i hencoding
    obtain ⟨variant, _, rfl⟩ := List.mem_map.mp h
    exact .inr ⟨rfl, hencoding⟩
  · obtain ⟨variant, _, rfl⟩ := List.mem_map.mp h
    exact .inl (.named _)
  · obtain ⟨variant, _, rfl⟩ := List.mem_map.mp h
    exact .inl (.value (e := (_, _)) (List.mem_singleton_self _))
  · rename_i tag content entries _
    obtain ⟨variant, _, rfl⟩ := List.mem_map.mp h
    dsimp only
    cases hfind : Entries.findName? entries content with
    | none => exact .inl (.absent _)
    | some payload => exact .inl (below_of_findName? hfind)
  · obtain ⟨variant, hfind, rfl⟩ := List.mem_map.mp h
    obtain ⟨key, hkey, _⟩ := Option.bind_eq_some_iff.mp (Option.mem_toList.mp hfind)
    exact .inl (.rest hkey)
  · cases h

/-- **Decoding goes on to what is below a value, or it hands the value on.** -/
theorem below_or_same (h : part ∈ Direction.decoding.parts types place v) :
    part.2.Below v ∨ (part.2 = v ∧ (place.PassesOn types part.1 ∨ place.Untagged types)) := by
  cases goesOn_of_mem_parts h with
  | item hitem => exact .inl (below_of_mem_items hitem)
  | key hmap hmem hpart => rw [hmap, hpart]; exact .inl (.key hmem)
  | value hmap hmem hpart => rw [hmap, hpart]; exact .inl (.value hmem)
  | payload hplace hresolve hfound =>
    rcases below_of_mem_wireVariants hfound with hbelow | ⟨heq, huntagged⟩
    · exact .inl hbelow
    · exact .inr ⟨heq, .inr ⟨_, _, _, _, _, _, hplace, hresolve, huntagged⟩⟩
  | same heq hpasses => exact .inr ⟨heq, .inl hpasses⟩

/-- What is below something plain is plain. -/
theorem Value.Below.plain {a : Value} (h : a.Below v) (hplain : v.Plain) : a.Plain := by
  cases h with
  | named | absent => exact .null
  | item h => cases hplain with | list items => exact items _ h
  | key h => cases hplain with | map _ keys _ => exact keys _ h
  | value h => cases hplain with | map _ _ values => exact values _ h
  | rest =>
    cases hplain with
    | map isKey keys values =>
      exact .map (fun e he => isKey e (List.mem_of_mem_filter he))
        (fun e he => keys e (List.mem_of_mem_filter he))
        (fun e he => values e (List.mem_of_mem_filter he))

theorem sizeOf_withoutName_le (entries : Entries) (tag : Text) :
    sizeOf (entries.withoutName tag) ≤ sizeOf entries := by
  induction entries with
  | nil => exact Nat.le_refl _
  | cons e rest ih =>
    rw [Entries.withoutName_cons]
    split
    · exact Nat.le_trans ih (by simp only [List.cons.sizeOf_spec]; omega)
    · simp only [List.cons.sizeOf_spec]
      omega

theorem sizeOf_withoutName_lt {entries : Entries} {tag : Text} {x : Value}
    (h : entries.findName? tag = some x) : sizeOf (entries.withoutName tag) < sizeOf entries := by
  induction entries with
  | nil => cases h
  | cons e rest ih =>
    rw [Entries.withoutName_cons, List.cons.sizeOf_spec]
    rw [Entries.findName?] at h
    split at h
    · rename_i hname
      have hle := sizeOf_withoutName_le rest tag
      rw [if_pos hname]
      omega
    · rename_i hname
      have hlt := ih h
      rw [if_neg hname, List.cons.sizeOf_spec]
      omega

theorem sizeOf_list_pos {α : Type} [SizeOf α] (xs : List α) : 0 < sizeOf xs := by
  cases xs with
  | nil => exact Nat.one_pos
  | cons x rest => rw [List.cons.sizeOf_spec]; omega

/-- What is below a value is smaller. -/
theorem Value.Below.sizeOf_lt {a : Value} (h : a.Below v) : sizeOf a < sizeOf v := by
  cases h with
  | named s => simpa using sizeOf_list_pos s
  | absent entries => simpa using sizeOf_list_pos entries
  | item h =>
    have := List.sizeOf_lt_of_mem h
    simp only [Value.list.sizeOf_spec]
    omega
  | @key entries e h =>
    have := List.sizeOf_lt_of_mem h
    obtain ⟨k, x⟩ := e
    simp only [Value.map.sizeOf_spec, Prod.mk.sizeOf_spec] at this ⊢
    omega
  | @value entries e h =>
    have := List.sizeOf_lt_of_mem h
    obtain ⟨k, x⟩ := e
    simp only [Value.map.sizeOf_spec, Prod.mk.sizeOf_spec] at this ⊢
    omega
  | rest h =>
    have := sizeOf_withoutName_lt h
    simp only [Value.map.sizeOf_spec]
    omega

/-- Decoding goes on to what is smaller, or it hands the value on, unless it tries variants. -/
theorem decoding_descends (htagged : ¬place.Untagged types)
    (h : part ∈ Direction.decoding.parts types place v) :
    sizeOf part.2 < sizeOf v ∨ (part.2 = v ∧ place.PassesOn types part.1) := by
  rcases below_or_same h with hbelow | ⟨heq, hpasses | huntagged⟩
  · exact .inl hbelow.sizeOf_lt
  · exact .inr ⟨heq, hpasses⟩
  · exact absurd huntagged htagged

/-! ## What can go wrong -/

/-- Each ident that the codec can get to stands for something. -/
def Place.Resolves (types : TypeMap Text) (start : Place) : Prop :=
  ∀ ident, start.Reaches types (.type ident) → ∃ type, types.resolve ident = .ok type

variable {start : Place}

theorem Place.Resolves.of_reaches (h : start.Resolves types)
    (hreaches : start.Reaches types place) : place.Resolves types :=
  fun ident hident => h ident (hreaches.trans hident)

/-- Nothing that decoding can come upon in a value stops it for good: there is a float near each
integer, and what is the key of a map can be one. -/
structure Value.Usable (v : Value) : Prop where
  ints : ∀ n, Relation.ReflTransGen (fun a b => b.Below a) v (.int n) → Binary64.ofInt? n ≠ none
  keys : ∀ entries, Relation.ReflTransGen (fun a b => b.Below a) v (.map entries) →
    ∀ e ∈ entries, e.1.isKey = true

theorem Value.Usable.below {a : Value} (h : v.Usable) (ha : a.Below v) : a.Usable where
  ints n hreach := h.ints n (.head ha hreach)
  keys entries hreach := h.keys entries (.head ha hreach)

/-- What comes out of bytes is usable. -/
theorem Value.Plain.usable (hplain : v.Plain) : v.Usable := by
  have hreached : ∀ {a}, Relation.ReflTransGen (fun a b : Value => b.Below a) v a → a.Plain := by
    intro a hreach
    induction hreach with
    | refl => exact hplain
    | tail _ hbelow ih => exact hbelow.plain ih
  constructor
  · intro n hreach
    cases hreached hreach with
    | int least greatest => exact ofInt?_ne_none least greatest
  · intro entries hreach
    cases hreached hreach with
    | map isKey _ _ => exact isKey

/-- What is usable can be decoded, or it is a wire error, or there is no room. -/
theorem usable_failsOnly (hresolves : start.Resolves types) (husable : v.Usable) :
    FailsOnly (fun e => e = .tooDeep ∨ ∃ cause, e = .wire cause)
      (Direction.decoding.run types room v start) := by
  induction room using Nat.strongRecOn generalizing start v with
  | ind room ih =>
    refine run_failsOnly (fun e hfault => ?_) fun part hpart r hr _ => ?_
    · cases hfault with
      | noRoom => exact .inl rfl
      | misfit | unbound | unsupported => exact .inr ⟨_, rfl⟩
      | unresolved h =>
        obtain ⟨type, hok⟩ := hresolves _ .refl
        rw [hok] at h
        cases h
      | floatRange h => exact absurd h (husable.ints _ .refl)
      | unhashableKey he hk hkey =>
        have hdecoded := isKey_of_decoded (husable.keys _ .refl _ he) hk
        rw [hkey] at hdecoded
        cases hdecoded
      | unorderedKeys h => cases h
    · have hnext : start.Reaches types part.1 := .single (place_mem_inner hpart)
      refine ih r hr (hresolves.of_reaches hnext) ?_
      rcases below_or_same hpart with hbelow | ⟨heq, _⟩
      · exact husable.below hbelow
      · rw [heq]
        exact husable

/-- **There is room enough for every value**, where no chain comes back and no enum is untagged. -/
theorem enough_room (hacyclic : start.Acyclic types)
    (htagged : ∀ place, start.Reaches types place → ¬place.Untagged types) (v : Value) :
    ∃ enough, ∀ room, enough ≤ room →
      FailsOnly (· ≠ .tooDeep) (Direction.decoding.run types room v start) := by
  have hends : ∀ place, start.Reaches types place → place.Ends types :=
    fun place hreaches => (hacyclic.of_reaches hreaches).ends
  exact enough_room_of_descent (fun v => sizeOf v) hends
    (fun place hreaches _ _ => decoding_descends (htagged place hreaches)) v

/-! ## Bytes -/

variable {format : PackFormat} {ident : TypeIdent} {bytes : List UInt8}

theorem unpackFor_failsOnly (hunpacks : format.Unpacks) :
    FailsOnly (fun e => e = .tooDeep ∨ (∃ cause, e = .wire cause)
        ∨ (e = .unhashableKey ∧ format.unpack bytes = .error .unhashableKey))
      (unpackFor format room ident bytes) := by
  unfold unpackFor
  cases h : format.unpack bytes with
  | ok v => exact failsOnly_ok _
  | error e =>
    rcases hunpacks.fails bytes e h with ⟨reason, rfl⟩ | rfl
    · refine failsOnly_error ?_
      split
      · exact .inr (.inl ⟨_, rfl⟩)
      · exact .inl rfl
    · exact failsOnly_error (.inr (.inr ⟨rfl, rfl⟩))

theorem unpackFor_eq_ok (h : unpackFor format room ident bytes = .ok v) :
    format.unpack bytes = .ok v := by
  unfold unpackFor at h
  split at h
  · rename_i hunpack
    cases h
    exact hunpack
  · cases h
  · cases h
  · cases h

/--
**Decoding bytes from anyone fails with a wire error**, but for two things. Let the packing
library keep the law about unpacking, and let the types that can be reached resolve, hand
nothing on in a circle and have no untagged enum among them. Then some bytes are decoded to
a value or are a wire error, unless

* the library finds a map in them with a key that no map can have, which is an error of its
  own, or
* there is no room to go through them; but some room is enough for them.
-/
theorem decode_fails_with_wire_error (hunpacks : format.Unpacks)
    (hresolves : (Place.type ident).Resolves types)
    (hacyclic : (Place.type ident).Acyclic types)
    (htagged : ∀ place, (Place.type ident).Reaches types place → ¬place.Untagged types)
    (bytes : List UInt8) :
    (∀ room, (∃ v, decode format types bytes ident room = .ok v)
        ∨ (∃ cause, decode format types bytes ident room = .error (.wire cause))
        ∨ decode format types bytes ident room = .error .unhashableKey
        ∨ decode format types bytes ident room = .error .tooDeep)
      ∧ (∀ room, decode format types bytes ident room = .error .unhashableKey
          ↔ format.unpack bytes = .error .unhashableKey)
      ∧ ∃ enough, ∀ room, enough ≤ room →
          decode format types bytes ident room ≠ .error .tooDeep := by
  have hfails : ∀ room, FailsOnly (fun e => e = .tooDeep ∨ (∃ cause, e = .wire cause)
      ∨ (e = .unhashableKey ∧ format.unpack bytes = .error .unhashableKey))
      (decode format types bytes ident room) := by
    intro room
    refine (unpackFor_failsOnly hunpacks).bind fun v hv => ?_
    have hplain := hunpacks.plain bytes v (unpackFor_eq_ok hv)
    exact (usable_failsOnly hresolves hplain.usable).imp fun e he => he.imp_right .inl
  refine ⟨fun room => ?_, fun room => ⟨fun h => ?_, fun h => ?_⟩, ?_⟩
  · cases hdecode : decode format types bytes ident room with
    | ok v => exact .inl ⟨v, rfl⟩
    | error e =>
      rcases hfails room e hdecode with rfl | ⟨cause, rfl⟩ | ⟨rfl, _⟩
      · exact .inr (.inr (.inr rfl))
      · exact .inr (.inl ⟨cause, rfl⟩)
      · exact .inr (.inr (.inl rfl))
  · rcases hfails room _ h with heq | ⟨_, heq⟩ | ⟨_, hunpack⟩
    · cases heq
    · cases heq
    · exact hunpack
  · unfold decode unpackFor
    rw [h]
    rfl
  · cases hunpack : format.unpack bytes with
    | ok v =>
      obtain ⟨enough, henough⟩ := enough_room hacyclic htagged v
      refine ⟨enough, fun room hroom h => ?_⟩
      have hrun : decode format types bytes ident room = fromWire types room v ident := by
        unfold decode unpackFor
        rw [hunpack]
        rfl
      rw [hrun] at h
      exact henough room hroom _ h rfl
    | error e =>
      -- such bytes are not taken for any type, so only the wording takes room
      refine ⟨3 + ident.textRoom, fun room hroom h => ?_⟩
      unfold decode unpackFor failWire at h
      rw [hunpack] at h
      rcases hunpacks.fails bytes e hunpack with ⟨reason, rfl⟩ | rfl
      · dsimp only at h
        rw [if_pos (show (WireError.malformed ident reason).messageRoom ≤ room from hroom)] at h
        cases h
      · cases h

/-! ## A key that is a list -/

namespace Nodes

/-- A node has a number, and there may be another one behind it. -/
def known : TypeMap Text := .ofTypes [.struct "Node" []
  [{ name := "value", type := ⟨"u8", []⟩ }, { name := "next", type := ⟨"Option", [⟨"Node", []⟩]⟩ }]
  []]

/-- The places that a node leads to: the node, its number and what is behind it. -/
def places : List Place :=
  [.type ⟨"Node", []⟩, .type ⟨"u8", []⟩, .type ⟨"Option", [⟨"Node", []⟩]⟩]

theorem mem_places (h : (Place.type ⟨"Node", []⟩).Reaches known place) : place ∈ places := by
  induction h with
  | refl => exact List.mem_cons_self
  | tail _ hnext ih =>
    simp only [places, List.mem_cons, List.not_mem_nil, or_false] at ih
    rcases ih with rfl | rfl | rfl
    · exact List.mem_cons_of_mem _ hnext
    · cases hnext
    · exact List.mem_cons.mpr (.inl (List.mem_singleton.mp hnext))

theorem resolves : (Place.type ⟨"Node", []⟩).Resolves known := by
  intro ident hreaches
  have hmem := mem_places hreaches
  simp only [places, List.mem_cons, List.not_mem_nil, or_false, Place.type.injEq] at hmem
  rcases hmem with rfl | rfl | rfl
  · exact ⟨_, rfl⟩
  · exact ⟨_, rfl⟩
  · exact ⟨_, rfl⟩

/-- Only what may be behind a node is handed on, and it is a node. -/
theorem passesOn_cases {next : Place} (hmem : place ∈ places) (h : place.PassesOn known next) :
    place = .type ⟨"Option", [⟨"Node", []⟩]⟩ ∧ next = .type ⟨"Node", []⟩ := by
  simp only [places, List.mem_cons, List.not_mem_nil, or_false] at hmem
  rcases hmem with rfl | rfl | rfl
  · rcases h with ⟨⟨⟩⟩ | ⟨⟨⟩⟩
  · rcases h with ⟨⟨⟩⟩ | ⟨⟨⟩⟩
  · rcases h with ⟨⟨⟩⟩ | _
    exact ⟨rfl, rfl⟩

theorem acyclic : (Place.type ⟨"Node", []⟩).Acyclic known := by
  intro place hreaches hcircle
  obtain ⟨next, hfirst, hback⟩ := Relation.TransGen.head'_iff.mp hcircle
  obtain ⟨rfl, rfl⟩ := passesOn_cases (mem_places hreaches) hfirst
  -- a node hands nothing on, so the way back would have to be empty
  rcases Relation.ReflTransGen.cases_head hback with heq | ⟨_, hstep, _⟩
  · cases heq
  · cases (passesOn_cases List.mem_cons_self hstep).1

theorem tagged (h : (Place.type ⟨"Node", []⟩).Reaches known place) : ¬place.Untagged known := by
  rintro ⟨ident, _, _, _, _, _, rfl, hresolve, _⟩
  have hmem := mem_places h
  simp only [places, List.mem_cons, List.not_mem_nil, or_false, Place.type.injEq] at hmem
  rcases hmem with rfl | rfl | rfl <;> cases hresolve

end Nodes

/-- A map with an empty list for a key is no node, and no wire error either. -/
theorem decode_fails_with_wire_error_node :
    MessagePack.format.Unpacks
      ∧ (Place.type ⟨"Node", []⟩).Resolves Nodes.known
      ∧ (Place.type ⟨"Node", []⟩).Acyclic Nodes.known
      ∧ (∀ place, (Place.type ⟨"Node", []⟩).Reaches Nodes.known place →
          ¬place.Untagged Nodes.known)
      ∧ ∀ room, decode MessagePack.format Nodes.known [0x81, 0x90, 0xc0] ⟨"Node", []⟩ room
        = .error .unhashableKey := by
  refine ⟨MessagePack.unpacks, Nodes.resolves, Nodes.acyclic, fun place => Nodes.tagged,
    fun room => ?_⟩
  obtain ⟨-, hkey, -⟩ := decode_fails_with_wire_error MessagePack.unpacks Nodes.resolves
    Nodes.acyclic (fun place => Nodes.tagged) [0x81, 0x90, 0xc0]
  exact (hkey room).mpr rfl

end WasmBridge
