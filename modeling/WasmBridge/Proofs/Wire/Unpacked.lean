import WasmBridge.Proofs.Wire.Formats
import WasmBridge.Wire.MessagePack.Unpack

/-!
# What comes out of bytes

Whoever sends bytes can choose any, but not every value comes out of them. Integers have
64 bits, with or without a sign, and the keys of a map are keys, at every depth. So MessagePack as
it is written here keeps the law about unpacking: `unpacks`. Each reader has a lemma about what it
reads, and that of a value is put together from them.
-/

namespace WasmBridge

open Outcome

namespace MessagePack

variable {α β : Type} {P : α → Prop} {Q : β → Prop}

/-- What is read, if anything is, has the property. -/
def Reads (P : α → Prop) (x : Except ReadError (Step α)) : Prop :=
  ∀ a rest, x = .ok (a, rest) → P a

theorem reads_ok {a : α} {rest : List UInt8} (h : P a) :
    Reads P (.ok (a, rest) : Except ReadError (Step α)) :=
  fun _ _ heq => by cases heq; exact h

theorem reads_error {e : ReadError} : Reads P (.error e : Except ReadError (Step α)) := nofun

theorem Reads.bind {x : Except ReadError (Step α)} {f : Step α → Except ReadError (Step β)}
    (hx : Reads P x) (hf : ∀ a rest, P a → Reads Q (f (a, rest))) : Reads Q (x >>= f) := by
  intro b rest' h
  obtain ⟨⟨a, rest⟩, ha, hb⟩ := bind_eq_ok.mp h
  exact hf a rest (hx a rest ha) b rest' hb

/-- A step that reads nothing may fail or go on. -/
theorem Reads.after {x : Except ReadError Unit} {y : Except ReadError (Step β)} (hy : Reads Q y) :
    Reads Q (x >>= fun _ => y) := by
  intro b rest h
  obtain ⟨_, _, hb⟩ := bind_eq_ok.mp h
  exact hy b rest hb

/-! ## Numbers -/

theorem bigEndianValue_lt (bytes : List UInt8) : bigEndianValue bytes < 256 ^ bytes.length := by
  unfold bigEndianValue
  -- the bytes that come later are appended to a number that has the earlier ones
  suffices h : ∀ n, bytes.foldl (fun n b => n * 256 + b.toNat) n < (n + 1) * 256 ^ bytes.length by
    simpa using h 0
  induction bytes with
  | nil => intro n; simp
  | cons b rest ih =>
    intro n
    have hb : b.toNat < 256 := b.toNat_lt
    calc rest.foldl (fun n b => n * 256 + b.toNat) (n * 256 + b.toNat)
        < (n * 256 + b.toNat + 1) * 256 ^ rest.length := ih _
      _ ≤ ((n + 1) * 256) * 256 ^ rest.length := Nat.mul_le_mul_right _ (by omega)
      _ = (n + 1) * 256 ^ (rest.length + 1) := by
        rw [Nat.pow_succ, Nat.mul_assoc, Nat.mul_comm 256]

theorem readNat_reads (width : Nat) (input : List UInt8) :
    Reads (· < 256 ^ width) (readNat width input) := by
  refine Reads.bind (P := (·.length = width)) ?_ fun bytes rest h => ?_
  · unfold takeBytes
    dsimp only
    split
    · exact reads_error
    · refine reads_ok ?_
      have := List.length_take_le width input
      omega
  · exact reads_ok (h ▸ bigEndianValue_lt bytes)

theorem plain_nat {width n : Nat} (hwidth : width ≤ 8) (h : n < 256 ^ width) :
    Value.Plain (.int n) := by
  have hle : 256 ^ width ≤ 256 ^ 8 := Nat.pow_le_pow_right (by decide) hwidth
  refine .int ?_ ?_ <;> omega

theorem plain_signed {width n : Nat} (hwidth : 1 ≤ width ∧ width ≤ 8) (h : n < 256 ^ width) :
    Value.Plain (.int (signedValue width n)) := by
  have hbits : (256 : Nat) ^ width = Nat.pow 2 (8 * width) := by
    show (256 : Nat) ^ width = 2 ^ (8 * width)
    rw [Nat.pow_mul]
  have hhalf : Nat.pow 2 (8 * width) = 2 * Nat.pow 2 (8 * width - 1) := by
    show (2 : Nat) ^ (8 * width) = 2 * 2 ^ (8 * width - 1)
    rw [← Nat.pow_succ', Nat.succ_eq_add_one, Nat.sub_add_cancel (by omega)]
  have hle : Nat.pow 2 (8 * width - 1) ≤ 2 ^ 63 := Nat.pow_le_pow_right (by decide) (by omega)
  rw [hbits] at h
  unfold signedValue
  split
  · refine .int ?_ ?_ <;> omega
  · refine .int ?_ ?_ <;> omega

theorem readInt_reads {width : Nat} (hwidth : 1 ≤ width ∧ width ≤ 8) (input : List UInt8) :
    Reads Value.Plain (readInt width input) :=
  (readNat_reads width input).bind fun _ _ h => reads_ok (plain_signed hwidth h)

/-! ## Texts, bytes and extensions -/

theorem readText_reads (n : Nat) (input : List UInt8) : Reads Value.Plain (readText n input) := by
  refine Reads.bind (P := fun _ => True) (fun _ _ _ => trivial) fun bytes rest _ => ?_
  dsimp only
  split
  · exact reads_ok (.str _)
  · exact reads_error

theorem readBytes_reads (n : Nat) (input : List UInt8) : Reads Value.Plain (readBytes n input) :=
  Reads.bind (P := fun _ => True) (fun _ _ _ => trivial) fun _ _ _ => reads_ok (.bytes _)

theorem plain_of_timestampOf {data : List UInt8} {v : Value} (h : timestampOf data = .ok v) :
    Value.Plain v := by
  have hmake : ∀ (seconds : Int) (nanoseconds : Nat),
      (if nanoseconds ≤ 999999999 then Except.ok (Value.timestamp seconds nanoseconds)
        else .error (ReadError.malformed .timestampNanoseconds)) = .ok v → v.Plain := by
    intro seconds nanoseconds h
    split at h
    · cases h; exact .timestamp _ _
    · cases h
  unfold timestampOf at h
  dsimp only at h
  split at h
  · exact hmake _ _ h
  split at h
  · exact hmake _ _ h
  split at h
  · exact hmake _ _ h
  · cases h

theorem readExt_reads (n : Nat) (input : List UInt8) : Reads Value.Plain (readExt n input) := by
  refine Reads.bind (P := fun _ => True) (fun _ _ _ => trivial) fun type rest _ => ?_
  refine Reads.bind (P := fun _ => True) (fun _ _ _ => trivial) fun data rest _ => ?_
  dsimp only
  split
  · exact reads_ok (.ext _ _)
  split
  · intro v rest h
    obtain ⟨stamp, hstamp, heq⟩ := bind_eq_ok.mp h
    cases heq
    exact plain_of_timestampOf hstamp
  · exact reads_error

/-! ## Values -/

/-- Entries of a map that is plain. -/
def PlainEntries (entries : Entries) : Prop :=
  ∀ e ∈ entries, e.1.isKey = true ∧ e.1.Plain ∧ e.2.Plain

theorem PlainEntries.map {entries : Entries} (h : PlainEntries entries) :
    Value.Plain (.map entries) :=
  .map (fun e he => (h e he).1) (fun e he => (h e he).2.1) (fun e he => (h e he).2.2)

theorem PlainEntries.put {entries : Entries} {key value : Value} (h : PlainEntries entries)
    (hkey : key.isKey = true) (hplain : key.Plain) (hvalue : value.Plain) :
    PlainEntries (entries.put key value) := by
  induction entries with
  | nil =>
    intro e he
    cases List.mem_singleton.mp he
    exact ⟨hkey, hplain, hvalue⟩
  | cons first rest ih =>
    obtain ⟨hfirst, hrest⟩ := List.forall_mem_cons.mp h
    rw [Entries.put]
    split
    · -- the key stays as it was stored first
      exact List.forall_mem_cons.mpr ⟨⟨hfirst.1, hfirst.2.1, hvalue⟩, hrest⟩
    · exact List.forall_mem_cons.mpr ⟨hfirst, ih hrest⟩

variable (limits : Limits)

/-- What the three readers of values read with some fuel. -/
structure ReadsPlain (fuel : Nat) : Prop where
  value : ∀ depth input, Reads Value.Plain (readValue limits fuel depth input)
  items : ∀ depth count input,
    Reads (∀ item ∈ ·, Value.Plain item) (readItems limits fuel depth count input)
  entries : ∀ depth count entries input, PlainEntries entries →
    Reads PlainEntries (readEntries limits fuel depth count entries input)

theorem readItems_reads {fuel : Nat} (ih : ReadsPlain limits fuel) (depth count : Nat)
    (input : List UInt8) :
    Reads (∀ item ∈ ·, Value.Plain item) (readItems limits (fuel + 1) depth count input) := by
  cases count with
  | zero => rw [readItems]; exact reads_ok nofun
  | succ count =>
    rw [readItems]
    refine (ih.value depth input).bind fun item rest hitem => ?_
    refine (ih.items depth count rest).bind fun items rest hitems => ?_
    exact reads_ok (List.forall_mem_cons.mpr ⟨hitem, hitems⟩)

theorem readEntries_reads {fuel : Nat} (ih : ReadsPlain limits fuel) (depth count : Nat)
    (entries : Entries) (input : List UInt8) (h : PlainEntries entries) :
    Reads PlainEntries (readEntries limits (fuel + 1) depth count entries input) := by
  cases count with
  | zero => rw [readEntries]; exact reads_ok h
  | succ count =>
    rw [readEntries]
    refine (ih.value depth input).bind fun key rest hkey => ?_
    refine (ih.value depth rest).bind fun value rest hvalue => ?_
    dsimp only
    split
    · rename_i hisKey
      exact ih.entries depth count _ rest (h.put hisKey hkey hvalue)
    · exact reads_error

theorem readArray_reads {fuel : Nat} (ih : ReadsPlain limits fuel) (depth count : Nat)
    (input : List UInt8) : Reads Value.Plain (do
      admitArray limits depth count
      let (items, rest) ← readItems limits fuel (depth + 1) count input
      return (.list items, rest)) := by
  refine Reads.after ((ih.items (depth + 1) count input).bind fun items rest h => ?_)
  exact reads_ok (.list h)

theorem readMap_reads {fuel : Nat} (ih : ReadsPlain limits fuel) (depth count : Nat)
    (input : List UInt8) : Reads Value.Plain (do
      admitMap limits depth count
      let (entries, rest) ← readEntries limits fuel (depth + 1) count [] input
      return (.map entries, rest)) := by
  refine Reads.after ((ih.entries (depth + 1) count [] input nofun).bind fun entries rest h => ?_)
  exact reads_ok h.map

theorem readNumber_reads {width : Nat} (hwidth : width ≤ 8) (input : List UInt8) :
    Reads Value.Plain (do
      let (n, rest) ← readNat width input
      return (.int n, rest)) :=
  (readNat_reads width input).bind fun _ _ h => reads_ok (plain_nat hwidth h)

/-- A length that is read first does not matter to what is read then. -/
theorem readLength_reads {read : Nat → List UInt8 → Except ReadError (Step Value)} (width : Nat)
    (input : List UInt8) (hread : ∀ n rest, Reads Value.Plain (read n rest)) :
    Reads Value.Plain (do
      let (n, rest) ← readNat width input
      read n rest) :=
  (readNat_reads width input).bind fun n rest _ => hread n rest

theorem readValue_reads {fuel : Nat} (ih : ReadsPlain limits fuel) (depth : Nat)
    (input : List UInt8) : Reads Value.Plain (readValue limits (fuel + 1) depth input) := by
  cases input with
  | nil =>
    rw [readValue]
    · exact reads_error
    · exact nofun
  | cons first rest =>
    have hfirst : first.toNat < 256 := first.toNat_lt
    rw [readValue]
    dsimp only
    split
    · rename_i hsmall
      refine reads_ok (.int ?_ ?_) <;> omega
    split
    · exact readMap_reads limits ih _ _ _
    split
    · exact readArray_reads limits ih _ _ _
    split
    · exact readText_reads _ _
    split
    · refine reads_ok (.int ?_ ?_) <;> omega
    split
    · exact reads_ok .null
    · exact reads_ok (.bool _)
    · exact reads_ok (.bool _)
    · exact readLength_reads 1 _ readBytes_reads
    · exact readLength_reads 2 _ readBytes_reads
    · exact readLength_reads 4 _ readBytes_reads
    · exact readLength_reads 1 _ readExt_reads
    · exact readLength_reads 2 _ readExt_reads
    · exact readLength_reads 4 _ readExt_reads
    · exact (readNat_reads 4 rest).bind fun _ _ _ => reads_ok (.float _)
    · exact (readNat_reads 8 rest).bind fun _ _ _ => reads_ok (.float _)
    · exact readNumber_reads (by decide) _
    · exact readNumber_reads (by decide) _
    · exact readNumber_reads (by decide) _
    · exact readNumber_reads (by decide) _
    · exact readInt_reads (by decide) _
    · exact readInt_reads (by decide) _
    · exact readInt_reads (by decide) _
    · exact readInt_reads (by decide) _
    · exact readExt_reads _ _
    · exact readExt_reads _ _
    · exact readExt_reads _ _
    · exact readExt_reads _ _
    · exact readExt_reads _ _
    · exact readLength_reads 1 _ readText_reads
    · exact readLength_reads 2 _ readText_reads
    · exact readLength_reads 4 _ readText_reads
    · exact readLength_reads 2 _ (readArray_reads limits ih depth)
    · exact readLength_reads 4 _ (readArray_reads limits ih depth)
    · exact readLength_reads 2 _ (readMap_reads limits ih depth)
    · exact readLength_reads 4 _ (readMap_reads limits ih depth)
    · exact reads_error

theorem readsPlain (fuel : Nat) : ReadsPlain limits fuel := by
  induction fuel with
  | zero =>
    refine ⟨fun depth input => ?_, fun depth count input => ?_,
      fun depth count entries input h => ?_⟩
    · rw [readValue]; exact reads_error
    · cases count with
      | zero => rw [readItems]; exact reads_ok nofun
      | succ count =>
        rw [readItems]
        · exact reads_error
        · exact nofun
    · cases count with
      | zero => rw [readEntries]; exact reads_ok h
      | succ count =>
        rw [readEntries]
        · exact reads_error
        · exact nofun
  | succ fuel ih =>
    exact ⟨readValue_reads limits ih, readItems_reads limits ih, readEntries_reads limits ih⟩

/-- **Whatever is unpacked is plain.** -/
theorem plain_of_unpack {input : List UInt8} {v : Value} (h : unpack input = .ok v) :
    v.Plain := by
  obtain ⟨⟨value, rest⟩, hvalue, h⟩ := bind_eq_ok.mp h
  dsimp only at h
  split at h
  · cases h
    exact (readsPlain _ _).value 0 input _ rest hvalue
  · cases h

theorem unpacks : format.Unpacks where
  fails := by
    intro bytes e h
    cases hread : unpack bytes with
    | ok v => rw [format_unpack, hread] at h; cases h
    | error cause =>
      rw [format_unpack, hread] at h
      cases h
      cases cause with
      | malformed cause => exact .inl ⟨_, rfl⟩
      | unhashableKey => exact .inr rfl
  plain := by
    intro bytes v h
    cases hread : unpack bytes with
    | ok read =>
      rw [format_unpack, hread] at h
      cases h
      exact plain_of_unpack hread
    | error cause => rw [format_unpack, hread] at h; cases h

end MessagePack

end WasmBridge
