import WasmBridge.Proofs.Wire.Formats
import WasmBridge.Wire.MessagePack.Unpack

/-!
# What is packed comes back

MessagePack as it is written here keeps two of the laws of a packing library. `restores` says that
a portable value comes back as it was from its bytes, provided that it stays within the limits of
the format: its texts have bytes, its sizes fit 32 bits, and it is not nested too deep. `neverEmpty`
says that it has bytes at all.

Reading is given fuel and limits by the size of the whole input. So what is proved about
the bytes of a value says how much of each they take, wherever they stand.
-/

namespace WasmBridge

open Outcome

namespace MessagePack

/-! ## Numbers -/

variable {n width : Nat} {rest : List UInt8}

theorem length_bigEndian (width n : Nat) : (bigEndian width n).length = width := by
  induction width generalizing n with
  | zero => rfl
  | succ w ih => rw [bigEndian, List.length_append, ih, List.length_singleton]

theorem bigEndianValue_bigEndian (h : n < 256 ^ width) :
    bigEndianValue (bigEndian width n) = n := by
  induction width generalizing n with
  | zero =>
    have hzero : n = 0 := by simpa using h
    rw [hzero]
    rfl
  | succ w ih =>
    have hhigh : n / 256 < 256 ^ w := Nat.div_lt_of_lt_mul (by rwa [Nat.mul_comm, ← Nat.pow_succ])
    have hlow : (UInt8.ofNat n).toNat = n % 256 := UInt8.toNat_ofNat'
    have happend : bigEndianValue (bigEndian w (n / 256) ++ [UInt8.ofNat n])
        = bigEndianValue (bigEndian w (n / 256)) * 256 + (UInt8.ofNat n).toNat := by
      unfold bigEndianValue
      rw [List.foldl_append]
      rfl
    rw [bigEndian, happend, ih hhigh, hlow]
    omega

theorem takeBytes_append (bytes rest : List UInt8) :
    takeBytes bytes.length (bytes ++ rest) = .ok (bytes, rest) := by
  unfold takeBytes
  dsimp only
  rw [List.take_left, if_neg (Nat.lt_irrefl _), List.drop_left]

theorem readNat_bigEndian (h : n < 256 ^ width) :
    readNat width (bigEndian width n ++ rest) = .ok (n, rest) := by
  have htake := takeBytes_append (bigEndian width n) rest
  rw [length_bigEndian] at htake
  unfold readNat
  rw [htake, bind_ok]
  dsimp only
  rw [bigEndianValue_bigEndian h]
  rfl

/-- A negative number is packed as the number that it is congruent to. -/
theorem readInt_bigEndian {n : Int} (half : Nat) (hhalf : Nat.pow 2 (8 * width - 1) = half)
    (hfull : Nat.pow 2 (8 * width) = 2 * half) (hleast : -half ≤ n) (hneg : n < 0) :
    readInt width (bigEndian width (n + (2 * half : Nat)).toNat ++ rest) = .ok (.int n, rest) := by
  have hpow : 256 ^ width = 2 * half := by
    rw [← hfull, show 256 = 2 ^ 8 from rfl, ← Nat.pow_mul]
    rfl
  have hn : ((n + (2 * half : Nat)).toNat : Int) = n + (2 * half : Nat) :=
    Int.toNat_of_nonneg (by omega)
  unfold readInt
  rw [readNat_bigEndian (by omega), bind_ok]
  dsimp only
  unfold signedValue
  rw [hhalf, hfull, if_neg (by omega), hn, Int.add_sub_cancel]
  rfl

/-! ## Texts -/

/-- A text that has bytes is made of characters, and the bytes are theirs. -/
theorem exists_chars {s : Text} {bytes : List UInt8} (h : s.utf8? = some bytes) :
    ∃ chars : List Char, s = chars.map .char ∧ bytes = chars.flatMap String.utf8EncodeChar := by
  unfold Text.utf8? at h
  induction s generalizing bytes with
  | nil => cases h; exact ⟨[], rfl, rfl⟩
  | cons c s ih =>
    obtain ⟨parts, hparts, rfl⟩ := Option.map_eq_some_iff.mp h
    rw [List.mapM_cons] at hparts
    obtain ⟨first, hfirst, hparts⟩ := Option.bind_eq_some_iff.mp hparts
    obtain ⟨others, hothers, hparts⟩ := Option.bind_eq_some_iff.mp hparts
    cases hparts
    obtain ⟨chars, rfl, hbytes⟩ := ih (Option.map_eq_some_iff.mpr ⟨others, hothers, rfl⟩)
    cases c with
    | char c =>
      cases hfirst
      exact ⟨c :: chars, rfl, by rw [List.flatMap_cons, ← hbytes]; rfl⟩
    | half place => cases hfirst

theorem readText_append {s : Text} {bytes : List UInt8} (h : s.utf8? = some bytes) :
    readText bytes.length (bytes ++ rest) = .ok (.str s, rest) := by
  obtain ⟨chars, rfl, rfl⟩ := exists_chars h
  have hbytes : (⟨(chars.flatMap String.utf8EncodeChar).toArray⟩ : ByteArray) = chars.utf8Encode :=
    ByteArray.ext List.data_toByteArray.symm
  have hread : String.fromUTF8? chars.utf8Encode = some (String.ofList chars) :=
    dif_pos ByteArray.isValidUTF8_utf8Encode
  have htext : Text.ofString (String.ofList chars) = chars.map .char := by
    rw [Text.ofString, String.toList_ofList]
  unfold readText
  rw [takeBytes_append, bind_ok]
  dsimp only
  rw [hbytes, hread]
  dsimp only
  rw [htext]
  rfl

/-! ## First bytes -/

section FirstBytes

variable {limits : Limits} {fuel depth : Nat} {α : Type}

/-- A list of so many items. -/
def readArray (limits : Limits) (fuel depth count : Nat) (input : List UInt8) :
    Except ReadError (Step Value) := do
  admitArray limits depth count
  let (items, rest) ← readItems limits fuel (depth + 1) count input
  return (.list items, rest)

/-- A map of so many entries. -/
def readMap (limits : Limits) (fuel depth count : Nat) (input : List UInt8) :
    Except ReadError (Step Value) := do
  admitMap limits depth count
  let (entries, rest) ← readEntries limits fuel (depth + 1) count [] input
  return (.map entries, rest)

/-- A length that is read is the length that was packed. -/
theorem readLength_bigEndian (width : Nat) (read : Nat → List UInt8 → Except ReadError (Step α))
    (h : n < 256 ^ width) : (do
      let (n, rest) ← readNat width (bigEndian width n ++ rest)
      read n rest) = read n rest := by
  rw [readNat_bigEndian h, bind_ok]

theorem toNat_ofNat (h : n < 0x100) : (UInt8.ofNat n).toNat = n := UInt8.toNat_ofNat_of_lt' h

theorem readValue_textHeader (h : n < sizeLimit) :
    readValue limits (fuel + 1) depth (textHeader n ++ rest) = readText n rest := by
  unfold textHeader
  split
  · rw [List.singleton_append, readValue]
    dsimp only
    rw [toNat_ofNat (by omega), if_neg (by omega), if_neg (by omega), if_neg (by omega),
      if_pos (by omega), Nat.add_sub_cancel_left]
  split
  · exact readLength_bigEndian 1 readText (by omega)
  split
  · exact readLength_bigEndian 2 readText (by omega)
  · exact readLength_bigEndian 4 readText h

theorem readValue_bytesHeader (h : n < sizeLimit) :
    readValue limits (fuel + 1) depth (bytesHeader n ++ rest) = readBytes n rest := by
  unfold bytesHeader
  split
  · exact readLength_bigEndian 1 readBytes (by omega)
  split
  · exact readLength_bigEndian 2 readBytes (by omega)
  · exact readLength_bigEndian 4 readBytes h

theorem readValue_arrayHeader (h : n < sizeLimit) :
    readValue limits (fuel + 1) depth (arrayHeader n ++ rest)
      = readArray limits fuel depth n rest := by
  unfold arrayHeader
  split
  · rw [List.singleton_append, readValue]
    dsimp only
    rw [toNat_ofNat (by omega), if_neg (by omega), if_neg (by omega), if_pos (by omega),
      Nat.add_sub_cancel_left]
    rfl
  split
  · exact readLength_bigEndian 2 (readArray limits fuel depth) (by omega)
  · exact readLength_bigEndian 4 (readArray limits fuel depth) h

theorem readValue_mapHeader (h : n < sizeLimit) :
    readValue limits (fuel + 1) depth (mapHeader n ++ rest) = readMap limits fuel depth n rest := by
  unfold mapHeader
  split
  · rw [List.singleton_append, readValue]
    dsimp only
    rw [toNat_ofNat (by omega), if_neg (by omega), if_pos (by omega), Nat.add_sub_cancel_left]
    rfl
  split
  · exact readLength_bigEndian 2 (readMap limits fuel depth) (by omega)
  · exact readLength_bigEndian 4 (readMap limits fuel depth) h

theorem readValue_packInt {n : Int} {bytes : List UInt8} (h : packInt n = .ok bytes) :
    readValue limits (fuel + 1) depth (bytes ++ rest) = .ok (.int n, rest) := by
  unfold packInt at h
  split at h
  · rename_i hn
    obtain ⟨m, rfl⟩ := Int.eq_ofNat_of_zero_le hn
    let read (m : Nat) (rest : List UInt8) : Except ReadError (Step Value) := .ok (.int m, rest)
    simp only [Int.toNat_natCast] at h
    split at h
    · cases h
      rw [show bigEndian 1 m = [UInt8.ofNat m] from rfl, List.singleton_append, readValue]
      dsimp only
      rw [toNat_ofNat (by omega), if_pos (by omega)]
    split at h
    · cases h; exact readLength_bigEndian 1 read (by omega)
    split at h
    · cases h; exact readLength_bigEndian 2 read (by omega)
    split at h
    · cases h; exact readLength_bigEndian 4 read (by omega)
    split at h
    · cases h; exact readLength_bigEndian 8 read (by omega)
    · cases h
  · rename_i hn
    split at h
    · cases h
      rw [show bigEndian 1 (n + 0x100).toNat = [UInt8.ofNat (n + 0x100).toNat] from rfl,
        List.singleton_append, readValue]
      dsimp only
      rw [toNat_ofNat (by omega), if_neg (by omega), if_neg (by omega), if_neg (by omega),
        if_neg (by omega), if_pos (by omega), Int.toNat_of_nonneg (by omega), Int.add_sub_cancel]
    split at h
    · cases h; exact readInt_bigEndian 0x80 rfl rfl (by omega) (by omega)
    split at h
    · cases h; exact readInt_bigEndian 0x8000 rfl rfl (by omega) (by omega)
    split at h
    · cases h; exact readInt_bigEndian 0x80000000 rfl rfl (by omega) (by omega)
    split at h
    · cases h; exact readInt_bigEndian 0x8000000000000000 rfl rfl (by omega) (by omega)
    · cases h

end FirstBytes

/-! ## Values -/

theorem exists_packInt {n : Int} (hleast : -2 ^ 63 ≤ n) (hgreatest : n ≤ 2 ^ 64 - 1) :
    ∃ bytes, packInt n = .ok bytes ∧ 1 ≤ bytes.length := by
  unfold packInt
  split
  · dsimp only
    split
    · exact ⟨_, rfl, by rw [length_bigEndian]⟩
    split
    · exact ⟨_, rfl, Nat.succ_pos _⟩
    split
    · exact ⟨_, rfl, Nat.succ_pos _⟩
    split
    · exact ⟨_, rfl, Nat.succ_pos _⟩
    · exact ⟨_, if_pos (by omega), Nat.succ_pos _⟩
  · split
    · exact ⟨_, rfl, by rw [length_bigEndian]⟩
    split
    · exact ⟨_, rfl, Nat.succ_pos _⟩
    split
    · exact ⟨_, rfl, Nat.succ_pos _⟩
    split
    · exact ⟨_, rfl, Nat.succ_pos _⟩
    · exact ⟨_, if_pos (by omega), Nat.succ_pos _⟩

/-- The limits of an input admit what takes so many of its bytes. -/
structure Limits.Admit (limits : Limits) (length : Nat) : Prop where
  items : length ≤ limits.items
  entries : length ≤ 2 * limits.entries + 1

theorem Limits.admit_of (input : List UInt8) : (Limits.of input).Admit input.length := by
  refine ⟨Nat.le_refl _, ?_⟩
  show input.length ≤ 2 * (input.length / 2) + 1
  omega

theorem Limits.Admit.le {limits : Limits} {n m : Nat} (h : limits.Admit n) (hle : m ≤ n) :
    limits.Admit m := ⟨Nat.le_trans hle h.items, Nat.le_trans hle h.entries⟩

/-- Some bytes are a value that is nested less than `room` deep: wherever they stand, the value is
read from them, with fuel of twice their number. -/
structure Spells (room : Nat) (bytes : List UInt8) (v : Value) : Prop where
  nonempty : 1 ≤ bytes.length
  read : ∀ (limits : Limits) (fuel depth : Nat) (rest : List UInt8),
    limits.Admit bytes.length → 2 * bytes.length ≤ fuel + 1 → depth + room ≤ openLimit →
      readValue limits fuel depth (bytes ++ rest) = .ok (v, rest)

/-- The same for values one after the other. -/
structure SpellsAll (room : Nat) (bytes : List UInt8) (items : List Value) : Prop where
  length : items.length ≤ bytes.length
  read : ∀ (limits : Limits) (fuel depth : Nat) (rest : List UInt8),
    limits.Admit bytes.length → 2 * bytes.length ≤ fuel → depth + room ≤ openLimit →
      readItems limits fuel depth items.length (bytes ++ rest) = .ok (items, rest)

/-- The same for entries that come after others. -/
structure SpellsEntries (room : Nat) (bytes : List UInt8) (entries : Entries) : Prop where
  length : 2 * entries.length ≤ bytes.length
  read : ∀ (limits : Limits) (fuel depth : Nat) (stored : Entries) (rest : List UInt8),
    limits.Admit bytes.length → 2 * bytes.length ≤ fuel → depth + room ≤ openLimit →
      DistinctKeys (stored.map (·.1) ++ entries.map (·.1)) →
      readEntries limits fuel depth entries.length stored (bytes ++ rest)
        = .ok (stored ++ entries, rest)

/-- A value whose first bytes say all. -/
theorem spells_of_read {room : Nat} {bytes : List UInt8} {v : Value} (hlength : 1 ≤ bytes.length)
    (h : ∀ (limits : Limits) (fuel depth : Nat) (rest : List UInt8),
      readValue limits (fuel + 1) depth (bytes ++ rest) = .ok (v, rest)) : Spells room bytes v := by
  refine ⟨hlength, fun limits fuel depth rest _ hfuel _ => ?_⟩
  cases fuel with
  | zero => omega
  | succ fuel => exact h limits fuel depth rest

theorem exists_packAll {room : Nat} {items : List Value}
    (h : ∀ item ∈ items, ∃ bytes, packWithin room item = .ok bytes ∧ Spells room bytes item) :
    ∃ bytes, packAll room items = .ok bytes ∧ SpellsAll room bytes items := by
  induction items with
  | nil =>
    refine ⟨[], by rw [packAll], ⟨Nat.le_refl _, fun limits fuel depth rest _ _ _ => ?_⟩⟩
    rw [List.length_nil, readItems, List.nil_append]
  | cons item items ih =>
    obtain ⟨first, hfirst, hspells⟩ := h item List.mem_cons_self
    obtain ⟨others, hothers, hall⟩ := ih fun item' hitem => h item' (List.mem_cons_of_mem _ hitem)
    refine ⟨first ++ others, ?_, ⟨?_, fun limits fuel depth rest hlimits hfuel hdepth => ?_⟩⟩
    · rw [packAll, hfirst, hothers]
      rfl
    · have := hspells.nonempty
      have := hall.length
      rw [List.length_append, List.length_cons]
      omega
    · have hnonempty := hspells.nonempty
      rw [List.length_append] at hlimits hfuel
      cases fuel with
      | zero => omega
      | succ fuel =>
        rw [List.length_cons, List.append_assoc, readItems,
          hspells.read limits fuel depth _ (hlimits.le (by omega)) (by omega) hdepth, bind_ok]
        dsimp only
        rw [hall.read limits fuel depth rest (hlimits.le (by omega)) (by omega) hdepth]
        rfl

theorem exists_packEntries {room : Nat} {entries : Entries}
    (hkey : ∀ e ∈ entries, e.1.isKey = true)
    (hkeys : ∀ e ∈ entries, ∃ bytes, packWithin room e.1 = .ok bytes ∧ Spells room bytes e.1)
    (hvalues : ∀ e ∈ entries, ∃ bytes, packWithin room e.2 = .ok bytes ∧ Spells room bytes e.2) :
    ∃ bytes, packEntries room entries = .ok bytes ∧ SpellsEntries room bytes entries := by
  induction entries with
  | nil =>
    refine ⟨[], by rw [packEntries], ⟨Nat.le_refl _, ?_⟩⟩
    intro limits fuel depth stored rest _ _ _ _
    rw [List.length_nil, readEntries, List.nil_append, List.append_nil]
  | cons e entries ih =>
    obtain ⟨k, v⟩ := e
    obtain ⟨key, hpackKey, hspellsKey⟩ := hkeys _ List.mem_cons_self
    obtain ⟨value, hpackValue, hspellsVal⟩ := hvalues _ List.mem_cons_self
    obtain ⟨others, hothers, hall⟩ := ih (fun e he => hkey e (List.mem_cons_of_mem _ he))
      (fun e he => hkeys e (List.mem_cons_of_mem _ he))
      (fun e he => hvalues e (List.mem_cons_of_mem _ he))
    have hnonemptyKey := hspellsKey.nonempty
    have hnonemptyValue := hspellsVal.nonempty
    refine ⟨key ++ value ++ others, ?_, ⟨?_, ?_⟩⟩
    · rw [packEntries, hpackKey, hpackValue, hothers]
      rfl
    · have := hall.length
      rw [List.length_append, List.length_append, List.length_cons]
      omega
    · intro limits fuel depth stored rest hlimits hfuel hdepth hdistinct
      rw [List.length_append, List.length_append] at hlimits hfuel
      cases fuel with
      | zero => omega
      | succ fuel =>
        have hput := Entries.put_new v (Entries.new_of_distinct hdistinct)
        rw [List.length_cons, List.append_assoc, List.append_assoc, readEntries,
          hspellsKey.read limits fuel depth _ (hlimits.le (by omega)) (by omega) hdepth, bind_ok]
        dsimp only
        rw [hspellsVal.read limits fuel depth _ (hlimits.le (by omega)) (by omega) hdepth, bind_ok]
        dsimp only
        rw [if_pos (hkey _ List.mem_cons_self), hput,
          hall.read limits fuel depth _ rest (hlimits.le (by omega)) (by omega) hdepth
            (by simpa using hdistinct), List.append_assoc, List.singleton_append]

theorem fitsAll_iff {items : List Value} :
    fitsAll items = true ↔ ∀ item ∈ items, fits item = true := by
  induction items with
  | nil => simp [fitsAll]
  | cons item items ih => rw [fitsAll, Bool.and_eq_true, ih, List.forall_mem_cons]

theorem fitsEntries_iff {entries : Entries} :
    fitsEntries entries = true ↔ ∀ e ∈ entries, fits e.1 = true ∧ fits e.2 = true := by
  induction entries with
  | nil => simp [fitsEntries]
  | cons e entries ih =>
    rw [fitsEntries, Bool.and_eq_true, Bool.and_eq_true, ih, List.forall_mem_cons]

theorem depth_le_depthAll {items : List Value} {item : Value} (h : item ∈ items) :
    item.depth ≤ Value.depthAll items := by
  induction items with
  | nil => cases h
  | cons first items ih =>
    rw [Value.depthAll]
    rcases List.mem_cons.mp h with rfl | h
    · exact Nat.le_max_left _ _
    · exact Nat.le_trans (ih h) (Nat.le_max_right _ _)

theorem depth_le_depthEntries {entries : Entries} {e : Value × Value} (h : e ∈ entries) :
    e.1.depth ≤ Value.depthEntries entries ∧ e.2.depth ≤ Value.depthEntries entries := by
  induction entries with
  | nil => cases h
  | cons first entries ih =>
    rw [Value.depthEntries]
    rcases List.mem_cons.mp h with rfl | h
    · have := Nat.le_max_left (Nat.max e.1.depth e.2.depth) (Value.depthEntries entries)
      exact ⟨Nat.le_trans (Nat.le_max_left _ _) this, Nat.le_trans (Nat.le_max_right _ _) this⟩
    · have := Nat.le_max_right (Nat.max first.1.depth first.2.depth) (Value.depthEntries entries)
      exact ⟨Nat.le_trans (ih h).1 this, Nat.le_trans (ih h).2 this⟩

theorem headers_nonempty (n : Nat) :
    1 ≤ (textHeader n).length ∧ 1 ≤ (bytesHeader n).length ∧ 1 ≤ (arrayHeader n).length
      ∧ 1 ≤ (mapHeader n).length := by
  unfold textHeader bytesHeader arrayHeader mapHeader
  refine ⟨?_, ?_, ?_, ?_⟩ <;> (repeat' split) <;> exact Nat.succ_pos _

theorem packInt_nonempty (n : Int) : Yields (1 ≤ ·.length) (packInt n) := by
  by_cases hrange : -2 ^ 63 ≤ n ∧ n ≤ 2 ^ 64 - 1
  · obtain ⟨bytes, hbytes, hlength⟩ := exists_packInt hrange.1 hrange.2
    rw [hbytes]
    exact yields_ok hlength
  · have herror : packInt n = .error .integerRange := by
      unfold packInt
      dsimp only
      (repeat' split) <;> first | rfl | omega
    rw [herror]
    exact yields_error

theorem yields_header {header : List UInt8} (hheader : 1 ≤ header.length)
    (body : Except PackError (List UInt8)) :
    Yields (1 ≤ ·.length) (return header ++ (← body)) := by
  refine Yields.bind (P := fun _ => True) (fun _ _ => trivial) fun rest _ => yields_ok ?_
  rw [List.length_append]
  omega

/-- No value is packed as no bytes at all. -/
theorem packWithin_nonempty (room : Nat) (v : Value) :
    Yields (1 ≤ ·.length) (packWithin room v) := by
  obtain _ | room := room
  · rw [packWithin]
    exact yields_error
  cases v with
  | null => exact yields_ok (Nat.le_refl _)
  | bool b => cases b <;> exact yields_ok (Nat.le_refl _)
  | int n => exact packInt_nonempty n
  | float x => exact yields_ok (Nat.succ_pos _)
  | str s =>
    rw [packWithin, packText]
    cases s.utf8? with
    | none => exact yields_error
    | some bytes => exact yields_header (headers_nonempty _).1 (.ok bytes)
  | bytes bytes => exact yields_header (headers_nonempty _).2.1 (.ok bytes)
  | list items | tuple items => exact yields_header (headers_nonempty _).2.2.1 _
  | map entries => exact yields_header (headers_nonempty _).2.2.2 _
  | variant => exact yields_error
  | ext | timestamp =>
    refine yields_ok ?_
    rw [packExt, List.length_append, List.length_cons]
    omega

theorem float_of_bits {x : Binary64} (hfits : fits (.float x) = true) :
    Binary64.ofBits (UInt64.ofNat x.bits.toNat) = x := by
  rw [fits, Bool.or_eq_true, Bool.not_eq_true', decide_eq_true_eq] at hfits
  unfold Binary64.ofBits
  rw [UInt64.ofNat_toNat]
  split
  · rename_i hnan
    rcases hfits with hnumber | rfl
    · rw [hnumber] at hnan; cases hnan
    · rfl
  · rfl

theorem spells_float {room : Nat} {x : Binary64} (hfits : fits (.float x) = true) :
    Spells room (0xcb :: bigEndian 8 x.bits.toNat) (.float x) := by
  refine spells_of_read (Nat.succ_pos _) fun limits fuel depth rest => ?_
  let read (n : Nat) (rest : List UInt8) : Except ReadError (Step Value) :=
    .ok (.float (Binary64.ofBits (UInt64.ofNat n)), rest)
  have hread : read x.bits.toNat rest = .ok (.float x, rest) := by
    show Except.ok (Value.float _, rest) = _
    rw [float_of_bits hfits]
  exact (readLength_bigEndian 8 read x.bits.toNat_lt).trans hread

theorem spells_text {room : Nat} {s : Text} {bytes : List UInt8} (hbytes : s.utf8? = some bytes)
    (hlength : bytes.length < sizeLimit) :
    Spells room (textHeader bytes.length ++ bytes) (.str s) := by
  have hheader := (headers_nonempty bytes.length).1
  refine spells_of_read ?_ fun limits fuel depth rest => ?_
  · rw [List.length_append]
    omega
  · rw [List.append_assoc, readValue_textHeader hlength, readText_append hbytes]

theorem spells_bytes {room : Nat} {bytes : List UInt8} (hlength : bytes.length < sizeLimit) :
    Spells room (bytesHeader bytes.length ++ bytes) (.bytes bytes) := by
  have hheader := (headers_nonempty bytes.length).2.1
  refine spells_of_read ?_ fun limits fuel depth rest => ?_
  · rw [List.length_append]
    omega
  · rw [List.append_assoc, readValue_bytesHeader hlength]
    unfold readBytes
    rw [takeBytes_append]
    rfl

theorem spells_list {room : Nat} {body : List UInt8} {items : List Value}
    (hlength : items.length < sizeLimit) (h : SpellsAll room body items) :
    Spells (room + 1) (arrayHeader items.length ++ body) (.list items) := by
  have hheader := (headers_nonempty items.length).2.2.1
  constructor
  · rw [List.length_append]
    omega
  · intro limits fuel depth rest hlimits hfuel hlevels
    rw [List.length_append] at hlimits hfuel
    cases fuel with
    | zero => omega
    | succ fuel =>
      have hitems := h.length
      have hlimit := hlimits.items
      rw [List.append_assoc, readValue_arrayHeader hlength, readArray, admitArray,
        if_neg (by omega), if_neg (by omega), bind_ok,
        h.read limits fuel (depth + 1) rest (hlimits.le (by omega)) (by omega) (by omega)]
      rfl

theorem spells_map {room : Nat} {body : List UInt8} {entries : Entries}
    (hlength : entries.length < sizeLimit) (hdistinct : DistinctKeys (entries.map (·.1)))
    (h : SpellsEntries room body entries) :
    Spells (room + 1) (mapHeader entries.length ++ body) (.map entries) := by
  have hheader := (headers_nonempty entries.length).2.2.2
  constructor
  · rw [List.length_append]
    omega
  · intro limits fuel depth rest hlimits hfuel hlevels
    rw [List.length_append] at hlimits hfuel
    cases fuel with
    | zero => omega
    | succ fuel =>
      have hentries := h.length
      have hlimit := hlimits.entries
      rw [List.append_assoc, readValue_mapHeader hlength, readMap, admitMap, if_neg (by omega),
        if_neg (by omega), bind_ok, h.read limits fuel (depth + 1) [] rest (hlimits.le (by omega))
          (by omega) (by omega) hdistinct]
      rfl

/-- **A portable value is packed, and spelled by its bytes.** -/
theorem exists_pack {v : Value} (h : v.Portable) {room : Nat} (hfits : fits v = true)
    (hdepth : v.depth < 2 * (room + 1)) :
    ∃ bytes, packWithin (room + 1) v = .ok bytes ∧ Spells (room + 1) bytes v := by
  induction h generalizing room with
  | null => exact ⟨_, rfl, spells_of_read (Nat.le_refl _) fun _ _ _ _ => rfl⟩
  | bool b =>
    cases b with
    | false => exact ⟨_, rfl, spells_of_read (Nat.le_refl _) fun _ _ _ _ => rfl⟩
    | true => exact ⟨_, rfl, spells_of_read (Nat.le_refl _) fun _ _ _ _ => rfl⟩
  | int least greatest =>
    obtain ⟨bytes, hbytes, hlength⟩ := exists_packInt least greatest
    refine ⟨bytes, by rw [packWithin, hbytes], ?_⟩
    exact spells_of_read hlength fun _ _ _ _ => readValue_packInt hbytes
  | float x => exact ⟨_, by rw [packWithin], spells_float hfits⟩
  | str s =>
    rw [fits] at hfits
    cases hbytes : s.utf8? with
    | none => rw [hbytes] at hfits; cases hfits
    | some bytes =>
      rw [hbytes] at hfits
      have hlength : bytes.length < sizeLimit := by simpa using hfits
      exact ⟨_, by rw [packWithin, packText, hbytes], spells_text hbytes hlength⟩
  | bytes bs =>
    have hlength : bs.length < sizeLimit := by simpa [fits] using hfits
    exact ⟨_, by rw [packWithin], spells_bytes hlength⟩
  | @list items items_portable ih =>
    rw [fits, Bool.and_eq_true, decide_eq_true_eq, fitsAll_iff] at hfits
    obtain ⟨hlength, hall⟩ := hfits
    rw [Value.depth] at hdepth
    -- what is inside of the list has one level less
    obtain ⟨room, rfl⟩ : ∃ r, room = r + 1 := ⟨room - 1, by omega⟩
    have hin : ∀ item ∈ items, ∃ bytes,
        packWithin (room + 1) item = .ok bytes ∧ Spells (room + 1) bytes item := by
      intro item hitem
      have := depth_le_depthAll hitem
      exact ih item hitem (hall item hitem) (by omega)
    obtain ⟨body, hbody, hspells⟩ := exists_packAll hin
    exact ⟨_, by rw [packWithin, hbody]; rfl, spells_list hlength hspells⟩
  | @map entries keys distinct keys_portable values_portable ihk ihv =>
    rw [fits, Bool.and_eq_true, decide_eq_true_eq, fitsEntries_iff] at hfits
    obtain ⟨hlength, hall⟩ := hfits
    rw [Value.depth] at hdepth
    obtain ⟨room, rfl⟩ : ∃ r, room = r + 1 := ⟨room - 1, by omega⟩
    have hkeys : ∀ e ∈ entries, ∃ bytes,
        packWithin (room + 1) e.1 = .ok bytes ∧ Spells (room + 1) bytes e.1 := by
      intro e he
      have := depth_le_depthEntries he
      exact ihk e he (hall e he).1 (by omega)
    have hvalues : ∀ e ∈ entries, ∃ bytes,
        packWithin (room + 1) e.2 = .ok bytes ∧ Spells (room + 1) bytes e.2 := by
      intro e he
      have := depth_le_depthEntries he
      exact ihv e he (hall e he).2 (by omega)
    obtain ⟨body, hbody, hspells⟩ := exists_packEntries keys hkeys hvalues
    exact ⟨_, by rw [packWithin, hbody]; rfl, spells_map hlength distinct hspells⟩

/-- **What is packed comes back.** -/
theorem restores : format.Restores depthLimit := by
  intro v h hfits hdepth
  obtain ⟨bytes, hbytes, hspells⟩ := exists_pack h hfits hdepth
  have hread := hspells.read (.of bytes) (2 * bytes.length + 1) 0 [] (Limits.admit_of bytes)
    (by omega) (by decide)
  rw [List.append_nil] at hread
  have hunpack : unpack bytes = .ok v := by
    unfold unpack
    rw [hread]
    rfl
  exact ⟨bytes, hbytes, by rw [format_unpack, hunpack]; rfl⟩

theorem neverEmpty : format.NeverEmpty := fun v => packWithin_nonempty depthLimit v

end MessagePack

end WasmBridge
