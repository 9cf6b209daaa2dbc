import WasmBridge.Proofs.Operation

/-!
# Bytes and words

What a memory holds after bytes were written to it: the bytes themselves where
they were written, and everywhere else what it held before. A word is read back
as the number that was written, since its four bytes spell the number.
-/

namespace WasmBridge.LinearMemory

variable {m m' : LinearMemory} {start offset : Int} {bytes : List UInt8}

theorem byteAt_setBytes (m : LinearMemory) (start a : Int) (bytes : List UInt8) :
    (m.setBytes start bytes).byteAt a =
      if start ≤ a ∧ a < start + bytes.length then bytes.getD (a - start).toNat 0
      else m.byteAt a := by
  simp only [setBytes]
  split
  · simp [Array.getD_eq_getD_getElem?, List.getD_eq_getElem?_getD]
  · rfl

/-- Bytes outside the written ones stay. -/
theorem byteAt_setBytes_outside {a : Int} (h : a < start ∨ start + bytes.length ≤ a) :
    (m.setBytes start bytes).byteAt a = m.byteAt a := by
  rw [byteAt_setBytes, if_neg (by omega)]

/-- A stretch of bytes depends on the bytes in it only. -/
theorem bytesFrom_congr {count : Nat}
    (h : ∀ a, start ≤ a → a < start + count → m'.byteAt a = m.byteAt a) :
    m'.bytesFrom start count = m.bytesFrom start count := by
  unfold bytesFrom
  refine List.map_congr_left fun i hi => ?_
  have := List.mem_range.mp hi
  exact h _ (by omega) (by omega)

@[simp] theorem length_bytesFrom (m : LinearMemory) (start : Int) (count : Nat) :
    (m.bytesFrom start count).length = count := by
  simp [bytesFrom]

/-- The written bytes are read back. -/
theorem bytesFrom_setBytes (m : LinearMemory) (start : Int) (bytes : List UInt8) :
    (m.setBytes start bytes).bytesFrom start bytes.length = bytes := by
  refine List.ext_getElem (by simp) fun i h1 h2 => ?_
  have hi : (start + (i : Int) - start).toNat = i := by omega
  simp only [bytesFrom, List.getElem_map, List.getElem_range, byteAt_setBytes]
  rw [if_pos (by omega), hi, List.getD_eq_getElem?_getD, List.getElem?_eq_getElem h2,
    Option.getD_some]

/-- Nothing is written where there is nothing to write. -/
theorem overwrite_nil (m : LinearMemory) (start : Int) : m.overwrite start [] = m := by
  have hbytes : (m.setBytes (min start m.size) []).byteAt = m.byteAt :=
    funext fun a => byteAt_setBytes_outside (by simp only [List.length_nil]; omega)
  have hsize : max m.size (min start m.size + ([] : List UInt8).length) = m.size := by
    simp only [List.length_nil]; omega
  simp only [overwrite, hsize]
  exact congrArg (fun byteAt => { m with byteAt }) hbytes

/-! ## Words -/

/-- The number that the four bytes at an offset spell. -/
def wordAt (m : LinearMemory) (offset : Int) : Int := wordOfBytes (m.bytesFrom offset 4)

theorem wordOfBytes_cons (b : UInt8) (bytes : List UInt8) :
    wordOfBytes (b :: bytes) = b.toNat + 256 * wordOfBytes bytes := rfl

theorem wordOfBytes_bigEndian (width : Nat) :
    ∀ n : Nat, n < Nat.pow 256 width →
      wordOfBytes (bigEndian width n).reverse = n := by
  induction width with
  | zero =>
    intro n h
    have : n = 0 := Nat.lt_one_iff.mp h
    subst this; rfl
  | succ width ih =>
    intro n h
    have hq : n / 256 < Nat.pow 256 width := Nat.div_lt_of_lt_mul (by
      rw [Nat.mul_comm]; exact h)
    have := ih (n / 256) hq
    unfold wordOfBytes at this ⊢
    rw [bigEndian, List.reverse_append, List.reverse_singleton, List.singleton_append,
      List.foldr_cons, this, UInt8.toNat_ofNat']
    omega

/-- A number of 32 bits is spelled by its four bytes. -/
theorem wordOfBytes_bytesOfWord {n : Int} (h0 : 0 ≤ n) (h : n < 0x100000000) :
    wordOfBytes (bytesOfWord n) = n := by
  unfold bytesOfWord
  rw [wordOfBytes_bigEndian 4 n.toNat (by show n.toNat < 0x100000000; omega)]
  omega

@[simp] theorem length_bytesOfWord (n : Int) : (bytesOfWord n).length = 4 := by
  simp [bytesOfWord, bigEndian]

/-- A word is a number of 32 bits. -/
theorem wordAt_range (m : LinearMemory) (offset : Int) :
    0 ≤ m.wordAt offset ∧ m.wordAt offset < FatPtr.halfSize := by
  have hbound : ∀ bytes : List UInt8,
      0 ≤ wordOfBytes bytes ∧ wordOfBytes bytes < 256 ^ bytes.length := by
    intro bytes
    induction bytes with
    | nil => exact ⟨Int.le_refl 0, by decide⟩
    | cons b bytes ih =>
      have hb := b.toNat_lt
      rw [wordOfBytes_cons, List.length_cons, Int.pow_succ]
      omega
  have h := hbound (m.bytesFrom offset 4)
  rw [length_bytesFrom] at h
  exact ⟨h.1, h.2⟩

/-- A word depends on its own bytes only. -/
theorem wordAt_congr
    (h : ∀ a, offset ≤ a → a < offset + 4 → m'.byteAt a = m.byteAt a) :
    m'.wordAt offset = m.wordAt offset := by
  unfold wordAt; rw [bytesFrom_congr h]

/-- A written word is read back. -/
theorem wordAt_setBytes {n : Int} (h0 : 0 ≤ n) (h : n < 0x100000000) :
    (m.setBytes offset (bytesOfWord n)).wordAt offset = n := by
  have := bytesFrom_setBytes m offset (bytesOfWord n)
  rw [length_bytesOfWord] at this
  unfold wordAt; rw [this, wordOfBytes_bytesOfWord h0 h]

/-- A word apart from the written bytes stays. -/
theorem wordAt_setBytes_outside
    (h : offset + 4 ≤ start ∨ start + bytes.length ≤ offset) :
    (m.setBytes start bytes).wordAt offset = m.wordAt offset :=
  wordAt_congr fun _ h1 h2 => byteAt_setBytes_outside (by omega)

/-- A word has one spelling. -/
theorem wordOfBytes_injective {xs ys : List UInt8} (hlength : xs.length = ys.length)
    (h : wordOfBytes xs = wordOfBytes ys) : xs = ys := by
  induction xs generalizing ys with
  | nil => exact (List.length_eq_zero_iff.mp hlength.symm).symm
  | cons x xs ih =>
    obtain _ | ⟨y, ys⟩ := ys
    · cases hlength
    · have hx := x.toNat_lt
      have hy := y.toNat_lt
      rw [wordOfBytes_cons, wordOfBytes_cons] at h
      have hhead : x = y := UInt8.toNat_inj.mp (by omega)
      rw [hhead, ih (Nat.succ.inj hlength) (by omega)]

/-- Bytes that are written where they stand already change nothing. -/
theorem setBytes_bytesFrom (m : LinearMemory) (start : Int) (count : Nat) :
    m.setBytes start (m.bytesFrom start count) = m := by
  have hbytes : (m.setBytes start (m.bytesFrom start count)).byteAt = m.byteAt := by
    funext a
    rw [byteAt_setBytes, length_bytesFrom]
    by_cases hin : start ≤ a ∧ a < start + count
    · have hi : (a - start).toNat < (m.bytesFrom start count).length := by
        rw [length_bytesFrom]; omega
      have hplace : start + ((a - start).toNat : Int) = a := by omega
      rw [if_pos hin, List.getD_eq_getElem?_getD, List.getElem?_eq_getElem hi, Option.getD_some]
      simp only [bytesFrom, List.getElem_map, List.getElem_range, hplace]
    · rw [if_neg hin]
  exact congrArg (fun byteAt => { m with byteAt }) hbytes

/-- Writing a word changes nothing exactly if it is the word that stands there. -/
theorem setBytes_eq_self_iff {n : Int} (h0 : 0 ≤ n) (h : n < 0x100000000) :
    m.setBytes offset (bytesOfWord n) = m ↔ m.wordAt offset = n := by
  constructor
  · intro hsame
    rw [← hsame]
    exact wordAt_setBytes h0 h
  · intro hword
    have hbytes : bytesOfWord n = m.bytesFrom offset 4 := by
      refine wordOfBytes_injective (by simp) ?_
      rw [wordOfBytes_bytesOfWord h0 h]
      exact hword.symm
    rw [hbytes, setBytes_bytesFrom]

/-! ## Reading and writing words within the memory -/

theorem wordStart_eq (h0 : 0 ≤ offset) (hsize : offset + 4 ≤ m.size) :
    m.wordStart offset = .ok offset := by
  simp only [wordStart, if_neg (show ¬ offset < 0 by omega)]
  rw [if_neg (by omega)]

theorem wordStart_outside (h0 : 0 ≤ offset) (hsize : m.size < offset + 4) :
    m.wordStart offset = .error .wordAccess := by
  simp only [wordStart, if_neg (show ¬ offset < 0 by omega)]
  rw [if_pos (by omega)]

/-- Wherever a word begins, it lies within the memory. -/
theorem wordStart_range (h : m.wordStart offset = .ok start) :
    0 ≤ start ∧ start + 4 ≤ m.size := by
  unfold wordStart at h
  generalize (if offset < 0 then m.size + offset else offset) = place at h
  dsimp only at h
  split at h
  · cases h
  · cases h; omega

/-- A word at an offset that is no negative number begins there. -/
theorem wordStart_of_nonneg (h0 : 0 ≤ offset)
    (h : m.wordStart offset = .ok start) : start = offset := by
  unfold wordStart at h
  rw [if_neg (show ¬ offset < 0 by omega)] at h
  dsimp only at h
  split at h
  · cases h
  · exact (Except.ok.inj h).symm

theorem isIndex_of_lt (h0 : 0 ≤ offset) (h : offset < 0x8000000000000000) :
    isIndex offset = true := by
  simp only [isIndex, Bool.and_eq_true, decide_eq_true_eq]; omega

theorem readWord_eq (h0 : 0 ≤ offset) (hsize : offset + 4 ≤ m.size)
    (hidx : offset < 0x8000000000000000) : m.readWord offset = .ok (m.wordAt offset) := by
  simp only [readWord, isIndex_of_lt h0 hidx, wordStart_eq h0 hsize]
  rfl

theorem readWord_outside (h0 : 0 ≤ offset) (hsize : m.size < offset + 4)
    (hidx : offset < 0x8000000000000000) : m.readWord offset = .error .wordAccess := by
  simp only [readWord, isIndex_of_lt h0 hidx, wordStart_outside h0 hsize]
  rfl

/-- Nothing is written where there is no room for a word. -/
theorem writeWord_outside (h0 : 0 ≤ offset) (hsize : m.size < offset + 4)
    (hidx : offset < 0x8000000000000000) (n : Int) :
    writeWord offset n m = .error .wordAccess m := by
  simp [writeWord, isIndex_of_lt h0 hidx, wordStart_outside h0 hsize]

theorem writeWord_eq {n : Int} (h0 : 0 ≤ offset) (hsize : offset + 4 ≤ m.size)
    (hidx : offset < 0x8000000000000000) (hn0 : 0 ≤ n) (hn : n < 0x100000000) :
    writeWord offset n m = .ok () (m.setBytes offset (bytesOfWord n)) := by
  have hv : ¬ (n < 0 ∨ 0x100000000 ≤ n) := by omega
  simp [writeWord, isIndex_of_lt h0 hidx, wordStart_eq h0 hsize, hv]

end WasmBridge.LinearMemory
