import Mathlib.Data.Int.Bitwise
import WasmBridge.Memory.FatPtr
import WasmBridge.Proofs.Outcome

/-!
# Packing and unpacking

A number of 64 bits is a fat pointer for exactly one offset and one length. Both
directions are stated as one relation between the three numbers, which is what
the proofs about buffers carry along.

The numbers are unbounded, so what is packed and unpacked is said of all integers:
the two directions succeed on the numbers of 32 and of 64 bits only, they undo each
other there, and in bits the offset is the high half and the length the low half.
-/

namespace WasmBridge.FatPtr

open Outcome

/-- The number is the fat pointer for an offset and a length, both of 32 bits. -/
def Packs (fat pointer length : Int) : Prop :=
  (0 ≤ pointer ∧ pointer < halfSize) ∧ (0 ≤ length ∧ length < halfSize) ∧
    fat = pointer * halfSize + length

instance (fat pointer length : Int) : Decidable (Packs fat pointer length) :=
  inferInstanceAs (Decidable (_ ∧ _))

theorem pack_eq_ok_iff {pointer length fat : Int} :
    pack pointer length = .ok fat ↔ Packs fat pointer length := by
  unfold pack Packs
  split
  · rename_i h
    exact ⟨fun hc => by simp at hc, fun hc => by omega⟩
  · split
    · rename_i h
      exact ⟨fun hc => by simp at hc, fun hc => by omega⟩
    · rename_i hp hl
      simp only [Except.ok.injEq]
      exact ⟨fun hc => by omega, fun hc => hc.2.2.symm⟩

theorem unpack_eq_ok_iff {fat pointer length : Int} :
    unpack fat = .ok (pointer, length) ↔ Packs fat pointer length := by
  unfold unpack Packs halfSize
  split
  · rename_i h
    exact ⟨fun hc => by simp at hc, fun hc => by omega⟩
  · rename_i h
    simp only [Except.ok.injEq, Prod.mk.injEq]
    constructor
    · intro hc; omega
    · intro hc; omega

/-- A fat pointer determines its offset and its length. -/
theorem Packs.unique {fat p l p' l' : Int} (h : Packs fat p l) (h' : Packs fat p' l') :
    p = p' ∧ l = l' := by
  unfold Packs halfSize at *; omega

/-- The high half of a fat pointer is its offset. -/
theorem Packs.pointer_eq {fat p l : Int} (h : Packs fat p l) : fat / halfSize = p := by
  unfold Packs halfSize at *; omega

/-- What a number points to is a matter of its two halves. -/
theorem exists_packs_iff {fat : Int} {P : Int → Prop} :
    (∃ pointer length, Packs fat pointer length ∧ P pointer)
      ↔ Packs fat (fat / halfSize) (fat % halfSize) ∧ P (fat / halfSize) := by
  constructor
  · rintro ⟨pointer, length, hfat, hp⟩
    have hlength : fat % halfSize = length := by unfold Packs halfSize at *; omega
    rw [hfat.pointer_eq, hlength]
    exact ⟨hfat, hp⟩
  · exact fun ⟨hfat, hp⟩ => ⟨_, _, hfat, hp⟩

/-- Offsets need no more than 32 bits. -/
theorem Packs.pointer_lt {fat p l : Int} (h : Packs fat p l) : 0 ≤ p ∧ p < 0x100000000 := h.1

/-! ## Which numbers are packed -/

/-- A number that is written with no more than some bits. -/
def FitsIn (bits : Nat) (n : Int) : Prop := 0 ≤ n ∧ n < 2 ^ bits

section Ranges

variable {fat pointer length : Int} {e : BoundaryError}

theorem fitsIn_half_iff {n : Int} : FitsIn 32 n ↔ 0 ≤ n ∧ n < halfSize := by
  unfold FitsIn halfSize
  omega

/-- Offset and length decide whether there is a fat pointer for them, and which. -/
theorem packs_iff_of_halves :
    Packs fat pointer length
      ↔ (FitsIn 32 pointer ∧ FitsIn 32 length) ∧ fat = pointer * halfSize + length := by
  rw [fitsIn_half_iff, fitsIn_half_iff, and_assoc]
  rfl

/-- A number decides whether it is a fat pointer, and to what. -/
theorem packs_iff_of_whole :
    Packs fat pointer length
      ↔ FitsIn 64 fat ∧ pointer = fat / halfSize ∧ length = fat % halfSize := by
  unfold Packs FitsIn halfSize
  omega

/-- An offset that does not fit is refused whatever the length is. -/
theorem pack_eq_error_iff :
    pack pointer length = .error e
      ↔ (¬ FitsIn 32 pointer ∧ e = .pointerRange pointer)
        ∨ (FitsIn 32 pointer ∧ ¬ FitsIn 32 length ∧ e = .lengthRange length) := by
  rw [fitsIn_half_iff, fitsIn_half_iff]
  unfold pack
  by_cases hpointer : pointer < 0 ∨ halfSize ≤ pointer
  · have hout : ¬ (0 ≤ pointer ∧ pointer < halfSize) := by omega
    rw [if_pos hpointer]
    simp [hout, eq_comm]
  · have hin : 0 ≤ pointer ∧ pointer < halfSize := by omega
    rw [if_neg hpointer]
    by_cases hlength : length < 0 ∨ halfSize ≤ length
    · have hout : ¬ (0 ≤ length ∧ length < halfSize) := by omega
      rw [if_pos hlength]
      simp [hin, hout, eq_comm]
    · have hboth : 0 ≤ length ∧ length < halfSize := by omega
      rw [if_neg hlength]
      simp [hin, hboth]

theorem unpack_eq_error_iff :
    unpack fat = .error e ↔ ¬ FitsIn 64 fat ∧ e = .fatPointerRange fat := by
  unfold unpack
  by_cases hfat : fat < 0 ∨ halfSize * halfSize ≤ fat
  · have hout : ¬ FitsIn 64 fat := by unfold FitsIn halfSize at *; omega
    rw [if_pos hfat]
    simp [hout, eq_comm]
  · have hin : FitsIn 64 fat := by unfold FitsIn halfSize at *; omega
    rw [if_neg hfat]
    simp [hin]

end Ranges

/-! ## Halves as bits -/

/-- Bits in front of a number that leaves room for them. -/
theorem lor_shiftLeft {bits : Nat} {high low : Int} (hhigh : 0 ≤ high) (hlow : FitsIn bits low) :
    Int.lor (high <<< bits) low = high * 2 ^ bits + low := by
  obtain ⟨h, rfl⟩ := Int.eq_ofNat_of_zero_le hhigh
  obtain ⟨l, rfl⟩ := Int.eq_ofNat_of_zero_le hlow.1
  have hroom : l < 2 ^ bits := by exact_mod_cast hlow.2
  calc Int.lor ((h : Int) <<< bits) l = ((h <<< bits ||| l : Nat) : Int) := rfl
    _ = ((h <<< bits + l : Nat) : Int) := by rw [Nat.shiftLeft_add_eq_or_of_lt hroom]
    _ = h * 2 ^ bits + l := by rw [Nat.shiftLeft_eq]; push_cast; rfl

/-- The last bits of a number. -/
theorem land_mask {n : Int} (hn : 0 ≤ n) (bits : Nat) :
    Int.land n (2 ^ bits - 1 : Nat) = n % 2 ^ bits := by
  obtain ⟨m, rfl⟩ := Int.eq_ofNat_of_zero_le hn
  calc Int.land m (2 ^ bits - 1 : Nat) = ((m &&& (2 ^ bits - 1) : Nat) : Int) := rfl
    _ = ((m % 2 ^ bits : Nat) : Int) := by rw [Nat.and_two_pow_sub_one_eq_mod]
    _ = m % 2 ^ bits := by push_cast; rfl

section Bits

variable {fat pointer length : Int}

theorem pack_eq_ok_iff_lor :
    pack pointer length = .ok fat
      ↔ (FitsIn 32 pointer ∧ FitsIn 32 length) ∧ fat = Int.lor (pointer <<< (32 : Nat)) length := by
  rw [pack_eq_ok_iff, packs_iff_of_halves]
  refine and_congr_right fun ⟨hpointer, hlength⟩ => ?_
  rw [lor_shiftLeft hpointer.1 hlength]
  rfl

theorem unpack_eq_ok_iff_land :
    unpack fat = .ok (pointer, length)
      ↔ FitsIn 64 fat ∧ pointer = fat >>> (32 : Nat) ∧ length = Int.land fat 0xffffffff := by
  rw [unpack_eq_ok_iff, packs_iff_of_whole]
  refine and_congr_right fun hfat => ?_
  rw [Int.shiftRight_eq_div_pow, show (0xffffffff : Int) = (2 ^ 32 - 1 : Nat) from rfl,
    land_mask hfat.1]
  rfl

end Bits

/-! ## There and back -/

/--
**Packing is a bijection.** On all integers: an offset and a length are packed exactly if both have
32 bits, the offset in front of the length, and else the first of them that has not is refused; a
number is unpacked exactly if it has 64 bits, into what is in front of the last 32 and those, and is
else refused. Whatever is packed is unpacked again, and whatever is unpacked is packed again.
-/
theorem packing_bijective (pointer length fat : Int) :
    (∀ packed, pack pointer length = .ok packed
        ↔ (FitsIn 32 pointer ∧ FitsIn 32 length) ∧ packed = Int.lor (pointer <<< (32 : Nat)) length)
      ∧ (∀ e, pack pointer length = .error e
        ↔ (¬ FitsIn 32 pointer ∧ e = .pointerRange pointer)
          ∨ (FitsIn 32 pointer ∧ ¬ FitsIn 32 length ∧ e = .lengthRange length))
      ∧ (∀ p l, unpack fat = .ok (p, l)
        ↔ FitsIn 64 fat ∧ p = fat >>> (32 : Nat) ∧ l = Int.land fat 0xffffffff)
      ∧ (∀ e, unpack fat = .error e ↔ ¬ FitsIn 64 fat ∧ e = .fatPointerRange fat)
      ∧ (pack pointer length >>= unpack = .ok (pointer, length)
        ↔ FitsIn 32 pointer ∧ FitsIn 32 length)
      ∧ ((unpack fat >>= fun (p, l) => pack p l) = .ok fat ↔ FitsIn 64 fat) := by
  refine ⟨fun _ => pack_eq_ok_iff_lor, fun _ => pack_eq_error_iff, fun _ _ => unpack_eq_ok_iff_land,
    fun _ => unpack_eq_error_iff, ?_, ?_⟩
  · rw [bind_eq_ok]
    constructor
    · rintro ⟨packed, hpacked, -⟩
      exact (pack_eq_ok_iff_lor.mp hpacked).1
    · intro hhalves
      have hpacks := packs_iff_of_halves.mpr ⟨hhalves, rfl⟩
      exact ⟨_, pack_eq_ok_iff.mpr hpacks, unpack_eq_ok_iff.mpr hpacks⟩
  · rw [bind_eq_ok]
    constructor
    · rintro ⟨⟨p, l⟩, hunpacked, -⟩
      exact (unpack_eq_ok_iff_land.mp hunpacked).1
    · intro hfat
      have hpacks := packs_iff_of_whole.mpr ⟨hfat, rfl, rfl⟩
      exact ⟨_, unpack_eq_ok_iff.mpr hpacks, pack_eq_ok_iff.mpr hpacks⟩

end WasmBridge.FatPtr
