import Mathlib.Data.List.Perm.Lattice
import Mathlib.Data.List.Sort
import WasmBridge.Text.Basic

/-!
# The order of texts

Code points are ordered by their numbers and texts by their code points, and no two of them are at
the same place. So there is one way only to sort some texts, whatever order they come in.
-/

namespace WasmBridge

theorem Code.value_injective : Function.Injective Code.value := by
  intro a b h
  cases a with
  | char c =>
    cases b with
    | char d => rw [Char.ext (UInt32.toNat_inj.mp h)]
    | half place =>
      have hvalid : c.toNat.isValidChar := c.valid
      simp only [value, firstHalf, Nat.isValidChar] at h hvalid
      omega
  | half place =>
    cases b with
    | char d =>
      have hvalid : d.toNat.isValidChar := d.valid
      simp only [value, firstHalf, Nat.isValidChar] at h hvalid
      omega
    | half other =>
      simp only [value] at h
      rw [Fin.ext (Nat.add_left_cancel h)]

instance : Std.TransOrd Code := inferInstanceAs (Std.TransCmp (compareOn Code.value))

instance : Std.LawfulEqOrd Code where
  eq_of_compare h := Code.value_injective (Nat.compare_eq_eq.mp h)

/-- Texts without repetition are sorted the same way if they are the same ones. -/
theorem Text.mergeSort_eq {texts others : List Text} (h : texts.Nodup) (hothers : others.Nodup)
    (hmem : ∀ t, t ∈ texts ↔ t ∈ others) :
    (texts.mergeSort fun s t => (compare s t).isLE)
      = others.mergeSort fun s t => (compare s t).isLE := by
  have htrans : ∀ a b c : Text, (compare a b).isLE → (compare b c).isLE → (compare a c).isLE :=
    fun _ _ _ => Std.TransCmp.isLE_trans
  have htotal : ∀ a b : Text, ((compare a b).isLE || (compare b a).isLE) = true := by
    intro a b
    have hswap : compare b a = (compare a b).swap := Std.OrientedCmp.eq_swap
    rw [hswap]
    cases compare a b <;> rfl
  refine List.Perm.eq_of_pairwise (fun a b _ _ => ?_) (List.pairwise_mergeSort htrans htotal _)
    (List.pairwise_mergeSort htrans htotal _) ?_
  · exact fun hab hba => Std.LawfulEqCmp.eq_of_compare (Std.OrientedCmp.isLE_antisymm hab hba)
  · exact (List.mergeSort_perm _ _).trans
      (((List.perm_ext_iff_of_nodup h hothers).mpr hmem).trans (List.mergeSort_perm _ _).symm)

end WasmBridge
