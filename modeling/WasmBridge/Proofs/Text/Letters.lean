import WasmBridge.Proofs.Text.Marks
import WasmBridge.Proofs.Text.Order

/-!
# Letters

A word is made of letters and of characters with a numeric value. What of a word comes first stays
what it is in any casing: a letter is mapped to a letter or to several characters of which a letter
comes first, and a digit has no case at all. The case mappings are tables of runs, and nearly every
run lands within one range of letters, so it does not take a look at each letter to see this.
-/

namespace WasmBridge

theorem Code.ofNat_value (c : Code) : ofNat c.value = c := value_injective (value_ofNat c.value_lt)

namespace Text

/-- Characters with a numeric value that are no letters. -/
def numbers : CharSet := [
  ⟨0x30, 0x39, 1⟩, ⟨0xb2, 0xb3, 1⟩, ⟨0xb9, 0xb9, 1⟩, ⟨0xbc, 0xbe, 1⟩, ⟨0x660, 0x669, 1⟩,
  ⟨0x6f0, 0x6f9, 1⟩, ⟨0x7c0, 0x7c9, 1⟩, ⟨0x966, 0x96f, 1⟩, ⟨0x9e6, 0x9ef, 1⟩, ⟨0x9f4, 0x9f9, 1⟩,
  ⟨0xa66, 0xa6f, 1⟩, ⟨0xae6, 0xaef, 1⟩, ⟨0xb66, 0xb6f, 1⟩, ⟨0xb72, 0xb77, 1⟩, ⟨0xbe6, 0xbf2, 1⟩,
  ⟨0xc66, 0xc6f, 1⟩, ⟨0xc78, 0xc7e, 1⟩, ⟨0xce6, 0xcef, 1⟩, ⟨0xd58, 0xd5e, 1⟩, ⟨0xd66, 0xd78, 1⟩,
  ⟨0xde6, 0xdef, 1⟩, ⟨0xe50, 0xe59, 1⟩, ⟨0xed0, 0xed9, 1⟩, ⟨0xf20, 0xf33, 1⟩, ⟨0x1040, 0x1049, 1⟩,
  ⟨0x1090, 0x1099, 1⟩, ⟨0x1369, 0x137c, 1⟩, ⟨0x16ee, 0x16f0, 1⟩, ⟨0x17e0, 0x17e9, 1⟩,
  ⟨0x17f0, 0x17f9, 1⟩, ⟨0x1810, 0x1819, 1⟩, ⟨0x1946, 0x194f, 1⟩, ⟨0x19d0, 0x19da, 1⟩,
  ⟨0x1a80, 0x1a89, 1⟩, ⟨0x1a90, 0x1a99, 1⟩, ⟨0x1b50, 0x1b59, 1⟩, ⟨0x1bb0, 0x1bb9, 1⟩,
  ⟨0x1c40, 0x1c49, 1⟩, ⟨0x1c50, 0x1c59, 1⟩, ⟨0x2070, 0x2070, 1⟩, ⟨0x2074, 0x2079, 1⟩,
  ⟨0x2080, 0x2089, 1⟩, ⟨0x2150, 0x2182, 1⟩, ⟨0x2185, 0x2189, 1⟩, ⟨0x2460, 0x249b, 1⟩,
  ⟨0x24ea, 0x24ff, 1⟩, ⟨0x2776, 0x2793, 1⟩, ⟨0x2cfd, 0x2cfd, 1⟩, ⟨0x3007, 0x3007, 1⟩,
  ⟨0x3021, 0x3029, 1⟩, ⟨0x3038, 0x303a, 1⟩, ⟨0x3192, 0x3195, 1⟩, ⟨0x3220, 0x3229, 1⟩,
  ⟨0x3248, 0x324f, 1⟩, ⟨0x3251, 0x325f, 1⟩, ⟨0x3280, 0x3289, 1⟩, ⟨0x32b1, 0x32bf, 1⟩,
  ⟨0xa620, 0xa629, 1⟩, ⟨0xa6e6, 0xa6ef, 1⟩, ⟨0xa830, 0xa835, 1⟩, ⟨0xa8d0, 0xa8d9, 1⟩,
  ⟨0xa900, 0xa909, 1⟩, ⟨0xa9d0, 0xa9d9, 1⟩, ⟨0xa9f0, 0xa9f9, 1⟩, ⟨0xaa50, 0xaa59, 1⟩,
  ⟨0xabf0, 0xabf9, 1⟩, ⟨0xff10, 0xff19, 1⟩, ⟨0x10107, 0x10133, 1⟩, ⟨0x10140, 0x10178, 1⟩,
  ⟨0x1018a, 0x1018b, 1⟩, ⟨0x102e1, 0x102fb, 1⟩, ⟨0x10320, 0x10323, 1⟩, ⟨0x10341, 0x10341, 1⟩,
  ⟨0x1034a, 0x1034a, 1⟩, ⟨0x103d1, 0x103d5, 1⟩, ⟨0x104a0, 0x104a9, 1⟩, ⟨0x10858, 0x1085f, 1⟩,
  ⟨0x10879, 0x1087f, 1⟩, ⟨0x108a7, 0x108af, 1⟩, ⟨0x108fb, 0x108ff, 1⟩, ⟨0x10916, 0x1091b, 1⟩,
  ⟨0x109bc, 0x109bd, 1⟩, ⟨0x109c0, 0x109cf, 1⟩, ⟨0x109d2, 0x109ff, 1⟩, ⟨0x10a40, 0x10a48, 1⟩,
  ⟨0x10a7d, 0x10a7e, 1⟩, ⟨0x10a9d, 0x10a9f, 1⟩, ⟨0x10aeb, 0x10aef, 1⟩, ⟨0x10b58, 0x10b5f, 1⟩,
  ⟨0x10b78, 0x10b7f, 1⟩, ⟨0x10ba9, 0x10baf, 1⟩, ⟨0x10cfa, 0x10cff, 1⟩, ⟨0x10d30, 0x10d39, 1⟩,
  ⟨0x10e60, 0x10e7e, 1⟩, ⟨0x10f1d, 0x10f26, 1⟩, ⟨0x10f51, 0x10f54, 1⟩, ⟨0x10fc5, 0x10fcb, 1⟩,
  ⟨0x11052, 0x1106f, 1⟩, ⟨0x110f0, 0x110f9, 1⟩, ⟨0x11136, 0x1113f, 1⟩, ⟨0x111d0, 0x111d9, 1⟩,
  ⟨0x111e1, 0x111f4, 1⟩, ⟨0x112f0, 0x112f9, 1⟩, ⟨0x11450, 0x11459, 1⟩, ⟨0x114d0, 0x114d9, 1⟩,
  ⟨0x11650, 0x11659, 1⟩, ⟨0x116c0, 0x116c9, 1⟩, ⟨0x11730, 0x1173b, 1⟩, ⟨0x118e0, 0x118f2, 1⟩,
  ⟨0x11950, 0x11959, 1⟩, ⟨0x11c50, 0x11c6c, 1⟩, ⟨0x11d50, 0x11d59, 1⟩, ⟨0x11da0, 0x11da9, 1⟩,
  ⟨0x11fc0, 0x11fd4, 1⟩, ⟨0x12400, 0x1246e, 1⟩, ⟨0x16a60, 0x16a69, 1⟩, ⟨0x16ac0, 0x16ac9, 1⟩,
  ⟨0x16b50, 0x16b59, 1⟩, ⟨0x16b5b, 0x16b61, 1⟩, ⟨0x16e80, 0x16e96, 1⟩, ⟨0x1d2e0, 0x1d2f3, 1⟩,
  ⟨0x1d360, 0x1d378, 1⟩, ⟨0x1d7ce, 0x1d7ff, 1⟩, ⟨0x1e140, 0x1e149, 1⟩, ⟨0x1e2f0, 0x1e2f9, 1⟩,
  ⟨0x1e8c7, 0x1e8cf, 1⟩, ⟨0x1e950, 0x1e959, 1⟩, ⟨0x1ec71, 0x1ecab, 1⟩, ⟨0x1ecad, 0x1ecaf, 1⟩,
  ⟨0x1ecb1, 0x1ecb4, 1⟩, ⟨0x1ed01, 0x1ed2d, 1⟩, ⟨0x1ed2f, 0x1ed3d, 1⟩, ⟨0x1f100, 0x1f10c, 1⟩,
  ⟨0x1fbf0, 0x1fbf9, 1⟩]

/-- A letter of any script. -/
def isLetter (c : Code) : Bool := isWordChar c && !numbers.contains c

/-! ## Ranges -/

/-- The ranges are in the order in which a search expects them. -/
def CharSet.Ordered (set : CharSet) : Prop := set.IsChain fun r r' => r.first ≤ r'.first

instance (set : CharSet) : Decidable set.Ordered :=
  inferInstanceAs (Decidable (set.IsChain fun r r' => r.first ≤ r'.first))

theorem CharSet.Ordered.pairwise {set : CharSet} (h : set.Ordered) :
    set.Pairwise fun r r' => r.first ≤ r'.first :=
  (List.isChain_iff_pairwise (R := fun r r' : CharRange => r.first ≤ r'.first)).mp h

theorem CharSet.contains_of_mem {set : CharSet} {r : CharRange} {c : Code} (hset : set.Ordered)
    (hr : r ∈ set) (hc : r.contains c.value = true) : set.contains c = true := by
  have hpairs := hset.pairwise
  have hfirst : r.first ≤ c.value := by
    simp only [CharRange.contains, Bool.and_eq_true, decide_eq_true_eq] at hc
    exact hc.1.1
  clear hset
  unfold contains
  induction set with
  | nil => cases hr
  | cons r' rest ih =>
    obtain ⟨hbefore, hrest⟩ := List.pairwise_cons.mp hpairs
    rw [containsNumber]
    rcases List.mem_cons.mp hr with rfl | hr
    · rw [if_neg (by omega), hc, Bool.true_or]
    · have := hbefore r hr
      rw [if_neg (by omega), ih hr hrest, Bool.or_true]

theorem CharRange.contains_of_le {r : CharRange} {n : Nat} (hstep : r.step = 1)
    (hfirst : r.first ≤ n) (hlast : n ≤ r.last) : r.contains n = true := by
  simp only [contains, hstep, Nat.mod_one, Bool.and_eq_true, decide_eq_true_eq,
    beq_self_eq_true, and_true]
  exact ⟨hfirst, hlast⟩

/-- All of a range is in another one. -/
def CharRange.covers (outer inner : CharRange) : Bool :=
  outer.step = 1 && outer.first ≤ inner.first && inner.last ≤ outer.last

/-- Each of some ranges is in one of others, which are gone through once. -/
def CharSet.covers (outer inner : CharSet) : Bool :=
  (outer.foldl (fun left r => left.dropWhile r.covers) inner).isEmpty

theorem CharSet.exists_of_covers {outer inner : CharSet} (h : outer.covers inner = true) :
    ∀ r ∈ inner, ∃ r' ∈ outer, r'.covers r = true := by
  unfold covers at h
  induction outer generalizing inner with
  | nil =>
    rw [List.foldl_nil, List.isEmpty_iff] at h
    rw [h]
    exact nofun
  | cons first rest ih =>
    intro r hr
    rw [← List.takeWhile_append_dropWhile (p := first.covers) (l := inner)] at hr
    rcases List.mem_append.mp hr with hr | hr
    · exact ⟨first, List.mem_cons_self, List.mem_takeWhile_imp hr⟩
    · obtain ⟨r', hr', hcovers⟩ := ih h r hr
      exact ⟨r', List.mem_cons_of_mem _ hr', hcovers⟩

/-- What is left of some ranges behind another one, unless that meets one of them. -/
def CharSet.behind? (left? : Option CharSet) (r : CharRange) : Option CharSet :=
  left?.bind fun left =>
    let behind := left.dropWhile (·.last < r.first)
    if behind.head?.all (r.last < ·.first) then some behind else none

/-- No range of a set meets one of another. Both are gone through once. -/
def CharSet.apart (set others : CharSet) : Bool := (set.foldl behind? (some others)).isSome

theorem CharSet.foldl_behind?_none (set : CharSet) : set.foldl behind? none = none := by
  induction set with
  | nil => rfl
  | cons r rest ih => exact ih

theorem CharSet.of_apart {set others : CharSet} (hset : set.Ordered) (hothers : others.Ordered)
    (h : set.apart others = true) :
    ∀ r ∈ set, ∀ r' ∈ others, r'.last < r.first ∨ r.last < r'.first := by
  replace hset := hset.pairwise
  replace hothers := hothers.pairwise
  unfold apart at h
  induction set generalizing others with
  | nil => exact nofun
  | cons first rest ih =>
    obtain ⟨hfirst, hrest⟩ := List.pairwise_cons.mp hset
    have hsplit := List.takeWhile_append_dropWhile (p := fun r => decide (r.last < first.first))
      (l := others)
    have hbefore : ∀ r' ∈ others.takeWhile fun r => decide (r.last < first.first),
        r'.last < first.first := fun r' hr' => by simpa using List.mem_takeWhile_imp hr'
    rw [List.foldl_cons, behind?, Option.bind_some] at h
    generalize others.takeWhile (fun r => decide (r.last < first.first)) = before at hsplit hbefore
    generalize others.dropWhile (fun r => decide (r.last < first.first)) = behind at hsplit h
    subst hsplit
    have hbehind := (List.pairwise_append.mp hothers).2.1
    dsimp only at h
    split at h
    · rename_i hhead
      refine List.forall_mem_cons.mpr ⟨fun r' hr' => ?_, fun r hr r' hr' => ?_⟩
      · rcases List.mem_append.mp hr' with hr' | hr'
        · exact .inl (hbefore r' hr')
        · -- what comes behind the first that is left begins behind it
          refine .inr ?_
          cases behind with
          | nil => cases hr'
          | cons next behind =>
            have hnext : first.last < next.first := by simpa using hhead
            rcases List.mem_cons.mp hr' with rfl | hr'
            · exact hnext
            · have := (List.pairwise_cons.mp hbehind).1 r' hr'
              omega
      · rcases List.mem_append.mp hr' with hr' | hr'
        · have := hbefore r' hr'
          have := hfirst r hr
          exact .inl (by omega)
        · exact ih h hrest hbehind r hr r' hr'
    · rw [foldl_behind?_none] at h
      cases h

/-- Ranges of letters. Nearly every run of the case mappings lands within one of them. -/
def caseBlocks : CharSet := [
  ⟨0x41, 0x5a, 1⟩, ⟨0x61, 0x7a, 1⟩, ⟨0xc0, 0xd6, 1⟩, ⟨0xd8, 0xf6, 1⟩, ⟨0xf8, 0x2c1, 1⟩,
  ⟨0x370, 0x374, 1⟩, ⟨0x376, 0x377, 1⟩, ⟨0x37a, 0x37d, 1⟩, ⟨0x37f, 0x37f, 1⟩, ⟨0x386, 0x386, 1⟩,
  ⟨0x388, 0x38a, 1⟩, ⟨0x38c, 0x38c, 1⟩, ⟨0x38e, 0x3a1, 1⟩, ⟨0x3a3, 0x3f5, 1⟩, ⟨0x3f7, 0x481, 1⟩,
  ⟨0x48a, 0x52f, 1⟩, ⟨0x531, 0x556, 1⟩, ⟨0x560, 0x588, 1⟩, ⟨0x10a0, 0x10c5, 1⟩, ⟨0x10c7, 0x10c7, 1⟩,
  ⟨0x10cd, 0x10cd, 1⟩, ⟨0x10d0, 0x10fa, 1⟩, ⟨0x10fc, 0x1248, 1⟩, ⟨0x13a0, 0x13f5, 1⟩,
  ⟨0x13f8, 0x13fd, 1⟩, ⟨0x1c90, 0x1cba, 1⟩, ⟨0x1cbd, 0x1cbf, 1⟩, ⟨0x1d00, 0x1dbf, 1⟩,
  ⟨0x1e00, 0x1f15, 1⟩, ⟨0x1f18, 0x1f1d, 1⟩, ⟨0x1f20, 0x1f45, 1⟩, ⟨0x1f48, 0x1f4d, 1⟩,
  ⟨0x1f50, 0x1f57, 1⟩, ⟨0x1f5f, 0x1f7d, 1⟩, ⟨0x1f80, 0x1fb4, 1⟩, ⟨0x1fb6, 0x1fbc, 1⟩,
  ⟨0x1fc2, 0x1fc4, 1⟩, ⟨0x1fc6, 0x1fcc, 1⟩, ⟨0x1fd0, 0x1fd3, 1⟩, ⟨0x1fd6, 0x1fdb, 1⟩,
  ⟨0x1fe0, 0x1fec, 1⟩, ⟨0x1ff2, 0x1ff4, 1⟩, ⟨0x1ff6, 0x1ffc, 1⟩, ⟨0x212f, 0x2139, 1⟩,
  ⟨0x214e, 0x214e, 1⟩, ⟨0x2183, 0x2184, 1⟩, ⟨0x2c00, 0x2ce4, 1⟩, ⟨0x2ceb, 0x2cee, 1⟩,
  ⟨0x2cf2, 0x2cf3, 1⟩, ⟨0x2d00, 0x2d25, 1⟩, ⟨0x2d27, 0x2d27, 1⟩, ⟨0x2d2d, 0x2d2d, 1⟩,
  ⟨0xa640, 0xa66e, 1⟩, ⟨0xa67f, 0xa69d, 1⟩, ⟨0xa722, 0xa788, 1⟩, ⟨0xa78b, 0xa7ca, 1⟩,
  ⟨0xa7d0, 0xa7d1, 1⟩, ⟨0xa7d5, 0xa7d9, 1⟩, ⟨0xa7f2, 0xa801, 1⟩, ⟨0xab30, 0xab5a, 1⟩,
  ⟨0xab70, 0xabe2, 1⟩, ⟨0xff21, 0xff3a, 1⟩, ⟨0xff41, 0xff5a, 1⟩, ⟨0x10400, 0x1049d, 1⟩,
  ⟨0x104b0, 0x104d3, 1⟩, ⟨0x104d8, 0x104fb, 1⟩, ⟨0x10570, 0x1057a, 1⟩, ⟨0x1057c, 0x1058a, 1⟩,
  ⟨0x1058c, 0x10592, 1⟩, ⟨0x10594, 0x10595, 1⟩, ⟨0x10597, 0x105a1, 1⟩, ⟨0x105a3, 0x105b1, 1⟩,
  ⟨0x105b3, 0x105b9, 1⟩, ⟨0x105bb, 0x105bc, 1⟩, ⟨0x10c80, 0x10cb2, 1⟩, ⟨0x10cc0, 0x10cf2, 1⟩,
  ⟨0x118a0, 0x118df, 1⟩, ⟨0x16e40, 0x16e7f, 1⟩, ⟨0x1e900, 0x1e943, 1⟩]

/-- All code points from one number to another are in one block of letters: in the first that does
not end before them. -/
def lettersWithin (first last : Nat) : Bool :=
  (caseBlocks.find? (first ≤ ·.last)).any fun r => r.first ≤ first && last ≤ r.last

/-- No code point from one number to another is a letter: all are numbers, or no word has them. -/
def noLetterWithin (first last : Nat) : Bool :=
  numbers.any (fun r => r.step = 1 && r.first ≤ first && last ≤ r.last)
    || wordChars.all fun r => r.last < first || last < r.first

section

variable {first last : Nat} {c : Code}

theorem isLetter_of_lettersWithin (h : lettersWithin first last = true)
    (hfirst : first ≤ c.value) (hlast : c.value ≤ last) : isLetter c = true := by
  have hwords : wordChars.covers caseBlocks = true := by decide +kernel
  have hapart : ∀ r ∈ caseBlocks, ∀ r' ∈ numbers, r'.last < r.first ∨ r.last < r'.first :=
    CharSet.of_apart (by decide +kernel) (by decide +kernel) (by decide +kernel)
  unfold lettersWithin at h
  obtain ⟨r, hfind, hends⟩ := (Option.any_eq_true _ _).mp h
  have hr : r ∈ caseBlocks := List.mem_of_find?_eq_some hfind
  simp only [Bool.and_eq_true, decide_eq_true_eq] at hends
  obtain ⟨word, hmem, hcovers⟩ := CharSet.exists_of_covers hwords r hr
  simp only [CharRange.covers, Bool.and_eq_true, decide_eq_true_eq] at hcovers
  have hword : isWordChar c = true :=
    CharSet.contains_of_mem (by decide +kernel) hmem
      (CharRange.contains_of_le hcovers.1.1 (by omega) (by omega))
  have hnumber : numbers.contains c = false := by
    refine Bool.eq_false_iff.mpr fun hcontains => ?_
    obtain ⟨r', hr', hin⟩ := CharSet.exists_of_contains hcontains
    simp only [CharRange.contains, Bool.and_eq_true, decide_eq_true_eq] at hin
    have := hapart r hr r' hr'
    omega
  rw [Text.isLetter, hword, hnumber]
  rfl

theorem isLetter_of_noLetterWithin (h : noLetterWithin first last = true)
    (hfirst : first ≤ c.value) (hlast : c.value ≤ last) : isLetter c = false := by
  simp only [noLetterWithin, Bool.or_eq_true, List.any_eq_true, List.all_eq_true,
    Bool.and_eq_true, decide_eq_true_eq] at h
  rcases h with ⟨r, hr, ⟨hstep, hle⟩, hge⟩ | hapart
  · have hnumber : numbers.contains c = true :=
      CharSet.contains_of_mem (by decide +kernel) hr
        (CharRange.contains_of_le hstep (by omega) (by omega))
    rw [Text.isLetter, hnumber, Bool.not_true, Bool.and_false]
  · have hword : isWordChar c = false := by
      refine Bool.eq_false_iff.mpr fun hcontains => ?_
      obtain ⟨r, hr, hin⟩ := CharSet.exists_of_contains hcontains
      simp only [CharRange.contains, Bool.and_eq_true, decide_eq_true_eq] at hin
      have := hapart r hr
      omega
    rw [Text.isLetter, hword, Bool.false_and]

end

/-! ## Letter case -/

/-- A letter of a run becomes a letter. The runs that do not show this by their ends are those of
characters that are no letters, and one that is short enough to be looked at letter by letter. -/
def CaseRun.keepsLetters (run : CaseRun) : Bool :=
  lettersWithin (run.range.first + run.offset).toNat (run.range.last + run.offset).toNat
    || noLetterWithin run.range.first run.range.last
    || (List.range (run.range.last - run.range.first + 1)).all fun k =>
      !run.range.contains (run.range.first + k)
        || isLetter (.ofNat (Int.ofNat (run.range.first + k) + run.offset).toNat)

section

variable {c : Code} {runs : List CaseRun} {expansions : List (Nat × List Nat)}

/-- What a code point is mapped to begins with an image of it under a run, with what an expansion
begins with, or with itself. -/
theorem of_mapCase {P : Code → Prop}
    (hexpansions : ∀ e ∈ expansions, e.1 = c.value → ∃ n ∈ e.2.head?, P (.ofNat n))
    (hruns : ∀ run ∈ runs, run.range.contains c.value = true →
      P (.ofNat (Int.ofNat c.value + run.offset).toNat))
    (hc : (∀ run ∈ runs, run.range.contains c.value = false) → P c) :
    ∃ d ∈ (mapCase runs expansions c).head?, P d := by
  unfold mapCase
  split
  · rename_i codes hlookup
    obtain ⟨before, after, hsplit, -⟩ := List.lookup_eq_some_iff.mp hlookup
    have hmem : (c.value, codes) ∈ expansions := by
      rw [hsplit]
      exact List.mem_append_right _ List.mem_cons_self
    obtain ⟨n, hn, hP⟩ := hexpansions _ hmem rfl
    refine ⟨.ofNat n, ?_, hP⟩
    rw [List.head?_map, Option.mem_def.mp hn]
    rfl
  · refine ⟨_, rfl, ?_⟩
    unfold applyRuns
    split
    · rename_i run hrun
      exact hruns run (List.mem_of_find?_eq_some hrun) (by simpa using List.find?_some hrun)
    · rename_i hnone
      rw [Code.ofNat_value]
      exact hc fun run hrun => by simpa using List.find?_eq_none.mp hnone run hrun

theorem isLetter_of_keepsLetters {run : CaseRun} (h : run.keepsLetters = true)
    (hbound : (run.range.last + run.offset).toNat < 0x110000) (hc : Text.isLetter c = true)
    (hin : run.range.contains c.value = true) :
    Text.isLetter (.ofNat (Int.ofNat c.value + run.offset).toNat) = true := by
  have hends := hin
  simp only [CharRange.contains, Bool.and_eq_true, decide_eq_true_eq] at hends
  obtain ⟨⟨hfirst, hlast⟩, -⟩ := hends
  simp only [CaseRun.keepsLetters, Bool.or_eq_true, List.all_eq_true, List.mem_range,
    Bool.not_eq_true'] at h
  rcases h with (h | h) | h
  · have hvalue := Code.value_ofNat (n := (Int.ofNat c.value + run.offset).toNat)
      (by simp only [Int.ofNat_eq_natCast]; omega)
    refine isLetter_of_lettersWithin h ?_ ?_
    · rw [hvalue]
      simp only [Int.ofNat_eq_natCast]
      omega
    · rw [hvalue]
      simp only [Int.ofNat_eq_natCast]
      omega
  · rw [isLetter_of_noLetterWithin h hfirst hlast] at hc
    cases hc
  · have hplace : run.range.first + (c.value - run.range.first) = c.value := by omega
    have hletter := h (c.value - run.range.first) (by omega)
    rw [hplace] at hletter
    exact hletter.resolve_left (Bool.not_eq_false _ ▸ hin)

/-- A letter is mapped to something that begins with a letter. -/
theorem isLetter_mapCase
    (hruns : ∀ run ∈ runs, (run.range.last + run.offset).toNat < 0x110000
      ∧ run.keepsLetters = true)
    (hexpansions : ∀ e ∈ expansions, ∃ n ∈ e.2.head?, n < 0x110000 ∧ lettersWithin n n = true)
    (hc : isLetter c = true) : ∃ d ∈ (mapCase runs expansions c).head?, isLetter d = true := by
  refine of_mapCase (fun e he _ => ?_) (fun run hrun hin => ?_) fun _ => hc
  · obtain ⟨n, hn, hbound, hletter⟩ := hexpansions e he
    have hvalue := Code.value_ofNat hbound
    exact ⟨n, hn,
      isLetter_of_lettersWithin hletter (Nat.le_of_eq hvalue.symm) (Nat.le_of_eq hvalue)⟩
  · exact isLetter_of_keepsLetters (hruns run hrun).2 (hruns run hrun).1 hc hin

theorem isLetter_lowerCode (hc : isLetter c = true) :
    ∃ d ∈ (lowerCode c).head?, isLetter d = true :=
  isLetter_mapCase (by decide +kernel) (by decide +kernel) hc

theorem isLetter_upperCode (hc : isLetter c = true) :
    ∃ d ∈ (upperCode c).head?, isLetter d = true :=
  isLetter_mapCase (by decide +kernel) (by decide +kernel) hc

/-- A small letter of ASCII. -/
def IsSmallAscii (c : Code) : Prop := 0x61 ≤ c.value ∧ c.value ≤ 0x7a

instance (c : Code) : Decidable (IsSmallAscii c) :=
  inferInstanceAs (Decidable (0x61 ≤ c.value ∧ c.value ≤ 0x7a))

/-- Nothing is a small letter of ASCII in upper case: these have a run of their own, and no other
code point becomes one. -/
theorem not_isSmallAscii_upperCode (c : Code) : ∃ d ∈ (upperCode c).head?, ¬IsSmallAscii d := by
  have hexpansions : ∀ e ∈ upperExpansions,
      e.2.head?.any (fun n => !decide (IsSmallAscii (.ofNat n))) = true := by decide +kernel
  have hruns : ∀ run ∈ upperRuns, (run.range.last + run.offset).toNat < 0x110000
      ∧ ((run.range.last + run.offset).toNat < 0x61
        ∨ 0x7a < (run.range.first + run.offset).toNat) := by decide +kernel
  refine of_mapCase (fun e he _ => ?_) (fun run hrun hin => ?_) fun hnone => ?_
  · obtain ⟨n, hn, hnot⟩ := (Option.any_eq_true _ _).mp (hexpansions e he)
    exact ⟨n, hn, by simpa using hnot⟩
  · obtain ⟨hbound, hapart⟩ := hruns run hrun
    simp only [CharRange.contains, Bool.and_eq_true, decide_eq_true_eq] at hin
    have hvalue := Code.value_ofNat (n := (Int.ofNat c.value + run.offset).toNat)
      (by simp only [Int.ofNat_eq_natCast]; omega)
    rw [IsSmallAscii, hvalue]
    simp only [Int.ofNat_eq_natCast]
    omega
  · rintro ⟨hfirst, hlast⟩
    have hrun := hnone ⟨⟨0x61, 0x7a, 1⟩, -32⟩ List.mem_cons_self
    rw [CharRange.contains_of_le rfl hfirst hlast] at hrun
    cases hrun

/-! ## Digits -/

theorem isLetter_of_isDigit (h : isDigit c = true) : isLetter c = false := by
  have hcovers : numbers.covers digits = true := by decide +kernel
  have hsteps : ∀ r ∈ digits, r.step = 1 := by decide +kernel
  obtain ⟨r, hr, hin⟩ := CharSet.exists_of_contains h
  obtain ⟨number, hnumber, hcovers⟩ := CharSet.exists_of_covers hcovers r hr
  simp only [CharRange.covers, Bool.and_eq_true, decide_eq_true_eq] at hcovers
  simp only [CharRange.contains, Bool.and_eq_true, decide_eq_true_eq] at hin
  have hcontains : numbers.contains c = true :=
    CharSet.contains_of_mem (by decide +kernel) hnumber
      (CharRange.contains_of_le hcovers.1.1 (by omega) (by omega))
  rw [isLetter, hcontains, Bool.not_true, Bool.and_false]

/-- The ranges are in order, and none of them meets a range of digits. -/
structure HasNoDigits (set : CharSet) : Prop where
  ordered : set.Ordered
  apart : digits.apart set = true

instance (set : CharSet) : Decidable (HasNoDigits set) :=
  decidable_of_iff (set.Ordered ∧ digits.apart set = true)
    ⟨fun h => ⟨h.1, h.2⟩, fun h => ⟨h.1, h.2⟩⟩

theorem HasNoDigits.not_contains {set : CharSet} (h : HasNoDigits set) (hc : isDigit c = true) :
    ∀ r ∈ set, r.contains c.value = false := by
  intro r hr
  obtain ⟨d, hd, hdigit⟩ := CharSet.exists_of_contains hc
  have hapart := CharSet.of_apart (by decide +kernel) h.ordered h.apart d hd r hr
  refine Bool.eq_false_iff.mpr fun hin => ?_
  simp only [CharRange.contains, Bool.and_eq_true, decide_eq_true_eq] at hin hdigit
  omega

/-- A digit has no case. -/
theorem head?_mapCase_digit (hruns : HasNoDigits (runs.map (·.range)))
    (hexpansions : HasNoDigits (expansions.map fun e => ⟨e.1, e.1, 1⟩)) (hc : isDigit c = true) :
    (mapCase runs expansions c).head? = some c := by
  have hhead : ∃ d ∈ (mapCase runs expansions c).head?, d = c := by
    refine of_mapCase (fun e he heq => ?_) (fun run hrun hin => ?_) fun _ => rfl
    · have hapart := hexpansions.not_contains hc _ (List.mem_map_of_mem he)
      rw [CharRange.contains_of_le rfl (Nat.le_of_eq heq) (Nat.le_of_eq heq.symm)] at hapart
      cases hapart
    · rw [hruns.not_contains hc run.range (List.mem_map_of_mem hrun)] at hin
      cases hin
  obtain ⟨d, hd, rfl⟩ := hhead
  exact hd

theorem head?_lowerCode_digit (hc : isDigit c = true) : (lowerCode c).head? = some c :=
  head?_mapCase_digit (by decide +kernel) (by decide +kernel) hc

theorem head?_upperCode_digit (hc : isDigit c = true) : (upperCode c).head? = some c :=
  head?_mapCase_digit (by decide +kernel) (by decide +kernel) hc

end

end Text

end WasmBridge
