import WasmBridge.Proofs.Casing.Words

/-!
# Marks

Generated code is told apart into names and what stands between them by ASCII characters that are
no part of any name: quotes, colons, brackets, blanks. Names may have characters of every script,
and they are rewritten by the full case mappings, which take some characters out of their script
and replace others by several. None of this ever makes a mark, so a name without marks has none in
any casing, and where it stands in code it can be read back.
-/

namespace WasmBridge

namespace Code

theorem value_lt (c : Code) : c.value < 0x110000 := by
  cases c with
  | char c =>
    have hvalid : c.toNat.isValidChar := c.valid
    rcases hvalid with h | h
    · exact Nat.lt_trans h (by decide)
    · exact h.2
  | half place =>
    simp only [value, firstHalf]
    omega

theorem value_ofNat {n : Nat} (h : n < 0x110000) : (ofNat n).value = n := by
  unfold ofNat firstHalf
  split
  · simp only [value, firstHalf]
    omega
  · rename_i hchar
    have hvalid : n.isValidChar := by
      rcases Nat.lt_or_ge n 0xd800 with hlow | hhigh
      · exact .inl hlow
      · exact .inr ⟨by omega, h⟩
    rw [value, Char.ofNat, dif_pos hvalid]
    rfl

end Code

namespace Text

/-- ASCII without letters, digits and the underscore. -/
def marks : CharSet :=
  [⟨0, 0x2f, 1⟩, ⟨0x3a, 0x40, 1⟩, ⟨0x5b, 0x5e, 1⟩, ⟨0x60, 0x60, 1⟩, ⟨0x7b, 0x7f, 1⟩]

/-- An ASCII character that no name has in it. -/
def isMark (c : Code) : Bool := marks.contains c

/-- A text without marks. -/
def Unmarked (t : Text) : Prop := ∀ c ∈ t, isMark c = false

instance (t : Text) : Decidable (Unmarked t) := List.decidableBAll _ t

/-! ## Characters of names -/

/-- All code points from one number to another are digits, capitals or small letters of ASCII, or
all are beyond ASCII. -/
def NoMarkWithin (first last : Nat) : Prop :=
  (0x30 ≤ first ∧ last ≤ 0x39) ∨ (0x41 ≤ first ∧ last ≤ 0x5a) ∨ (0x61 ≤ first ∧ last ≤ 0x7a)
    ∨ 0x80 ≤ first

instance (first last : Nat) : Decidable (NoMarkWithin first last) := by
  unfold NoMarkWithin
  infer_instance

/-- All characters are ASCII, and none is a letter or a digit. -/
def CharSet.Separates (set : CharSet) : Prop :=
  ∀ first last (c : Code), NoMarkWithin first last → first ≤ c.value → c.value ≤ last →
    set.contains c = false

theorem separates_marks : marks.Separates := by
  intro first last c h hfirst hlast
  unfold NoMarkWithin at h
  rw [CharSet.contains]
  simp [marks, CharSet.containsNumber, CharRange.contains]
  omega

/-- A single character separates if it is no letter and no digit. -/
theorem separates_singleton {n : Nat} (h : ¬NoMarkWithin n n) : CharSet.Separates [⟨n, n, 1⟩] := by
  intro first last c hrange hfirst hlast
  unfold NoMarkWithin at h hrange
  rw [CharSet.contains]
  simp [CharSet.containsNumber, CharRange.contains]
  omega

theorem CharSet.exists_of_contains {s : CharSet} {c : Code} (h : s.contains c = true) :
    ∃ r ∈ s, r.contains c.value = true := by
  unfold contains at h
  induction s with
  | nil => cases h
  | cons r rest ih =>
    rw [containsNumber] at h
    split at h
    · cases h
    · rcases Bool.or_eq_true_iff.mp h with h | h
      · exact ⟨r, List.mem_cons_self, h⟩
      · obtain ⟨r', hr', h'⟩ := ih h
        exact ⟨r', List.mem_cons_of_mem _ hr', h'⟩

/-- A name of letters, digits and underscores. -/
def IsName (t : Text) : Prop := ∀ c ∈ t, isWordChar c = true ∨ c = .char '_'

instance (t : Text) : Decidable (IsName t) := List.decidableBAll _ t

theorem contains_of_isWordChar {set : CharSet} (hset : set.Separates) {c : Code}
    (h : isWordChar c = true) : set.contains c = false := by
  obtain ⟨r, hr, hc⟩ := CharSet.exists_of_contains h
  have hranges : ∀ r ∈ wordChars, NoMarkWithin r.first r.last := by decide +kernel
  simp only [CharRange.contains, Bool.and_eq_true, decide_eq_true_eq] at hc
  exact hset _ _ c (hranges r hr) hc.1.1 hc.1.2

theorem isMark_of_isWordChar {c : Code} (h : isWordChar c = true) : isMark c = false :=
  contains_of_isWordChar separates_marks h

theorem IsName.unmarked {t : Text} (h : IsName t) : Unmarked t := by
  intro c hc
  rcases h c hc with h | rfl
  · exact isMark_of_isWordChar h
  · decide

/-! ## Letter case -/

/-- No character of a set stands in a text. -/
def Without (set : CharSet) (t : Text) : Prop := ∀ c ∈ t, set.contains c = false

instance (set : CharSet) (t : Text) : Decidable (Without set t) := List.decidableBAll _ t

/-- No code point of a run becomes a mark, or none at all. -/
def CaseRun.SparesMarks (run : CaseRun) : Prop :=
  let first := (run.range.first + run.offset).toNat
  let last := (run.range.last + run.offset).toNat
  last < 0x110000 ∧ NoMarkWithin first last

instance (run : CaseRun) : Decidable run.SparesMarks := by
  unfold CaseRun.SparesMarks
  infer_instance

section Without

variable {set : CharSet} {s t : Text}

theorem Without.append (hs : Without set s) (ht : Without set t) : Without set (s ++ t) :=
  List.forall_mem_append.mpr ⟨hs, ht⟩

theorem without_concat {texts : List Text} (h : ∀ t ∈ texts, Without set t) :
    Without set (concat texts) := by
  intro c hc
  obtain ⟨t, ht, hc⟩ := List.mem_flatten.mp hc
  exact h t ht c hc

theorem without_separated {separator : Text} {texts : List Text}
    (hseparator : Without set separator) (h : ∀ t ∈ texts, Without set t) :
    Without set (separated separator texts) := by
  unfold separated
  induction texts with
  | nil => exact nofun
  | cons first rest ih =>
    obtain ⟨hfirst, hrest⟩ := List.forall_mem_cons.mp h
    cases rest with
    | nil =>
      rw [List.intercalate_singleton]
      exact hfirst
    | cons second rest =>
      rw [List.intercalate_cons_cons]
      exact (hfirst.append hseparator).append (ih hrest)

variable (hset : set.Separates)
include hset

theorem contains_applyRuns {runs : List CaseRun} {c : Code} (hruns : ∀ run ∈ runs, run.SparesMarks)
    (hc : set.contains c = false) : set.contains (Code.ofNat (applyRuns runs c.value)) = false := by
  unfold applyRuns
  split
  · rename_i run hrun
    obtain ⟨hbound, hrange⟩ := hruns run (List.mem_of_find?_eq_some hrun)
    have hin := List.find?_some hrun
    simp only [CharRange.contains, Bool.and_eq_true, decide_eq_true_eq] at hin
    obtain ⟨⟨hfirst, hlast⟩, -⟩ := hin
    have hvalue := Code.value_ofNat (n := (Int.ofNat c.value + run.offset).toNat)
      (by simp only [Int.ofNat_eq_natCast]; omega)
    -- the image of a run lies between those of its ends
    refine hset _ _ _ hrange ?_ ?_
    · rw [hvalue]
      simp only [Int.ofNat_eq_natCast]
      omega
    · rw [hvalue]
      simp only [Int.ofNat_eq_natCast]
      omega
  · rw [CharSet.contains, Code.value_ofNat c.value_lt]
    exact hc

theorem without_mapCase {runs : List CaseRun} {expansions : List (Nat × List Nat)} {c : Code}
    (hruns : ∀ run ∈ runs, run.SparesMarks)
    (hexpansions : ∀ e ∈ expansions, ∀ n ∈ e.2, n < 0x110000 ∧ NoMarkWithin n n)
    (hc : set.contains c = false) : Without set (mapCase runs expansions c) := by
  unfold mapCase
  split
  · rename_i codes hlookup
    intro d hd
    obtain ⟨n, hn, rfl⟩ := List.mem_map.mp hd
    obtain ⟨before, after, hsplit, -⟩ := List.lookup_eq_some_iff.mp hlookup
    have hmem : (c.value, codes) ∈ expansions := by
      rw [hsplit]
      exact List.mem_append_right _ List.mem_cons_self
    obtain ⟨hbound, hrange⟩ := hexpansions _ hmem n hn
    have hvalue := Code.value_ofNat hbound
    exact hset n n _ hrange (Nat.le_of_eq hvalue.symm) (Nat.le_of_eq hvalue)
  · intro d hd
    rw [List.mem_singleton.mp hd]
    exact contains_applyRuns hset hruns hc

theorem without_upperCode {c : Code} (hc : set.contains c = false) : Without set (upperCode c) :=
  without_mapCase hset (by decide +kernel) (by decide +kernel) hc

theorem without_lowerCode {c : Code} (hc : set.contains c = false) : Without set (lowerCode c) :=
  without_mapCase hset (by decide +kernel) (by decide +kernel) hc

theorem without_lowerAfter {before : Text} (ht : Without set t) :
    Without set (lowerAfter before t) := by
  induction t generalizing before with
  | nil => exact nofun
  | cons c rest ih =>
    obtain ⟨hc, hrest⟩ := List.forall_mem_cons.mp ht
    refine Without.append ?_ (ih hrest)
    split
    · -- either of the two small sigmas
      have hsigma : ∀ d : Code, d.value = 0x3c2 ∨ d.value = 0x3c3 → set.contains d = false :=
        fun d hd => hset 0x3c2 0x3c3 d (by decide) (by omega) (by omega)
      split
      · exact List.forall_mem_singleton.mpr (hsigma _ (.inl rfl))
      · exact List.forall_mem_singleton.mpr (hsigma _ (.inr rfl))
    · exact without_lowerCode hset hc

theorem without_toLower (ht : Without set t) : Without set (toLower t) :=
  without_lowerAfter hset ht

theorem without_toUpper (ht : Without set t) : Without set (toUpper t) := by
  intro d hd
  obtain ⟨c, hc, hd⟩ := List.mem_flatMap.mp hd
  exact without_upperCode hset (ht c hc) d hd

theorem without_capitalize (ht : Without set t) : Without set (capitalize t) := by
  cases t with
  | nil => exact nofun
  | cons c rest =>
    obtain ⟨hc, hrest⟩ := List.forall_mem_cons.mp ht
    exact (without_upperCode hset hc).append (without_lowerAfter hset hrest)

end Without

end Text

/-! ## Casing -/

open Text

/-- **No casing makes a mark.** -/
theorem Casing.unmarked_format (casing : Casing) {t : Text} (ht : Unmarked t) :
    Unmarked (casing.format t) := by
  have hwords : ∀ word ∈ splitWords t, Without marks word :=
    fun word hword c hc => ht c (mem_of_mem_splitWords hword hc)
  have hunderscore : Without marks "_" := by decide
  unfold Casing.format
  generalize splitWords t = words at hwords
  cases words with
  | nil => exact ht
  | cons first rest =>
    obtain ⟨hfirst, hrest⟩ := List.forall_mem_cons.mp hwords
    have hcapital : ∀ word ∈ first :: rest, Without marks (capitalize word) :=
      fun word hword => without_capitalize separates_marks (hwords word hword)
    cases casing with
    | verbatim => exact ht
    | camelCase =>
      obtain ⟨-, hcapital⟩ := List.forall_mem_cons.mp hcapital
      exact (without_toLower separates_marks hfirst).append
        (without_concat (List.forall_mem_map.mpr hcapital))
    | pascalCase => exact without_concat (List.forall_mem_map.mpr hcapital)
    | snakeCase =>
      exact without_separated hunderscore (List.forall_mem_map.mpr fun word hword =>
        without_toLower separates_marks (hwords word hword))
    | screamingSnakeCase =>
      exact without_separated hunderscore (List.forall_mem_map.mpr fun word hword =>
        without_toUpper separates_marks (hwords word hword))

/-- What is made of words in camel case has nothing in it that separates words. -/
theorem without_camelCase {set : CharSet} (hset : set.Separates) {t : Text}
    (h : splitWords t ≠ []) : Without set (Casing.camelCase.format t) := by
  have hwords : ∀ word ∈ splitWords t, Without set word := fun word hword c hc =>
    contains_of_isWordChar hset (isWordChar_of_mem_splitWords hword hc)
  unfold Casing.format
  generalize splitWords t = words at h hwords
  cases words with
  | nil => exact absurd rfl h
  | cons first rest =>
    obtain ⟨hfirst, hrest⟩ := List.forall_mem_cons.mp hwords
    exact (without_toLower hset hfirst).append (without_concat
      (List.forall_mem_map.mpr fun word hword => without_capitalize hset (hrest word hword)))

end WasmBridge
