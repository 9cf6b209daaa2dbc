import WasmBridge.Proofs.Casing.Words
import WasmBridge.Proofs.Text.Marks
import WasmBridge.Proofs.Text.Order

/-!
# Conventions that keep words

An identifier that is written with underscores is split where they stand, and nowhere else if its
letters are all small or all capitals. In ASCII both conventions with underscores are like that:
they change each letter by itself, so they keep the words, and either form has all that it takes to
get the other from it.
-/

namespace WasmBridge

open Text

variable {c : Code} {s word : Text} {change other : Code → Code} {letter letter' : Glyph}
  {casing casing' : Casing}

/-! ## Letters of ASCII -/

namespace Code

/-- The characters of ASCII. -/
def IsAscii (c : Code) : Prop := c.value < 128

instance : Decidable c.IsAscii := inferInstanceAs (Decidable (c.value < 128))

/-- What is true of the first numbers is true of the characters of ASCII. -/
theorem IsAscii.of_all {P : Code → Prop} (h : ∀ n < 128, P (ofNat n)) (hc : c.IsAscii) : P c := by
  have hcode : ofNat c.value = c := value_injective (value_ofNat c.value_lt)
  rw [← hcode]
  exact h c.value hc

/-- A letter of ASCII as a small one. The capitals of ASCII are the first that are mapped. -/
def lowered (c : Code) : Code := .ofNat (applyRuns (lowerRuns.take 1) c.value)

/-- A letter of ASCII as a capital. -/
def raised (c : Code) : Code := .ofNat (applyRuns (upperRuns.take 1) c.value)

end Code

/-- Letters become letters of one kind and digits stay digits. Which letter it was can still be
told. -/
structure Recases (change : Code → Code) (letter : Glyph) (c : Code) : Prop where
  isAscii : (change c).IsAscii
  isWordChar : isWordChar (change c) = isWordChar c
  glyph : Text.isWordChar c = true →
    Glyph.of (change c) = if Glyph.of c = .digit then .digit else letter
  lowered : (change c).lowered = c.lowered
  raised : (change c).raised = c.raised

instance : Decidable (Recases change letter c) :=
  decidable_of_iff (_ ∧ _ ∧ _ ∧ _ ∧ _)
    ⟨fun ⟨h₁, h₂, h₃, h₄, h₅⟩ => ⟨h₁, h₂, h₃, h₄, h₅⟩,
      fun h => ⟨h.isAscii, h.isWordChar, h.glyph, h.lowered, h.raised⟩⟩

theorem recases_lowered (h : c.IsAscii) : Recases Code.lowered .small c :=
  h.of_all (by decide +kernel)

theorem recases_raised (h : c.IsAscii) : Recases Code.raised .capital c :=
  h.of_all (by decide +kernel)

/-- Where only the first run begins in ASCII, no other has to be looked at. -/
theorem mapCase_ascii {runs : List CaseRun} {expansions : List (Nat × List Nat)}
    (hruns : ∀ run ∈ runs.drop 1, 128 ≤ run.range.first) (hexpansions : ∀ e ∈ expansions, 128 ≤ e.1)
    (h : c.IsAscii) : mapCase runs expansions c = [.ofNat (applyRuns (runs.take 1) c.value)] := by
  have hnone : (runs.drop 1).find? (·.range.contains c.value) = none := by
    refine List.find?_eq_none.mpr fun run hrun hin => ?_
    simp only [CharRange.contains, Bool.and_eq_true, decide_eq_true_eq] at hin
    exact absurd (Nat.lt_of_lt_of_le h (hruns run hrun)) (Nat.not_lt.mpr hin.1.1)
  have hlookup : expansions.lookup c.value = none := by
    refine List.lookup_eq_none_iff.mpr fun e he => ?_
    simpa using Nat.ne_of_lt (Nat.lt_of_lt_of_le h (hexpansions e he))
  have hsame : applyRuns runs c.value = applyRuns (runs.take 1) c.value := by
    conv => lhs; rw [← List.take_append_drop 1 runs]
    rw [applyRuns, List.find?_append, hnone, Option.or_none, applyRuns]
  rw [mapCase, hlookup, hsame]

theorem lowerCode_ascii (h : c.IsAscii) : lowerCode c = [c.lowered] :=
  mapCase_ascii (by decide +kernel) (by decide +kernel) h

theorem upperCode_ascii (h : c.IsAscii) : upperCode c = [c.raised] :=
  mapCase_ascii (by decide +kernel) (by decide +kernel) h

theorem toLower_ascii (h : ∀ c ∈ s, c.IsAscii) : toLower s = s.map Code.lowered := by
  have hafter : ∀ before, lowerAfter before s = s.map Code.lowered := by
    induction s with
    | nil => exact fun _ => rfl
    | cons c s ih =>
      -- A sigma is the only letter that depends on what stands around it.
      intro before
      obtain ⟨hc, hs⟩ := List.forall_mem_cons.mp h
      have hsigma : c ≠ .char 'Σ' := by
        rintro rfl
        revert hc
        decide
      rw [lowerAfter, if_neg hsigma, lowerCode_ascii hc, ih hs]
      rfl
  exact hafter []

theorem toUpper_ascii (h : ∀ c ∈ s, c.IsAscii) : toUpper s = s.map Code.raised := by
  induction s with
  | nil => rfl
  | cons c s ih =>
    obtain ⟨hc, hs⟩ := List.forall_mem_cons.mp h
    rw [toUpper, List.flatMap_cons, upperCode_ascii hc, ← toUpper, ih hs]
    rfl

/-! ## Words in letters of one kind -/

/-- The words of an identifier are in ASCII. -/
def AsciiWords (s : Text) : Prop := ∀ word ∈ splitWords s, ∀ c ∈ word, c.IsAscii

/-- A word in letters of one kind is found as one word. -/
theorem splitWords_recased (hletter : letter ≠ .digit)
    (hchange : ∀ c ∈ word, Recases change letter c) (hword : ∀ c ∈ word, isWordChar c = true)
    (hne : word ≠ []) (hdigits : DigitsLast (word.map Glyph.of)) :
    splitWords (word.map change) = [word.map change] := by
  obtain ⟨letters, count, hshape, hnone⟩ := hdigits
  obtain ⟨front, back, rfl, rfl, hback⟩ := List.map_eq_append_iff.mp hshape
  -- Whatever letters stood in front are of one kind now, and the digits behind still are digits.
  have hfront : (front.map change).map Glyph.of = List.replicate front.length letter := by
    refine List.eq_replicate_iff.mpr ⟨by simp, fun glyph hglyph => ?_⟩
    simp only [List.mem_map, exists_exists_and_eq_and] at hglyph
    obtain ⟨c, hc, rfl⟩ := hglyph
    have hmem : c ∈ front ++ back := List.mem_append_left _ hc
    rw [(hchange c hmem).glyph (hword c hmem), if_neg]
    exact fun h => hnone (h ▸ List.mem_map_of_mem hc)
  have hback' : (back.map change).map Glyph.of = List.replicate count .digit := by
    have hlength : back.length = count := by rw [← List.length_map Glyph.of, hback]; simp
    refine List.eq_replicate_iff.mpr ⟨by simpa using hlength, fun glyph hglyph => ?_⟩
    simp only [List.mem_map, exists_exists_and_eq_and] at hglyph
    obtain ⟨c, hc, rfl⟩ := hglyph
    have hmem : c ∈ front ++ back := List.mem_append_right _ hc
    rw [(hchange c hmem).glyph (hword c hmem), if_pos]
    exact List.eq_of_mem_replicate (hback ▸ List.mem_map_of_mem hc)
  refine splitWords_uniform hletter (fun h => hne (List.map_eq_nil_iff.mp h)) ?_
    (by rw [List.map_append, List.map_append, hfront, hback'])
  intro d hd
  obtain ⟨c, hc, rfl⟩ := List.mem_map.mp hd
  rw [(hchange c hc).isWordChar, hword c hc]

/-- A convention changes each letter of ASCII by itself, and puts underscores between words. -/
structure Underscores (casing : Casing) (change : Code → Code) (letter : Glyph) : Prop where
  isLetter : letter ≠ .digit
  recases : ∀ {c : Code}, c.IsAscii → Recases change letter c
  format : ∀ {s : Text}, AsciiWords s → splitWords s ≠ [] →
    casing.format s = separated "_" ((splitWords s).map (List.map change))

theorem underscores_snakeCase : Underscores .snakeCase Code.lowered .small where
  isLetter := nofun
  recases := recases_lowered
  format {s} hs hne := by
    rw [← List.map_congr_left fun word hword => toLower_ascii (hs word hword), Casing.format]
    cases h : splitWords s with
    | nil => exact absurd h hne
    | cons first rest => rfl

theorem underscores_screamingSnakeCase :
    Underscores .screamingSnakeCase Code.raised .capital where
  isLetter := nofun
  recases := recases_raised
  format {s} hs hne := by
    rw [← List.map_congr_left fun word hword => toUpper_ascii (hs word hword), Casing.format]
    cases h : splitWords s with
    | nil => exact absurd h hne
    | cons first rest => rfl

/-- **A convention with underscores keeps the words apart.** -/
theorem Underscores.splitWords_format (u : Underscores casing change letter) (hs : AsciiWords s)
    (hne : splitWords s ≠ []) :
    splitWords (casing.format s) = (splitWords s).map (List.map change) := by
  rw [u.format hs hne]
  refine splitWords_separated (mt List.map_eq_nil_iff.mp hne) (List.forall_mem_map.mpr ?_)
  intro word hword
  obtain ⟨hchars, hword_ne, hdigits⟩ := of_mem_splitWords hword
  exact splitWords_recased u.isLetter (fun c hc => u.recases (hs word hword c hc))
    (fun c hc => (hchars c hc).2) hword_ne hdigits

/-- What one of the conventions does not change is all that the other looks at. -/
theorem Underscores.format_format (u : Underscores casing change letter)
    (u' : Underscores casing' other letter')
    (hkept : ∀ {c : Code}, c.IsAscii → other (change c) = other c) (hs : AsciiWords s) :
    casing'.format (casing.format s) = casing'.format s := by
  by_cases hne : splitWords s = []
  · -- A text without words is left as it is.
    have hsame : casing.format s = s := by rw [Casing.format, hne]; rfl
    rw [hsame]
  · have hwords := u.splitWords_format hs hne
    have hs' : AsciiWords (casing.format s) := by
      rw [AsciiWords, hwords]
      refine List.forall_mem_map.mpr fun word hword => List.forall_mem_map.mpr fun c hc => ?_
      exact (u.recases (hs word hword c hc)).isAscii
    rw [u'.format hs' (hwords ▸ mt List.map_eq_nil_iff.mp hne), hwords, u'.format hs hne,
      List.map_map]
    congr 1
    refine List.map_congr_left fun word hword => ?_
    rw [Function.comp_apply, List.map_map]
    exact List.map_congr_left fun c hc => hkept (hs word hword c hc)

/-- **Conventions neither lose characters nor split words again.** -/
theorem casing_keeps_words (s : Text) :
    (concat (splitWords s) = s.filter isWordChar ∧ ∀ word ∈ splitWords s, word ≠ [])
      ∧ ((∀ c ∈ s, c.IsAscii) →
        (splitWords s ≠ [] →
          splitWords (Casing.snakeCase.format s) = (splitWords s).map toLower
            ∧ splitWords (Casing.screamingSnakeCase.format s) = (splitWords s).map toUpper)
        ∧ Casing.snakeCase.format (Casing.snakeCase.format s) = Casing.snakeCase.format s
        ∧ Casing.screamingSnakeCase.format (Casing.screamingSnakeCase.format s)
            = Casing.screamingSnakeCase.format s
        ∧ Casing.snakeCase.format (Casing.screamingSnakeCase.format s) = Casing.snakeCase.format s
        ∧ Casing.screamingSnakeCase.format (Casing.snakeCase.format s)
            = Casing.screamingSnakeCase.format s) := by
  refine ⟨⟨concat_splitWords s, fun word hword => (of_mem_splitWords hword).2.1⟩, fun hascii => ?_⟩
  have hs : AsciiWords s := fun word hword c hc => hascii c ((of_mem_splitWords hword).1 c hc).1
  have hlower := List.map_congr_left fun word hword => toLower_ascii (hs word hword)
  have hupper := List.map_congr_left fun word hword => toUpper_ascii (hs word hword)
  have hsnake := underscores_snakeCase
  have hscreaming := underscores_screamingSnakeCase
  refine ⟨fun hne => ⟨?_, ?_⟩, ?_, ?_, ?_, ?_⟩
  · rw [hsnake.splitWords_format hs hne, hlower]
  · rw [hscreaming.splitWords_format hs hne, hupper]
  · exact hsnake.format_format hsnake (fun h => (recases_lowered h).lowered) hs
  · exact hscreaming.format_format hscreaming (fun h => (recases_raised h).raised) hs
  · exact hscreaming.format_format hsnake (fun h => (recases_raised h).lowered) hs
  · exact hsnake.format_format hscreaming (fun h => (recases_lowered h).raised) hs

/-- An abbreviation before a word, and digits within an identifier. -/
theorem casing_keeps_words_server :
    (∀ c ∈ ("_HTTPServer2go" : Text), c.IsAscii)
      ∧ splitWords "_HTTPServer2go" = ["HTTP", "Server2", "go"]
      ∧ splitWords (Casing.snakeCase.format "_HTTPServer2go") = ["http", "server2", "go"]
      ∧ Casing.screamingSnakeCase.format (Casing.snakeCase.format "_HTTPServer2go")
          = "HTTP_SERVER2_GO" := by
  have hascii : ∀ c ∈ ("_HTTPServer2go" : Text), c.IsAscii := by decide +kernel
  have hwords : splitWords "_HTTPServer2go" = ["HTTP", "Server2", "go"] := by decide +kernel
  obtain ⟨-, hkept⟩ := casing_keeps_words "_HTTPServer2go"
  obtain ⟨hsplit, -, -, -, hback⟩ := hkept hascii
  refine ⟨hascii, hwords, ?_, ?_⟩
  · rw [(hsplit (by rw [hwords]; exact nofun)).1, hwords]
    decide +kernel
  · rw [hback]
    decide +kernel

end WasmBridge
