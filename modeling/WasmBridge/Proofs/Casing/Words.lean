import Mathlib.Data.List.TakeWhile
import WasmBridge.Casing

/-!
# Words of identifiers

The pattern of a word matches at the front of whatever is left of a chunk, so no character is
skipped: put together, the words of an identifier are the identifier without what separates them.
What a match can look like is said by a relation, apart from the order in which matches are tried.
The order matters only for how much is taken: a shape that is a word as a whole is taken as a whole.
-/

namespace WasmBridge

open Text

variable {pieces : List Piece} {taken left shape : List Glyph} {glyph : Glyph} {least count n : Nat}

/-! ## What a pattern matches -/

/-- The pieces take some glyphs one after the other and leave others. -/
inductive Matches : (pieces : List Piece) → (taken left : List Glyph) → Prop where
  | done {left : List Glyph} : Matches [] [] left
  | run {least count : Nat} {glyph : Glyph} {pieces : List Piece} {taken left : List Glyph}
      (hleast : least ≤ count) (h : Matches pieces taken left) :
      Matches (.run least glyph :: pieces) (List.replicate count glyph ++ taken) left
  | present {glyph : Glyph} {pieces : List Piece} {taken left : List Glyph}
      (h : Matches pieces taken left) : Matches (.optional glyph :: pieces) (glyph :: taken) left
  | absent {glyph : Glyph} {pieces : List Piece} {taken left : List Glyph}
      (h : Matches pieces taken left) : Matches (.optional glyph :: pieces) taken left
  | ahead {glyphs : List Glyph} {pieces : List Piece} {taken left : List Glyph}
      (hahead : glyphs <+: taken ++ left) (h : Matches pieces taken left) :
      Matches (.ahead glyphs :: pieces) taken left

theorem replicate_isPrefix_iff : List.replicate n glyph <+: shape
    ↔ n ≤ (shape.takeWhile (· = glyph)).length := by
  induction shape generalizing n with
  | nil => cases n <;> simp [List.replicate_succ]
  | cons g shape ih =>
    cases n with
    | zero => simp
    | succ n =>
      rw [List.replicate_succ, List.cons_prefix_cons, ih, List.takeWhile_cons]
      by_cases hg : g = glyph
      · simp [hg]
      · simp [hg, Ne.symm hg]

theorem mem_lengths_run : n ∈ (Piece.run least glyph).lengths shape
    ↔ least ≤ n ∧ List.replicate n glyph <+: shape := by
  rw [replicate_isPrefix_iff]
  simp only [Piece.lengths, List.mem_map, List.mem_range]
  constructor
  · rintro ⟨k, hk, rfl⟩
    omega
  · rintro ⟨hleast, hmost⟩
    exact ⟨(shape.takeWhile (· = glyph)).length - n, by omega, by omega⟩

theorem mem_lengths_optional : n ∈ (Piece.optional glyph).lengths shape
    ↔ (n = 1 ∧ ∃ rest, shape = glyph :: rest) ∨ n = 0 := by
  rw [Piece.lengths]
  cases shape with
  | nil => simp
  | cons g shape =>
    by_cases hg : g = glyph <;> simp [hg]

theorem mem_lengths_ahead {glyphs : List Glyph} : n ∈ (Piece.ahead glyphs).lengths shape
    ↔ n = 0 ∧ glyphs <+: shape := by
  rw [Piece.lengths]
  split <;> simp_all

/-- What pieces take matches them. -/
theorem matches_of_matchPieces? (h : matchPieces? pieces shape = some n) :
    ∃ taken left, shape = taken ++ left ∧ taken.length = n ∧ Matches pieces taken left := by
  induction pieces generalizing shape n with
  | nil =>
    cases h
    exact ⟨[], shape, rfl, rfl, .done⟩
  | cons piece pieces ih =>
    obtain ⟨k, hk, hrest⟩ := List.exists_of_findSome?_eq_some h
    obtain ⟨m, hm, rfl⟩ := Option.map_eq_some_iff.mp hrest
    obtain ⟨taken, left, hdrop, rfl, hmatches⟩ := ih hm
    cases piece with
    | run least glyph =>
      obtain ⟨hleast, behind, rfl⟩ := mem_lengths_run.mp hk
      rw [List.drop_left' List.length_replicate] at hdrop
      refine ⟨List.replicate k glyph ++ taken, left, ?_, by simp, .run hleast hmatches⟩
      rw [hdrop, List.append_assoc]
    | optional glyph =>
      obtain ⟨rfl, behind, rfl⟩ | rfl := mem_lengths_optional.mp hk
      · rw [List.drop_one, List.tail_cons] at hdrop
        exact ⟨glyph :: taken, left, by rw [hdrop]; rfl, Nat.add_comm _ _, .present hmatches⟩
      · exact ⟨taken, left, hdrop, (Nat.zero_add _).symm, .absent hmatches⟩
    | ahead glyphs =>
      obtain ⟨rfl, hahead⟩ := mem_lengths_ahead.mp hk
      rw [List.drop_zero] at hdrop
      rw [hdrop] at hahead
      exact ⟨taken, left, hdrop, (Nat.zero_add _).symm, .ahead hahead hmatches⟩

/-- Pieces are taken in some way wherever they match. -/
theorem Matches.isSome (h : Matches pieces taken left) :
    (matchPieces? pieces (taken ++ left)).isSome = true := by
  induction h with
  | done => rfl
  | @run least count glyph pieces taken left hleast _ ih =>
    rw [matchPieces?, List.findSome?_isSome_iff]
    refine ⟨count, mem_lengths_run.mpr ⟨hleast, ?_⟩, ?_⟩
    · rw [List.append_assoc]
      exact List.prefix_append _ _
    · rw [List.append_assoc, List.drop_left' List.length_replicate, Option.isSome_map]
      exact ih
  | @present glyph pieces taken left _ ih =>
    rw [matchPieces?, List.findSome?_isSome_iff]
    refine ⟨1, mem_lengths_optional.mpr (.inl ⟨rfl, _, rfl⟩), ?_⟩
    rw [Option.isSome_map]
    exact ih
  | @absent glyph pieces taken left _ ih =>
    rw [matchPieces?, List.findSome?_isSome_iff]
    refine ⟨0, mem_lengths_optional.mpr (.inr rfl), ?_⟩
    rw [Option.isSome_map]
    exact ih
  | @ahead glyphs pieces taken left hahead _ ih =>
    rw [matchPieces?, List.findSome?_isSome_iff]
    refine ⟨0, mem_lengths_ahead.mpr ⟨rfl, hahead⟩, ?_⟩
    rw [Option.isSome_map]
    exact ih

/-- A run is taken as a whole if the pieces behind it match there. -/
theorem matchPieces?_run (hleast : least ≤ count) (hhead : shape.head? ≠ some glyph)
    (h : matchPieces? pieces shape = some n) :
    matchPieces? (.run least glyph :: pieces) (List.replicate count glyph ++ shape)
      = some (count + n) := by
  have hmost : ((List.replicate count glyph ++ shape).takeWhile (· = glyph)).length = count := by
    rw [List.takeWhile_append_of_pos (by simp)]
    cases shape with
    | nil => simp
    | cons g shape => simpa using hhead
  obtain ⟨more, hmore⟩ : ∃ more, count + 1 - least = more + 1 := ⟨count - least, by omega⟩
  rw [matchPieces?, Piece.lengths]
  simp only [hmost, hmore, List.range_succ_eq_map, List.map_cons, Nat.sub_zero]
  rw [List.findSome?_cons, List.drop_left' List.length_replicate, h]
  rfl

theorem matchPieces?_last (h : least ≤ count) :
    matchPieces? [.run least glyph] (List.replicate count glyph) = some count := by
  have := matchPieces?_run h (show [].head? ≠ some glyph from nofun)
    (show matchPieces? [] [] = some 0 from rfl)
  rwa [List.append_nil] at this

/-- A glyph that is not there is not taken. -/
theorem matchPieces?_optional (hhead : shape.head? ≠ some glyph) :
    matchPieces? (.optional glyph :: pieces) shape = matchPieces? pieces shape := by
  rw [matchPieces?, Piece.lengths, if_neg hhead]
  cases hrest : matchPieces? pieces shape <;> simp [hrest]

/-! ## What words look like -/

/-- Digits stand behind all else. -/
def DigitsLast (shape : List Glyph) : Prop :=
  ∃ letters count, shape = letters ++ List.replicate count .digit ∧ .digit ∉ letters

/-- Letters with a run of digits behind them are something if either is. -/
theorem digitsLast_of_runs {letters : List Glyph} (count : Nat) (hletters : .digit ∉ letters)
    (hpos : 1 ≤ letters.length + count) :
    letters ++ (List.replicate count .digit ++ []) ≠ []
      ∧ DigitsLast (letters ++ (List.replicate count .digit ++ [])) := by
  rw [List.append_nil]
  refine ⟨List.ne_nil_of_length_pos ?_, letters, count, rfl, hletters⟩
  rwa [List.length_append, List.length_replicate]

/-- What the pattern of a word matches is something, and has its digits behind its letters. -/
theorem of_matches_wordPattern (hmem : pieces ∈ wordPattern) (h : Matches pieces taken left) :
    taken ≠ [] ∧ DigitsLast taken := by
  simp only [wordPattern, List.mem_cons, List.not_mem_nil, or_false] at hmem
  obtain rfl | rfl | rfl | rfl := hmem
  · cases h with | @run _ capitals _ _ _ _ hcapitals h =>
    cases h with | ahead _ h =>
    cases h
    exact digitsLast_of_runs 0 (by simp) (by simpa using hcapitals)
  · cases h with
    | present h =>
      cases h with | @run _ smalls _ _ _ _ _ h =>
      cases h with | @run _ digits _ _ _ _ _ h =>
      cases h
      rw [← List.cons_append]
      exact digitsLast_of_runs digits (by simp) (by simp; omega)
    | absent h =>
      cases h with | @run _ smalls _ _ _ _ hsmalls h =>
      cases h with | @run _ digits _ _ _ _ _ h =>
      cases h
      exact digitsLast_of_runs digits (by simp) (by simp; omega)
  · cases h with | @run _ capitals _ _ _ _ hcapitals h =>
    cases h with | @run _ digits _ _ _ _ _ h =>
    cases h
    exact digitsLast_of_runs digits (by simp) (by simp; omega)
  · cases h with | @run _ digits _ _ _ _ hdigits h =>
    cases h
    exact digitsLast_of_runs digits (List.not_mem_nil) (by simpa using hdigits)

/-- There is a word at the front of every shape. -/
theorem exists_wordLength? (glyph : Glyph) (shape : List Glyph) :
    ∃ taken left, glyph :: shape = taken ++ left ∧ wordLength? (glyph :: shape) = some taken.length
      ∧ taken ≠ [] ∧ DigitsLast taken := by
  have hsome : (wordLength? (glyph :: shape)).isSome = true := by
    -- The alternative that begins with the kind of the first glyph takes at least this one.
    rw [wordLength?, List.findSome?_isSome_iff]
    have hone := Nat.le_refl 1
    have hnone := Nat.le_refl 0
    cases glyph with
    | digit => exact ⟨[.run 1 .digit], by simp [wordPattern], (Matches.run hone .done).isSome⟩
    | capital =>
      exact ⟨[.run 1 .capital, .run 0 .digit], by simp [wordPattern],
        (Matches.run hone (.run hnone .done)).isSome⟩
    | small =>
      exact ⟨[.optional .capital, .run 1 .small, .run 0 .digit], by simp [wordPattern],
        (Matches.absent (.run hone (.run hnone .done))).isSome⟩
  obtain ⟨n, hn⟩ := Option.isSome_iff_exists.mp hsome
  obtain ⟨pieces, hpieces, hmatch⟩ := List.exists_of_findSome?_eq_some hn
  obtain ⟨taken, left, hsplit, rfl, hmatches⟩ := matches_of_matchPieces? hmatch
  exact ⟨taken, left, hsplit, hn, of_matches_wordPattern hpieces hmatches⟩

/-- Pieces that take a glyph for certain take nothing where there is none. -/
theorem matchPieces?_eq_none
    (hneed : ∀ taken left, Matches pieces taken left → glyph ∈ taken ++ left)
    (habsent : glyph ∉ shape) : matchPieces? pieces shape = none := by
  cases h : matchPieces? pieces shape with
  | none => rfl
  | some n =>
    obtain ⟨taken, left, rfl, -, hmatches⟩ := matches_of_matchPieces? h
    exact absurd (hneed taken left hmatches) habsent

/-- A run that must be there has its glyph. -/
theorem mem_of_matches_run (h : Matches (.run 1 glyph :: pieces) taken left) :
    glyph ∈ taken ++ left := by
  cases h with | @run _ count _ _ _ _ hcount _ =>
  have : count ≠ 0 := by omega
  simp [this]

/-- Where all letters are of one kind, a word is a run of these with digits behind it, or one of
digits. -/
theorem wordLength?_of_letters {letter : Glyph} (hletter : letter ≠ .digit)
    (h : ∀ other ∈ shape, other = letter ∨ other = .digit) :
    wordLength? shape = (matchPieces? [.run 1 letter, .run 0 .digit] shape).or
      (matchPieces? [.run 1 .digit] shape) := by
  rw [wordLength?, wordPattern]
  cases letter with
  | digit => exact absurd rfl hletter
  | capital =>
    -- Both alternatives that are tried before need a small letter.
    have hsmall : .small ∉ shape := fun hmem => by simpa using h _ hmem
    have hbefore : matchPieces? [.run 1 .capital, .ahead [.capital, .small]] shape = none := by
      refine matchPieces?_eq_none (fun taken left hmatches => ?_) hsmall
      cases hmatches with | run _ hmatches =>
      cases hmatches with | ahead hahead hmatches =>
      cases hmatches
      exact List.mem_append_right _ (hahead.subset (by simp))
    have hsmalls :
        matchPieces? [.optional .capital, .run 1 .small, .run 0 .digit] shape = none := by
      refine matchPieces?_eq_none (fun taken left hmatches => ?_) hsmall
      cases hmatches with
      | present hmatches => exact List.mem_cons_of_mem _ (mem_of_matches_run hmatches)
      | absent hmatches => exact mem_of_matches_run hmatches
    simp only [List.findSome?_cons, hbefore, hsmalls, List.findSome?_nil]
    cases matchPieces? [.run 1 .capital, .run 0 .digit] shape <;>
      cases matchPieces? [.run 1 .digit] shape <;> rfl
  | small =>
    -- What begins with capitals does not match, and the capital before small letters is absent.
    have hcapital : .capital ∉ shape := fun hmem => by simpa using h _ hmem
    have hcapitals : ∀ pieces, matchPieces? (.run 1 .capital :: pieces) shape = none :=
      fun pieces => matchPieces?_eq_none (fun _ _ => mem_of_matches_run) hcapital
    have hhead : shape.head? ≠ some .capital := fun hhead =>
      hcapital (List.mem_of_mem_head? hhead)
    simp only [List.findSome?_cons, hcapitals, matchPieces?_optional hhead, List.findSome?_nil]
    cases matchPieces? [.run 1 .small, .run 0 .digit] shape <;>
      cases matchPieces? [.run 1 .digit] shape <;> rfl

/-- Letters of one kind with digits behind them are one word. -/
theorem wordLength?_uniform {letter : Glyph} (hletter : letter ≠ .digit) {letters digits : Nat}
    (hpos : 0 < letters + digits) :
    wordLength? (List.replicate letters letter ++ List.replicate digits .digit)
      = some (letters + digits) := by
  rw [wordLength?_of_letters hletter fun other hmem =>
    (List.mem_append.mp hmem).imp List.eq_of_mem_replicate List.eq_of_mem_replicate]
  cases letters with
  | zero =>
    have hnone :
        matchPieces? [.run 1 letter, .run 0 .digit] (List.replicate digits .digit) = none :=
      matchPieces?_eq_none (fun _ _ => mem_of_matches_run) fun hmem =>
        hletter (List.eq_of_mem_replicate hmem)
    rw [List.replicate_zero, List.nil_append, hnone, matchPieces?_last (by omega), Nat.zero_add]
    rfl
  | succ letters =>
    have hhead : (List.replicate digits Glyph.digit).head? ≠ some letter := fun hhead =>
      hletter (List.eq_of_mem_replicate (List.mem_of_mem_head? hhead))
    rw [matchPieces?_run (by omega) hhead (matchPieces?_last (Nat.zero_le digits))]
    rfl

/-! ## Words of a chunk -/

/-- What has been found is passed over. -/
theorem findWords_append (f : Code → Glyph) (found chunk : Text) :
    findWords found.length ((found ++ chunk).map f) (found ++ chunk)
      = findWords 0 (chunk.map f) chunk := by
  induction found with
  | nil => rfl
  | cons c found ih => exact ih

/-- The word at the front is found first, and then those of what is left. -/
theorem chunkWords_append {word : Text} (rest : Text) (hne : word ≠ [])
    (h : wordLength? ((word ++ rest).map Glyph.of) = some word.length) :
    chunkWords (word ++ rest) = word :: chunkWords rest := by
  obtain ⟨c, found, rfl⟩ := List.exists_cons_of_ne_nil hne
  rw [List.cons_append, List.map_cons] at h
  rw [chunkWords, List.cons_append, List.map_cons, findWords, h]
  simpa [chunkWords] using findWords_append Glyph.of found rest

/-- There is a word at the front of every chunk. -/
theorem exists_chunkWords {chunk : Text} (h : chunk ≠ []) :
    ∃ word rest, chunk = word ++ rest ∧ chunkWords chunk = word :: chunkWords rest
      ∧ word ≠ [] ∧ DigitsLast (word.map Glyph.of) := by
  obtain ⟨c, cs, rfl⟩ := List.exists_cons_of_ne_nil h
  obtain ⟨taken, left, hsplit, hlength, hne, hdigits⟩ :=
    exists_wordLength? (Glyph.of c) (cs.map Glyph.of)
  rw [← List.map_cons] at hsplit hlength
  obtain ⟨word, rest, hchunk, rfl, rfl⟩ := List.map_eq_append_iff.mp hsplit
  have hword : word ≠ [] := fun h => hne (by rw [h]; rfl)
  rw [hchunk, List.length_map] at hlength
  exact ⟨word, rest, hchunk, hchunk ▸ chunkWords_append rest hword hlength, hword, hdigits⟩

/-- **Nothing of a chunk is lost in its words.** None of them is empty, and each has its digits
behind its letters. -/
theorem chunkWords_cover (chunk : Text) : concat (chunkWords chunk) = chunk
    ∧ ∀ word ∈ chunkWords chunk, word ≠ [] ∧ DigitsLast (word.map Glyph.of) := by
  by_cases h : chunk = []
  · subst h
    exact ⟨rfl, nofun⟩
  · -- What stands behind the first word is shorter, since no word is empty.
    obtain ⟨word, rest, rfl, hwords, hne, hdigits⟩ := exists_chunkWords h
    have hshorter : rest.length < (word ++ rest).length := by
      have := List.length_pos_iff.mpr hne
      rw [List.length_append]
      omega
    obtain ⟨hconcat, hrest⟩ := chunkWords_cover rest
    rw [hwords]
    refine ⟨?_, List.forall_mem_cons.mpr ⟨⟨hne, hdigits⟩, hrest⟩⟩
    rw [concat, List.flatten_cons, ← concat, hconcat]
termination_by chunk.length

/-! ## Words of an identifier -/

/-- What is left of a text without what separates its chunks. -/
theorem flatten_splitOnP (separates : Code → Bool) (s : Text) :
    (s.splitOnP separates).flatten = s.filter (!separates ·) := by
  induction s with
  | nil => rfl
  | cons c s ih =>
    rw [List.splitOnP_cons_eq_if_modifyHead]
    cases hc : separates c with
    | true => simp [hc, ih]
    | false =>
      have hne := List.splitOnP_ne_nil separates s
      obtain ⟨chunk, chunks, hchunks⟩ := List.exists_cons_of_ne_nil hne
      rw [hchunks] at ih ⊢
      simpa [hc] using ih

/-- **Nothing but separators is lost in the words of an identifier.** -/
theorem concat_splitWords (s : Text) : concat (splitWords s) = s.filter isWordChar := by
  have hchunks : ∀ chunks : List Text, concat (chunks.flatMap chunkWords) = chunks.flatten := by
    intro chunks
    induction chunks with
    | nil => rfl
    | cons chunk chunks ih =>
      rw [concat] at ih
      rw [concat, List.flatMap_cons, List.flatten_append, ih, ← concat, (chunkWords_cover chunk).1,
        List.flatten_cons]
  rw [splitWords, hchunks, flatten_splitOnP]
  simp

/-- A word of an identifier is something of the identifier and has its digits behind its letters. -/
theorem of_mem_splitWords {s word : Text} (h : word ∈ splitWords s) :
    (∀ c ∈ word, c ∈ s ∧ isWordChar c = true) ∧ word ≠ [] ∧ DigitsLast (word.map Glyph.of) := by
  refine ⟨fun c hc => ?_, ?_⟩
  · have hmem : c ∈ concat (splitWords s) := List.mem_flatten.mpr ⟨word, h, hc⟩
    rw [concat_splitWords] at hmem
    exact List.mem_filter.mp hmem
  · obtain ⟨chunk, -, hword⟩ := List.mem_flatMap.mp h
    exact (chunkWords_cover chunk).2 word hword

theorem mem_of_mem_splitWords {s word : Text} {c : Code} (hword : word ∈ splitWords s)
    (hc : c ∈ word) : c ∈ s := ((of_mem_splitWords hword).1 c hc).1

theorem isWordChar_of_mem_splitWords {s word : Text} {c : Code} (hword : word ∈ splitWords s)
    (hc : c ∈ word) : isWordChar c = true := ((of_mem_splitWords hword).1 c hc).2

/-- A name that has a word character somewhere has words. -/
theorem splitWords_ne_nil {s : Text} {c : Code} (hmem : c ∈ s) (hc : isWordChar c = true) :
    splitWords s ≠ [] := by
  intro h
  have hconcat := concat_splitWords s
  rw [h] at hconcat
  have hfilter : c ∈ s.filter isWordChar := List.mem_filter.mpr ⟨hmem, hc⟩
  rw [← hconcat] at hfilter
  cases hfilter

/-- What separates words ends them, whatever stands before and behind. -/
theorem splitWords_append {before behind : Text} {c : Code} (hc : isWordChar c = false) :
    splitWords (before ++ c :: behind) = splitWords before ++ splitWords behind := by
  rw [splitWords, List.splitOnP_append_cons _ _ (by rw [hc]; rfl), List.flatMap_append]
  rfl

/-- Words that are found as one are found again where underscores separate them. -/
theorem splitWords_separated {words : List Text} (hne : words ≠ [])
    (h : ∀ word ∈ words, splitWords word = [word]) : splitWords (separated "_" words) = words := by
  induction words with
  | nil => exact absurd rfl hne
  | cons word words ih =>
    obtain ⟨hword, hwords⟩ := List.forall_mem_cons.mp h
    cases words with
    | nil => rwa [separated, List.intercalate_singleton]
    | cons next words =>
      have hunderscore : isWordChar (.char '_') = false := by decide +kernel
      rw [separated, List.intercalate_cons_cons, List.append_assoc, ← separated]
      rw [show ("_" : Text) = [.char '_'] from rfl, List.singleton_append,
        splitWords_append hunderscore, hword]
      rw [show ([.char '_'] : Text) = "_" from rfl, ih nofun hwords]
      rfl

/-- Letters of one kind with digits behind them are found as one word. -/
theorem splitWords_uniform {letter : Glyph} (hletter : letter ≠ .digit) {word : Text}
    {letters digits : Nat} (hne : word ≠ []) (hword : ∀ c ∈ word, isWordChar c = true)
    (hshape : word.map Glyph.of
      = List.replicate letters letter ++ List.replicate digits .digit) :
    splitWords word = [word] := by
  have hlength : word.length = letters + digits := by
    rw [← List.length_map Glyph.of, hshape]
    simp
  have hwhole := wordLength?_uniform hletter (hlength ▸ List.length_pos_iff.mpr hne)
  rw [← hshape, ← hlength] at hwhole
  have hchunk : word.splitOnP (!isWordChar ·) = [word] :=
    List.splitOnP_eq_singleton fun c hc => by rw [hword c hc]; rfl
  have hwords := chunkWords_append [] hne (by rwa [List.append_nil])
  rw [List.append_nil] at hwords
  rw [splitWords, hchunk, List.flatMap_singleton, hwords]
  rfl

end WasmBridge
