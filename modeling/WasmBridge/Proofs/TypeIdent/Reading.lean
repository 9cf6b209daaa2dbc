import WasmBridge.Proofs.Outcome
import WasmBridge.Proofs.TypeIdent.Grammar

/-!
# Reading what the grammar writes

The reader goes through a text once and never back, so what it returns is said by what it has
passed over. That is an item, in which no more brackets are open than there was room for, and
every item is passed over that is followed by a comma, by a bracket that closes, or by nothing.

A text that needs more room is no error in the text. The reader stops in the middle of it,
without a word on whether it was written well.
-/

namespace WasmBridge

open Text Outcome

namespace TypeIdent

variable {fuel room : Nat} {close : Char} {s rest rest' name blanks : Text} {ident item : TypeIdent}
  {items : List TypeIdent} {e : TypeIdentError}

/-! ## What the reader does -/

/-- The text does not go on with a character of a name. -/
def EndsName (s : Text) : Prop := ∀ c, s.head? = some c → isNameRest c = false

theorem takeWhile_of_endsName (hname : ∀ c ∈ name, isNameRest c = true) (h : EndsName rest) :
    (name ++ rest).takeWhile isNameRest = name := by
  rw [List.takeWhile_append_of_pos hname]
  cases rest with
  | nil => simp
  | cons c rest => simp [h c rfl]

theorem dropWhile_of_endsName (hname : ∀ c ∈ name, isNameRest c = true) (h : EndsName rest) :
    (name ++ rest).dropWhile isNameRest = rest := by
  rw [List.dropWhile_append_of_pos hname]
  cases rest with
  | nil => simp
  | cons c rest => simp [h c rfl]

theorem endsName_of_blank (h : Blank blanks) {c : Code} (hc : isNameRest c = false) :
    EndsName (blanks ++ c :: rest) := by
  rintro d hd
  cases blanks with
  | nil =>
    obtain rfl : c = d := by simpa using hd
    exact hc
  | cons b blanks =>
    obtain rfl : b = d := by simpa using hd
    by_contra hname
    have := h b (by simp)
    simp [isBlank_of_isNameRest (by simpa using hname)] at this

theorem readIdent_bracketed (h : trimStart s = .char '(' :: rest) :
    readIdent (fuel + 1) room s
      = (fun (items, rest) => (ofItems items, rest)) <$> readItems fuel room ')' rest := by
  rw [readIdent]
  simp only [h]
  cases readItems fuel room ')' rest with
  | error e => rfl
  | ok r => obtain ⟨_ | ⟨item, items⟩, rest⟩ := r <;> simp [ofItems]

theorem isNameStart_ne_paren {c : Code} (h : isNameStart c = true) : c ≠ .char '(' := by
  rintro rfl
  revert h
  decide

theorem readIdent_applied (hname : IsTypeName name) (hblanks : Blank blanks)
    (h : trimStart s = name ++ (blanks ++ .char '<' :: rest)) :
    readIdent (fuel + 1) room s
      = (fun (args, rest) => (⟨name, args⟩, rest)) <$> readItems fuel room '>' rest := by
  have hends : EndsName (blanks ++ .char '<' :: rest) := endsName_of_blank hblanks (by decide)
  have hangle : trimStart (blanks ++ .char '<' :: rest) = .char '<' :: rest := by
    rw [hblanks.trimStart_append, trimStart_cons (by decide)]
  obtain ⟨first, more, rfl, hfirst, hmore⟩ := hname
  rw [readIdent]
  simp only [h, List.cons_append]
  split
  · rename_i heq
    exact absurd (List.cons.inj heq).1 (isNameStart_ne_paren hfirst)
  · rename_i heq
    obtain ⟨rfl, rfl⟩ := List.cons.inj heq
    simp only [hfirst, if_true, takeWhile_of_endsName hmore hends,
      dropWhile_of_endsName hmore hends, hangle]
    cases readItems fuel room '>' rest <;> rfl
  · rename_i heq
    exact nomatch heq

theorem readIdent_name (hname : IsTypeName name) (hends : EndsName rest)
    (hangle : (trimStart rest).head? ≠ some (.char '<')) (h : trimStart s = name ++ rest) :
    readIdent (fuel + 1) room s = .ok (⟨name, []⟩, trimStart rest) := by
  obtain ⟨first, more, rfl, hfirst, hmore⟩ := hname
  rw [readIdent]
  simp only [h, List.cons_append]
  split
  · rename_i heq
    exact absurd (List.cons.inj heq).1 (isNameStart_ne_paren hfirst)
  · rename_i heq
    obtain ⟨rfl, rfl⟩ := List.cons.inj heq
    simp only [hfirst, if_true, takeWhile_of_endsName hmore hends,
      dropWhile_of_endsName hmore hends]
    split
    · rename_i hbehind
      simp [hbehind] at hangle
    · rfl
  · rename_i heq
    exact nomatch heq

/-- The text is at fault, and neither the room nor the fuel that it was read with. -/
def OfText : TypeIdentError → Prop
  | .tooDeep | .outOfFuel => False
  | _ => True

/-- What a text can begin with. -/
theorem readIdent_cases (s : Text) :
    (∃ rest, trimStart s = .char '(' :: rest) ∨
    (∃ name blanks rest, IsTypeName name ∧ Blank blanks ∧
      trimStart s = name ++ (blanks ++ .char '<' :: rest)) ∨
    (∃ name rest, IsTypeName name ∧ EndsName rest ∧
      (trimStart rest).head? ≠ some (.char '<') ∧ trimStart s = name ++ rest) ∨
    ∃ e, OfText e ∧ ∀ fuel room, readIdent (fuel + 1) room s = .error e := by
  cases h : trimStart s with
  | nil => exact .inr (.inr (.inr ⟨.expectedName [], trivial, fun _ _ => by rw [readIdent, h]⟩))
  | cons c behind =>
    by_cases hparen : c = .char '('
    · exact .inl ⟨behind, by rw [hparen]⟩
    by_cases hc : isNameStart c = true
    · have hname : IsTypeName (c :: behind.takeWhile isNameRest) :=
        ⟨c, _, rfl, hc, fun _ h => List.mem_takeWhile_imp h⟩
      have hsplit : c :: behind
          = c :: behind.takeWhile isNameRest ++ behind.dropWhile isNameRest := by
        rw [List.cons_append, List.takeWhile_append_dropWhile]
      obtain ⟨blanks, hblanks, htrim⟩ := exists_blank_trimStart (behind.dropWhile isNameRest)
      by_cases hangle : (trimStart (behind.dropWhile isNameRest)).head? = some (.char '<')
      · obtain ⟨rest, hrest⟩ := List.head?_eq_some_iff.mp hangle
        exact .inr (.inl ⟨_, blanks, rest, hname, hblanks, by rw [← hrest, ← htrim, ← hsplit]⟩)
      · refine .inr (.inr (.inl ⟨_, _, hname, fun d hd => ?_, hangle, hsplit⟩))
        have := List.head?_dropWhile_not isNameRest behind
        rw [hd] at this
        simpa using this
    · refine .inr (.inr (.inr ⟨.expectedName (c :: behind), trivial, fun fuel room => ?_⟩))
      rw [readIdent]
      simp only [h, if_neg hc]

theorem readItems_end (h : trimStart s = .char close :: rest) :
    readItems (fuel + 1) (room + 1) close s = .ok ([], rest) := by
  simp [readItems, h]

theorem readItems_more (h : (trimStart s).head? ≠ some (.char close))
    (hitem : readIdent fuel room (trimStart s) = .ok (item, rest))
    (hcomma : trimStart rest = .char ',' :: rest') :
    readItems (fuel + 1) (room + 1) close s
      = (fun (items, rest) => (item :: items, rest)) <$>
          readItems fuel (room + 1) close rest' := by
  simp only [readItems, if_neg h, hitem, bind_ok, hcomma, List.head?_cons, if_true, List.drop_one,
    List.tail_cons]
  cases readItems fuel (room + 1) close rest' <;> rfl

theorem readItems_last (h : (trimStart s).head? ≠ some (.char close)) (hne : close ≠ ',')
    (hitem : readIdent fuel room (trimStart s) = .ok (item, rest))
    (hclose : trimStart rest = .char close :: rest') :
    readItems (fuel + 1) (room + 1) close s = .ok ([item], rest') := by
  simp [readItems, if_neg h, hitem, hclose, hne]

/-- What the reader can do behind a bracket. -/
theorem readItems_cases (fuel room : Nat) (close : Char) (s : Text) :
    (∃ rest, trimStart s = .char close :: rest) ∨
    (trimStart s).head? ≠ some (.char close) ∧
      ((∃ e, readIdent fuel room (trimStart s) = .error e ∧
          readItems (fuel + 1) (room + 1) close s = .error e) ∨
        ∃ item rest, readIdent fuel room (trimStart s) = .ok (item, rest) ∧
          ((∃ rest', trimStart rest = .char ',' :: rest') ∨
            (∃ rest', trimStart rest = .char close :: rest') ∨
            ∃ e, OfText e ∧ readItems (fuel + 1) (room + 1) close s = .error e)) := by
  by_cases hend : (trimStart s).head? = some (.char close)
  · exact .inl (List.head?_eq_some_iff.mp hend)
  refine .inr ⟨hend, ?_⟩
  cases hitem : readIdent fuel room (trimStart s) with
  | error e => exact .inl ⟨e, rfl, by simp [readItems, if_neg hend, hitem]⟩
  | ok r =>
    obtain ⟨item, rest⟩ := r
    refine .inr ⟨item, rest, rfl, ?_⟩
    by_cases hcomma : (trimStart rest).head? = some (.char ',')
    · exact .inl (List.head?_eq_some_iff.mp hcomma)
    by_cases hclose : (trimStart rest).head? = some (.char close)
    · exact .inr (.inl (List.head?_eq_some_iff.mp hclose))
    · refine .inr (.inr ⟨.expectedSeparator close (trimStart rest), trivial, ?_⟩)
      simp [readItems, if_neg hend, hitem, hcomma, hclose]

/-! ## What has been read -/

mutual

/-- The reader has passed over an item, and there was room for it. -/
theorem readIdent_writes : ∀ (fuel room : Nat) (s : Text) {ident : TypeIdent} {rest : Text},
    readIdent fuel room s = .ok (ident, rest) →
      ∃ read, s = read ++ rest ∧ WritesItem read ident ∧ OpensAtMost room read
  | 0, _, _, _, _, h => by simp [readIdent] at h
  | fuel + 1, room, s, ident, rest, h => by
    obtain ⟨before, hbefore, hs⟩ := exists_blank_trimStart s
    obtain ⟨behind, hparen⟩ | ⟨name, blanks, behind, hname, hblanks, hangle⟩
      | ⟨name, behind, hname, hends, hangle, hsplit⟩ | ⟨e, -, he⟩ := readIdent_cases s
    · rw [readIdent_bracketed hparen] at h
      obtain ⟨⟨items, rest⟩, hitems, heq⟩ := map_eq_ok.mp h
      cases heq
      obtain ⟨list, rfl, hlist, hroom⟩ := readItems_writes fuel room ')' behind (by decide) hitems
      have hbracket := (opensAtMost_bracketed (o := .char '(') (c := .char ')') (by decide)
        (by decide)).mpr hroom
      refine ⟨before ++ (.char '(' :: list ++ [.char ')']), ?_, ?_,
        (opensAtMost_append hbefore.plain.balanced).mpr ⟨hbefore.plain.opensAtMost, hbracket⟩⟩
      · rw [hs, hparen]
        simp
      · simpa using (WritesIdent.bracketed hlist).item.pad hbefore blank_nil
    · rw [readIdent_applied hname hblanks hangle] at h
      obtain ⟨⟨args, rest⟩, hargs, heq⟩ := map_eq_ok.mp h
      cases heq
      obtain ⟨list, rfl, hlist, hroom⟩ := readItems_writes fuel room '>' behind (by decide) hargs
      have hbracket := (opensAtMost_bracketed (o := .char '<') (c := .char '>') (by decide)
        (by decide)).mpr hroom
      have hplain := (hbefore.plain.append hname.plain).append hblanks.plain
      refine ⟨before ++ name ++ blanks ++ (.char '<' :: list ++ [.char '>']), ?_, ?_,
        (opensAtMost_append hplain.balanced).mpr ⟨hplain.opensAtMost, hbracket⟩⟩
      · rw [hs, hangle]
        simp
      · simpa using (WritesIdent.applied hname hblanks hlist).item.pad hbefore blank_nil
    · rw [readIdent_name hname hends hangle hsplit] at h
      obtain ⟨rfl, rfl⟩ : ⟨name, []⟩ = ident ∧ trimStart behind = rest := by simpa using h
      obtain ⟨after, hafter, hbehind⟩ := exists_blank_trimStart behind
      refine ⟨before ++ name ++ after, ?_, .mk hbefore (.name hname) hafter,
        ((hbefore.plain.append hname.plain).append hafter.plain).opensAtMost⟩
      calc s = before ++ (name ++ behind) := by rw [← hsplit]; exact hs
        _ = before ++ name ++ after ++ trimStart behind := by
          simp only [List.append_assoc, ← hbehind]
    · rw [he] at h
      exact nomatch h

/-- The reader has passed over a list and the bracket behind it, and in its own brackets there
was room for the list. -/
theorem readItems_writes : ∀ (fuel room : Nat) (close : Char) (s : Text)
    {items : List TypeIdent} {rest : Text},
    close ≠ ',' → readItems fuel room close s = .ok (items, rest) →
      ∃ list, s = list ++ .char close :: rest ∧ WritesItems list items ∧
        ∃ less, room = less + 1 ∧ OpensAtMost less list
  | 0, _, _, _, _, _, _, h => by simp [readItems] at h
  | _ + 1, 0, _, _, _, _, _, h => by simp [readItems] at h
  | fuel + 1, room + 1, close, s, items, rest, hne, h => by
    obtain ⟨before, hbefore, hs⟩ := exists_blank_trimStart s
    obtain ⟨behind, hend⟩ | ⟨hend, ⟨e, -, he⟩ | ⟨item, left, hitem, hleft⟩⟩ :=
      readItems_cases fuel room close s
    · rw [readItems_end hend] at h
      cases h
      exact ⟨before, by rw [← hend, ← hs], .none hbefore, room, rfl, hbefore.plain.opensAtMost⟩
    · rw [he] at h
      exact nomatch h
    obtain ⟨read, hread, hwrites, hroom⟩ := readIdent_writes fuel room _ hitem
    obtain ⟨after, hafter, htrim⟩ := exists_blank_trimStart left
    -- the item with the blanks around it
    have hpadded := hwrites.pad hbefore hafter
    have hfits : OpensAtMost room (before ++ read ++ after) := by
      simp only [opensAtMost_append (hbefore.plain.balanced.append hwrites.balanced),
        opensAtMost_append hbefore.plain.balanced]
      exact ⟨⟨hbefore.plain.opensAtMost, hroom⟩, hafter.plain.opensAtMost⟩
    have hs' : s = before ++ read ++ after ++ trimStart left := by
      rw [hs, hread]
      simp only [List.append_assoc, ← htrim]
    obtain ⟨behind, hcomma⟩ | ⟨behind, hclose⟩ | ⟨e, -, he⟩ := hleft
    · rw [readItems_more hend hitem hcomma] at h
      obtain ⟨⟨items, rest⟩, hitems, heq⟩ := map_eq_ok.mp h
      cases heq
      obtain ⟨list, rfl, hlist, less, hless, hmore⟩ :=
        readItems_writes fuel (room + 1) close behind hne hitems
      obtain rfl : room = less := by omega
      refine ⟨_, ?_, .more hpadded hlist, room, rfl, ?_⟩
      · rw [hs', hcomma]
        simp
      · rw [opensAtMost_append hpadded.balanced, ← List.singleton_append,
          opensAtMost_append plain_comma.balanced]
        exact ⟨hfits, plain_comma.opensAtMost, hmore⟩
    · rw [readItems_last hend hne hitem hclose] at h
      cases h
      exact ⟨_, by rw [hs', hclose], .last hpadded, room, rfl, hfits⟩
    · rw [he] at h
      exact nomatch h

end

/-! ## What is read -/

/-- An item ends where the text goes on so: behind blanks there is a comma, a bracket that closes,
or nothing. -/
def Follows (s : Text) : Prop :=
  ∀ c, (trimStart s).head? = some c → c = .char ',' ∨ isClosing c = true

theorem Follows.ne {c : Code} (h : Follows s) (hcomma : c ≠ .char ',') (hc : isClosing c = false) :
    (trimStart s).head? ≠ some c := fun heq => by
  simpa [hcomma, hc] using h c heq

theorem Follows.endsName (h : Follows s) : EndsName s := by
  rintro c hc
  by_contra hname
  have hrest : isNameRest c = true := by simpa using hname
  obtain ⟨behind, rfl⟩ := List.head?_eq_some_iff.mp hc
  have hhead : (trimStart (c :: behind)).head? = some c := by
    rw [trimStart_cons (isBlank_of_isNameRest hrest)]
    rfl
  obtain rfl | hclosing := h c hhead
  · revert hrest
    decide
  · simp [isNameRest_of_isClosing hclosing] at hrest

theorem follows_append (h : Blank blanks) : Follows (blanks ++ s) ↔ Follows s := by
  rw [Follows, h.trimStart_append, Follows]

theorem follows_cons {c : Code} (hblank : isBlank c = false)
    (hc : c = .char ',' ∨ isClosing c = true) : Follows (c :: s) := fun d hd => by
  rw [trimStart_cons hblank] at hd
  obtain rfl : c = d := by simpa using hd
  exact hc

/-- No item begins with a bracket that closes. -/
theorem WritesItem.head?_ne (h : WritesItem s ident) (hclose : isClosing (.char close) = true) :
    (trimStart (s ++ rest)).head? ≠ some (.char close) := by
  obtain ⟨hbefore, h, hafter⟩ := h
  rw [List.append_assoc, h.trimStart_append hbefore]
  obtain ⟨c, behind, rfl, hc⟩ := h.head
  intro heq
  obtain rfl : c = .char close := by simpa using heq
  obtain hc | hc := hc
  · have := isNameRest_of_isNameStart hc
    simp [isNameRest_of_isClosing hclose] at this
  · rw [hc] at hclose
    revert hclose
    decide

mutual

theorem WritesItem.read {s : Text} {ident : TypeIdent} : WritesItem s ident →
    ∀ (fuel room : Nat) (rest : Text), 2 * s.length + 1 ≤ fuel → OpensAtMost room s →
      Follows rest →
      ∃ left, readIdent fuel room (trimStart (s ++ rest)) = .ok (ident, left) ∧
        trimStart left = trimStart rest
  | @WritesItem.mk before s after _ hbefore h hafter => by
    intro fuel room rest hfuel hroom hfollows
    rw [opensAtMost_append (hbefore.plain.balanced.append h.balanced),
      opensAtMost_append hbefore.plain.balanced] at hroom
    obtain ⟨left, hread, hleft⟩ := h.read fuel room (after ++ rest)
      (by simp at hfuel; omega) hroom.1.2 ((follows_append hafter).mpr hfollows)
    rw [List.append_assoc, h.trimStart_append hbefore]
    exact ⟨left, hread, by rw [hleft, hafter.trimStart_append]⟩

/-- The reader passes over an ident, if there is room for it, and perhaps over blanks behind it. -/
theorem WritesIdent.read {s : Text} {ident : TypeIdent} : WritesIdent s ident →
    ∀ (fuel room : Nat) (rest : Text), 2 * s.length + 1 ≤ fuel → OpensAtMost room s →
      Follows rest →
      ∃ left, readIdent fuel room (s ++ rest) = .ok (ident, left) ∧
        trimStart left = trimStart rest
  | .name hname => by
    intro fuel room rest hfuel _ hfollows
    obtain ⟨fuel, rfl⟩ : ∃ less, fuel = less + 1 := ⟨fuel - 1, by omega⟩
    refine ⟨trimStart rest, readIdent_name hname hfollows.endsName
      (hfollows.ne (by decide) (by decide)) ?_, ?_⟩
    · exact (WritesIdent.name hname).trimStart_append blank_nil
    · exact List.dropWhile_idempotent isBlank rest
  | @WritesIdent.applied name blanks list _ hname hblanks h => by
    intro fuel room rest hfuel hroom _
    obtain ⟨fuel, rfl⟩ : ∃ less, fuel = less + 1 := ⟨fuel - 1, by omega⟩
    have hplain := hname.plain.append hblanks.plain
    rw [List.append_assoc, opensAtMost_append hplain.balanced] at hroom
    obtain ⟨less, rfl, hless⟩ := (opensAtMost_bracketed (by decide) (by decide)).mp hroom.2
    have hread := h.read fuel less '>' rest (by simp at hfuel; omega) hless (by decide)
    have htext : trimStart (name ++ blanks ++ .char '<' :: list ++ [.char '>'] ++ rest)
        = name ++ (blanks ++ .char '<' :: (list ++ .char '>' :: rest)) := by
      simpa using @WritesIdent.trimStart_append [] _ rest _ (.applied hname hblanks h) blank_nil
    refine ⟨rest, ?_, rfl⟩
    rw [readIdent_applied hname hblanks htext, hread]
    rfl
  | @WritesIdent.bracketed list _ h => by
    intro fuel room rest hfuel hroom _
    obtain ⟨fuel, rfl⟩ : ∃ less, fuel = less + 1 := ⟨fuel - 1, by omega⟩
    obtain ⟨less, rfl, hless⟩ := (opensAtMost_bracketed (by decide) (by decide)).mp hroom
    have hread := h.read fuel less ')' rest (by simp at hfuel; omega) hless
      (by decide)
    have htext : trimStart (.char '(' :: list ++ [.char ')'] ++ rest)
        = .char '(' :: (list ++ .char ')' :: rest) := by
      simpa using @WritesIdent.trimStart_append [] _ rest _ (.bracketed h) blank_nil
    refine ⟨rest, ?_, rfl⟩
    rw [readIdent_bracketed htext, hread]
    rfl

theorem WritesItems.read {s : Text} {items : List TypeIdent} : WritesItems s items →
    ∀ (fuel room : Nat) (close : Char) (rest : Text), 2 * s.length + 2 ≤ fuel →
      OpensAtMost room s → isClosing (.char close) = true →
      readItems fuel (room + 1) close (s ++ .char close :: rest) = .ok (items, rest)
  | .none h => by
    intro fuel room close rest hfuel _ hclose
    obtain ⟨fuel, rfl⟩ : ∃ less, fuel = less + 1 := ⟨fuel - 1, by omega⟩
    exact readItems_end (by
      rw [h.trimStart_append, trimStart_cons (isBlank_of_isClosing hclose)])
  | .last h => by
    intro fuel room close rest hfuel hroom hclose
    obtain ⟨fuel, rfl⟩ : ∃ less, fuel = less + 1 := ⟨fuel - 1, by omega⟩
    have hblank := isBlank_of_isClosing hclose
    obtain ⟨left, hread, hleft⟩ := h.read fuel room (.char close :: rest) (by omega)
      hroom (follows_cons hblank (.inr hclose))
    refine readItems_last (h.head?_ne hclose) ?_ hread (hleft.trans (trimStart_cons hblank _))
    rintro rfl
    revert hclose
    decide
  | @WritesItems.more s list _ _ h hrest => by
    intro fuel room close rest hfuel hroom hclose
    obtain ⟨fuel, rfl⟩ : ∃ less, fuel = less + 1 := ⟨fuel - 1, by omega⟩
    rw [opensAtMost_append h.balanced, ← List.singleton_append,
      opensAtMost_append plain_comma.balanced] at hroom
    obtain ⟨left, hread, hleft⟩ := h.read fuel room
      (.char ',' :: (list ++ .char close :: rest)) (by simp at hfuel; omega) hroom.1
      (follows_cons (by decide) (.inl rfl))
    have hlist := hrest.read fuel room close rest (by simp at hfuel; omega) hroom.2.2 hclose
    rw [List.append_assoc, List.cons_append,
      readItems_more (h.head?_ne hclose) hread (hleft.trans (trimStart_cons (by decide) _)), hlist]
    rfl

end

/-! ## Fuel -/

theorem length_trimStart_le (s : Text) : (trimStart s).length ≤ s.length :=
  (List.dropWhile_suffix isBlank).length_le

mutual

/-- Twice as much fuel as there are characters is enough: a bracket is passed over before its items
are read. -/
theorem readIdent_fuel : ∀ (fuel room : Nat) (s : Text), 2 * s.length < fuel →
    readIdent fuel room s ≠ .error .outOfFuel
  | 0, _, _, hfuel, _ => by omega
  | fuel + 1, room, s, hfuel, h => by
    have hlength := length_trimStart_le s
    obtain ⟨behind, hparen⟩ | ⟨name, blanks, behind, hname, hblanks, hangle⟩
      | ⟨name, behind, hname, hends, hangle, hsplit⟩ | ⟨e, htext, he⟩ := readIdent_cases s
    · rw [readIdent_bracketed hparen, map_eq_error] at h
      rw [hparen, List.length_cons] at hlength
      exact readItems_fuel fuel room ')' behind (by decide) (by omega) h
    · rw [readIdent_applied hname hblanks hangle, map_eq_error] at h
      rw [hangle, List.length_append, List.length_append, List.length_cons] at hlength
      exact readItems_fuel fuel room '>' behind (by decide) (by omega) h
    · rw [readIdent_name hname hends hangle hsplit] at h
      exact nomatch h
    · cases (he fuel room).symm.trans h
      exact htext

/-- And so is one more for the items: a comma is passed over before the next of them. -/
theorem readItems_fuel : ∀ (fuel room : Nat) (close : Char) (s : Text), close ≠ ',' →
    2 * s.length + 1 < fuel → readItems fuel room close s ≠ .error .outOfFuel
  | 0, _, _, _, _, hfuel, _ => by omega
  | _ + 1, 0, _, _, _, _, h => by simp [readItems] at h
  | fuel + 1, room + 1, close, s, hne, hfuel, h => by
    have hlength := length_trimStart_le s
    obtain ⟨behind, hend⟩ | ⟨hend, ⟨e, hitem, he⟩ | ⟨item, left, hitem, hleft⟩⟩ :=
      readItems_cases fuel room close s
    · rw [readItems_end hend] at h
      exact nomatch h
    · cases he.symm.trans h
      exact readIdent_fuel fuel room _ (by omega) hitem
    obtain ⟨behind, hcomma⟩ | ⟨behind, hclose⟩ | ⟨e, htext, he⟩ := hleft
    · rw [readItems_more hend hitem hcomma, map_eq_error] at h
      obtain ⟨read, hread, -⟩ := readIdent_writes fuel room _ hitem
      have hbehind := length_trimStart_le left
      rw [hread, List.length_append] at hlength
      rw [hcomma, List.length_cons] at hbehind
      exact readItems_fuel fuel (room + 1) close behind hne (by omega) h
    · rw [readItems_last hend hne hitem hclose] at h
      exact nomatch h
    · cases he.symm.trans h
      exact htext

end

/-! ## Room -/

mutual

/-- The reader runs out of room only where so many brackets are open. -/
theorem readIdent_tooDeep : ∀ (fuel room : Nat) (s : Text),
    readIdent fuel room s = .error .tooDeep → ¬ OpensAtMost room s
  | 0, _, _, h => by simp [readIdent] at h
  | fuel + 1, room, s, h => by
    obtain ⟨before, hbefore, hs⟩ := exists_blank_trimStart s
    obtain ⟨behind, hparen⟩ | ⟨name, blanks, behind, hname, hblanks, hangle⟩
      | ⟨name, behind, hname, hends, hangle, hsplit⟩ | ⟨e, htext, he⟩ := readIdent_cases s
    · rw [readIdent_bracketed hparen, map_eq_error] at h
      rw [hs, hparen, opensAtMost_append hbefore.plain.balanced, opensAtMost_opening (by decide)]
      rintro ⟨-, less, rfl, hless⟩
      exact readItems_tooDeep fuel less ')' behind (by decide) h hless
    · rw [readIdent_applied hname hblanks hangle, map_eq_error] at h
      have hplain := hname.plain.append hblanks.plain
      rw [hs, hangle, opensAtMost_append hbefore.plain.balanced, ← List.append_assoc,
        opensAtMost_append hplain.balanced, opensAtMost_opening (by decide)]
      rintro ⟨-, -, less, rfl, hless⟩
      exact readItems_tooDeep fuel less '>' behind (by decide) h hless
    · rw [readIdent_name hname hends hangle hsplit] at h
      exact nomatch h
    · cases (he fuel room).symm.trans h
      exact htext.elim

/-- And in brackets only where so many are open inside of them. -/
theorem readItems_tooDeep : ∀ (fuel room : Nat) (close : Char) (s : Text), close ≠ ',' →
    readItems fuel (room + 1) close s = .error .tooDeep → ¬ OpensAtMost room s
  | 0, _, _, _, _, h => by simp [readItems] at h
  | fuel + 1, room, close, s, hne, h => by
    obtain ⟨before, hbefore, hs⟩ := exists_blank_trimStart s
    rw [hs, opensAtMost_append hbefore.plain.balanced]
    rintro ⟨-, hroom⟩
    obtain ⟨behind, hend⟩ | ⟨hend, ⟨e, hitem, he⟩ | ⟨item, left, hitem, hleft⟩⟩ :=
      readItems_cases fuel room close s
    · rw [readItems_end hend] at h
      exact nomatch h
    · rw [he] at h
      cases h
      exact readIdent_tooDeep fuel room _ hitem hroom
    obtain ⟨behind, hcomma⟩ | ⟨behind, hclose⟩ | ⟨e, htext, he⟩ := hleft
    · rw [readItems_more hend hitem hcomma, map_eq_error] at h
      obtain ⟨read, hread, hwrites, -⟩ := readIdent_writes fuel room _ hitem
      obtain ⟨after, hafter, htrim⟩ := exists_blank_trimStart left
      rw [hread, opensAtMost_append hwrites.balanced, htrim,
        opensAtMost_append hafter.plain.balanced, hcomma, ← List.singleton_append,
        opensAtMost_append plain_comma.balanced] at hroom
      exact readItems_tooDeep fuel room close behind hne h hroom.2.2.2
    · rw [readItems_last hend hne hitem hclose] at h
      exact nomatch h
    · cases he.symm.trans h
      exact htext.elim

end

mutual

/-- With more room the reader does the same, unless it has run out of room before. -/
theorem readIdent_cutShort : ∀ (fuel room more : Nat) (s : Text),
    CutShort .tooDeep (readIdent fuel room s) (readIdent fuel (room + more) s)
  | 0, _, _, _ => cutShort_refl _
  | fuel + 1, room, more, s => by
    obtain ⟨behind, hparen⟩ | ⟨name, blanks, behind, hname, hblanks, hangle⟩
      | ⟨name, behind, hname, hends, hangle, hsplit⟩ | ⟨e, -, he⟩ := readIdent_cases s
    · rw [readIdent_bracketed hparen, readIdent_bracketed hparen]
      exact (readItems_cutShort fuel room more ')' behind).map
    · rw [readIdent_applied hname hblanks hangle, readIdent_applied hname hblanks hangle]
      exact (readItems_cutShort fuel room more '>' behind).map
    · rw [readIdent_name hname hends hangle hsplit, readIdent_name hname hends hangle hsplit]
      exact cutShort_refl _
    · rw [he, he]
      exact cutShort_refl _

theorem readItems_cutShort : ∀ (fuel room more : Nat) (close : Char) (s : Text),
    CutShort .tooDeep (readItems fuel room close s) (readItems fuel (room + more) close s)
  | 0, _, _, _, _ => cutShort_refl _
  | _ + 1, 0, _, _, _ => cutShort_error _
  | fuel + 1, room + 1, more, close, s => by
    rw [Nat.add_right_comm room 1 more]
    simp only [readItems]
    split
    · exact cutShort_refl _
    refine (readIdent_cutShort fuel room more _).bind fun (item, rest) => ?_
    dsimp only
    split
    · rw [Nat.add_right_comm room more 1]
      exact (readItems_cutShort fuel (room + 1) more close _).bind fun _ => cutShort_refl _
    · exact cutShort_refl _

end

theorem parseWithin_cutShort (room more : Nat) (text : Text) :
    CutShort .tooDeep (parseWithin room text) (parseWithin (room + more) text) :=
  (readIdent_cutShort _ room more _).bind fun _ => cutShort_refl _

/-! ## The whole text -/

/-- **No text is read so far that the fuel runs out.** -/
theorem parseWithin_fuel (room : Nat) (text : Text) :
    parseWithin room text ≠ .error .outOfFuel := by
  intro h
  cases hread : readIdent (2 * (trim text).length + 1) room (trim text) with
  | ok r =>
    rw [parseWithin, hread, bind_ok] at h
    by_cases hempty : (trim r.2).isEmpty <;> simp [hempty] at h
  | error e =>
    rw [parseWithin, hread, bind_error] at h
    cases h
    exact readIdent_fuel _ room _ (Nat.lt_succ_self _) hread

/-- What is read from a text is what the text writes, and the room was enough for it. -/
theorem parseWithin_eq_ok_iff {text : Text} :
    parseWithin room text = .ok ident ↔ WritesItem text ident ∧ OpensAtMost room text := by
  constructor
  · intro h
    obtain ⟨before, after, hbefore, hafter, htext⟩ := exists_blank_trim text
    obtain ⟨⟨found, rest⟩, hread, hrest⟩ := bind_eq_ok.mp h
    obtain ⟨read, hs, hwrites, hroom⟩ := readIdent_writes _ room _ hread
    by_cases hempty : (trim rest).isEmpty
    · have hfound : found = ident := by simpa [hempty] using hrest
      have hblank : Blank (rest ++ after) :=
        (blank_of_trim_eq_nil (by simpa using hempty)).append hafter
      have htext' : text = before ++ read ++ (rest ++ after) := by
        rw [htext, hs]
        simp
      refine hfound ▸ htext' ▸ ⟨hwrites.pad hbefore hblank, ?_⟩
      rw [opensAtMost_append (hbefore.plain.balanced.append hwrites.balanced),
        opensAtMost_append hbefore.plain.balanced]
      exact ⟨⟨hbefore.plain.opensAtMost, hroom⟩, hblank.plain.opensAtMost⟩
    · simp [hempty] at hrest
  · rintro ⟨⟨hbefore, h, hafter⟩, hroom⟩
    rw [opensAtMost_append (hbefore.plain.balanced.append h.balanced),
      opensAtMost_append hbefore.plain.balanced] at hroom
    have hfollows : Follows [] := fun c hc => by simp [trimStart] at hc
    obtain ⟨left, hread, hleft⟩ := h.read _ room [] (Nat.le_refl _) hroom.1.2 hfollows
    rw [List.append_nil] at hread
    have hempty : trim left = [] := by rw [trim, hleft]; rfl
    rw [parseWithin, h.trim_eq hbefore hafter]
    simp [hread, hempty]

/-- No text writes two idents. -/
theorem WritesItem.unique {text : Text} {ident other : TypeIdent} (h : WritesItem text ident)
    (hother : WritesItem text other) : ident = other := by
  have hroom : OpensAtMost (text.countP isOpening) text := fun p hp =>
    (hp.sublist.countP_le).trans (Nat.le_add_left _ _)
  have := parseWithin_eq_ok_iff.mpr ⟨h, hroom⟩
  rw [parseWithin_eq_ok_iff.mpr ⟨hother, hroom⟩] at this
  exact (Except.ok.inj this).symm

/-- For a text that writes an ident there is no error but that too many brackets are open. -/
theorem WritesItem.parseWithin_cases {text : Text} (h : WritesItem text ident) (room : Nat) :
    parseWithin room text = .ok ident ∨ parseWithin room text = .error .tooDeep := by
  have hroom : OpensAtMost (room + text.countP isOpening) text := fun p hp =>
    (hp.sublist.countP_le).trans (by omega)
  obtain hdeep | heq := parseWithin_cutShort room (text.countP isOpening) text
  · exact .inr hdeep
  · exact .inl (heq.trans (parseWithin_eq_ok_iff.mpr ⟨h, hroom⟩))

theorem parseWithin_tooDeep {text : Text} (h : parseWithin room text = .error .tooDeep) :
    ¬ OpensAtMost room text := by
  obtain ⟨before, after, hbefore, hafter, htext⟩ := exists_blank_trim text
  rw [htext, List.append_assoc, opensAtMost_append hbefore.plain.balanced]
  rintro ⟨-, hroom⟩
  refine readIdent_tooDeep (2 * (trim text).length + 1) room _ ?_ hroom.of_append
  rw [parseWithin] at h
  cases hread : readIdent (2 * (trim text).length + 1) room (trim text) with
  | ok r =>
    rw [hread, bind_ok] at h
    by_cases hempty : (trim r.2).isEmpty <;> simp [hempty] at h
  | error e =>
    rw [hread, bind_error] at h
    rw [Except.error.inj h]

/-- Every text is read as the grammar has it, unless too many brackets are open in it. -/
theorem parse_follows_grammar (text : Text) :
    (∀ ident, WritesItem text ident →
      (∀ other, WritesItem text other → other = ident) ∧
      (OpensAtMost openLimit text → parse text = .ok ident) ∧
      (¬ OpensAtMost openLimit text → parse text = .error .tooDeep)) ∧
    ((∀ ident, ¬ WritesItem text ident) →
      ∃ e, parse text = .error e ∧ e ≠ .outOfFuel ∧
        (OpensAtMost openLimit text → e ≠ .tooDeep)) := by
  refine ⟨fun ident h => ⟨fun other hother => hother.unique h,
    fun hroom => parseWithin_eq_ok_iff.mpr ⟨h, hroom⟩, fun hroom => ?_⟩, fun hnone => ?_⟩
  · refine (h.parseWithin_cases openLimit).resolve_left fun hok => ?_
    exact hroom (parseWithin_eq_ok_iff.mp hok).2
  · cases hparse : parse text with
    | ok ident => exact absurd (parseWithin_eq_ok_iff.mp hparse).1 (hnone ident)
    | error e =>
      refine ⟨e, rfl, ?_, ?_⟩
      · rintro rfl
        exact parseWithin_fuel openLimit text hparse
      · rintro hroom rfl
        exact parseWithin_tooDeep hparse hroom

/-- A tuple of one item is read from a text with a comma and a blank behind it. -/
theorem parse_follows_grammar_tuple :
    WritesItem "(u8, )" ⟨tupleName, [⟨"u8", []⟩]⟩ ∧
      parse "(u8, )" = .ok ⟨tupleName, [⟨"u8", []⟩]⟩ := by
  have hname : IsTypeName "u8" := ⟨.char 'u', [.char '8'], rfl, by decide, by decide⟩
  have hlist : WritesItems "u8, " [⟨"u8", []⟩] :=
    .more (WritesIdent.name hname).item (.none (show Blank " " by decide +kernel))
  have hwrites : WritesItem "(u8, )" ⟨tupleName, [⟨"u8", []⟩]⟩ :=
    (WritesIdent.bracketed hlist).item
  refine ⟨hwrites, ((parse_follows_grammar _).1 _ hwrites).2.1 fun p hp => ?_⟩
  have hlength : p.length ≤ 6 := hp.length_le
  have := p.countP_le_length (p := isOpening)
  have : openLimit = 495 := by decide
  omega

/-- Brackets that are opened and never closed. -/
def opened (n : Nat) : Text := List.replicate n (.char '(')

theorem trimStart_opened (n : Nat) : trimStart (opened n) = opened n := by
  cases n with
  | zero => rfl
  | succ n => exact trimStart_cons (by decide) (opened n)

theorem trim_opened (n : Nat) : trim (opened n) = opened n := by
  rw [trim, trimStart_opened]
  cases n with
  | zero => rfl
  | succ n =>
    have hlast : opened (n + 1) = opened n ++ [.char '('] := List.replicate_succ'
    simpa [← hlast] using blank_nil.trimEnd_append (c := .char '(') (by decide) (opened n)

/-- The reader gets into them as far as there is room. -/
theorem readIdent_opened : ∀ (room n fuel : Nat), room < n → 2 * n ≤ fuel →
    readIdent fuel room (opened n) = .error .tooDeep
  | room, 0, _, hn, _ => by omega
  | room, n + 1, fuel, hn, hfuel => by
    obtain ⟨fuel, rfl⟩ : ∃ less, fuel = less + 2 := ⟨fuel - 2, by omega⟩
    have htext : trimStart (opened (n + 1)) = .char '(' :: opened n := trimStart_opened (n + 1)
    rw [readIdent_bracketed htext, map_eq_error]
    cases room with
    | zero => simp [readItems]
    | succ room =>
      have hread := readIdent_opened room n fuel (by omega) (by omega)
      obtain ⟨n, rfl⟩ : ∃ less, n = less + 1 := ⟨n - 1, by omega⟩
      have hhead : (opened (n + 1)).head? ≠ some (.char ')') := by
        simp [opened, List.replicate_succ]
      simp only [readItems, trimStart_opened, if_neg hhead, hread, bind_error]

theorem parseWithin_opened {n : Nat} (h : room < n) :
    parseWithin room (opened n) = .error .tooDeep := by
  have hread := readIdent_opened room n (2 * (opened n).length + 1) h (by simp [opened])
  rw [parseWithin, trim_opened, hread, bind_error]

theorem not_writesItem_opened {n : Nat} (h : 0 < n) (ident : TypeIdent) :
    ¬ WritesItem (opened n) ident := fun hwrites => by
  have hopening : isOpening (.char '(') = true := by decide
  have hclosing : isClosing (.char '(') = false := by decide
  have := hwrites.balanced
  simp only [Balanced, opened, List.countP_replicate, hopening, hclosing] at this
  simp at this
  omega

/-- What is wrong with such a text is not found if the room runs out before its end. -/
theorem opened_brackets_exhaust_room :
    (∀ ident, ¬ WritesItem (opened 1500) ident) ∧ parse (opened 1500) = .error .tooDeep :=
  ⟨not_writesItem_opened (by decide), parseWithin_opened (by decide)⟩

end TypeIdent

end WasmBridge
