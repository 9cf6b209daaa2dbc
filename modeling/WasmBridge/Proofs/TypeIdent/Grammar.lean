import Mathlib.Data.List.DropRight
import Mathlib.Data.List.TakeWhile
import WasmBridge.TypeIdent.Parser

/-!
# The grammar of type idents

Which texts write which ident, said without a reader:

* an *item* is an ident with blanks on both sides of it;
* an *ident* is a name, or a name with blanks and a list in angle brackets behind it, or a
  list in round brackets;
* a *list* is blanks, or an item, or an item and a comma with a list behind it.

So a list may end with a comma, but neither begin with one nor have two of them in a row.
Behind a name there is a bracket, a comma or a blank, so no name could be longer than it is.

In what an item is written with, as many brackets are closed as are opened. How many of
them are open at a time is what a reader needs room for.
-/

namespace WasmBridge

open Text

namespace TypeIdent

/-- The text holds blanks only. -/
def Blank (s : Text) : Prop := ∀ c ∈ s, isBlank c = true

instance {s : Text} : Decidable (Blank s) := inferInstanceAs (Decidable (∀ c ∈ s, _))

/-- A letter or an underscore, with letters, digits, underscores and colons behind it. -/
def IsTypeName (s : Text) : Prop :=
  ∃ first rest, s = first :: rest ∧ isNameStart first = true ∧ ∀ c ∈ rest, isNameRest c = true

/-- What a list in round brackets stands for: the unit if it is empty, and else a tuple. -/
def ofItems (items : List TypeIdent) : TypeIdent :=
  if items.isEmpty then ⟨unitName, []⟩ else ⟨tupleName, items⟩

mutual

/-- An ident, with blanks on both sides of it. -/
inductive WritesItem : Text → TypeIdent → Prop where
  | mk {before s after : Text} {ident : TypeIdent} (hbefore : Blank before)
      (h : WritesIdent s ident) (hafter : Blank after) :
      WritesItem (before ++ s ++ after) ident

/-- An ident, without blanks around it. -/
inductive WritesIdent : Text → TypeIdent → Prop where
  | name {name : Text} (hname : IsTypeName name) : WritesIdent name ⟨name, []⟩
  | applied {name blanks list : Text} {args : List TypeIdent} (hname : IsTypeName name)
      (hblanks : Blank blanks) (h : WritesItems list args) :
      WritesIdent (name ++ blanks ++ .char '<' :: list ++ [.char '>']) ⟨name, args⟩
  | bracketed {list : Text} {items : List TypeIdent} (h : WritesItems list items) :
      WritesIdent (.char '(' :: list ++ [.char ')']) (ofItems items)

/-- Idents set apart by commas, perhaps with a comma behind the last one. -/
inductive WritesItems : Text → List TypeIdent → Prop where
  | none {blanks : Text} (h : Blank blanks) : WritesItems blanks []
  | last {s : Text} {ident : TypeIdent} (h : WritesItem s ident) : WritesItems s [ident]
  | more {s list : Text} {ident : TypeIdent} {rest : List TypeIdent} (h : WritesItem s ident)
      (hrest : WritesItems list rest) :
      WritesItems (s ++ .char ',' :: list) (ident :: rest)

end

/-! ## Characters -/

theorem isNameRest_of_isNameStart {c : Code} (h : isNameStart c = true) : isNameRest c = true := by
  cases c with
  | char c =>
    have halphanum : c.isAlphanum = (c.isAlpha || c.isDigit) := rfl
    simp only [isNameStart, isNameRest, Code.isLetter, Code.isAlphanum, halphanum,
      Bool.or_eq_true] at h ⊢
    exact h.elim (fun h => .inl (.inl (.inl h))) fun h => .inl (.inr h)
  | half _ => simp [isNameStart, Code.isLetter] at h

theorem value_of_isNameRest {c : Code} (h : isNameRest c = true) :
    0x20 < c.value ∧ c.value < 0x85 := by
  cases c with
  | char c =>
    have halphanum : c.isAlphanum = (decide ('A'.val ≤ c.val ∧ c.val ≤ 'Z'.val)
        || (decide ('a'.val ≤ c.val) && decide (c.val ≤ 'z'.val))
        || (decide ('0'.val ≤ c.val) && decide (c.val ≤ '9'.val))) := rfl
    simp only [isNameRest, Code.isAlphanum, halphanum, Bool.or_eq_true, Bool.and_eq_true,
      decide_eq_true_eq, Code.char.injEq, Char.ext_iff, UInt32.le_iff_toNat_le,
      ← UInt32.toNat_inj] at h
    simp at h
    simp [Code.value]
    omega
  | half _ => simp [isNameRest, Code.isAlphanum] at h

theorem isBlank_of_isNameRest {c : Code} (h : isNameRest c = true) : isBlank c = false := by
  obtain ⟨hlo, hhi⟩ := value_of_isNameRest h
  simp [isBlank, CharSet.contains, blanks, CharSet.containsNumber, CharRange.contains]
  omega

theorem IsTypeName.isNameRest {name : Text} (h : IsTypeName name) :
    ∀ c ∈ name, isNameRest c = true := by
  obtain ⟨first, rest, rfl, hfirst, hrest⟩ := h
  simpa using ⟨isNameRest_of_isNameStart hfirst, hrest⟩

@[simp] theorem blank_nil : Blank [] := by simp [Blank]

theorem Blank.append {s t : Text} (hs : Blank s) (ht : Blank t) : Blank (s ++ t) := fun c hc =>
  (List.mem_append.mp hc).elim (hs c) (ht c)

theorem Blank.trimStart_append {blanks : Text} (h : Blank blanks) (s : Text) :
    trimStart (blanks ++ s) = trimStart s :=
  List.dropWhile_append_of_pos h

theorem trimStart_cons {c : Code} (h : isBlank c = false) (s : Text) :
    trimStart (c :: s) = c :: s :=
  List.dropWhile_cons_of_neg (by simp [h])

/-- Blanks are what a text is trimmed of. -/
theorem exists_blank_trimStart (s : Text) : ∃ blanks, Blank blanks ∧ s = blanks ++ trimStart s :=
  ⟨s.takeWhile isBlank, fun _ h => List.mem_takeWhile_imp h,
    List.takeWhile_append_dropWhile.symm⟩

/-- A text with blanks at its end that has none at the end otherwise. -/
theorem Blank.trimEnd_append {blanks : Text} (h : Blank blanks) {c : Code}
    (hc : isBlank c = false) (s : Text) : trimEnd (s ++ [c] ++ blanks) = s ++ [c] := by
  have hback : ∀ d ∈ blanks.reverse, isBlank d = true := fun d hd => h d (List.mem_reverse.mp hd)
  simp [trimEnd, List.dropWhile_append_of_pos hback, hc]

theorem exists_blank_trimEnd (s : Text) : ∃ blanks, Blank blanks ∧ s = trimEnd s ++ blanks := by
  obtain ⟨blanks, hblanks, hs⟩ := exists_blank_trimStart s.reverse
  refine ⟨blanks.reverse, fun c hc => hblanks c (List.mem_reverse.mp hc), ?_⟩
  calc s = s.reverse.reverse := s.reverse_reverse.symm
    _ = (blanks ++ trimStart s.reverse).reverse := by rw [← hs]
    _ = trimEnd s ++ blanks.reverse := List.reverse_append

theorem exists_blank_trim (s : Text) :
    ∃ before after, Blank before ∧ Blank after ∧ s = before ++ trim s ++ after := by
  obtain ⟨before, hbefore, hs⟩ := exists_blank_trimStart s
  obtain ⟨after, hafter, htrim⟩ := exists_blank_trimEnd (trimStart s)
  refine ⟨before, after, hbefore, hafter, ?_⟩
  rw [trim, List.append_assoc, ← htrim, ← hs]

theorem blank_of_trim_eq_nil {s : Text} (h : trim s = []) : Blank s := by
  obtain ⟨before, after, hbefore, hafter, hs⟩ := exists_blank_trim s
  rw [hs, h, List.append_nil]
  exact hbefore.append hafter

/-! ## Items -/

theorem WritesIdent.item {s : Text} {ident : TypeIdent} (h : WritesIdent s ident) :
    WritesItem s ident := by
  simpa using WritesItem.mk blank_nil h blank_nil

theorem WritesItem.pad {before s after : Text} {ident : TypeIdent} (h : WritesItem s ident)
    (hbefore : Blank before) (hafter : Blank after) :
    WritesItem (before ++ s ++ after) ident := by
  cases h with
  | mk hbefore' h hafter' =>
    simpa using WritesItem.mk (hbefore.append hbefore') h (hafter'.append hafter)

theorem WritesItems.pad {before s : Text} {items : List TypeIdent} (h : WritesItems s items)
    (hbefore : Blank before) : WritesItems (before ++ s) items := by
  cases h with
  | none h => exact .none (hbefore.append h)
  | last h => exact .last (by simpa using h.pad hbefore blank_nil)
  | more h hrest =>
    rw [← List.append_assoc]
    exact .more (by simpa using h.pad hbefore blank_nil) hrest

/-- An ident begins with a character that a list does not go on with. -/
theorem WritesIdent.head {s : Text} {ident : TypeIdent} (h : WritesIdent s ident) :
    ∃ c behind, s = c :: behind ∧ (isNameStart c = true ∨ c = .char '(') := by
  cases h with
  | name hname =>
    obtain ⟨first, rest, rfl, hfirst, -⟩ := hname
    exact ⟨first, rest, rfl, .inl hfirst⟩
  | applied hname hblanks h =>
    obtain ⟨first, rest, rfl, hfirst, -⟩ := hname
    exact ⟨first, _, by simp only [List.cons_append]; rfl, .inl hfirst⟩
  | bracketed h => exact ⟨_, _, rfl, .inr rfl⟩

theorem WritesIdent.trimStart_append {before s rest : Text} {ident : TypeIdent}
    (h : WritesIdent s ident) (hbefore : Blank before) :
    trimStart (before ++ s ++ rest) = s ++ rest := by
  obtain ⟨c, behind, rfl, hc⟩ := h.head
  have hblank : isBlank c = false := by
    obtain hc | rfl := hc
    · exact isBlank_of_isNameRest (isNameRest_of_isNameStart hc)
    · decide
  rw [List.append_assoc, hbefore.trimStart_append]
  exact trimStart_cons hblank _

theorem WritesIdent.last {s : Text} {ident : TypeIdent} (h : WritesIdent s ident) :
    ∃ before c, s = before ++ [c] ∧ isBlank c = false := by
  cases h with
  | name hname =>
    have hne : s ≠ [] := by
      obtain ⟨first, rest, rfl, -⟩ := hname
      simp
    exact ⟨s.dropLast, s.getLast hne, (List.dropLast_concat_getLast hne).symm,
      isBlank_of_isNameRest (hname.isNameRest _ (List.getLast_mem hne))⟩
  | applied hname hblanks h => exact ⟨_, _, rfl, by decide⟩
  | bracketed h => exact ⟨_, _, rfl, by decide⟩

/-- What an ident is written with is what remains when the blanks around it go. -/
theorem WritesIdent.trim_eq {before s after : Text} {ident : TypeIdent} (h : WritesIdent s ident)
    (hbefore : Blank before) (hafter : Blank after) : trim (before ++ s ++ after) = s := by
  obtain ⟨front, d, rfl, hd⟩ := h.last
  rw [trim, h.trimStart_append hbefore, hafter.trimEnd_append hd]

/-! ## Brackets -/

/-- The character opens a bracket. -/
def isOpening (c : Code) : Bool := c = .char '(' || c = .char '<'

/-- The character closes a bracket. -/
def isClosing (c : Code) : Bool := c = .char ')' || c = .char '>'

/-- Nowhere in a text are more than `room` brackets open. -/
def OpensAtMost (room : Nat) (s : Text) : Prop :=
  ∀ p, p <+: s → p.countP isOpening ≤ p.countP isClosing + room

/-- As many brackets are closed in a text as are opened. -/
def Balanced (s : Text) : Prop := s.countP isOpening = s.countP isClosing

variable {room : Nat} {s t : Text} {o c : Code}

theorem Balanced.append (hs : Balanced s) (ht : Balanced t) : Balanced (s ++ t) := by
  unfold Balanced at *
  simp [hs, ht]

theorem isOpening_iff : isOpening o = true ↔ o = .char '(' ∨ o = .char '<' := by simp [isOpening]

theorem isClosing_iff : isClosing c = true ↔ c = .char ')' ∨ c = .char '>' := by simp [isClosing]

theorem isClosing_of_isOpening (h : isOpening o = true) : isClosing o = false := by
  obtain rfl | rfl := isOpening_iff.mp h <;> decide

theorem isBlank_of_isClosing (h : isClosing c = true) : isBlank c = false := by
  obtain rfl | rfl := isClosing_iff.mp h <;> decide

theorem isNameRest_of_isClosing (h : isClosing c = true) : isNameRest c = false := by
  obtain rfl | rfl := isClosing_iff.mp h <;> decide

theorem isOpening_of_isClosing (h : isClosing c = true) : isOpening c = false := by
  cases ho : isOpening c with
  | true => simp [isClosing_of_isOpening ho] at h
  | false => rfl

theorem Balanced.bracketed (hs : Balanced s) (ho : isOpening o = true) (hc : isClosing c = true) :
    Balanced (o :: s ++ [c]) := by
  unfold Balanced at *
  simp [ho, hc, isClosing_of_isOpening ho, isOpening_of_isClosing hc, hs]

/-- A text that neither opens nor closes any bracket. -/
def Plain (s : Text) : Prop := ∀ c ∈ s, isOpening c = false ∧ isClosing c = false

theorem Plain.append (hs : Plain s) (ht : Plain t) : Plain (s ++ t) := fun c hc =>
  (List.mem_append.mp hc).elim (hs c) (ht c)

theorem Plain.counts (h : Plain s) : s.countP isOpening = 0 ∧ s.countP isClosing = 0 := by
  constructor <;> refine List.countP_eq_zero.mpr fun c hc => ?_
  · simp [(h c hc).1]
  · simp [(h c hc).2]

theorem Plain.balanced (h : Plain s) : Balanced s := by
  simp [Balanced, h.counts]

theorem Plain.opensAtMost (h : Plain s) : OpensAtMost room s := fun p hp => by
  have := hp.sublist.countP_le (p := isOpening)
  have := h.counts.1
  omega

/-- Characters of a kind that brackets are not of. -/
theorem plain_of_forall {kind : Code → Bool} (hkind : ∀ c, kind c = true →
      c ≠ .char '(' ∧ c ≠ .char '<' ∧ c ≠ .char ')' ∧ c ≠ .char '>')
    (h : ∀ c ∈ s, kind c = true) : Plain s := fun c hc => by
  obtain ⟨h1, h2, h3, h4⟩ := hkind c (h c hc)
  simp [isOpening, isClosing, h1, h2, h3, h4]

theorem Blank.plain (h : Blank s) : Plain s := by
  refine plain_of_forall (fun c hc => ?_) h
  refine ⟨?_, ?_, ?_, ?_⟩ <;> rintro rfl <;> revert hc <;> decide

theorem IsTypeName.plain (h : IsTypeName s) : Plain s := by
  refine plain_of_forall (fun c hc => ?_) h.isNameRest
  refine ⟨?_, ?_, ?_, ?_⟩ <;> rintro rfl <;> revert hc <;> decide

theorem plain_comma : Plain [.char ','] := by simp [Plain, isOpening, isClosing]

theorem OpensAtMost.of_append (h : OpensAtMost room (s ++ t)) : OpensAtMost room s :=
  fun p hp => h p (hp.trans (List.prefix_append s t))

/-- Behind a text in which all brackets are closed, there is as much room as before it. -/
theorem opensAtMost_append (hs : Balanced s) :
    OpensAtMost room (s ++ t) ↔ OpensAtMost room s ∧ OpensAtMost room t := by
  unfold Balanced at hs
  constructor
  · intro h
    refine ⟨h.of_append, fun p hp => ?_⟩
    have := h (s ++ p) ((List.prefix_append_right_inj s).mpr hp)
    simp only [List.countP_append] at this
    omega
  · rintro ⟨h, h'⟩ p hp
    obtain hp' | ⟨q, rfl⟩ := List.prefix_or_prefix_of_prefix hp (List.prefix_append s t)
    · exact h p hp'
    · have := h' q ((List.prefix_append_right_inj s).mp hp)
      simp only [List.countP_append]
      omega

/-- An open bracket takes room from what stands behind it. -/
theorem opensAtMost_opening (ho : isOpening o = true) :
    OpensAtMost room (o :: s) ↔ ∃ less, room = less + 1 ∧ OpensAtMost less s := by
  have hclosing := isClosing_of_isOpening ho
  constructor
  · intro h
    have hroom := h [o] (by simp)
    simp [ho, hclosing] at hroom
    refine ⟨room - 1, by omega, fun p hp => ?_⟩
    have := h (o :: p) (by simpa using hp)
    simp [ho, hclosing] at this
    omega
  · rintro ⟨less, rfl, h⟩ p hp
    obtain rfl | ⟨q, rfl, hq⟩ := List.prefix_cons_iff.mp hp
    · simp
    · have := h q hq
      simp [ho, hclosing]
      omega

/-- A bracket that closes makes no need for room. -/
theorem opensAtMost_closing (hc : isClosing c = true) :
    OpensAtMost room (s ++ [c]) ↔ OpensAtMost room s := by
  refine ⟨fun h => h.of_append, fun h p hp => ?_⟩
  obtain rfl | hp := List.prefix_concat_iff.mp hp
  · have := h s (List.prefix_refl s)
    simp [hc, isOpening_of_isClosing hc]
    omega
  · exact h p hp

/-- What is in brackets has less room than the text has that they are in. -/
theorem opensAtMost_bracketed (ho : isOpening o = true) (hc : isClosing c = true) :
    OpensAtMost room (o :: s ++ [c]) ↔ ∃ less, room = less + 1 ∧ OpensAtMost less s := by
  simp only [opensAtMost_closing hc, opensAtMost_opening ho]

mutual

theorem WritesItem.balanced {s : Text} {ident : TypeIdent} : WritesItem s ident → Balanced s
  | .mk hbefore h hafter =>
    (hbefore.plain.balanced.append h.balanced).append hafter.plain.balanced

theorem WritesIdent.balanced {s : Text} {ident : TypeIdent} : WritesIdent s ident → Balanced s
  | .name hname => hname.plain.balanced
  | .applied hname hblanks h => by
    simpa using (hname.plain.append hblanks.plain).balanced.append
      (h.balanced.bracketed (o := .char '<') (c := .char '>') (by decide) (by decide))
  | .bracketed h => h.balanced.bracketed (by decide) (by decide)

theorem WritesItems.balanced {s : Text} {items : List TypeIdent} :
    WritesItems s items → Balanced s
  | .none h => h.plain.balanced
  | .last h => h.balanced
  | .more h hrest => h.balanced.append (plain_comma.balanced.append hrest.balanced)

end

end TypeIdent

end WasmBridge
