import WasmBridge.Proofs.TypeIdent.Parts
import WasmBridge.Proofs.TypeIdent.Reading

/-!
# Idents that are written and read again

An ident whose names are names can be read from what it is written as. The written form is one of
the many that the grammar has for the ident, and the grammar gives no text to two idents, so nothing
is left to show but that the written form is of the grammar, and how much room it is read with.

Neither writing nor reading has unlimited room. Around the same arguments, writing takes more of it:
what can be written at all can be read.
-/

namespace WasmBridge

open Text

namespace TypeIdent

variable {ident : TypeIdent} {idents : List TypeIdent} {name s : Text} {room : Nat}

instance : Decidable (IsTypeName s) :=
  match s with
  | [] => .isFalse fun ⟨_, _, h, _⟩ => nomatch h
  | first :: rest =>
    decidable_of_iff (isNameStart first = true ∧ ∀ c ∈ rest, isNameRest c = true)
      ⟨fun h => ⟨first, rest, rfl, h⟩, fun ⟨_, _, h, hname⟩ => by cases h; exact hname⟩

/-- Every name is one that can be read, or that of the unit, which is applied to nothing. Tuples
have items. -/
def WellNamed (ident : TypeIdent) : Prop :=
  ∀ part ∈ ident.parts,
    (IsTypeName part.name ∨ part = ⟨unitName, []⟩) ∧ (part.name = tupleName → part.args ≠ [])

instance : Decidable ident.WellNamed :=
  inferInstanceAs (Decidable (∀ part ∈ ident.parts, _ ∧ _))

theorem WellNamed.arg (h : ident.WellNamed) {a : TypeIdent} (ha : a ∈ ident.args) : a.WellNamed :=
  fun part hpart => h part (mem_parts.mpr (.inr ⟨a, ha, hpart⟩))

/-- The name of the unit is none that can be read as a name. -/
theorem IsTypeName.ne_unitName (h : IsTypeName name) : name ≠ unitName := by
  rintro rfl
  revert h
  decide

/-- What a well-named ident is: the unit, a tuple, a name, or a name with arguments. -/
theorem WellNamed.cases (h : ident.WellNamed) :
    ident = ⟨unitName, []⟩ ∨ (ident.name = tupleName ∧ ident.args ≠ []) ∨
      (IsTypeName ident.name ∧ ident.name ≠ tupleName) := by
  obtain ⟨hname, htuple⟩ := h ident (self_mem_parts ident)
  obtain hname | hunit := hname
  · by_cases hname' : ident.name = tupleName
    · exact .inr (.inl ⟨hname', htuple hname'⟩)
    · exact .inr (.inr ⟨hname, hname'⟩)
  · exact .inl hunit

/-! ## The written form is of the grammar -/

theorem text_unit : text ⟨unitName, []⟩ = unitName := by decide

theorem text_tuple (args : List TypeIdent) : text ⟨tupleName, args⟩ = tupled (texts args) := by
  rw [text, if_pos rfl]

theorem text_name (h : name ≠ tupleName) : text ⟨name, []⟩ = name := by
  rw [text, if_neg h]
  rfl

theorem text_applied (h : name ≠ tupleName) (a : TypeIdent) (as : List TypeIdent) :
    text ⟨name, a :: as⟩ = name ++ bracketed "<" ">" (texts (a :: as)) := by
  rw [text, if_neg h]
  rfl

/-- A tuple of one item keeps a comma behind it, and the grammar lets any list end with one. -/
theorem WritesItems.tupled {args : List TypeIdent} (hne : args ≠ [])
    (h : WritesItems (separated ", " (texts args)) args)
    (hitem : ∀ a ∈ args, WritesIdent a.text a) :
    WritesIdent (Text.tupled (texts args)) ⟨tupleName, args⟩ := by
  match args with
  | [] => exact absurd rfl hne
  | [a] =>
    have hlist : WritesItems (a.text ++ .char ',' :: []) [a] :=
      .more (hitem a List.mem_cons_self).item (.none blank_nil)
    simpa [Text.tupled, texts, ofItems, ofString] using WritesIdent.bracketed hlist
  | a :: b :: rest => exact WritesIdent.bracketed h

mutual

theorem writes_text : ∀ ident : TypeIdent, ident.WellNamed → WritesIdent ident.text ident
  | ⟨name, args⟩, h => by
    have hlist := writes_texts args fun a ha => h.arg ha
    obtain heq | ⟨rfl, hargs⟩ | ⟨hname, hne⟩ := h.cases
    · rw [heq, text_unit]
      exact .bracketed (.none blank_nil)
    · rw [text_tuple]
      exact hlist.1.tupled hargs hlist.2
    · cases args with
      | nil =>
        rw [text_name hne]
        exact .name hname
      | cons a as =>
        rw [text_applied hne]
        simpa [bracketed, ofString] using WritesIdent.applied hname blank_nil hlist.1

/-- Commas and spaces stand between the items of a list. -/
theorem writes_texts : ∀ idents : List TypeIdent, (∀ a ∈ idents, a.WellNamed) →
    WritesItems (separated ", " (texts idents)) idents ∧ ∀ a ∈ idents, WritesIdent a.text a
  | [], _ => ⟨.none blank_nil, nofun⟩
  | [a], h => by
    have ha := writes_text a (h a List.mem_cons_self)
    have hlist : WritesItems (separated ", " [a.text]) [a] := by
      rw [separated, List.intercalate_singleton]
      exact .last ha.item
    exact ⟨hlist, List.forall_mem_singleton.mpr ha⟩
  | a :: b :: rest, h => by
    obtain ⟨ha, hothers⟩ := List.forall_mem_cons.mp h
    have hitem := writes_text a ha
    obtain ⟨hlist, hitems⟩ := writes_texts (b :: rest) hothers
    have hspace : Blank " " := by decide
    refine ⟨?_, List.forall_mem_cons.mpr ⟨hitem, hitems⟩⟩
    have := WritesItems.more hitem.item (hlist.pad hspace)
    simpa [separated, texts, List.intercalate_cons_cons, ofString] using this

end

/-! ## Brackets -/

mutual

/-- How many brackets are open at a time in what an ident is written as. -/
def brackets : TypeIdent → Nat
  | ⟨name, args⟩ =>
    if args.isEmpty then if name = unitName then 1 else 0 else bracketsAll args + 1

/-- The most brackets that are open at a time in one of several idents. -/
def bracketsAll : List TypeIdent → Nat
  | [] => 0
  | a :: as => Nat.max (brackets a) (bracketsAll as)

end

theorem brackets_unit : brackets ⟨unitName, []⟩ = 1 := by decide

theorem brackets_name (h : name ≠ unitName) : brackets ⟨name, []⟩ = 0 := by
  rw [brackets, if_neg h]
  rfl

theorem brackets_cons (name : Text) (a : TypeIdent) (as : List TypeIdent) :
    brackets ⟨name, a :: as⟩ = bracketsAll (a :: as) + 1 := by
  rw [brackets]
  rfl

theorem brackets_le_succ : brackets ⟨name, idents⟩ ≤ bracketsAll idents + 1 := by
  rw [brackets]
  split
  · split <;> omega
  · exact Nat.le_refl _

theorem bracketsAll_cons_le {a : TypeIdent} {as : List TypeIdent} :
    bracketsAll (a :: as) ≤ room ↔ a.brackets ≤ room ∧ bracketsAll as ≤ room := by
  rw [bracketsAll]
  exact Nat.max_le

mutual

/-- However an ident is written, so many brackets are open in it. -/
theorem WritesItem.brackets_le {s : Text} {ident : TypeIdent} {room : Nat} :
    WritesItem s ident → OpensAtMost room s → ident.brackets ≤ room
  | .mk hbefore h hafter, hroom => by
    rw [opensAtMost_append (hbefore.plain.balanced.append h.balanced),
      opensAtMost_append hbefore.plain.balanced] at hroom
    exact h.brackets_le hroom.1.2

theorem WritesIdent.brackets_le {s : Text} {ident : TypeIdent} {room : Nat} :
    WritesIdent s ident → OpensAtMost room s → ident.brackets ≤ room
  | .name hname, _ => by
    rw [brackets_name hname.ne_unitName]
    exact Nat.zero_le _
  | .applied hname hblanks h, hroom => by
    have hplain := hname.plain.append hblanks.plain
    rw [List.append_assoc, opensAtMost_append hplain.balanced] at hroom
    obtain ⟨less, rfl, hless⟩ := (opensAtMost_bracketed (by decide) (by decide)).mp hroom.2
    exact Nat.le_trans brackets_le_succ (Nat.succ_le_succ (h.bracketsAll_le hless))
  | .bracketed h, hroom => by
    obtain ⟨less, rfl, hless⟩ := (opensAtMost_bracketed (by decide) (by decide)).mp hroom
    have hall := h.bracketsAll_le hless
    rw [ofItems]
    split
    · exact Nat.le_trans brackets_le_succ (Nat.succ_le_succ (Nat.zero_le less))
    · exact Nat.le_trans brackets_le_succ (Nat.succ_le_succ hall)

theorem WritesItems.bracketsAll_le {s : Text} {items : List TypeIdent} {room : Nat} :
    WritesItems s items → OpensAtMost room s → bracketsAll items ≤ room
  | .none _, _ => Nat.zero_le _
  | .last h, hroom => bracketsAll_cons_le.mpr ⟨h.brackets_le hroom, Nat.zero_le _⟩
  | .more h hrest, hroom => by
    rw [opensAtMost_append h.balanced, ← List.singleton_append,
      opensAtMost_append plain_comma.balanced] at hroom
    exact bracketsAll_cons_le.mpr ⟨h.brackets_le hroom.1, hrest.bracketsAll_le hroom.2.2⟩

end

/-- What stands between the brackets of a tuple is the list of its items, and perhaps a comma. -/
theorem tupled_eq (texts : List Text) : ∃ behind, Plain behind ∧
    Text.tupled texts = .char '(' :: (separated ", " texts ++ behind) ++ [.char ')'] := by
  match texts with
  | [] => exact ⟨[], nofun, rfl⟩
  | [t] => exact ⟨[.char ','], plain_comma, by simp [Text.tupled, separated, ofString]⟩
  | t :: u :: rest => exact ⟨[], nofun, by simp [Text.tupled, bracketed, ofString]⟩

/-- A list in brackets takes room for one bracket more. -/
theorem OpensAtMost.bracketed {list behind : Text} {o c : Code} (h : OpensAtMost room list)
    (hlist : Balanced list) (hbehind : Plain behind) (ho : isOpening o = true)
    (hc : isClosing c = true) : OpensAtMost (room + 1) (o :: (list ++ behind) ++ [c]) :=
  (opensAtMost_bracketed ho hc).mpr
    ⟨room, rfl, (opensAtMost_append hlist).mpr ⟨h, hbehind.opensAtMost⟩⟩

mutual

/-- In the written form no more brackets are open than must be. -/
theorem opensAtMost_text : ∀ (room : Nat) (ident : TypeIdent), ident.WellNamed →
    ident.brackets ≤ room → OpensAtMost room ident.text
  | room, ⟨name, []⟩, h, hroom => by
    obtain heq | ⟨-, hne⟩ | ⟨hname, hne⟩ := h.cases
    · -- The unit is applied to nothing, but its own name has brackets.
      cases heq
      rw [brackets_unit] at hroom
      obtain ⟨room, rfl⟩ : ∃ less, room = less + 1 := ⟨room - 1, by omega⟩
      have hnone : Plain [] := nofun
      rw [text_unit]
      exact hnone.opensAtMost.bracketed (o := .char '(') (c := .char ')') hnone.balanced hnone
        (by decide) (by decide)
    · exact absurd rfl hne
    · rw [text_name hne]
      exact hname.plain.opensAtMost
  | room, ⟨name, a :: as⟩, h, hroom => by
    rw [brackets_cons] at hroom
    obtain ⟨room, rfl⟩ : ∃ less, room = less + 1 := ⟨room - 1, by omega⟩
    have hargs : ∀ b ∈ a :: as, b.WellNamed := fun b hb => h.arg hb
    have hlist := opensAtMost_texts room (a :: as) hargs (Nat.le_of_succ_le_succ hroom)
    have hbalanced := (writes_texts (a :: as) hargs).1.balanced
    obtain heq | ⟨rfl, -⟩ | ⟨hname, hne⟩ := h.cases
    · cases heq
    · rw [text_tuple]
      obtain ⟨behind, hbehind, htext⟩ := tupled_eq (texts (a :: as))
      rw [htext]
      exact hlist.bracketed hbalanced hbehind (by decide) (by decide)
    · rw [text_applied hne]
      refine (opensAtMost_append hname.plain.balanced).mpr ⟨hname.plain.opensAtMost, ?_⟩
      have := hlist.bracketed (o := .char '<') (c := .char '>') hbalanced (show Plain [] from nofun)
        (by decide) (by decide)
      simpa [Text.bracketed, ofString] using this

theorem opensAtMost_texts : ∀ (room : Nat) (idents : List TypeIdent),
    (∀ a ∈ idents, a.WellNamed) → bracketsAll idents ≤ room →
      OpensAtMost room (separated ", " (texts idents))
  | _, [], _, _ => Plain.opensAtMost nofun
  | room, [a], h, hroom => by
    have ha := opensAtMost_text room a (h a List.mem_cons_self) (bracketsAll_cons_le.mp hroom).1
    rw [texts, texts, separated, List.intercalate_singleton]
    exact ha
  | room, a :: b :: rest, h, hroom => by
    obtain ⟨ha, hothers⟩ := List.forall_mem_cons.mp h
    obtain ⟨hfirst, hrest⟩ := bracketsAll_cons_le.mp hroom
    have hitem := opensAtMost_text room a ha hfirst
    have hlist := opensAtMost_texts room (b :: rest) hothers hrest
    have hcomma : Plain ", " := by simp [Plain, ofString, isOpening, isClosing]
    have hbalanced := (writes_text a ha).balanced
    rw [texts, texts, separated, List.intercalate_cons_cons,
      opensAtMost_append (hbalanced.append hcomma.balanced), opensAtMost_append hbalanced]
    exact ⟨⟨hitem, hcomma.opensAtMost⟩, hlist⟩

end

theorem opensAtMost_text_iff (h : ident.WellNamed) :
    OpensAtMost room ident.text ↔ ident.brackets ≤ room :=
  ⟨(writes_text ident h).brackets_le, opensAtMost_text room ident h⟩

/-! ## Room to write -/

theorem textRoom_name (name : Text) : textRoom ⟨name, []⟩ = 0 := rfl

theorem textRoom_applied (name : Text) (a : TypeIdent) (as : List TypeIdent) :
    textRoom ⟨name, a :: as⟩ = if name = tupleName ∧ (a :: as).length = 1
      then 3 + textRoomAll (a :: as) else 4 + textRoomAll (a :: as) := rfl

theorem textRoomAll_cons (a : TypeIdent) (as : List TypeIdent) :
    textRoomAll (a :: as) = Nat.max (textRoom a) (textRoomAll as) := rfl

mutual

/-- Three or four calls are made for each bracket that is open, but for those of the unit. -/
theorem textRoom_bounds : ∀ ident : TypeIdent,
    3 * ident.brackets ≤ ident.textRoom + 3 ∧ ident.textRoom ≤ 4 * ident.brackets
  | ⟨name, []⟩ => by
    rw [brackets, textRoom_name]
    by_cases h : name = unitName <;> simp [h]
  | ⟨name, a :: as⟩ => by
    have hargs := textRoomAll_bounds (a :: as)
    have hroom : textRoom ⟨name, a :: as⟩ = 3 + textRoomAll (a :: as)
        ∨ textRoom ⟨name, a :: as⟩ = 4 + textRoomAll (a :: as) := by
      rw [textRoom_applied]
      split
      · exact .inl rfl
      · exact .inr rfl
    rw [brackets_cons]
    omega

theorem textRoomAll_bounds : ∀ idents : List TypeIdent,
    3 * bracketsAll idents ≤ textRoomAll idents + 3 ∧ textRoomAll idents ≤ 4 * bracketsAll idents
  | [] => ⟨Nat.zero_le _, Nat.le_refl _⟩
  | a :: as => by
    have ha := textRoom_bounds a
    have has := textRoomAll_bounds as
    rw [bracketsAll, textRoomAll_cons]
    grind

end

theorem text?_eq_some_iff : ident.text? = some s ↔ ident.textRoom ≤ callRoom ∧ ident.text = s := by
  rw [text?]
  split <;> rename_i h <;> simp [h]

/-- What there is room to write, there is room to read. -/
theorem brackets_le_openLimit (h : ident.textRoom ≤ callRoom) : ident.brackets ≤ openLimit := by
  have := (textRoom_bounds ident).1
  simp only [openLimit, callRoom] at h ⊢
  omega

/-! ## There and back -/

/-- The written form is read, whatever room there is, or there is too little. -/
theorem parseWithin_text (h : ident.WellNamed) (room : Nat) :
    parseWithin room ident.text
      = if ident.brackets ≤ room then .ok ident else .error .tooDeep := by
  have hwrites := (writes_text ident h).item
  split
  · exact parseWithin_eq_ok_iff.mpr ⟨hwrites, (opensAtMost_text_iff h).mpr ‹_›⟩
  · rename_i hroom
    refine (hwrites.parseWithin_cases room).resolve_left fun hok => hroom ?_
    exact (opensAtMost_text_iff h).mp (parseWithin_eq_ok_iff.mp hok).2

/-- **Reading undoes writing.** What a well-named ident is written as is read as that ident, and
there is a text whenever it takes no more than four calls for each bracket that is open. -/
theorem parse_text (h : ident.WellNamed) :
    (∀ t, ident.text? = some t → parse t = .ok ident)
      ∧ (4 * ident.brackets ≤ callRoom → ident.text? = some ident.text)
      ∧ (parse ident.text = if ident.brackets ≤ openLimit then .ok ident else .error .tooDeep)
      ∧ (∀ t, parse t = .ok ident → parse ident.text = .ok ident)
      ∧ ∀ other : TypeIdent, other.WellNamed → other.text = ident.text → other = ident := by
  have hread : parse ident.text
      = if ident.brackets ≤ openLimit then .ok ident else .error .tooDeep :=
    parseWithin_text h openLimit
  refine ⟨fun t ht => ?_, fun hroom => ?_, hread, fun t ht => ?_, fun other hother heq => ?_⟩
  · obtain ⟨hroom, rfl⟩ := text?_eq_some_iff.mp ht
    rw [hread, if_pos (brackets_le_openLimit hroom)]
  · exact text?_eq_some_iff.mpr ⟨Nat.le_trans (textRoom_bounds ident).2 hroom, rfl⟩
  · -- However the ident was written, at least as many brackets were open.
    obtain ⟨hwrites, hroom⟩ := parseWithin_eq_ok_iff.mp ht
    rw [hread, if_pos (hwrites.brackets_le hroom)]
  · have hwrites := (writes_text other hother).item
    rw [heq] at hwrites
    exact hwrites.unique (writes_text ident h).item

/-- The unit, a path, and a tuple of one item within others. -/
theorem parse_text_tuple :
    let ident : TypeIdent :=
      ⟨"BTreeMap", [⟨tupleName, [⟨"std::u8", []⟩]⟩, ⟨tupleName, [⟨unitName, []⟩, ⟨"T", []⟩]⟩]⟩
    ident.WellNamed ∧ ident.text? = some "BTreeMap<(std::u8,), ((), T)>" ∧
      parse "BTreeMap<(std::u8,), ((), T)>" = .ok ident := by
  intro ident
  have hname : ident.WellNamed := by decide +kernel
  have htext : ident.text? = some "BTreeMap<(std::u8,), ((), T)>" := by decide +kernel
  exact ⟨hname, htext, (parse_text hname).1 _ htext⟩

/-- Lists of lists of numbers. -/
def nestedList : (depth : Nat) → TypeIdent
  | 0 => ⟨"u8", []⟩
  | depth + 1 => ⟨"Vec", [nestedList depth]⟩

theorem wellNamed_nestedList (depth : Nat) : (nestedList depth).WellNamed := by
  induction depth with
  | zero => decide
  | succ depth ih =>
    intro part hpart
    rw [nestedList, mem_parts] at hpart
    obtain rfl | ⟨a, ha, hpart⟩ := hpart
    · exact ⟨.inl (show IsTypeName "Vec" by decide),
        fun h => absurd h (show ("Vec" : Text) ≠ tupleName by decide)⟩
    · rw [List.mem_singleton.mp ha] at hpart
      exact ih part hpart

theorem rooms_nestedList (depth : Nat) :
    (nestedList depth).brackets = depth ∧ (nestedList depth).textRoom = 4 * depth := by
  induction depth with
  | zero => decide
  | succ depth ih =>
    have htuple : ("Vec" : Text) ≠ tupleName := by decide
    have hnone : textRoomAll [] = 0 := rfl
    simp [nestedList, brackets, bracketsAll, textRoom_applied, textRoomAll_cons, hnone, htuple, ih]
    omega

/-- An ident can be read and yet be nested too deep to be written again. -/
theorem nested_lists_exhaust_room :
    (nestedList 300).WellNamed ∧ parse (nestedList 300).text = .ok (nestedList 300) ∧
      (nestedList 300).text? = none := by
  have hname := wellNamed_nestedList 300
  obtain ⟨hbrackets, hroom⟩ := rooms_nestedList 300
  refine ⟨hname, ?_, ?_⟩
  · rw [parse, parseWithin_text hname, if_pos (by rw [hbrackets]; decide)]
  · rw [text?, if_neg (by rw [hroom]; decide)]

end TypeIdent

end WasmBridge
