import WasmBridge.Proofs.Bindings.FileLines
import WasmBridge.Proofs.Text.Marks

/-!
# Keys in generated code

Whoever compiles a declaration knows nothing but lines of a file. Here is how the key of a member is
read off them: in Rust from an attribute that renames it or else from its identifier, in TypeScript
from the name of a property or from a literal. A key without marks is read off as it was printed.

Above the code of a member stands its documentation, and nobody looks at what is in there. In Rust
each line of it that is printed begins as a comment. If it holds a line end, what follows that end
is read as code, and it comes before the member.
-/

namespace WasmBridge

open Text

/-! ## Pieces of code -/

/-- ASCII white space. -/
def spaces : Text := " \t\n\x0b\x0c\r"

/-- Code without the space in front of it. -/
def unspaced (code : Text) : Text := code.dropWhile fun c => spaces.contains c

/-- The name that code begins with. -/
def firstName (code : Text) : Text := code.takeWhile fun c => !isMark c

/-- What stands in quotes where code begins. -/
def literal? : (code : Text) → Option Text
  | .char '"' :: rest => some (rest.takeWhile (· ≠ .char '"'))
  | _ => none

/-- What follows some opening code. -/
def behind? (opening code : Text) : Option Text :=
  if opening.isPrefixOf code then some (code.drop opening.length) else none

theorem behind?_append (opening code : Text) : behind? opening (opening ++ code) = some code := by
  rw [behind?, if_pos (List.isPrefixOf_iff_prefix.mpr (List.prefix_append _ _)), List.drop_left]

theorem unspaced_cons {c : Code} (hc : c ∉ spaces) (code : Text) :
    unspaced (c :: code) = c :: code := by
  refine List.dropWhile_cons_of_neg fun hspace => hc ?_
  exact List.contains_iff_mem.mp hspace

theorem unspaced_append {s : Text} (hs : ∀ c ∈ s, c ∈ spaces) (code : Text) :
    unspaced (s ++ code) = unspaced code :=
  List.dropWhile_append_of_pos fun c hc => List.contains_iff_mem.mpr (hs c hc)

theorem trimEnd_cons {c : Code} (hc : isBlank c = false) (s : Text) :
    trimEnd (c :: s) = c :: trimEnd s := by
  unfold trimEnd
  rw [List.reverse_cons, List.dropWhile_append]
  split
  · rename_i hblank
    rw [List.isEmpty_iff.mp hblank, List.dropWhile_cons_of_neg (by rw [hc]; decide)]
    rfl
  · rw [List.reverse_append]
    rfl

theorem trimEnd_prefix_self (s : Text) : trimEnd s <+: s := by
  have hsuffix : s.reverse.dropWhile isBlank <:+ s.reverse := List.dropWhile_suffix _
  rwa [← List.reverse_prefix, List.reverse_reverse] at hsuffix

/-- Items behind an opening, each with what sets it apart before it. -/
def following (separator : Text) (items : List Text) : Text :=
  concat (items.map fun item => separator ++ item)

theorem following_cons (separator item : Text) (items : List Text) :
    following separator (item :: items) = separator ++ item ++ following separator items := rfl

theorem separated_cons (separator item : Text) (items : List Text) :
    separated separator (item :: items) = item ++ following separator items := by
  induction items generalizing item with
  | nil =>
    rw [separated, List.intercalate_singleton, following, List.map_nil, concat, List.flatten_nil,
      List.append_nil]
  | cons next items ih =>
    rw [separated, List.intercalate_cons_cons, ← separated, ih, following_cons, List.append_assoc,
      List.append_assoc]

theorem following_append (separator : Text) (items items' : List Text) :
    following separator (items ++ items')
      = following separator items ++ following separator items' := by
  rw [following, List.map_append]
  exact List.flatten_append

theorem mem_separated {separator : Text} {items : List Text} {c : Code}
    (h : c ∈ separated separator items) : c ∈ separator ∨ ∃ item ∈ items, c ∈ item := by
  cases items with
  | nil => cases h
  | cons first rest =>
    rw [separated_cons, List.mem_append] at h
    rcases h with h | h
    · exact .inr ⟨first, List.mem_cons_self, h⟩
    · obtain ⟨_, hmem, h⟩ := List.mem_flatten.mp h
      obtain ⟨item, hitem, rfl⟩ := List.mem_map.mp hmem
      exact (List.mem_append.mp h).imp_right fun h => ⟨item, List.mem_cons_of_mem _ hitem, h⟩

/-- What ends a name in a declaration. -/
def terminators : Text := ":?,( "

/-- A name ends where this begins. -/
def EndsName (rest : Text) : Prop := ∀ c ∈ rest.head?, c ∈ terminators

section Reading

variable {name rest : Text}

theorem endsName_cons {c : Code} (hc : c ∈ terminators) : EndsName (c :: rest) := by
  intro d hd
  cases hd
  exact hc

/-- A name and what ends it begin with no mark but one that ends names. -/
theorem head?_of_name {c : Code} (hname : Unmarked name) (hrest : EndsName rest)
    (hc : (name ++ rest).head? = some c) : isMark c = false ∨ c ∈ terminators := by
  rw [List.head?_append] at hc
  rcases Option.or_eq_some_iff.mp hc with hc | ⟨-, hc⟩
  · exact .inl (hname c (List.mem_of_head? hc))
  · exact .inr (hrest c hc)

theorem firstName_append (hname : Unmarked name) (hrest : EndsName rest) :
    firstName (name ++ rest) = name := by
  have hmarks : ∀ c ∈ terminators, isMark c = true := by decide
  unfold firstName
  rw [List.takeWhile_append_of_pos fun c hc => by rw [hname c hc]; rfl]
  cases rest with
  | nil => rw [List.takeWhile_nil, List.append_nil]
  | cons c rest =>
    have hc := hmarks c (hrest c rfl)
    rw [List.takeWhile_cons_of_neg (by rw [hc]; decide), List.append_nil]

theorem literal?_quoted (hname : Unmarked name) :
    literal? (.char '"' :: name ++ .char '"' :: rest) = some name := by
  have hinside : ∀ c ∈ name, decide (c ≠ Code.char '"') = true := by
    intro c hc
    rw [decide_eq_true_eq]
    rintro rfl
    exact absurd (hname _ hc) (by decide)
  rw [List.cons_append, literal?, List.takeWhile_append_of_pos hinside,
    List.takeWhile_cons_of_neg (by decide), List.append_nil]

theorem literal?_name (hname : Unmarked name) (hrest : EndsName rest) :
    literal? (name ++ rest) = none := by
  have hquote : (name ++ rest).head? ≠ some (.char '"') :=
    fun h => absurd (head?_of_name hname hrest h) (by decide)
  unfold literal?
  split
  · rename_i heq
    rw [heq] at hquote
    exact absurd rfl hquote
  · rfl

end Reading

/-! ## Rust -/

namespace Rust

/-- What an attribute line says that a member is called. -/
def renameIn? : (line : Text) → Option Text
  | [] => none
  | c :: rest =>
    match behind? "rename = " (c :: rest) with
    | some value => literal? value
    | none => renameIn? rest

/-- The key of a field or a variant, by the lines of a file that are about it. Those that begin with
a slash are comments, those that begin with a number sign are attributes; the first of any other
kind declares the member. -/
def keyIn? (visibility : Text) : (lines : List Text) → Option Text
  | [] => none
  | line :: rest =>
    let code := unspaced line
    if code = [] ∨ code.head? = some (.char '/') then keyIn? visibility rest
    else if code.head? = some (.char '#') then (renameIn? code).or (keyIn? visibility rest)
    else some (firstName (plainName ((behind? visibility code).getD code)))

/-- A name is given by an attribute, and else by an identifier that may be raw. -/
example :
    keyIn? "" ["    /// A code.", "    #[serde(default, rename = \"httpStatus\")]",
        "    http_status: u16,"] = some "httpStatus"
      ∧ keyIn? "pub " ["    pub r#type: String,"] = some "type" := by decide

variable {name plain rest visibility line : Text} {lines above doc : List Text}

theorem keyIn?_append (above lines : List Text) :
    keyIn? visibility (above ++ lines)
      = (keyIn? visibility above).or (keyIn? visibility lines) := by
  induction above with
  | nil => rfl
  | cons line above ih =>
    rw [List.cons_append, keyIn?, keyIn?, ih]
    split
    · rfl
    split
    · exact (Option.or_assoc ..).symm
    · rfl

/-- To be moved to the right makes no difference. -/
theorem keyIn?_nested (lines : List Text) :
    keyIn? visibility ((Lines.nested lines).flatMap linesOf)
      = keyIn? visibility (lines.flatMap linesOf) := by
  induction lines with
  | nil => rfl
  | cons line lines ih =>
    have hnested : Lines.nested (line :: lines)
        = (if line.isEmpty then line else "    " ++ line) :: Lines.nested lines := rfl
    rw [hnested, List.flatMap_cons, List.flatMap_cons, keyIn?_append, keyIn?_append, ih]
    split
    · rfl
    · obtain ⟨first, rest, hline, hmoved⟩ := exists_linesOf_append (s := "    ") (by decide) line
      rw [hline, hmoved, keyIn?, keyIn?, unspaced_append (by decide)]

/-! ### Documentation -/

/-- The key that is read off the documentation of a member. -/
def saidIn? (visibility : Text) (doc : List Text) : Option Text :=
  keyIn? visibility ((Lines.rustDoc doc).flatMap linesOf)

theorem keyIn?_comment {comment : Text} (hends : .char '\n' ∉ comment) (lines : List Text) :
    keyIn? visibility (linesOf (trimEnd (.char '/' :: comment)) ++ lines)
      = keyIn? visibility lines := by
  have hline : .char '\n' ∉ (.char '/' :: trimEnd comment : Text) := by
    rw [List.mem_cons, not_or]
    exact ⟨by decide, fun hmem => hends ((trimEnd_prefix_self comment).subset hmem)⟩
  rw [trimEnd_cons (by decide), linesOf_of_not_mem hline, List.singleton_append, keyIn?,
    unspaced_cons (by decide)]
  exact if_pos (.inr rfl)

/-- Documentation that keeps to its lines says nothing of keys. -/
theorem saidIn?_eq_none (hdoc : ∀ line ∈ doc, .char '\n' ∉ line) :
    saidIn? visibility doc = none := by
  induction doc with
  | nil => rfl
  | cons text doc ih =>
    obtain ⟨htext, hdoc⟩ := List.forall_mem_cons.mp hdoc
    rw [saidIn?, Lines.rustDoc, Lines.marked, List.map_cons, List.flatMap_cons]
    refine Eq.trans ?_ (ih hdoc)
    split
    · exact keyIn?_comment (by decide) _
    · refine keyIn?_comment (fun hmem => ?_) _
      have hmem : .char '\n' ∈ "// " ++ text := hmem
      rcases List.mem_append.mp hmem with hmark | hmem
      · exact absurd hmark (by decide)
      · exact htext hmem

/-! ### Attributes -/

/-- An attribute with nothing but a name gives it. -/
theorem renameIn?_alone {key : Text} (hkey : Unmarked key) :
    renameIn? (serdeLine [renameItem key]) = some key := by
  simp only [serdeLine, renameItem, quoted, separated, List.intercalate_singleton,
    List.append_assoc]
  exact literal?_quoted hkey

/-- The attributes of a field give its name, whether it is optional or not. -/
theorem renameIn?_attributes {f : FieldDecl} (hkey : ∀ key ∈ f.rename, Unmarked key) :
    renameIn? (serdeLine f.attributes) = f.rename := by
  obtain ⟨doc, name, optional, rename, type⟩ := f
  cases rename with
  | none => cases optional <;> rfl
  | some key =>
    cases optional with
    | true =>
      simp only [serdeLine, FieldDecl.attributes, renameItem, quoted, separated, if_true,
        Option.map_some, Option.toList_some, List.cons_append, List.nil_append,
        List.intercalate_cons_cons, List.intercalate_singleton, List.append_assoc]
      exact literal?_quoted (hkey key rfl)
    | false => exact renameIn?_alone (hkey key rfl)

theorem not_mem_of_unmarked (h : Unmarked plain) : .char '\n' ∉ plain :=
  fun hmem => absurd (h _ hmem) (by decide)

/-- The items of an attribute stand on one line if none of them has a line end. -/
theorem linesOf_serdeLine {items : List Text} (hitems : ∀ item ∈ items, .char '\n' ∉ item) :
    linesOf (serdeLine items) = [serdeLine items] := by
  refine linesOf_of_not_mem fun hmem => ?_
  rcases List.mem_append.mp hmem with hmem | hclosing
  · rcases List.mem_append.mp hmem with hopening | hmem
    · exact absurd hopening (by decide)
    · rcases mem_separated hmem with hcomma | ⟨item, hitem, hmem⟩
      · exact absurd hcomma (by decide)
      · exact hitems item hitem hmem
  · exact absurd hclosing (by decide)

/-! ### Identifiers -/

/-- A name as an identifier, raw or not. -/
inductive Spells (plain : Text) : Text → Prop where
  | bare : Spells plain plain
  | raw : Spells plain ("r#" ++ plain)

theorem spells_of_escapeText {ident : Text} (h : escapeText name = .ok ident) :
    Spells name ident := by
  unfold escapeText at h
  split at h
  · cases h
  split at h
  · cases h
    exact .raw
  · cases h
    exact .bare

theorem plainName_of_unmarked (hplain : Unmarked plain) (hrest : EndsName rest) :
    plainName (plain ++ rest) = plain ++ rest := by
  have hbegins : ∀ c ∈ terminators, c ≠ .char 'r' ∧ c ≠ .char '#' := by decide
  unfold plainName
  split
  · rename_i tail heq
    -- the mark would be one of the name, or the end of it
    cases plain with
    | nil =>
      rw [List.nil_append] at heq
      rw [heq] at hrest
      exact absurd rfl (hbegins _ (hrest _ rfl)).1
    | cons c plain =>
      cases plain with
      | nil =>
        cases heq
        exact absurd rfl (hbegins _ (hrest _ rfl)).2
      | cons d plain =>
        cases heq
        exact absurd (hplain (.char '#') (by simp)) (by decide)
  · rfl

theorem Spells.plainName_append (h : Spells plain name) (hplain : Unmarked plain)
    (hrest : EndsName rest) : plainName (name ++ rest) = plain ++ rest := by
  cases h with
  | bare => exact plainName_of_unmarked hplain hrest
  | raw => rfl

theorem Spells.plainName_eq (h : Spells plain name) (hplain : Unmarked plain) :
    plainName name = plain := by
  have hname := h.plainName_append hplain (show EndsName [] from nofun)
  rwa [List.append_nil, List.append_nil] at hname

/-- A declaration is taken for no comment and no attribute. -/
theorem Spells.head?_ne (h : Spells plain name) (hplain : Unmarked plain)
    (hrest : EndsName rest) :
    (name ++ rest).head? ≠ some (.char '/') ∧ (name ++ rest).head? ≠ some (.char '#') := by
  cases h with
  | raw => exact ⟨nofun, nofun⟩
  | bare =>
    exact ⟨fun hc => absurd (head?_of_name hplain hrest hc) (by decide),
      fun hc => absurd (head?_of_name hplain hrest hc) (by decide)⟩

theorem Spells.not_mem (h : Spells plain name) (hplain : Unmarked plain) : .char '\n' ∉ name := by
  cases h with
  | bare => exact not_mem_of_unmarked hplain
  | raw =>
    intro hmem
    rcases List.mem_append.mp hmem with hmark | hmem
    · exact absurd hmark (by decide)
    · exact not_mem_of_unmarked hplain hmem

/-- No space stands before a name, and before what ends it only if that is a space itself. -/
theorem Spells.unspaced_eq (h : Spells plain name) (hplain : Unmarked plain) {c : Code}
    (hc : c ∈ terminators) (hspace : name = [] → c ≠ .char ' ') :
    unspaced (name ++ c :: rest) = name ++ c :: rest := by
  have hspaces : ∀ c ∈ spaces, isMark c = true ∧ (c ∈ terminators → c = .char ' ') := by decide
  cases h with
  | raw => exact unspaced_cons (by decide) _
  | bare =>
    cases name with
    | nil => exact unspaced_cons (fun hmem => hspace rfl ((hspaces c hmem).2 hc)) rest
    | cons d name =>
      refine unspaced_cons (fun hmem => ?_) _
      have hd := hplain d List.mem_cons_self
      rw [(hspaces d hmem).1] at hd
      cases hd

/-- What begins the declaration of a member is neither space nor the mark of a comment or of an
attribute. -/
theorem Spells.begins (hvisibility : visibility = "" ∨ visibility = "pub ")
    (h : Spells plain name) (hplain : Unmarked plain) {c : Code} (hc : c ∈ terminators)
    (hspace : name = [] → c ≠ .char ' ') (rest : Text) :
    unspaced (visibility ++ (name ++ c :: rest)) = visibility ++ (name ++ c :: rest)
      ∧ (visibility ++ (name ++ c :: rest)).head? ≠ some (.char '/')
      ∧ (visibility ++ (name ++ c :: rest)).head? ≠ some (.char '#') := by
  rcases hvisibility with rfl | rfl
  · exact ⟨h.unspaced_eq hplain hc hspace, h.head?_ne hplain (endsName_cons hc)⟩
  · have hhead : (("pub " : Text) ++ (name ++ c :: rest)).head? = some (.char 'p') := rfl
    rw [hhead]
    exact ⟨unspaced_cons (by decide) _, by decide, by decide⟩

/-- **The name of a member is read off the line that declares it,** whatever goes on behind. -/
theorem keyIn?_declaration (hvisibility : visibility = "" ∨ visibility = "pub ")
    (h : Spells plain name) (hplain : Unmarked plain) {c : Code} (hc : c ∈ terminators)
    (hspace : name = [] → c ≠ .char ' ') :
    keyIn? visibility (linesOf (visibility ++ (name ++ c :: rest))) = some plain := by
  -- what is read goes no further than to the end of the name, and there is no line end before it
  have hends : .char '\n' ∉ visibility ++ (name ++ [c]) := by
    have hmark : .char '\n' ≠ c := fun heq => absurd (heq ▸ hc) (by decide)
    rcases hvisibility with rfl | rfl <;> simpa [Text.ofString, hmark] using h.not_mem hplain
  obtain ⟨first, below, -, hlines⟩ := exists_linesOf_append hends rest
  have hline : ∀ code, visibility ++ (name ++ [c]) ++ code = visibility ++ (name ++ c :: code) :=
    fun code => by simp only [List.append_assoc, List.singleton_append]
  obtain ⟨hcode, hslash, hsharp⟩ := h.begins hvisibility hplain hc hspace first
  have hrest : EndsName (c :: first) := endsName_cons hc
  rw [hline, hline] at hlines
  rw [hlines, keyIn?, hcode, if_neg, if_neg hsharp, behind?_append, Option.getD_some,
    h.plainName_append hplain hrest, firstName_append hplain hrest]
  rintro (hnil | hhead)
  · simp at hnil
  · exact hslash hhead

/-! ### Members -/

/-- The lines of attributes say what the name is, or say nothing of it. -/
inductive Renames : (above : List Text) → (rename : Option Text) → Prop where
  | none : Renames [] none
  | line {items : List Text} {rename : Option Text} (h : renameIn? (serdeLine items) = rename)
      (hitems : ∀ item ∈ items, .char '\n' ∉ item) : Renames [serdeLine items] rename

theorem Renames.keyIn?_eq {rename : Option Text} (h : Renames above rename) :
    keyIn? visibility (above.flatMap linesOf) = rename := by
  cases h with
  | none => rfl
  | @line items _ h hitems =>
    have hcode : unspaced (serdeLine items) = serdeLine items := unspaced_cons (by decide) _
    rw [List.flatMap_singleton, linesOf_serdeLine hitems, keyIn?, hcode, if_neg, if_pos, h]
    · exact Option.or_none
    · rfl
    · exact fun hline => hline.elim nofun nofun

theorem not_mem_renameItem {key : Text} (hkey : Unmarked key) :
    .char '\n' ∉ renameItem key := by
  simpa [renameItem, quoted, Text.ofString] using not_mem_of_unmarked hkey

theorem FieldDecl.renames {f : FieldDecl} (hkey : ∀ key ∈ f.rename, Unmarked key) :
    Renames (if f.attributes.isEmpty then [] else [serdeLine f.attributes]) f.rename := by
  split
  · rename_i hempty
    have hnone : f.rename = .none := by
      rw [List.isEmpty_iff, FieldDecl.attributes] at hempty
      simpa using (List.append_eq_nil_iff.mp (List.append_eq_nil_iff.mp hempty).1).2
    rw [hnone]
    exact .none
  · refine .line (renameIn?_attributes hkey) fun item hitem => ?_
    obtain ⟨doc, name, optional, rename, type⟩ := f
    rw [FieldDecl.attributes, List.mem_append, List.mem_append] at hitem
    rcases hitem with (hitem | hitem) | hitem
    · split at hitem
      · rw [List.mem_singleton.mp hitem]
        decide
      · cases hitem
    · obtain ⟨key, hrename, rfl⟩ := List.mem_map.mp (Option.toList_map .. ▸ hitem)
      exact not_mem_renameItem (hkey key (Option.mem_toList.mp hrename))
    · split at hitem
      · rw [List.mem_singleton.mp hitem]
        decide
      · cases hitem

theorem VariantDecl.renames {v : VariantDecl} (hkey : ∀ key ∈ v.rename, Unmarked key) :
    Renames (v.rename.map fun key => serdeLine [renameItem key]).toList v.rename := by
  cases hrename : v.rename with
  | none => exact .none
  | some key =>
    have hkey := hkey key hrename
    exact .line (renameIn?_alone hkey) (List.forall_mem_singleton.mpr (not_mem_renameItem hkey))

/-- **The key of a field is read off its lines,** unless something is read off its documentation
before. -/
theorem keyIn?_field {f : FieldDecl} (hvisibility : visibility = "" ∨ visibility = "pub ")
    (hname : Spells plain f.name) (hplain : Unmarked plain)
    (hkey : ∀ key ∈ f.rename, Unmarked key) :
    keyIn? visibility ((f.lines visibility).flatMap linesOf)
      = (saidIn? visibility f.doc).or (some (f.rename.getD plain)) := by
  have hdeclared : keyIn? visibility (linesOf (visibility ++ f.name ++ ": " ++ f.type ++ ","))
      = some plain := by
    simp only [List.append_assoc]
    exact keyIn?_declaration hvisibility hname hplain (by decide) fun _ => by decide
  rw [FieldDecl.lines, List.flatMap_append, List.flatMap_append, keyIn?_append, keyIn?_append,
    ← saidIn?, (f.renames hkey).keyIn?_eq, List.flatMap_singleton, hdeclared, Option.or_assoc,
    Option.or_some]

/-- **The key of a variant is read off its lines,** unless something is read off its documentation
before. -/
theorem keyIn?_variant {v : VariantDecl} (hname : Unmarked v.name)
    (hkey : ∀ key ∈ v.rename, Unmarked key) :
    keyIn? "" (v.lines.flatMap linesOf)
      = (saidIn? "" v.doc).or (some (v.rename.getD v.name)) := by
  have hdeclared : ∀ c ∈ terminators, (v.name = [] → c ≠ .char ' ') → ∀ rest,
      keyIn? "" (linesOf (v.name ++ c :: rest)) = some v.name :=
    fun c hc hspace rest => keyIn?_declaration (.inl rfl) .bare hname hc hspace
  rw [VariantDecl.lines, List.flatMap_append, List.flatMap_append, keyIn?_append, keyIn?_append,
    ← saidIn?, (v.renames hkey).keyIn?_eq, Option.or_assoc, ← Option.or_some]
  congr 2
  cases v.payload with
  | unit =>
    rw [List.flatMap_singleton]
    exact hdeclared _ (by decide) (fun _ => by decide) _
  | items types =>
    simp only [List.flatMap_singleton, bracketed, List.append_assoc]
    exact hdeclared _ (by decide) (fun _ => by decide) _
  | fields fields =>
    simp only [Lines.block, Lines.group, List.append_assoc, List.cons_append, List.flatMap_cons,
      keyIn?_append]
    by_cases hempty : v.name = []
    · -- without a name the line begins with the brace, and no name is read there
      rw [hempty]
      rfl
    · have hline := hdeclared (.char ' ') (by decide) (fun h => absurd h hempty) "\x7b"
      exact congrArg (Option.or · _) hline

end Rust

/-! ## TypeScript -/

namespace TypeScript

variable {key rest : Text}

/-- The key that code for a property begins with, in quotes or not. -/
def keyIn (property : Text) : Text := (literal? property).getD (firstName property)

theorem keyIn_quoted (hkey : Unmarked key) :
    keyIn (.char '"' :: key ++ .char '"' :: rest) = key := by
  rw [keyIn, literal?_quoted hkey]
  rfl

theorem keyIn_name (hkey : Unmarked key) (hrest : EndsName rest) :
    keyIn (key ++ rest) = key := by
  rw [keyIn, literal?_name hkey hrest, firstName_append hkey hrest]
  rfl

/-- A property begins with its name, which is an identifier or stands in quotes. -/
theorem exists_propertyName_cons (key : Text) :
    ∃ c rest, propertyName key = c :: rest ∧ c ∉ spaces ∧ c ≠ .char '/' := by
  have hspaces : ∀ c ∈ spaces, isIdentifierStart c = false := by decide
  unfold propertyName
  split
  · rename_i hidentifier
    cases key with
    | nil => cases hidentifier
    | cons c rest =>
      have hstart : isIdentifierStart c = true := (Bool.and_eq_true_iff.mp hidentifier).1
      refine ⟨c, rest, rfl, fun hspace => ?_, ?_⟩
      · rw [hspaces c hspace] at hstart
        cases hstart
      · rintro rfl
        exact absurd hstart (by decide)
  · exact ⟨.char '"', _, rfl, by decide, by decide⟩

theorem keyIn_propertyName (hkey : Unmarked key) (hrest : EndsName rest) :
    keyIn (propertyName key ++ rest) = key := by
  unfold propertyName
  split
  · exact keyIn_name hkey hrest
  · simp only [List.append_assoc]
    exact keyIn_quoted hkey

/-- **The key of a property is read off its text.** -/
theorem keyIn_property {p : Property} (hkey : Unmarked key) (hname : p.name = propertyName key) :
    keyIn (p.text ++ rest) = key := by
  rw [Property.text, hname, List.append_assoc, List.append_assoc]
  refine keyIn_propertyName hkey ?_
  split
  · exact endsName_cons (by decide)
  · exact endsName_cons (by decide)

/-- What a member of a union has in front of the key of its variant, unless the key is all there
is. -/
def keyOpening : Encoding Text → Text
  | .external | .untagged => "\x7b "
  | .adjacent tag _ | .internal tag => "\x7b " ++ tag ++ ": "

/-- The key of the variant that a member of a union is about. -/
def variantKeyIn (encoding : Encoding Text) (member : Text) : Text :=
  keyIn ((behind? (keyOpening encoding) member).getD member)

theorem behind?_tag (tag code : Text) :
    behind? ("\x7b " ++ tag ++ ": ") ("\x7b " ++ (tag ++ (": " ++ code))) = some code := by
  rw [← List.append_assoc, ← List.append_assoc, behind?_append]

/-- **The key of a variant is read off the text of its member.** -/
theorem variantKeyIn_member {m : Member} (hencoding : m.encoding ≠ .untagged)
    (hkey : Unmarked m.key) : variantKeyIn m.encoding (m.text ++ rest) = m.key := by
  obtain ⟨doc, encoding, key, payload⟩ := m
  have hquoted : ∀ rest, keyIn (.char '"' :: key ++ .char '"' :: rest) = key :=
    fun rest => keyIn_quoted hkey
  have hnamed : ∀ rest, keyIn (key ++ (.char ':' :: rest)) = key :=
    fun rest => keyIn_name hkey (endsName_cons (by decide))
  cases encoding with
  | untagged => exact absurd rfl hencoding
  | external =>
    cases payload with
    | none =>
      simp only [Member.text, Member.tokens, concat, List.map_cons, List.map_nil, Token.text,
        List.flatten_cons, List.append_assoc]
      exact hquoted _
    | object | item =>
      simp only [Member.text, Member.tokens, braces, concat, List.map_append, List.map_cons,
        List.map_nil, Token.text, List.cons_append, List.nil_append, List.flatten_cons,
        List.append_assoc]
      rw [variantKeyIn, keyOpening, behind?_append]
      exact hnamed _
  | adjacent tag | internal tag =>
    cases payload with
    | none | object | item =>
      simp only [Member.text, Member.tokens, braces, tagTokens, concat, List.map_append,
        List.map_cons, List.map_nil, Token.text, List.cons_append, List.nil_append,
        List.flatten_cons, List.append_assoc]
      rw [variantKeyIn, keyOpening, behind?_tag]
      exact hquoted _

end TypeScript

end WasmBridge
