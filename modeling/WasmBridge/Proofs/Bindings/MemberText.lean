import WasmBridge.Proofs.Bindings.Declarations
import WasmBridge.Proofs.Bindings.ReadBack

/-!
# Members in a file

The members of a declared type stand one below the other in a file, each with its documentation
above it and all of them moved to the right. Here it is said where they stand, between the line
that opens the declaration and the one that closes it, and the key of each is read off its part of
the file.

Documentation is taken into the file as it is. In Rust it has to keep to its lines, or else what
goes on below is read as code. In TypeScript it has to leave the comment open that it stands in.
-/

namespace WasmBridge

open Outcome Text

/-- The text of a member in a file: its lines, moved to the right. -/
def memberText (lines : List Text) : Text := Lines.join (Lines.nested lines)

theorem linesOf_memberText {lines : List Text} (h : lines ≠ []) :
    linesOf (memberText lines) = (Lines.nested lines).flatMap linesOf :=
  linesOf_join (Lines.nested_ne_nil h)

/-- Members one below the other have the lines that all of them have, moved to the right. -/
theorem flatMap_memberText {α : Type} {lines : α → List Text} (hlines : ∀ a, lines a ≠ [])
    (members : List α) :
    (members.map fun a => memberText (lines a)).flatMap linesOf
      = (Lines.nested (members.flatMap lines)).flatMap linesOf := by
  induction members with
  | nil => rfl
  | cons first rest ih =>
    rw [List.map_cons, List.flatMap_cons, List.flatMap_cons, ih, linesOf_memberText (hlines first),
      Lines.nested_append, List.flatMap_append]

/-- Where lines stand, other lines stand that are the same in the file. -/
theorem StandIn.of_flatMap_eq {lines lines' : List Text} {file : Text} (h : StandIn lines file)
    (heq : lines'.flatMap linesOf = lines.flatMap linesOf) : StandIn lines' file := by
  rw [StandIn, heq]
  exact h

/-- Where the lines of members stand in a declaration, the members stand. -/
theorem standIn_members {α : Type} {lines : α → List Text} (hlines : ∀ a, lines a ≠ [])
    {members : List α} {above below : List Text} {file : Text}
    (h : StandIn (above ++ Lines.nested (members.flatMap lines) ++ below) file) :
    StandIn (above ++ (members.map fun a => memberText (lines a)) ++ below) file := by
  refine h.of_flatMap_eq ?_
  simp only [List.flatMap_append, flatMap_memberText hlines]

/-! ## Rust -/

namespace Rust

/-- The members of a type stand in a file, one below the other: they are all that its declaration
holds. -/
def Holds (type : TypeDef Text) (members : List Text) (file : Text) : Prop :=
  ∃ opening, openingOf type = .ok opening
    ∧ StandIn (opening ++ members ++ [("\x7d" : Text)]) file

/-- The fields of a variant stand in its part of a file, in the same way. -/
def HoldsFields (variant : Variant Text) (fields : List Text) (member : Text) : Prop :=
  let opening : Text := variantName variant.name ++ " \x7b"
  StandIn (("    " ++ opening) :: fields ++ [("    \x7d," : Text)]) member

/-- The key of a member is read off its part of a file. -/
structure ShowsKey (visibility : Text) (doc : List Text) (member key : Text) : Prop where
  /-- Documentation that keeps to its lines has no part in it. -/
  plain : (∀ line ∈ doc, .char '\n' ∉ line) → keyIn? visibility (linesOf member) = some key
  /-- What is read off the documentation comes first. -/
  said : keyIn? visibility (linesOf member) = (saidIn? visibility doc).or (some key)

section Members

variable {visibility key member plain : Text} {doc lines : List Text} {f : FieldDecl}
  {v : VariantDecl}

theorem showsKey_of_lines (hmember : linesOf member = (Lines.nested lines).flatMap linesOf)
    (h : keyIn? visibility (lines.flatMap linesOf) = (saidIn? visibility doc).or (some key)) :
    ShowsKey visibility doc member key := by
  rw [← keyIn?_nested, ← hmember] at h
  refine ⟨fun hdoc => ?_, h⟩
  rw [h, saidIn?_eq_none hdoc]
  rfl

theorem FieldDecl.lines_ne_nil (f : FieldDecl) (visibility : Text) : f.lines visibility ≠ [] :=
  List.append_ne_nil_of_right_ne_nil _ (List.cons_ne_nil _ _)

theorem VariantDecl.lines_ne_nil (v : VariantDecl) : v.lines ≠ [] := by
  refine List.append_ne_nil_of_right_ne_nil _ ?_
  cases v.payload with
  | unit | items types => exact List.cons_ne_nil _ _
  | fields fields => exact List.cons_ne_nil _ _

/-- **The key of a field of a struct is read off its part of the file.** -/
theorem showsKey_field (hvisibility : visibility = "" ∨ visibility = "pub ")
    (hname : Spells plain f.name) (hplain : Unmarked plain)
    (hkey : ∀ key ∈ f.rename, Unmarked key) :
    ShowsKey visibility f.doc (memberText (f.lines visibility)) (f.rename.getD plain) :=
  showsKey_of_lines (linesOf_memberText (f.lines_ne_nil visibility))
    (keyIn?_field hvisibility hname hplain hkey)

/-- Fields of a variant are moved to the right once more. -/
theorem showsKey_variantField (hname : Spells plain f.name) (hplain : Unmarked plain)
    (hkey : ∀ key ∈ f.rename, Unmarked key) :
    ShowsKey "" f.doc (memberText (Lines.nested (f.lines ""))) (f.rename.getD plain) := by
  refine showsKey_of_lines (linesOf_memberText (Lines.nested_ne_nil (f.lines_ne_nil ""))) ?_
  rw [keyIn?_nested]
  exact keyIn?_field (.inl rfl) hname hplain hkey

/-- **The key of a variant is read off its part of the file.** -/
theorem showsKey_variant (hname : Unmarked v.name) (hkey : ∀ key ∈ v.rename, Unmarked key) :
    ShowsKey "" v.doc (memberText v.lines) (v.rename.getD v.name) :=
  showsKey_of_lines (linesOf_memberText v.lines_ne_nil) (keyIn?_variant hname hkey)

end Members

section Declarations

variable {name : Text} {generics doc : List Text} {derives : Derives} {rust : List TypeDecl}

theorem holds_struct {decls : List FieldDecl} (fields : List (Field Text))
    (h : .struct name generics derives doc decls ∈ rust) :
    Holds (.struct name generics fields doc) (decls.map fun f => memberText (f.lines "pub "))
      (typesFile rust) := by
  refine ⟨_, bind_eq_ok.mpr ⟨generics, Label.texts_ok generics, rfl⟩, ?_⟩
  refine standIn_members (fun f => f.lines_ne_nil _) ((standIn_typesFile h).of_part ?_)
  rw [TypeDecl.lines, Lines.block_eq]
  exact (List.suffix_append _ _).isInfix

theorem holds_enum {decls : List VariantDecl} {variants : List (Variant Text)}
    {options : EnumOptions Text}
    (h : .enum name generics derives doc options.encoding decls ∈ rust) :
    Holds (.enum name generics variants options doc) (decls.map fun v => memberText v.lines)
      (typesFile rust) := by
  refine ⟨_, bind_eq_ok.mpr ⟨generics, Label.texts_ok generics, rfl⟩, ?_⟩
  refine standIn_members (fun v => v.lines_ne_nil) ((standIn_typesFile h).of_part ?_)
  rw [TypeDecl.lines, Lines.block_eq, encoding_display]
  refine ⟨Lines.rustDoc doc ++ [derives.line], [], ?_⟩
  simp only [List.append_assoc, List.append_nil]
  rfl

theorem holdsFields {variant : Variant Text} {decl : VariantDecl} {decls : List FieldDecl}
    (hname : decl.name = variantName variant.name) (hpayload : decl.payload = .fields decls) :
    HoldsFields variant (decls.map fun f => memberText (Lines.nested (f.lines "")))
      (memberText decl.lines) := by
  have hlines : ∀ f : FieldDecl, Lines.nested (f.lines "") ≠ [] :=
    fun f => Lines.nested_ne_nil (f.lines_ne_nil "")
  have hpart : Lines.nested (Lines.block decl.name (decls.flatMap (·.lines "")) ",")
      <:+: Lines.nested decl.lines := by
    rw [VariantDecl.lines, hpayload]
    exact Lines.infix_nested (List.suffix_append _ _).isInfix
  have hopening : decl.name ++ (" \x7b" : Text) ≠ [] :=
    List.append_ne_nil_of_right_ne_nil _ (by decide)
  have hblock : Lines.nested (Lines.block decl.name (decls.flatMap (·.lines "")) ",")
      = [("    " : Text) ++ (decl.name ++ " \x7b")]
        ++ Lines.nested (decls.flatMap fun f => Lines.nested (f.lines ""))
        ++ [("    \x7d," : Text)] := by
    rw [Lines.block_eq, Lines.nested_append, Lines.nested_append, Lines.nested_flatMap,
      Lines.nested_cons hopening]
    rfl
  rw [hblock] at hpart
  rw [HoldsFields, ← hname]
  exact standIn_members hlines (standIn_join hpart)

end Declarations

end Rust

/-! ## TypeScript -/

namespace TypeScript

/-! ### Comments -/

/-- A comment that this stands in ends there. -/
def EndsComment (line : Text) : Prop := "*/" <:+: line

instance (line : Text) : Decidable (EndsComment line) := inferInstanceAs (Decidable (_ <:+: _))

/-- What stands behind the end of a comment. -/
def behindComment? : (comment : Text) → Option Text
  | [] => none
  | c :: rest => (behind? "*/" (c :: rest)).or (behindComment? rest)

/-- Code behind the comment in front of it, if there is one. -/
def uncommented? (code : Text) : Option Text :=
  match behind? "/**" (unspaced code) with
  | some comment => (behindComment? comment).map unspaced
  | none => some (unspaced code)

variable {s t line : Text} {c : Code} {doc lines : List Text}

/-- No comment ends across anything but its own end. -/
theorem endsComment_or (hc : c ∉ ("*/" : Text)) (h : EndsComment (s ++ c :: t)) :
    EndsComment s ∨ EndsComment t := by
  obtain ⟨before, after, heq⟩ := h
  -- the end lies in front of `c` or behind it, for `c` is no part of it
  rcases List.append_eq_append_iff.mp heq with ⟨rest, rfl, -⟩ | ⟨rest, hends, hrest⟩
  · exact .inl (List.infix_append before _ rest)
  · cases rest with
    | nil =>
      rw [List.append_nil] at hends
      exact .inl (hends ▸ (List.suffix_append before _).isInfix)
    | cons d rest =>
      obtain ⟨rfl, rfl⟩ := List.cons.inj hrest
      rcases List.append_eq_append_iff.mp hends with ⟨start, rfl, hstart⟩ | ⟨between, -, hbetween⟩
      · exact absurd (hstart ▸ List.mem_append_right _ List.mem_cons_self) hc
      · cases between with
        | nil =>
          rw [List.nil_append] at hbetween
          exact absurd (hbetween ▸ List.mem_cons_self) hc
        | cons d between =>
          obtain ⟨rfl, rfl⟩ := List.cons.inj hbetween
          exact .inr (List.infix_append between _ after)

theorem behindComment?_append (hbody : ¬EndsComment s) (code : Text) :
    behindComment? (s ++ ("*/" ++ code)) = some code := by
  induction s with
  | nil => rfl
  | cons c s ih =>
    have hrest : ¬EndsComment s := fun h => hbody (List.infix_cons h)
    have hnone : behind? "*/" (c :: (s ++ ("*/" ++ code))) = none := by
      rw [behind?, if_neg]
      intro hends
      have hpair : [.char '*', .char '/'] <+: c :: (s ++ ("*/" ++ code)) :=
        List.isPrefixOf_iff_prefix.mp hends
      obtain ⟨rfl, hslash⟩ := List.cons_prefix_cons.mp hpair
      cases s with
      | nil =>
        -- behind the star stands another one, that of the end
        have hstar : [.char '/'] <+: .char '*' :: .char '/' :: code := hslash
        exact absurd (List.cons_prefix_cons.mp hstar).1 (by decide)
      | cons d s =>
        obtain ⟨rfl, -⟩ := List.cons_prefix_cons.mp hslash
        exact hbody (List.prefix_append ("*/" : Text) s).isInfix
    rw [List.cons_append, behindComment?, hnone, ih hrest]
    rfl

/-- Lines of a comment, one below the other, do not end it if none of them does. -/
theorem not_endsComment_following (hlines : ∀ line ∈ lines, ¬EndsComment line)
    (hs : ¬EndsComment s) : ¬EndsComment (s ++ following "\n" lines) := by
  induction lines generalizing s with
  | nil => rwa [following, List.map_nil, concat, List.flatten_nil, List.append_nil]
  | cons line lines ih =>
    obtain ⟨hline, hlines⟩ := List.forall_mem_cons.mp hlines
    intro h
    have hbreak : s ++ following "\n" (line :: lines)
        = s ++ .char '\n' :: (line ++ following "\n" lines) := by
      rw [following_cons, List.append_assoc]
      rfl
    rw [hbreak] at h
    exact (endsComment_or (by decide) h).elim hs (ih hlines hline)

/-- Neither the mark in front of documentation nor its place on the page ends a comment. -/
theorem not_endsComment_doc (hdoc : ∀ line ∈ doc, ¬EndsComment line) :
    ∀ line ∈ Lines.nested (doc.map fun line => trimEnd (" * " ++ line)), ¬EndsComment line := by
  intro printed hprinted h
  obtain ⟨marked, hmarked, rfl⟩ := List.mem_map.mp hprinted
  obtain ⟨line, hline, rfl⟩ := List.mem_map.mp hmarked
  have hmarked : EndsComment (trimEnd (" * " ++ line)) := by
    split at h
    · exact h
    · exact (endsComment_or (s := "   ") (by decide) h).resolve_left (by decide)
  have hmarked : EndsComment (" *" ++ .char ' ' :: line) :=
    hmarked.trans (trimEnd_prefix_self _).isInfix
  exact hdoc line hline ((endsComment_or (by decide) hmarked).resolve_left (by decide))

/-- The text of a member with documentation: a comment, which ends where it is meant to, and the
line of the member below. -/
theorem exists_comment (hne : doc ≠ []) (hdoc : ∀ line ∈ doc, ¬EndsComment line)
    (hline : line ≠ []) :
    ∃ comment, ¬EndsComment comment
      ∧ memberText (Lines.blockDoc "" doc ++ [line])
        = "    /**" ++ (comment ++ ("*/" ++ ("\n    " ++ line))) := by
  have hlines : Lines.nested (Lines.blockDoc "" doc ++ [line])
      = ("    /**" : Text) :: (Lines.nested (doc.map fun line => trimEnd (" * " ++ line))
        ++ [("     */" : Text), "    " ++ line]) := by
    rw [Lines.blockDoc, if_neg (by rwa [List.isEmpty_iff]), Lines.nested_append,
      Lines.nested_append, Lines.nested_cons hline, List.append_assoc]
    rfl
  refine ⟨following "\n" (Lines.nested (doc.map fun line => trimEnd (" * " ++ line))
    ++ [("     " : Text)]), not_endsComment_following (s := []) ?_ (by decide), ?_⟩
  · exact List.forall_mem_append.mpr
      ⟨not_endsComment_doc hdoc, List.forall_mem_singleton.mpr (by decide)⟩
  · rw [memberText, hlines, Lines.join, separated_cons, following_append, following_append,
      List.append_assoc]
    congr 2
    rw [following_cons, following_cons, List.append_assoc, List.append_assoc,
      show following "\n" [] = [] from rfl, List.append_nil]
    rfl

theorem uncommented?_eq (hcode : unspaced (c :: t) = c :: t) (hc : c ≠ .char '/') :
    uncommented? ("    " ++ c :: t) = some (c :: t) := by
  rw [uncommented?, unspaced_append (by decide), hcode, behind?, if_neg]
  intro hslash
  have hslash : [.char '/', .char '*', .char '*'] <+: c :: t :=
    List.isPrefixOf_iff_prefix.mp hslash
  exact hc (List.cons_prefix_cons.mp hslash).1.symm

/-- **Documentation that leaves its comment open is passed over,** and then comes the line of the
member. -/
theorem uncommented?_memberText (hdoc : ∀ line ∈ doc, ¬EndsComment line)
    (hcode : unspaced (c :: t) = c :: t) (hc : c ≠ .char '/') :
    uncommented? (memberText (Lines.blockDoc "" doc ++ [c :: t])) = some (c :: t) := by
  by_cases hne : doc = []
  · have hline : Lines.nested [c :: t] = [("    " : Text) ++ c :: t] :=
      Lines.nested_cons (List.cons_ne_nil _ _) []
    have htext : memberText (Lines.blockDoc "" doc ++ [c :: t]) = "    " ++ c :: t := by
      rw [hne, memberText, Lines.blockDoc, List.isEmpty_nil, if_pos rfl, List.nil_append, hline,
        Lines.join, separated, List.intercalate_singleton]
    rw [htext]
    exact uncommented?_eq hcode hc
  · obtain ⟨comment, hcomment, htext⟩ := exists_comment hne hdoc (List.cons_ne_nil c t)
    have hopening : unspaced ("/**" ++ (comment ++ ("*/" ++ ("\n    " ++ c :: t))))
        = "/**" ++ (comment ++ ("*/" ++ ("\n    " ++ c :: t))) := unspaced_cons (by decide) _
    rw [htext, show ("    /**" : Text) = "    " ++ "/**" from rfl, List.append_assoc, uncommented?,
      unspaced_append (by decide), hopening, behind?_append]
    dsimp only
    rw [behindComment?_append hcomment, Option.map_some, unspaced_append (by decide), hcode]

/-! ### Where members stand -/

/-- The members of a type stand in a file, one below the other: they are all that its declaration
holds. -/
def Holds (type : TypeDef Text) (members : List Text) (file : Text) : Prop :=
  match type with
  | .struct name generics _ _ =>
    StandIn ([("export type " : Text) ++ applied name generics ++ " = \x7b"] ++ members
      ++ [("\x7d;" : Text)]) file
  | .enum name generics _ _ _ =>
    StandIn ([("export type " : Text) ++ applied name generics ++ " ="] ++ members) file
  | _ => False

/-- Properties stand in a row in an object type, either all there are or behind the tag. -/
def HoldsRow (properties : List Text) (member : Text) : Prop :=
  ∃ before after, ∃ opening ∈ ofStrings ["\x7b ", "; "],
    member = before ++ (opening ++ (separated "; " properties ++ (" \x7d" ++ after)))

/-- The part of a file that a member of a union is, of which the last ends the declaration. -/
def unionTexts : List Member → List Text
  | [] => []
  | [m] => [memberText (Lines.blockDoc "" m.doc ++ [("| " : Text) ++ m.text ++ ";"])]
  | m :: rest =>
    memberText (Lines.blockDoc "" m.doc ++ [("| " : Text) ++ m.text]) :: unionTexts rest

/-- The part of a file that one member of a union is, whatever closes its line. -/
def Member.unionText (m : Member) (closing : Text) : Text :=
  memberText (Lines.blockDoc "" m.doc ++ [("| " : Text) ++ (m.text ++ closing)])

section Declarations

variable {name : Text} {generics : List Text} {ts : List TypeDecl} {members : List Member}

theorem holds_struct {properties : List Property} (fields : List (Field Text))
    (h : .struct name generics doc properties ∈ ts) :
    Holds (.struct name generics fields doc) (properties.map fun p => memberText p.lines)
      (typesFile ts) := by
  have hlines : ∀ p : Property, p.lines ≠ [] :=
    fun p => List.append_ne_nil_of_right_ne_nil _ (List.cons_ne_nil _ _)
  refine standIn_members hlines ((standIn_typesFile h).of_part ?_)
  rw [TypeDecl.lines, Lines.block_eq]
  refine ⟨Lines.blockDoc "" doc, [], ?_⟩
  simp only [List.append_assoc, List.append_nil]
  rfl

theorem flatMap_unionTexts (hne : members ≠ []) :
    (unionTexts members).flatMap linesOf
      = (Lines.nested (memberLines members)).flatMap linesOf := by
  have hlines : ∀ (m : Member) (line : Text), Lines.blockDoc "" m.doc ++ [line] ≠ [] :=
    fun m line => List.append_ne_nil_of_right_ne_nil _ (List.cons_ne_nil _ _)
  induction members with
  | nil => exact absurd rfl hne
  | cons m rest ih =>
    cases rest with
    | nil =>
      rw [unionTexts, memberLines, List.flatMap_singleton]
      exact linesOf_memberText (hlines m _)
    | cons next rest =>
      rw [unionTexts, memberLines, List.flatMap_cons, ih (List.cons_ne_nil _ _),
        linesOf_memberText (hlines m _), Lines.nested_append _ (memberLines _),
        List.flatMap_append]
      · exact nofun
      · exact nofun

theorem holds_enum {variants : List (Variant Text)} (options : EnumOptions Text)
    (h : .enum name generics doc members ∈ ts) :
    Holds (.enum name generics variants options doc) (unionTexts members) (typesFile ts) := by
  have hpart : [("export type " : Text) ++ applied name generics ++ " ="]
      ++ Lines.nested (memberLines members)
        <:+: (TypeDecl.enum name generics doc members).lines := by
    rw [TypeDecl.lines]
    refine ⟨Lines.blockDoc "" doc, [], ?_⟩
    simp only [List.append_assoc, List.append_nil]
  have hlines := (standIn_typesFile h).of_part hpart
  by_cases hne : members = []
  · -- of a union without members there is the opening
    subst hne
    exact hlines.of_part (List.prefix_append _ _).isInfix
  · refine hlines.of_flatMap_eq ?_
    rw [List.flatMap_append, List.flatMap_append, flatMap_unionTexts hne]

end Declarations

/-! ### Keys of members -/

/-- The key of a property, by its part of a file. -/
def propertyKey? (code : Text) : Option Text := (uncommented? code).map keyIn

/-- The key of a variant, by the part of a file that its member of the union is. -/
def unionKey? (encoding : Encoding Text) (code : Text) : Option Text := do
  let member ← behind? "| " (← uncommented? code)
  return variantKeyIn encoding member

/-- The key of a property is read off its part of a file, if the documentation leaves its comment
open. -/
def ShowsProperty (doc : List Text) (code key : Text) : Prop :=
  (∀ line ∈ doc, ¬EndsComment line) → propertyKey? code = some key

/-- The key of a variant is read off its part of a file, if the documentation leaves its comment
open. -/
def ShowsVariant (encoding : Encoding Text) (doc : List Text) (code key : Text) : Prop :=
  (∀ line ∈ doc, ¬EndsComment line) → unionKey? encoding code = some key

section Keys

variable {key : Text} {p : Property} {m : Member}

/-- **The key of a property is read off its part of the file.** -/
theorem propertyKey?_eq (hkey : Unmarked key) (hname : p.name = propertyName key)
    (hdoc : ∀ line ∈ p.doc, ¬EndsComment line) : propertyKey? (memberText p.lines) = some key := by
  obtain ⟨c, name, hcons, hspace, hslash⟩ := exists_propertyName_cons key
  have hbegins : ∃ rest, p.text ++ (";" : Text) = c :: rest := by
    rw [Property.text, hname, hcons]
    exact ⟨_, rfl⟩
  obtain ⟨rest, hline⟩ := hbegins
  rw [propertyKey?, Property.lines, hline,
    uncommented?_memberText hdoc (unspaced_cons hspace rest) hslash, ← hline, Option.map_some,
    keyIn_property hkey hname]

/-- **The key of a variant is read off its part of the file.** -/
theorem unionKey?_eq (hencoding : m.encoding ≠ .untagged) (hkey : Unmarked m.key)
    (hdoc : ∀ line ∈ m.doc, ¬EndsComment line) (closing : Text) :
    unionKey? m.encoding (m.unionText closing) = some m.key := by
  have hline : uncommented? (m.unionText closing) = some ("| " ++ (m.text ++ closing)) :=
    uncommented?_memberText hdoc (unspaced_cons (by decide) _) (by decide)
  rw [unionKey?, hline]
  simp only [Option.bind_eq_bind, Option.bind_some, behind?_append,
    variantKeyIn_member hencoding hkey]
  rfl

theorem forall₂_unionTexts (members : List Member) :
    List.Forall₂ (fun m text => ∃ closing, text = m.unionText closing) members
      (unionTexts members) := by
  induction members with
  | nil => exact .nil
  | cons m rest ih =>
    cases rest with
    | nil =>
      refine .cons ⟨";", ?_⟩ .nil
      rw [Member.unionText, List.append_assoc]
    | cons next rest =>
      refine .cons ⟨[], ?_⟩ ih
      rw [Member.unionText, List.append_nil]

end Keys

/-! ### Properties in a row -/

theorem exists_join_last (lines : List Text) (last : Text) :
    ∃ before, Lines.join (lines ++ [last]) = before ++ last := by
  cases lines with
  | nil =>
    refine ⟨[], ?_⟩
    rw [List.nil_append, Lines.join, separated, List.intercalate_singleton, List.nil_append]
  | cons first rest =>
    refine ⟨first ++ following "\n" rest ++ "\n", ?_⟩
    rw [Lines.join, List.cons_append, separated_cons, following_append, following_cons,
      show following "\n" [] = [] from rfl]
    simp only [List.append_assoc, List.append_nil]

theorem exists_memberText_last (lines : List Text) {last : Text} (hlast : last ≠ []) :
    ∃ before, memberText (lines ++ [last]) = before ++ last := by
  obtain ⟨before, hbefore⟩ := exists_join_last (Lines.nested lines) ("    " ++ last)
  refine ⟨before ++ "    ", ?_⟩
  rw [memberText, Lines.nested_append, Lines.nested_cons hlast, List.append_assoc]
  exact hbefore

/-- A member stands in its part of a file behind its documentation, its pieces in a row. -/
def Member.StandsIn (m : Member) (code : Text) : Prop :=
  ∃ above closing, code = above ++ ("| " ++ (concat (m.tokens.map (·.text)) ++ closing))

theorem standsIn_unionTexts (members : List Member) :
    List.Forall₂ Member.StandsIn members (unionTexts members) := by
  refine (forall₂_unionTexts members).imp fun m code hcode => ?_
  obtain ⟨closing, rfl⟩ := hcode
  have hlast : ("| " : Text) ++ (m.text ++ closing) ≠ [] := List.cons_ne_nil _ _
  obtain ⟨above, habove⟩ := exists_memberText_last (Lines.blockDoc "" m.doc) hlast
  exact ⟨above, closing, habove⟩

theorem HoldsRow.append {properties : List Text} {member : Text} (h : HoldsRow properties member)
    (before after : Text) : HoldsRow properties (before ++ (member ++ after)) := by
  obtain ⟨before', after', opening, hopening, rfl⟩ := h
  refine ⟨before ++ before', after' ++ after, opening, hopening, ?_⟩
  simp only [List.append_assoc]

/-- **The fields of a variant stand in its member of the union.** -/
theorem holdsRow_member {m : Member} {properties : List Property}
    (hpayload : m.payload = .object properties) :
    HoldsRow (properties.map (·.text)) m.text := by
  obtain ⟨doc, encoding, key, payload⟩ := m
  cases hpayload
  simp only [Member.text, Member.tokens, PayloadType.tokens, braces, tagTokens]
  cases encoding with
  | untagged =>
    refine ⟨[], [], "\x7b ", by decide, ?_⟩
    simp [Token.text, concat, propertiesText]
  | external =>
    refine ⟨"\x7b " ++ (key ++ ": "), " \x7d", "\x7b ", by decide, ?_⟩
    simp [Token.text, concat, propertiesText]
  | adjacent tag content =>
    refine ⟨"\x7b " ++ (tag ++ (": " ++ (("\"" ++ key ++ "\"") ++ ("; " ++ (content ++ ": "))))),
      " \x7d", "\x7b ", by decide, ?_⟩
    simp [Token.text, concat, propertiesText]
  | internal tag =>
    refine ⟨"\x7b " ++ (tag ++ (": " ++ ("\"" ++ key ++ "\""))), [], "; ", by decide, ?_⟩
    simp [Token.text, concat, propertiesText]

theorem holdsRow_unionText {m : Member} {properties : List Property}
    (hpayload : m.payload = .object properties) (closing : Text) :
    HoldsRow (properties.map (·.text)) (m.unionText closing) := by
  have hlast : ("| " : Text) ++ (m.text ++ closing) ≠ [] := List.cons_ne_nil _ _
  obtain ⟨before, hbefore⟩ := exists_memberText_last (Lines.blockDoc "" m.doc) hlast
  rw [Member.unionText, hbefore, ← List.append_assoc]
  exact (holdsRow_member hpayload).append _ _

end TypeScript

end WasmBridge
