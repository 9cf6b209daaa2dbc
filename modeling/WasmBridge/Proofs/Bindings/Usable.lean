import WasmBridge.Proofs.Bindings.Keys
import WasmBridge.Proofs.Text.Letters

/-!
# Identifiers that Rust takes

Fields and variants are named in the casing of their kind. A field whose name is a keyword then
becomes a raw identifier, or is refused if it cannot be one. Nobody does the same for variants, and
nobody looks at what a name begins with. Casing keeps neither what stood before the first word nor
the case of that word: a variant may come out as `Self`, which is reserved, and a name may come out
with a digit in front that had an underscore before. Nothing else can go wrong with a name that is
spelled in letters, digits and underscores.
-/

namespace WasmBridge

open Outcome Text

/-! ## What names come out with in front -/

/-- Letters, digits and underscores, and a letter among them. -/
structure Spelled (name : Text) : Prop where
  chars : ∀ c ∈ name, isLetter c = true ∨ isDigit c = true ∨ c = .char '_'
  letter : ∃ c ∈ name, isLetter c = true

/-- The first character of a name that belongs to a word is a digit. -/
def leadsWithDigit (name : Text) : Bool := (name.find? isWordChar).any isDigit

/-- A text begins with a letter or an underscore. -/
def Begins (t : Text) : Prop := ∃ c ∈ t.head?, isLetter c = true ∨ c = .char '_'

theorem isWordChar_of_isLetter {c : Code} (h : isLetter c = true) : isWordChar c = true := by
  unfold isLetter at h
  exact (Bool.and_eq_true_iff.mp h).1

section Words

variable {name : Text}

/-- The first word of a name begins with the first character that belongs to a word. -/
theorem exists_firstWord {c : Code} (hmem : c ∈ name) (hc : isWordChar c = true) :
    ∃ first word words, splitWords name = (first :: word) :: words
      ∧ name.find? isWordChar = some first := by
  have hconcat := concat_splitWords name
  have hne := splitWords_ne_nil hmem hc
  cases hwords : splitWords name with
  | nil => exact absurd hwords hne
  | cons word words =>
    have hword : word ∈ splitWords name := by
      rw [hwords]
      exact List.mem_cons_self
    obtain ⟨first, rest, rfl⟩ := List.exists_cons_of_ne_nil (of_mem_splitWords hword).2.1
    refine ⟨first, rest, words, rfl, ?_⟩
    rw [← List.head?_filter, ← hconcat, hwords]
    rfl

/-- What comes first in a name that is spelled is a letter, or the name leads with a digit. -/
theorem Spelled.first_cases (h : Spelled name) :
    ∃ first word words, splitWords name = (first :: word) :: words
      ∧ ((isLetter first = true ∧ leadsWithDigit name = false)
        ∨ (isDigit first = true ∧ leadsWithDigit name = true)) := by
  obtain ⟨c, hmem, hc⟩ := h.letter
  obtain ⟨first, word, words, hwords, hfind⟩ := exists_firstWord hmem (isWordChar_of_isLetter hc)
  refine ⟨first, word, words, hwords, ?_⟩
  have hleads : leadsWithDigit name = isDigit first := by
    rw [leadsWithDigit, hfind, Option.any_some]
  rw [hleads]
  rcases h.chars first (List.mem_of_find?_eq_some hfind) with hletter | hdigit | rfl
  · refine .inl ⟨hletter, Bool.eq_false_iff.mpr fun hdigit => ?_⟩
    rw [isLetter_of_isDigit hdigit] at hletter
    cases hletter
  · exact .inr ⟨hdigit, hdigit⟩
  · exact absurd (List.find?_some hfind) (by decide +kernel)

/-! ## What casings begin with -/

theorem head?_append_of_mem {s t : Text} {d : Code} (h : d ∈ s.head?) : d ∈ (s ++ t).head? := by
  rw [List.head?_append, Option.mem_def.mp h]
  rfl

variable {first : Code} {word : Text} {words : List Text}

theorem head?_toLower_letter (word : Text) (h : isLetter first = true) :
    ∃ d ∈ (toLower (first :: word)).head?, isLetter d = true := by
  rw [toLower, lowerAfter]
  split
  · exact ⟨.char 'σ', rfl, by decide +kernel⟩
  · obtain ⟨d, hd, hletter⟩ := isLetter_lowerCode h
    exact ⟨d, head?_append_of_mem hd, hletter⟩

theorem head?_toLower_digit (h : isDigit first = true) :
    first ∈ (toLower (first :: word)).head? := by
  have hsigma : first ≠ .char 'Σ' := by
    rintro rfl
    exact absurd h (by decide +kernel)
  rw [toLower, lowerAfter, if_neg hsigma]
  exact head?_append_of_mem (head?_lowerCode_digit h)

theorem mem_head?_snakeCase {d : Code} (hwords : splitWords name = (first :: word) :: words)
    (h : d ∈ (toLower (first :: word)).head?) : d ∈ (Casing.snakeCase.format name).head? := by
  rw [Casing.format, hwords]
  change d ∈ (separated "_" ((toLower (first :: word)) :: words.map toLower)).head?
  cases words with
  | nil => rwa [separated, List.map_nil, List.intercalate_singleton]
  | cons next rest =>
    rw [separated, List.map_cons, List.intercalate_cons_cons, List.append_assoc]
    exact head?_append_of_mem h

theorem mem_head?_pascalCase {d : Code} (hwords : splitWords name = (first :: word) :: words)
    (h : d ∈ (upperCode first).head?) : d ∈ (Casing.pascalCase.format name).head? := by
  rw [Casing.format, hwords]
  change d ∈ (concat ((upperCode first ++ lowerAfter [] word) :: words.map capitalize)).head?
  rw [concat, List.flatten_cons]
  exact head?_append_of_mem (head?_append_of_mem h)

/-- A text that leads with a digit begins with nothing else. -/
theorem not_begins_of_digit {t : Text} (h : first ∈ t.head?) (hdigit : isDigit first = true) :
    ¬Begins t := by
  rintro ⟨c, hc, hbegins⟩
  cases Option.mem_unique h hc
  rcases hbegins with hletter | rfl
  · rw [isLetter_of_isDigit hdigit] at hletter
    cases hletter
  · exact absurd hdigit (by decide +kernel)

theorem begins_snakeCase_iff (hname : Spelled name) :
    Begins (Casing.snakeCase.format name) ↔ leadsWithDigit name = false := by
  obtain ⟨first, word, words, hwords, ⟨hletter, hleads⟩ | ⟨hdigit, hleads⟩⟩ := hname.first_cases
  · obtain ⟨d, hd, hd'⟩ := head?_toLower_letter word hletter
    exact iff_of_true ⟨d, mem_head?_snakeCase hwords hd, .inl hd'⟩ hleads
  · have hhead := mem_head?_snakeCase hwords (head?_toLower_digit hdigit)
    exact iff_of_false (not_begins_of_digit hhead hdigit) (by rw [hleads]; decide)

theorem begins_pascalCase_iff (hname : Spelled name) :
    Begins (Casing.pascalCase.format name) ↔ leadsWithDigit name = false := by
  obtain ⟨first, word, words, hwords, ⟨hletter, hleads⟩ | ⟨hdigit, hleads⟩⟩ := hname.first_cases
  · obtain ⟨d, hd, hd'⟩ := isLetter_upperCode hletter
    exact iff_of_true ⟨d, mem_head?_pascalCase hwords hd, .inl hd'⟩ hleads
  · have hhead := mem_head?_pascalCase hwords (head?_upperCode_digit hdigit)
    exact iff_of_false (not_begins_of_digit hhead hdigit) (by rw [hleads]; decide)

/-- In pascal case nothing begins with a small letter of ASCII. -/
theorem not_isSmallAscii_pascalCase (hname : Spelled name) :
    ∃ d ∈ (Casing.pascalCase.format name).head?, ¬IsSmallAscii d := by
  obtain ⟨first, word, words, hwords, -⟩ := hname.first_cases
  obtain ⟨d, hd, hsmall⟩ := not_isSmallAscii_upperCode first
  exact ⟨d, mem_head?_pascalCase hwords hd, hsmall⟩

end Words

/-! ## Identifiers of members -/

namespace Rust

/-- Rust takes the text for the name of a member: it begins as names do, and is no keyword. -/
structure Usable (ident : Text) : Prop where
  begins : Begins ident
  path : ident ∉ pathKeywords
  keyword : ident ∉ keywords

section Members

variable {name ident : Text}

theorem usable_raw {word : Text} (h : word ∈ keywords) : Usable ("r#" ++ word) := by
  have hall : ∀ word ∈ keywords, ("r#" ++ word : Text) ∉ pathKeywords
      ∧ ("r#" ++ word : Text) ∉ keywords := by decide +kernel
  exact ⟨⟨.char 'r', rfl, .inl (by decide +kernel)⟩, (hall word h).1, (hall word h).2⟩

theorem leadsWithDigit_of_keyword (hname : Spelled name)
    (h : Casing.snakeCase.format name ∈ keywords) : leadsWithDigit name = false := by
  have hall : ∀ word ∈ keywords, word.head?.any isLetter = true := by decide +kernel
  obtain ⟨c, hc, hletter⟩ := (Option.any_eq_true _ _).mp (hall _ h)
  exact (begins_snakeCase_iff hname).mp ⟨c, hc, .inl hletter⟩

/-- **A field can be used unless its name leads with a digit.** -/
theorem usable_fieldName_iff (hname : Spelled name) (h : fieldName name = .ok ident) :
    Usable ident ↔ leadsWithDigit name = false := by
  unfold fieldName escapeText at h
  split at h
  · cases h
  rename_i hpath
  split at h
  · rename_i hkeyword
    cases h
    have hmem := List.contains_iff_mem.mp hkeyword
    exact iff_of_true (usable_raw hmem) (leadsWithDigit_of_keyword hname hmem)
  · rename_i hkeyword
    cases h
    rw [← begins_snakeCase_iff hname]
    exact ⟨Usable.begins, fun hbegins => ⟨hbegins,
      fun hmem => hpath (List.contains_iff_mem.mpr hmem),
      fun hmem => hkeyword (List.contains_iff_mem.mpr hmem)⟩⟩

/-- **A variant can be used unless its name leads with a digit or comes out as `Self`.** -/
theorem usable_variantName_iff (hname : Spelled name) :
    Usable (variantName name) ↔ leadsWithDigit name = false ∧ variantName name ≠ "Self" := by
  have hkeywords : ∀ word ∈ keywords ++ pathKeywords, word ≠ "Self" →
      ∀ c ∈ word.head?, IsSmallAscii c := by decide +kernel
  obtain ⟨d, hd, hsmall⟩ := not_isSmallAscii_pascalCase hname
  have hmem : variantName name ∈ keywords ++ pathKeywords → variantName name = "Self" :=
    fun hmem => by_contra fun hne => hsmall (hkeywords _ hmem hne d hd)
  rw [← begins_pascalCase_iff hname]
  constructor
  · intro h
    refine ⟨h.begins, fun hself => h.path ?_⟩
    rw [hself]
    decide
  · rintro ⟨hbegins, hself⟩
    exact ⟨hbegins, fun h => hself (hmem (List.mem_append_right _ h)),
      fun h => hself (hmem (List.mem_append_left _ h))⟩

end Members

/-! ## Declarations -/

/-- The names of the fields that a variant is declared with. -/
def VariantDecl.fieldNames (v : VariantDecl) : List Text :=
  match v.payload with
  | .fields fields => fields.map (·.name)
  | _ => []

/-- The names of the fields in a declaration. -/
def TypeDecl.fieldNames : TypeDecl → List Text
  | .struct _ _ _ _ fields => fields.map (·.name)
  | .enum _ _ _ _ _ variants => variants.flatMap (·.fieldNames)
  | _ => []

/-- The names of the variants in a declaration. -/
def TypeDecl.variantNames : TypeDecl → List Text
  | .enum _ _ _ _ _ variants => variants.map (·.name)
  | _ => []

/-- What a field is called, and when Rust takes that. -/
def NamesField (name ident : Text) : Prop :=
  fieldName name = .ok ident ∧ (Spelled name → (Usable ident ↔ leadsWithDigit name = false))

/-- What a variant is called, and when Rust takes that. -/
def NamesVariant (name ident : Text) : Prop :=
  ident = variantName name
    ∧ (Spelled name → (Usable ident ↔ leadsWithDigit name = false ∧ ident ≠ "Self"))

section Declarations

variable {types : TypeMap Text} {scope : List Text}

theorem namesField_of_mapM {fields : List (Field Text)} {decls : List FieldDecl}
    (h : fields.mapM (fieldDecl types scope) = .ok decls) :
    List.Forall₂ NamesField (fields.map (·.name)) (decls.map (·.name)) := by
  rw [List.forall₂_map_left_iff, List.forall₂_map_right_iff]
  refine (mapM_eq_ok_iff.mp h).imp fun f decl hdecl => ?_
  have hname := (fieldDecl_eq_ok hdecl).name
  exact ⟨hname, fun hspelled => usable_fieldName_iff hspelled hname⟩

theorem DeclaresVariant.namesField {options : EnumOptions Text} {variant : Variant Text}
    {decl : VariantDecl} (h : DeclaresVariant types scope options variant decl) :
    List.Forall₂ NamesField (variant.fields.map (·.name)) decl.fieldNames := by
  have hpayload := h.payload
  unfold Variant.fields VariantDecl.fieldNames
  generalize variant.payload = carried, decl.payload = declared at hpayload
  cases hpayload with
  | unit | items => exact .nil
  | fields hfields => exact namesField_of_mapM hfields

end Declarations

end Rust

/-- The names of the fields of a definition and of its variants. -/
def TypeDef.fieldNames : TypeDef Text → List Text
  | .struct _ _ fields _ => fields.map (·.name)
  | .enum _ _ variants _ _ => variants.flatMap fun v => v.fields.map (·.name)
  | _ => []

/-- The names of the variants of a definition. -/
def TypeDef.variantNames : TypeDef Text → List Text
  | .enum _ _ variants _ _ => variants.map (·.name)
  | _ => []

namespace Rust

/-- A declaration names the members of a definition one by one. -/
structure NamesMembers (type : TypeDef Text) (decl : TypeDecl) : Prop where
  fields : List.Forall₂ NamesField type.fieldNames decl.fieldNames
  variants : List.Forall₂ NamesVariant type.variantNames decl.variantNames

section Declarations

variable {target : Text} {types : TypeMap Text} {derives : Text → Derives} {type : TypeDef Text}
  {decl : TypeDecl} {decl? : Option TypeDecl}

theorem namesMembers_of_typeDecl (h : typeDecl? target types derives type = .ok (some decl)) :
    NamesMembers type decl := by
  cases type with
  | synonym name aliased =>
    obtain ⟨_, _, h⟩ := bind_eq_ok.mp h
    cases h
    exact ⟨.nil, .nil⟩
  | struct name generics fields doc =>
    obtain ⟨_, _, h⟩ := bind_eq_ok.mp h
    obtain ⟨decls, hdecls, h⟩ := bind_eq_ok.mp h
    cases h
    exact ⟨namesField_of_mapM hdecls, .nil⟩
  | enum name generics variants options doc =>
    obtain ⟨_, _, h⟩ := bind_eq_ok.mp h
    obtain ⟨decls, hdecls, h⟩ := bind_eq_ok.mp h
    cases h
    have hvariants := (mapM_eq_ok_iff.mp hdecls).imp fun _ _ hdecl => variantDecl_eq_ok hdecl
    refine ⟨List.rel_flatMap hvariants fun _ _ hvariant => hvariant.namesField, ?_⟩
    refine List.forall₂_map_left_iff.mpr (List.forall₂_map_right_iff.mpr ?_)
    refine hvariants.imp fun variant decl hvariant => ⟨hvariant.name, fun hspelled => ?_⟩
    rw [hvariant.name]
    exact usable_variantName_iff hspelled
  | _ => cases h

/-- Types that are no builtin ones need a declaration. -/
theorem exists_typeDecl (hmade : type.isMade = true)
    (h : typeDecl? target types derives type = .ok decl?) : ∃ decl, decl? = some decl := by
  cases type with
  | synonym name aliased =>
    obtain ⟨_, _, h⟩ := bind_eq_ok.mp h
    cases h
    exact ⟨_, rfl⟩
  | struct name generics fields doc | enum name generics variants options doc =>
    obtain ⟨_, _, h⟩ := bind_eq_ok.mp h
    obtain ⟨_, _, h⟩ := bind_eq_ok.mp h
    cases h
    exact ⟨_, rfl⟩
  | _ => cases hmade

end Declarations

/--
**The identifiers of members.** A Rust target that accepts an interface declares the fields and
variants of its types in a file, where each declaration stands line by line. Take a name that is
spelled in letters, digits and underscores with a letter among them.

* A field of this name begins with a letter or an underscore and is no keyword, unless the first
  letter or digit of its name is a digit.
* The same holds for a variant of this name, unless it comes out as `Self`.
-/
theorem member_names_usable_iff {s : BindingSource Text} {t : Target} {files : List (Text × Text)}
    (ht : t ≠ .typeScriptRuntime) (h : s.files t = .ok files) :
    ∃ declared rust, s.declared = .ok declared ∧ (("types.rs" : Text), typesFile rust) ∈ files
      ∧ (∀ decl ∈ rust, StandIn decl.lines (typesFile rust)
          ∧ ∃ type ∈ declared, NamesMembers type decl)
      ∧ ∀ type ∈ declared, type.isMade = true → ∃ decl ∈ rust, NamesMembers type decl := by
  obtain ⟨target, derives, rust, hnames, hrust, hfile⟩ := rust_of_files ht h
  obtain ⟨declared, hdeclared⟩ := declared_of_checkNames hnames
  refine ⟨declared, rust, hdeclared, hfile, fun decl hdecl => ?_, fun type htype hmade => ?_⟩
  · obtain ⟨type, htype, hmade⟩ := exists_of_mem_declarations hdeclared hrust hdecl
    exact ⟨standIn_typesFile hdecl, type, htype, namesMembers_of_typeDecl hmade⟩
  · obtain ⟨decl?, hdecl, hmem⟩ := declaration_mem hdeclared hrust htype
    obtain ⟨decl, rfl⟩ := exists_typeDecl hmade hdecl
    exact ⟨decl, hmem decl rfl, namesMembers_of_typeDecl hdecl⟩

namespace Unusable

/-- A selection with a variant that comes out as `Self`, and one with a field that comes out with a
digit in front. -/
def selection : TypeDef Text := .enum "Selection" [] [
  .mk "self" (.unit "()") [],
  .mk "Other" (.struct "Other" [] [{ name := "_2nd_choice", type := ⟨"u32", []⟩ }] []) []] {} []

def source : BindingSource Text := (⟨.empty, .empty, [selection], []⟩ : Interface Text).source {}

end Unusable

/-- The selection is accepted, though Rust takes neither the name of the variant nor that of the
field. -/
theorem member_names_usable_iff_selection :
    Spelled "self" ∧ Spelled "_2nd_choice"
      ∧ ∃ files rust, Unusable.source.files .rustPlugin = .ok files
        ∧ (("types.rs" : Text), typesFile rust) ∈ files
        ∧ ∃ decl ∈ rust, (∃ ident ∈ decl.variantNames, ident = "Self" ∧ ¬Usable ident)
          ∧ ∃ ident ∈ decl.fieldNames, ident = "2_nd_choice" ∧ ¬Usable ident := by
  have hself : Spelled "self" := ⟨by decide +kernel, .char 's', by decide +kernel⟩
  have hchoice : Spelled "_2nd_choice" := ⟨by decide +kernel, .char 'n', by decide +kernel⟩
  obtain ⟨files, hfiles⟩ := exists_of_isOk
    (show (Unusable.source.files .rustPlugin).isOk = true by decide +kernel)
  obtain ⟨declared, rust, hdeclared, hfile, -, hall⟩ :=
    member_names_usable_iff (by decide) hfiles
  have hselection : Unusable.selection ∈ declared :=
    mem_declared hdeclared
      (show Unusable.source.types.find? "Selection" = some Unusable.selection by rfl) rfl
  obtain ⟨decl, hdecl, hfields, hvariants⟩ := hall _ hselection rfl
  refine ⟨hself, hchoice, files, rust, hfiles, hfile, decl, hdecl, ?_, ?_⟩
  · generalize decl.variantNames = idents at hvariants
    cases hvariants with
    | cons hvariant _ =>
      have hname : variantName "self" = "Self" := by decide +kernel
      obtain ⟨rfl, husable⟩ := hvariant
      refine ⟨_, List.mem_cons_self, hname, fun h => ?_⟩
      exact ((husable hself).mp h).2 hname
  · generalize decl.fieldNames = idents at hfields
    cases hfields with
    | cons hfield _ =>
      obtain ⟨hident, husable⟩ := hfield
      have hname : fieldName "_2nd_choice" = .ok "2_nd_choice" := by decide +kernel
      have hleads : leadsWithDigit "_2nd_choice" = true := by decide +kernel
      cases hident.symm.trans hname
      refine ⟨_, List.mem_cons_self, rfl, fun h => ?_⟩
      rw [(husable hchoice).mp h] at hleads
      cases hleads

end Rust

end WasmBridge
