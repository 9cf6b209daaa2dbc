import WasmBridge.Proofs.Bindings.Distinct
import WasmBridge.Proofs.Bindings.MemberText
import WasmBridge.Proofs.Schema.Declared
import WasmBridge.Text.Hex

/-!
# Names and literals in TypeScript

The declaration of an enum names the wire keys of its variants, its tag and its content. Struct
fields are written by a function that puts a key in quotes where it is no identifier. The members of
an enum are written by hand: an encoding says whether a label stands bare or in quotes, and nobody
looks at the label.

What such a piece of code stands for is said here by a reader of TypeScript: a bare name stands for
itself, provided that it is an identifier, and a literal for the code units between its quotes,
where a backslash begins an escape. An escape is always longer than what it stands for. So no label
with a backslash is read as itself, and a label is what its token stands for exactly where there is
nothing to escape in a literal, and an identifier where the token is bare.
-/

namespace WasmBridge

open Outcome Text

/-! ## Code units -/

/-- The code units of a code point in UTF-16. -/
def Code.units (c : Code) : List Nat :=
  if c.value < 0x10000 then [c.value]
  else [0xd800 + (c.value - 0x10000) / 0x400, 0xdc00 + (c.value - 0x10000) % 0x400]

/-- The code units of a text. -/
def Text.units (t : Text) : List Nat := t.flatMap Code.units

theorem Code.units_pos (c : Code) : 1 ≤ c.units.length := by
  unfold units
  split <;> simp

theorem Code.units_le (c : Code) : c.units.length ≤ 2 := by
  unfold units
  split <;> simp

namespace Text

theorem units_cons (c : Code) (rest : Text) : Text.units (c :: rest) = c.units ++ units rest :=
  List.flatMap_cons

theorem units_append (s t : Text) : Text.units (s ++ t) = units s ++ units t :=
  List.flatMap_append

/-- A code point has a code unit at least. -/
theorem length_le_units (t : Text) : t.length ≤ (units t).length := by
  induction t with
  | nil => exact Nat.le_refl _
  | cons c rest ih =>
    have := c.units_pos
    simp only [units_cons, List.length_cons, List.length_append]
    omega

end Text

namespace TypeScript

/-! ## How literals are read -/

/-- The number that hexadecimal digits stand for. -/
def hexNumber? (digits : Text) : Option Nat :=
  digits.foldlM (fun n c => (hexValue? c).map (16 * n + ·)) 0

/-- An escape with a fixed number of digits: its code unit, and how many code points belong to it
with the letter that comes first. -/
def hexEscape? (width : Nat) (rest : Text) : Option (List Nat × Nat) :=
  if width ≤ rest.length then (hexNumber? (rest.take width)).map fun n => ([n], width + 1) else none

/-- An escape whose digits stand in braces, of which the first has been read. -/
def bracedEscape? (rest : Text) : Option (List Nat × Nat) :=
  match rest.takeWhile (· ≠ .char '\x7d') with
  | [] => none
  | digits =>
    if digits.length < rest.length then
      match hexNumber? digits with
      | some n => if n ≤ 0x10ffff then some ((Code.ofNat n).units, digits.length + 3) else none
      | none => none
    else none

/-- A line of source ends here. -/
def endsLine (c : Code) : Bool := [0x0a, 0x0d, 0x2028, 0x2029].contains c.value

/-- The code points that have a meaning of their own behind a backslash. -/
def singleEscapes : List (Code × Nat) := [
  (.char 'b', 0x08), (.char 't', 0x09), (.char 'n', 0x0a), (.char 'v', 0x0b), (.char 'f', 0x0c),
  (.char 'r', 0x0d)]

/-- The code units of an escape by a single code point. -/
def singleUnits (c : Code) : List Nat :=
  match singleEscapes.lookup c with
  | some unit => [unit]
  | none => c.units

/-- A decimal digit. -/
def isDecimal (c : Code) : Bool := c.isAlphanum && !c.isLetter

/-- An escape by one code point. A line that goes on behind a backslash adds nothing; of numbers
there is no more than a zero that stands alone. -/
def singleEscape? (c : Code) (rest : Text) : Option (List Nat × Nat) :=
  if endsLine c then some ([], 1)
  else if !isDecimal c then some (singleUnits c, 1)
  else if c = .char '0' && !rest.head?.any isDecimal then some ([0], 1)
  else none

/-- The code units that stand for what follows a backslash, and how many code points belong to the
escape. -/
def escape? : (behind : Text) → Option (List Nat × Nat)
  | [] => none
  | .char 'x' :: rest => hexEscape? 2 rest
  | .char 'u' :: .char '\x7b' :: rest => bracedEscape? rest
  | .char 'u' :: rest => hexEscape? 4 rest
  | .char '\r' :: .char '\n' :: _ => some ([], 2)
  | c :: rest => singleEscape? c rest

/-- The code units of a literal whose opening quote has been read, provided that it ends where the
code does; the first `skip` code points have been read too. -/
def stringUnits? : (skip : Nat) → (code : Text) → Option (List Nat)
  | _, [] => none
  | skip + 1, _ :: rest => stringUnits? skip rest
  | 0, c :: rest =>
    if c = .char '"' then if rest.isEmpty then some [] else none
    else if c = .char '\\' then do
      let (units, taken) ← escape? rest
      return units ++ (← stringUnits? taken rest)
    else if c = .char '\n' || c = .char '\r' then none
    else return c.units ++ (← stringUnits? 0 rest)

/-- What a property name or a literal stands for. No bare name counts but an identifier. -/
def denoted? (token : Text) : Option (List Nat) :=
  if isIdentifier token then some (units token)
  else
    match token with
    | .char '"' :: rest => stringUnits? 0 rest
    | _ => none

/-! ## Escapes are longer than what they stand for -/

section Lengths

variable {code behind : Text} {us : List Nat} {taken skip : Nat}

/-- What is taken has a code unit at least for each code point, if there are so many. -/
theorem le_units_take (h : taken ≤ code.length) : taken ≤ (units (code.take taken)).length := by
  have := length_le_units (code.take taken)
  rwa [List.length_take_of_le h] at this

theorem length_of_hexEscape {width : Nat} {c : Code}
    (h : hexEscape? width code = some (us, taken)) :
    us.length ≤ (units ((c :: code).take taken)).length := by
  unfold hexEscape? at h
  split at h
  · rename_i hwidth
    obtain ⟨n, -, heq⟩ := Option.map_eq_some_iff.mp h
    cases heq
    have := le_units_take (show width + 1 ≤ (c :: code).length from Nat.succ_le_succ hwidth)
    rw [List.length_singleton]
    omega
  · cases h

theorem length_of_bracedEscape {c d : Code} (h : bracedEscape? code = some (us, taken)) :
    us.length ≤ (units ((c :: d :: code).take taken)).length := by
  unfold bracedEscape? at h
  split at h
  · cases h
  split at h
  · rename_i hclosed
    split at h
    · rename_i n _
      obtain ⟨-, heq⟩ := Option.ite_none_right_eq_some.mp h
      obtain ⟨rfl, rfl⟩ := Prod.mk.inj (Option.some.inj heq)
      have htwo := (Code.ofNat n).units_le
      have hle : (code.takeWhile (· ≠ .char '\x7d')).length + 3 ≤ (c :: d :: code).length :=
        Nat.add_le_add_right hclosed 2
      have := le_units_take hle
      omega
    · cases h
  · cases h

theorem length_singleUnits (c : Code) : (singleUnits c).length ≤ c.units.length := by
  unfold singleUnits
  split
  · exact c.units_pos
  · exact Nat.le_refl _

theorem length_of_singleEscape {c : Code} (h : singleEscape? c code = some (us, taken)) :
    us.length ≤ (units ((c :: code).take taken)).length := by
  have htake : units ((c :: code).take 1) = c.units := by
    rw [List.take_succ_cons, List.take_zero, units_cons]
    exact List.append_nil _
  unfold singleEscape? at h
  split at h
  · cases h
    exact Nat.zero_le _
  split at h
  · cases h
    rw [htake]
    exact length_singleUnits c
  split at h
  · cases h
    rw [htake]
    exact c.units_pos
  · cases h

/-- An escape stands for no more than stands behind its backslash. -/
theorem length_of_escape (h : escape? behind = some (us, taken)) :
    us.length ≤ (units (behind.take taken)).length := by
  unfold escape? at h
  split at h
  · cases h
  · exact length_of_hexEscape h
  · exact length_of_bracedEscape h
  · exact length_of_hexEscape h
  · cases h
    exact Nat.zero_le _
  · exact length_of_singleEscape h

/-- The quote at the end of a literal stands for nothing. -/
theorem length_of_stringUnits (h : stringUnits? skip code = some us) :
    us.length + (units (code.take skip)).length + 1 ≤ (units code).length := by
  induction code generalizing skip us with
  | nil => cases skip <;> cases h
  | cons c rest ih =>
    cases skip with
    | succ skip =>
      have hrest : us.length + (units (rest.take skip)).length + 1 ≤ (units rest).length := ih h
      simp only [List.take_succ_cons, units_cons, List.length_append]
      omega
    | zero =>
      have hc := c.units_pos
      simp only [List.take_zero, units_cons, List.length_append]
      rw [show units [] = [] from rfl, List.length_nil]
      unfold stringUnits? at h
      split at h
      · split at h
        · cases h
          rw [List.length_nil]
          omega
        · cases h
      · split at h
        · obtain ⟨⟨escaped, taken⟩, hescape, h⟩ := Option.bind_eq_some_iff.mp h
          obtain ⟨us', hus', h⟩ := Option.bind_eq_some_iff.mp h
          cases h
          have hle := length_of_escape hescape
          have := ih hus'
          rw [List.length_append]
          omega
        · split at h
          · cases h
          · obtain ⟨us', hus', h⟩ := Option.bind_eq_some_iff.mp h
            cases h
            have := ih hus'
            rw [List.length_append]
            omega

end Lengths

/-! ## When a label is read as itself -/

/-- The code point cannot stand for itself in a literal. -/
def isSpecial (c : Code) : Bool :=
  c = .char '"' || c = .char '\\' || c = .char '\n' || c = .char '\r'

/-- **A literal stands for what is between its quotes exactly if nothing there needs an escape.** -/
theorem stringUnits?_iff {label : Text} :
    stringUnits? 0 (label ++ "\"") = some (units label) ↔ ∀ c ∈ label, isSpecial c = false := by
  induction label with
  | nil => exact iff_of_true rfl (List.forall_mem_nil _)
  | cons c rest ih =>
    rw [List.forall_mem_cons, ← ih, List.cons_append, stringUnits?, units_cons]
    by_cases hquote : c = .char '"'
    · -- the literal ends too early
      subst hquote
      rw [if_pos rfl, if_neg (by simp [Text.ofString])]
      exact iff_of_false (Option.some_ne_none _).symm fun h => absurd h.1 (by decide)
    by_cases hescape : c = .char '\\'
    · -- the escape is longer than what it stands for
      subst hescape
      rw [if_neg hquote, if_pos rfl]
      refine ⟨fun h => ?_, fun h => absurd h.1 (by decide)⟩
      obtain ⟨⟨escaped, taken⟩, hescaped, h⟩ := Option.bind_eq_some_iff.mp h
      obtain ⟨us, hus, h⟩ := Option.bind_eq_some_iff.mp h
      have hlength := congrArg List.length (Option.some.inj h)
      have hle := length_of_escape hescaped
      have hrest := length_of_stringUnits hus
      have hclosing : (units (rest ++ "\"")).length = (units rest).length + 1 := by
        rw [units_append, List.length_append]
        rfl
      have hbackslash : (Code.char '\\').units.length = 1 := rfl
      rw [List.length_append, List.length_append] at hlength
      omega
    by_cases hend : c = .char '\n' || c = .char '\r'
    · rw [if_neg hquote, if_neg hescape, if_pos hend]
      refine iff_of_false (Option.some_ne_none _).symm fun h => absurd h.1 ?_
      rw [isSpecial, Bool.or_assoc, hend, Bool.or_true]
      decide
    · have hplain : isSpecial c = false := by
        rw [isSpecial, Bool.or_assoc, Bool.eq_false_iff.mpr hend]
        simp [hquote, hescape]
      rw [if_neg hquote, if_neg hescape, if_neg hend]
      simp only [hplain, true_and, pure, Option.bind_eq_bind, Option.bind_eq_some_iff,
        Option.some.injEq, List.append_cancel_left_eq, exists_eq_right]

/-- A bare name stands for itself exactly if it is an identifier. -/
theorem denoted?_name_iff {label : Text} :
    denoted? label = some (units label) ↔ isIdentifier label = true := by
  unfold denoted?
  split
  · exact iff_of_true rfl (by assumption)
  · rename_i hbare
    refine iff_of_false (fun h => ?_) hbare
    split at h
    · -- a name that happens to be a literal stands for less than itself
      have hlength := length_of_stringUnits h
      have : (Code.char '"').units.length = 1 := rfl
      simp only [units_cons, List.length_append, List.take_zero] at hlength
      omega
    · cases h

theorem denoted?_literal_iff {label : Text} :
    denoted? ("\"" ++ label ++ "\"") = some (units label) ↔ ∀ c ∈ label, isSpecial c = false := by
  have hquoted : ("\"" ++ label ++ "\"" : Text) = .char '"' :: (label ++ "\"" : Text) := rfl
  have hbare : isIdentifier (.char '"' :: (label ++ "\"" : Text)) = false := rfl
  rw [hquoted, denoted?, hbare, if_neg (by decide)]
  exact stringUnits?_iff

/-! ## What the members of a union are made of -/

/-- The label that a piece of a type is to stand for. -/
def Token.label? : Token → Option Text
  | .name label | .literal label => some label
  | .code _ => none

/-- The piece stands for its label. -/
def Token.Denotes (token : Token) : Prop :=
  ∀ label ∈ token.label?, denoted? token.text = some (units label)

/-- The label can stand as it is where the piece puts it. -/
def Token.isSafe : Token → Bool
  | .name label => isIdentifier label
  | .literal label => label.all (!isSpecial ·)
  | .code _ => true

theorem Token.denotes_iff (token : Token) : token.Denotes ↔ token.isSafe = true := by
  cases token with
  | name label =>
    refine Iff.trans ⟨fun h => h label rfl, ?_⟩ denoted?_name_iff
    rintro h _ ⟨⟩
    exact h
  | literal label =>
    have hsafe : (Token.literal label).isSafe = true ↔ ∀ c ∈ label, isSpecial c = false := by
      simp [isSafe]
    refine Iff.trans ⟨fun h => h label rfl, ?_⟩ (denoted?_literal_iff.trans hsafe.symm)
    rintro h _ ⟨⟩
    exact h
  | code text => exact iff_of_true nofun rfl

/-- The names and literals that a variant puts into its enum: its key, and what tells it apart. -/
def labelTokens (encoding : Encoding Text) (key : Text) (isUnit : Bool) : List Token :=
  match encoding with
  | .untagged => []
  | .external => [if isUnit then .literal key else .name key]
  | .adjacent tag content =>
    [.name tag, .literal key] ++ if isUnit then [] else [.name content]
  | .internal tag => [.name tag, .literal key]

/-- There is no payload. -/
def PayloadType.isNone : PayloadType → Bool
  | none => true
  | _ => false

theorem filter_tokens (m : Member) :
    m.tokens.filter (·.label?.isSome) = labelTokens m.encoding m.key m.payload.isNone := by
  obtain ⟨doc, encoding, key, payload⟩ := m
  cases encoding <;> cases payload <;> rfl

theorem DeclaresPayload.isNone_eq {types : TypeMap Text} {scope : List Text} {type : TypeDef Text}
    {payload : PayloadType} (h : DeclaresPayload types scope type payload) :
    payload.isNone = type.isUnit := by
  cases h <;> rfl

/-- What a variant became says which names and literals it puts there. -/
theorem DeclaresVariant.filter_tokens {types : TypeMap Text} {scope : List Text}
    {options : EnumOptions Text} {variant : Variant Text} {m : Member}
    (h : DeclaresVariant types scope options variant m) :
    m.tokens.filter (·.label?.isSome)
      = labelTokens options.encoding (variantWireKey variant.name options.variantCasing)
          variant.payload.isUnit := by
  rw [TypeScript.filter_tokens, h.encoding, h.key, h.payload.isNone_eq]

/-- **What a host in TypeScript is told about the members of an enum.** The members stand in its
file, one below the other, each with its pieces in a row. Each variant puts its wire key there, and
the tag and the content name if the encoding has them: literals for the key of a unit and behind a
tag, bare names for all else. Such a piece stands for its label exactly if the label is an
identifier, for a bare name, or has nothing to escape in it, for a literal. -/
theorem members_denote_labels {s : BindingSource Text} {files : List (Text × Text)}
    (h : s.files .typeScriptRuntime = .ok files) :
    ∃ declared ts, s.declared = .ok declared ∧ (("types.ts" : Text), typesFile ts) ∈ files
      ∧ ∀ name generics variants options doc,
          .enum name generics variants options doc ∈ declared →
        ∃ members codes, .enum name generics doc members ∈ ts
          ∧ Holds (.enum name generics variants options doc) codes (typesFile ts)
          ∧ List.Forall₂ Member.StandsIn members codes
          ∧ List.Forall₂ (fun v m =>
              m.tokens.filter (·.label?.isSome)
                = labelTokens options.encoding (variantWireKey v.name options.variantCasing)
                    v.payload.isUnit
              ∧ ∀ token ∈ m.tokens, token.Denotes ↔ token.isSafe = true) variants members := by
  obtain ⟨target, hnames⟩ := checkNames_of_files h
  obtain ⟨declared, hdeclared⟩ := declared_of_checkNames hnames
  obtain ⟨ts, hts, hfile⟩ := typeScriptDecls_of_files h
  refine ⟨declared, ts, hdeclared, hfile, fun name generics variants options doc htype => ?_⟩
  obtain ⟨members, hmembers, hmem⟩ := enum_declared hdeclared hts htype
  refine ⟨members, _, hmem, holds_enum options hmem, standsIn_unionTexts members,
    (mapM_eq_ok_iff.mp hmembers).imp fun v m hm => ?_⟩
  exact ⟨(member_eq_ok hm).filter_tokens, fun token _ => token.denotes_iff⟩

namespace Tagged

/-- An event that is told apart under a name that is no identifier. -/
def event : TypeDef Text :=
  .enum "Event" [] [.mk "Ping" (.unit "()") []] { tag := some "my-tag" } []

def source : BindingSource Text := (⟨.empty, .empty, [event], []⟩ : Interface Text).source {}

end Tagged

/-- An event with a tag that is no identifier is accepted, and its tag stands bare. -/
theorem members_denote_labels_event :
    ∃ files ts, Tagged.source.files .typeScriptRuntime = .ok files
      ∧ (("types.ts" : Text), typesFile ts) ∈ files
      ∧ ∃ m code, .enum "Event" [] [] [m] ∈ ts
        ∧ Holds Tagged.event [code] (typesFile ts) ∧ m.StandsIn code
        ∧ .name "my-tag" ∈ m.tokens ∧ ¬(Token.name "my-tag").Denotes := by
  obtain ⟨files, hfiles⟩ := exists_of_isOk
    (show (Tagged.source.files .typeScriptRuntime).isOk = true by decide +kernel)
  obtain ⟨declared, ts, hdeclared, hfile, henums⟩ := members_denote_labels hfiles
  have hevent : Tagged.event ∈ declared :=
    mem_declared hdeclared (show Tagged.source.types.find? "Event" = some Tagged.event by rfl) rfl
  obtain ⟨members, codes, hmem, hholds, hcodes, hall⟩ := henums _ _ _ _ _ hevent
  cases hall with
  | @cons _ m _ _ hm hrest =>
    cases hrest
    cases hcodes with
    | @cons _ code _ _ hcode hrest =>
      cases hrest
      have htag : .name "my-tag" ∈ m.tokens := by
        refine List.mem_of_mem_filter (p := fun t => t.label?.isSome) ?_
        rw [hm.1]
        exact List.mem_cons_self
      refine ⟨files, ts, hfiles, hfile, m, code, hmem, hholds, hcode, htag, fun hdenotes => ?_⟩
      exact absurd ((hm.2 _ htag).mp hdenotes) (by decide)

end TypeScript

end WasmBridge
