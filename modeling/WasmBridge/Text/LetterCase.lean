import WasmBridge.Text.LetterCase.Tables

/-!
# Letter case

Upper and lower case of whole texts by the full mappings: one character may become several, and
the Greek capital sigma becomes a final sigma where it ends a word.
-/

namespace WasmBridge.Text

/-- The character has the uppercase property; a titlecase letter has not. -/
def isUpper (c : Code) : Bool := uppercaseLetters.contains c

/-- Mapping of a number by the run that holds it. -/
def applyRuns (runs : List CaseRun) (n : Nat) : Nat :=
  match runs.find? (·.range.contains n) with
  | some run => (Int.ofNat n + run.offset).toNat
  | none => n

/-- Full mapping of one code point: an expansion if there is one, else the run that holds it. -/
def mapCase (runs : List CaseRun) (expansions : List (Nat × List Nat)) (c : Code) : Text :=
  match expansions.lookup c.value with
  | some codes => codes.map Code.ofNat
  | none => [Code.ofNat (applyRuns runs c.value)]

/-- Upper case of one code point. -/
def upperCode (c : Code) : Text := mapCase upperRuns upperExpansions c

/-- Lower case of one code point that has no context. -/
def lowerCode (c : Code) : Text := mapCase lowerRuns lowerExpansions c

/-- Of the code points that follow in this order, the first that does not merely accompany a
letter has a case. -/
def meetsCased : Text → Bool
  | [] => false
  | c :: rest => if caseIgnorables.contains c then meetsCased rest else casedLetters.contains c

/-- Lower case of `text` after the code points `before`, given from the nearest backwards. A capital
sigma is final when a cased letter stands before it and none after it. -/
def lowerAfter : (before text : Text) → Text
  | _, [] => []
  | before, c :: rest =>
    let low : Text :=
      if c = .char 'Σ' then (if meetsCased before && !meetsCased rest then ['ς'] else ['σ'])
      else lowerCode c
    low ++ lowerAfter (c :: before) rest

/-- Upper case of a text. -/
def toUpper (s : Text) : Text := s.flatMap upperCode

/-- Lower case of a text. -/
def toLower (s : Text) : Text := lowerAfter [] s

/-- The first character in upper case and the rest in lower case. -/
def capitalize : Text → Text
  | [] => []
  | c :: rest => upperCode c ++ lowerAfter [] rest

end WasmBridge.Text
