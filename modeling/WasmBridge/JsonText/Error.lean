import WasmBridge.Text.Basic

/-!
# JSON errors

Why a text is no JSON document, and where. A place is given by line, column and offset; the offset
counts code points from zero, line and column count from one.
-/

namespace WasmBridge.JsonText

/-- What is wrong at a place of a text. -/
inductive Fault where
  | byteOrderMark
  | expectedValue
  | expectedName
  | expectedColon
  | expectedComma
  | unterminated
  | controlCharacter
  | invalidEscape
  | invalidCode
  | extraData
  deriving DecidableEq

/-- The wording of the faults. -/
def Fault.message : Fault → Text
  | byteOrderMark => "Unexpected UTF-8 BOM (decode using utf-8-sig)"
  | expectedValue => "Expecting value"
  | expectedName => "Expecting property name enclosed in double quotes"
  | expectedColon => "Expecting ':' delimiter"
  | expectedComma => "Expecting ',' delimiter"
  | unterminated => "Unterminated string starting at"
  | controlCharacter => "Invalid control character at"
  | invalidEscape => "Invalid \\escape"
  | invalidCode => "Invalid \\uXXXX escape"
  | extraData => "Extra data"

/-- A place in a text. -/
structure Place where
  line : Nat
  column : Nat
  offset : Nat
  deriving DecidableEq

/-- The place in front of which `before` stands. -/
def Place.after (before : Text) : Place :=
  { line := before.count (.char '\n') + 1
    column := (before.reverse.takeWhile (· ≠ .char '\n')).length + 1
    offset := before.length }

/-- The place where `rest` begins, which ends the text. -/
def Place.ofRest (whole rest : Text) : Place :=
  Place.after (whole.take (whole.length - rest.length))

/-- Why a text is no JSON document. -/
inductive JsonError where
  | misplaced (fault : Fault) (place : Place)
  /-- An integer has more digits than are read. -/
  | longInteger (digits : Nat)
  /-- Too many arrays and objects are open. -/
  | tooDeep
  deriving DecidableEq

/-- The greatest number of digits that an integer is read with. -/
def integerDigits : Nat := 4300

/-- How many arrays and objects may be open at a time. -/
def openLimit : Nat := 987

/-- The wording of the errors that have one. -/
def JsonError.message? : JsonError → Option Text
  | misplaced fault place =>
    some (fault.message ++ ": line " ++ toString place.line ++ " column " ++
      toString place.column ++ " (char " ++ toString place.offset ++ ")")
  | longInteger digits =>
    some ("Exceeds the limit (" ++ toString integerDigits ++
      " digits) for integer string conversion: value has " ++ toString digits ++
      " digits; use sys.set_int_max_str_digits() to increase the limit")
  | tooDeep => none

end WasmBridge.JsonText
