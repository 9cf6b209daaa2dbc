import WasmBridge.JsonText.Error
import WasmBridge.Number.Decimal
import WasmBridge.Text.Digit
import WasmBridge.Text.Hex
import WasmBridge.Value

/-!
# JSON scalars

The parts of a JSON document that hold no others: texts, numbers and words. A reader takes the text
from where it stands to the end and gives back what it leaves. The infinities and NaN have words of
their own, and half of a surrogate pair may be escaped without the other half.
-/

namespace WasmBridge.JsonText

open Text

/-- Why reading stopped, with the text from where it did. -/
inductive Stop where
  | fault (cause : Fault) (rest : Text)
  | longInteger (digits : Nat)
  | tooDeep

/-- The character that a short escape stands for. -/
def shortEscape? : Code → Option Char
  | .char '"' => some '"'
  | .char '\\' => some '\\'
  | .char '/' => some '/'
  | .char 'b' => some '\x08'
  | .char 'f' => some '\x0c'
  | .char 'n' => some '\n'
  | .char 'r' => some '\r'
  | .char 't' => some '\t'
  | _ => none

/-- The number that four hexadecimal digits spell. -/
def codeUnit? (a b c d : Code) : Option Nat := do
  return 4096 * (← hexValue? a) + 256 * (← hexValue? b) + 16 * (← hexValue? c) + (← hexValue? d)

/-- A piece of a text: a code point, or the number of an escape. -/
inductive Piece where
  | code (c : Code)
  | unit (n : Nat)

/-- The pieces of a text up to its closing quote; `opening` is the document from its opening quote
on.
Something must follow the digits of a number. -/
def readPieces (opening : Text) : Text → Except Stop (List Piece × Text)
  | [] => .error (.fault .unterminated opening)
  | .char '"' :: rest => .ok ([], rest)
  | [.char '\\'] => .error (.fault .unterminated opening)
  | .char '\\' :: .char 'u' :: a :: b :: c :: d :: e :: rest =>
    match codeUnit? a b c d with
    | some n => do
      let (pieces, rest) ← readPieces opening (e :: rest)
      return (.unit n :: pieces, rest)
    | none => .error (.fault .invalidCode (.char 'u' :: a :: b :: c :: d :: e :: rest))
  | .char '\\' :: c :: rest =>
    if c = .char 'u' then .error (.fault .invalidCode (c :: rest))
    else
      match shortEscape? c with
      | some escaped => do
        let (pieces, rest) ← readPieces opening rest
        return (.code escaped :: pieces, rest)
      | none => .error (.fault .invalidEscape (.char '\\' :: c :: rest))
  | c :: rest =>
    if c.value < 0x20 then .error (.fault .controlCharacter (c :: rest))
    else do
      let (pieces, rest) ← readPieces opening rest
      return (.code c :: pieces, rest)

/-- The number is that of the first half of a pair. -/
def isHighHalf (n : Nat) : Bool := 0xd800 ≤ n && n < 0xdc00

/-- The number is that of the second half of a pair. -/
def isLowHalf (n : Nat) : Bool := 0xdc00 ≤ n && n < 0xe000

/-- The text of pieces. Escapes of both halves of a pair, one after the other, are put together. -/
def joinPieces : List Piece → Text
  | [] => []
  | .code c :: rest => c :: joinPieces rest
  | .unit n :: .unit m :: rest =>
    if isHighHalf n && isLowHalf m then
      Code.ofNat (0x10000 + 0x400 * (n - 0xd800) + (m - 0xdc00)) :: joinPieces rest
    else Code.ofNat n :: joinPieces (.unit m :: rest)
  | .unit n :: rest => Code.ofNat n :: joinPieces rest

/-- A text behind its opening quote. -/
def readText (opening rest : Text) : Except Stop (Text × Text) := do
  let (pieces, rest) ← readPieces opening rest
  return (joinPieces pieces, rest)

/-- The number that decimal digits spell. -/
def natOfDigits (digits : Text) : Nat :=
  digits.foldl (fun n c => 10 * n + (c.value - 0x30)) 0

/-- The digits at the start of a text, and what follows them. -/
def splitDigits (s : Text) : Text × Text :=
  (s.takeWhile isAsciiDigit, s.dropWhile isAsciiDigit)

/-- The digits before the point: a zero stands alone. -/
def splitWhole : Text → Text × Text
  | .char '0' :: rest => ([.char '0'], rest)
  | s => splitDigits s

/-- The digits behind a point, if there are any. -/
def splitFraction (s : Text) : Option (Text) × Text :=
  match s with
  | .char '.' :: rest =>
    let (digits, rest) := splitDigits rest
    if digits.isEmpty then (none, s) else (some digits, rest)
  | _ => (none, s)

/-- The sign at the start of a text. -/
def splitSign : Text → Bool × Text
  | .char '-' :: rest => (true, rest)
  | .char '+' :: rest => (false, rest)
  | s => (false, s)

/-- The exponent, if a mark is followed by one. -/
def splitExponent (s : Text) : Option Int × Text :=
  match s with
  | c :: rest =>
    if c = .char 'e' ∨ c = .char 'E' then
      let (negative, rest) := splitSign rest
      let (digits, rest) := splitDigits rest
      let magnitude : Int := natOfDigits digits
      if digits.isEmpty then (none, s)
      else (some (if negative then -magnitude else magnitude), rest)
    else (none, s)
  | [] => (none, s)

/-- A number; without point and exponent it is an integer. -/
def readNumber (s : Text) : Except Stop (Value × Text) :=
  let (negative, unsigned) :=
    match s with
    | .char '-' :: rest => (true, rest)
    | s => (false, s)
  let (whole, rest) := splitWhole unsigned
  if whole.isEmpty then .error (.fault .expectedValue s)
  else
    let (fraction, rest) := splitFraction rest
    let (exponent, rest) := splitExponent rest
    if fraction.isNone && exponent.isNone then
      if integerDigits < whole.length then .error (.longInteger whole.length)
      else
        let magnitude : Int := natOfDigits whole
        .ok (.int (if negative then -magnitude else magnitude), rest)
    else
      let behind := fraction.getD []
      let power : Int := exponent.getD 0 - behind.length
      .ok (.float (Binary64.ofDecimal negative (natOfDigits (whole ++ behind)) power), rest)

/-- The words and what they stand for. -/
def words : List (Text × Value) := [
  ("null", .null), ("true", .bool true), ("false", .bool false),
  ("NaN", .float Binary64.nan), ("Infinity", .float (Binary64.ofFields false 2047 0)),
  ("-Infinity", .float (Binary64.ofFields true 2047 0))]

/-- A word or a number. -/
def readScalar (s : Text) : Except Stop (Value × Text) :=
  match words.find? fun (word, _) => word.isPrefixOf s with
  | some (word, value) => .ok (value, s.drop word.length)
  | none => readNumber s

end WasmBridge.JsonText
