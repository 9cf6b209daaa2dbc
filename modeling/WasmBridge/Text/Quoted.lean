import WasmBridge.Text.Hex
import WasmBridge.Text.Printable

/-!
# Quoted texts

How messages show a text or a byte string. The quote is the apostrophe, unless the text holds
apostrophes and no double quotes. The quote in use and the backslash are escaped, the tab, the
newline and the carriage return have short escapes, and what is not printable is written by its
code.
-/

namespace WasmBridge.Text

/-- The quote that a text is shown in. -/
def quoteFor (holds : Char → Bool) : Char :=
  if holds '\'' && !holds '"' then '"' else '\''

/-- The number of a code point, in the shortest of the three widths. -/
def escapeNumber (n : Nat) : Text :=
  if n < 0x100 then "\\x" ++ hexPadded 2 n
  else if n < 0x10000 then "\\u" ++ hexPadded 4 n
  else "\\U" ++ hexPadded 8 n

/-- One code point as it stands between quotes `q`. -/
def quoteCode (q : Char) (c : Code) : Text :=
  if c = .char q ∨ c = .char '\\' then ['\\', c]
  else if c = .char '\t' then ['\\', 't']
  else if c = .char '\n' then ['\\', 'n']
  else if c = .char '\r' then ['\\', 'r']
  else if isPrintable c then [c]
  else escapeNumber c.value

/-- A text with its lone halves of surrogate pairs written by their numbers. -/
def escapeHalves (s : Text) : Text :=
  s.flatMap fun
    | .char c => [.char c]
    | .half place => escapeNumber (Code.half place).value

/-- A text in quotes. -/
def quote (s : Text) : Text :=
  let q := quoteFor fun c => s.contains (.char c)
  .char q :: s.flatMap (quoteCode q) ++ [.char q]

/-- One byte as it stands between quotes `q`: printable ASCII as itself. -/
def quoteByte (q : Char) (b : UInt8) : Text :=
  let c := Char.ofNat b.toNat
  if c = q ∨ c = '\\' then ['\\', c]
  else if c = '\t' then ['\\', 't']
  else if c = '\n' then ['\\', 'n']
  else if c = '\r' then ['\\', 'r']
  else if 0x20 ≤ b.toNat ∧ b.toNat ≤ 0x7e then [c]
  else escapeNumber b.toNat

/-- A byte string in quotes, marked by a `b`. -/
def quoteBytes (bytes : List UInt8) : Text :=
  let q := quoteFor fun c => bytes.any (·.toNat == c.toNat)
  .char 'b' :: .char q :: bytes.flatMap (quoteByte q) ++ [.char q]

/-- Items between brackets, set apart by a comma and a space. -/
def bracketed (opening closing : Text) (items : List Text) : Text :=
  opening ++ separated ", " items ++ closing

/-- Items in round brackets; a single one keeps a comma behind it. -/
def tupled : List Text → Text
  | [item] => "(" ++ item ++ ",)"
  | items => bracketed "(" ")" items

end WasmBridge.Text
