/-!
# Texts

A text is a list of code points. Most of them are characters. The others are halves of surrogate
pairs that stand alone: a text may hold them, and so may the names in a document, but a text that
holds one has no bytes.
-/

namespace WasmBridge

/-- A code point. -/
inductive Code where
  | char (c : Char)
  /-- Half of a surrogate pair, by its place among all halves. -/
  | half (place : Fin 0x800)
  deriving DecidableEq

instance : Coe Char Code := ⟨.char⟩

namespace Code

/-- The number of the first half of a surrogate pair. -/
def firstHalf : Nat := 0xd800

/-- The number of a code point. -/
def value : Code → Nat
  | char c => c.toNat
  | half place => firstHalf + place

/-- The code point of a number. -/
def ofNat (n : Nat) : Code :=
  if h : n - firstHalf < 0x800 ∧ firstHalf ≤ n then half ⟨n - firstHalf, h.1⟩
  else char (Char.ofNat n)

/-- The character that a code point is. -/
def char? : Code → Option Char
  | char c => some c
  | half _ => none

/-- A letter of ASCII. -/
def isLetter : Code → Bool
  | char c => c.isAlpha
  | half _ => false

/-- A letter or a digit of ASCII. -/
def isAlphanum : Code → Bool
  | char c => c.isAlphanum
  | half _ => false

/-- The bytes of a code point in UTF-8. -/
def utf8? : Code → Option (List UInt8)
  | char c => some (String.utf8EncodeChar c)
  | half _ => none

end Code

/-- Code points are ordered by their numbers. -/
instance : Ord Code := ⟨fun a b => compare a.value b.value⟩

/-- A sequence of code points. -/
abbrev Text := List Code

namespace Text

/-- The text of a string. -/
@[coe] def ofString (s : String) : Text := s.toList.map .char

instance : Coe String Text := ⟨ofString⟩

/-- The texts of strings. -/
def ofStrings (strings : List String) : List Text := strings.map ofString

/-- The string of a text, if it holds characters only. -/
def toString? (t : Text) : Option String := (t.mapM Code.char?).map String.ofList

/-- The bytes of a text in UTF-8, if it holds characters only. -/
def utf8? (t : Text) : Option (List UInt8) := (t.mapM Code.utf8?).map List.flatten

/-- A text with `other` wherever `mark` stands in it; the first `skip` code points are left out. -/
def replaceFrom (mark other : Text) : (skip : Nat) → Text → Text
  | _, [] => []
  | skip + 1, _ :: rest => replaceFrom mark other skip rest
  | 0, c :: rest =>
    if mark.isPrefixOf (c :: rest) then other ++ replaceFrom mark other (mark.length - 1) rest
    else c :: replaceFrom mark other 0 rest

/-- The text with `other` wherever `mark` stands in it. -/
def replace (t mark other : Text) : Text := replaceFrom mark other 0 t

/-- Texts one after the other. -/
def concat (texts : List Text) : Text := texts.flatten

/-- Texts one after the other with `separator` between them. -/
def separated (separator : Text) (texts : List Text) : Text := separator.intercalate texts

end Text

end WasmBridge
