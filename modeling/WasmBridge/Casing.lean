import WasmBridge.Text.Digit
import WasmBridge.Text.LetterCase
import WasmBridge.Text.Quoted
import WasmBridge.Text.WordChar

/-!
# Casing

Identifiers are split into words and joined again by one of five conventions. Every target and the
codec take the keys of a serialized payload from here, so all of them agree on the same schema.

What separates words in any case is what is neither a letter nor numeric. A chunk between two
separators may hold several words, which are found by a pattern. The pattern only looks at what kind
of character stands where, so it works alike for all scripts.
-/

namespace WasmBridge

open Text

/-! ## The pattern of a word -/

/-- What counts about a character inside a word. A letter without case counts as small. -/
inductive Glyph where
  | digit
  | capital
  | small
  deriving DecidableEq

/-- The glyph of a word character. -/
def Glyph.of (c : Code) : Glyph :=
  if isDigit c then .digit else if isUpper c then .capital else .small

/-- A part of a pattern. -/
inductive Piece where
  /-- As many of one glyph as there are, but not less than `least`. -/
  | run (least : Nat) (glyph : Glyph)
  /-- One glyph, if it is there. -/
  | optional (glyph : Glyph)
  /-- Glyphs that must come next, but are left where they are. -/
  | ahead (glyphs : List Glyph)

/-- How many glyphs a piece can take, in the order in which that is tried: the most first. -/
def Piece.lengths : Piece → (shape : List Glyph) → List Nat
  | run least glyph, shape =>
    let most := (shape.takeWhile (· = glyph)).length
    (List.range (most + 1 - least)).map (most - ·)
  | optional glyph, shape => if shape.head? = some glyph then [1, 0] else [0]
  | ahead glyphs, shape => if glyphs.isPrefixOf shape then [0] else []

/-- How many glyphs the pieces take one after the other: the first way in which all of them
match. -/
def matchPieces? : (pieces : List Piece) → (shape : List Glyph) → Option Nat
  | [], _ => some 0
  | piece :: pieces, shape =>
    (piece.lengths shape).findSome? fun n => (matchPieces? pieces (shape.drop n)).map (n + ·)

/-- What a word can be. The alternatives are tried in this order: capitals up to the one that begins
the next word, small letters with a capital before and digits behind, capitals with digits behind,
and digits (`HTTPCode2` is `HTTP`, `Code2`). -/
def wordPattern : List (List Piece) := [
  [.run 1 .capital, .ahead [.capital, .small]],
  [.optional .capital, .run 1 .small, .run 0 .digit],
  [.run 1 .capital, .run 0 .digit],
  [.run 1 .digit]]

/-- How many glyphs the word at the front takes. -/
def wordLength? (shape : List Glyph) : Option Nat := wordPattern.findSome? (matchPieces? · shape)

/-! ## Words -/

/-- The words of a chunk by its shape; the first `skip` characters belong to a word already. -/
def findWords : (skip : Nat) → (shape : List Glyph) → (chunk : Text) → List Text
  | skip + 1, _ :: shape, _ :: chunk => findWords skip shape chunk
  | 0, glyph :: shape, c :: chunk =>
    match wordLength? (glyph :: shape) with
    | some n => (c :: chunk).take n :: findWords (n - 1) shape chunk
    | none => findWords 0 shape chunk
  | _, _, _ => []

/-- The words of a chunk. -/
def chunkWords (chunk : Text) : List Text := findWords 0 (chunk.map Glyph.of) chunk

/-- The words of an identifier; what separates them is dropped. -/
def splitWords (identifier : Text) : List Text :=
  (identifier.splitOnP (!isWordChar ·)).flatMap chunkWords

/-! ## Conventions -/

/-- The conventions for writing an identifier of several words. -/
inductive Casing where
  /-- As it stands. -/
  | verbatim
  | camelCase
  | pascalCase
  | snakeCase
  | screamingSnakeCase
  deriving DecidableEq

namespace Casing

/-- All conventions, in their order of precedence. -/
def all : List Casing := [verbatim, camelCase, pascalCase, snakeCase, screamingSnakeCase]

/-- The name of a convention; one that changes how words are written is named in its own way. -/
def name : Casing → Text
  | verbatim => "original"
  | camelCase => "camelCase"
  | pascalCase => "PascalCase"
  | snakeCase => "snake_case"
  | screamingSnakeCase => "SCREAMING_SNAKE_CASE"

/-- The identifier of a convention in capitals. -/
def label : Casing → Text
  | verbatim => "ORIGINAL"
  | camelCase => "CAMEL_CASE"
  | pascalCase => "PASCAL_CASE"
  | snakeCase => "SNAKE_CASE"
  | screamingSnakeCase => "SCREAMING_SNAKE_CASE"

/-- The convention of a name, or of a label in any case. -/
def ofName? (text : Text) : Option Casing :=
  all.find? fun casing => casing.name == text || toLower casing.label == toLower text

/-- What is said of a name that no convention has. -/
def unknownMessage (text : Text) : Text := "Unknown casing: " ++ quote text

/-- Words joined by a convention; without words nothing is known of the identifier to change. -/
def join (casing : Casing) (identifier : Text) : List Text → Text
  | [] => identifier
  | first :: rest =>
    match casing with
    | verbatim => identifier
    | camelCase => toLower first ++ concat (rest.map capitalize)
    | pascalCase => concat ((first :: rest).map capitalize)
    | snakeCase => separated "_" ((first :: rest).map toLower)
    | screamingSnakeCase => separated "_" ((first :: rest).map toUpper)

/-- An identifier rewritten by a convention. -/
def format (casing : Casing) (identifier : Text) : Text :=
  casing.join identifier (splitWords identifier)

end Casing

/-- The key of a struct field in a serialized payload. -/
def fieldWireKey (field : Text) : Text := Casing.camelCase.format field

/-- The key, or the tag value, of an enum variant in a serialized payload. -/
def variantWireKey (variant : Text) (casing : Casing) : Text := casing.format variant

end WasmBridge
