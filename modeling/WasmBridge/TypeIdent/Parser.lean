import WasmBridge.Text.Blank
import WasmBridge.TypeIdent.Basic

/-!
# Reading type idents

An ident is a name, with or without arguments in angle brackets, or a list of idents in round
brackets. Blanks may stand between any two parts and a comma behind the last item. The empty list
in round brackets is the unit, any other is a tuple.

Brackets may be nested as deep as there is room for. Every call of the reader is given more fuel
than it can use: a step that consumes nothing is followed by one that consumes a character, so twice
the length of the text bounds their number. To run out of fuel is an error of its own, and no text
is read with that result.
-/

namespace WasmBridge

open Text

/-- Why a text is no type ident. Most causes carry the text that was left when they were found. -/
inductive TypeIdentError where
  | expectedName (rest : Text)
  | expectedSeparator (close : Char) (rest : Text)
  | trailing (whole rest : Text)
  /-- Too many brackets are open. -/
  | tooDeep
  /-- There was not enough fuel. -/
  | outOfFuel
  deriving DecidableEq

/-- The wording of the causes. -/
def TypeIdentError.message : TypeIdentError → Text
  | expectedName rest => "Expected a type name at " ++ quote rest
  | expectedSeparator close rest =>
    "Expected ',' or '" ++ ([.char close] : Text) ++ "' at " ++ quote rest
  | trailing whole rest =>
    "Trailing characters in type " ++ quote whole ++ ": " ++ quote rest
  | tooDeep => "Too many open brackets"
  | outOfFuel => "Reading has stopped"

namespace TypeIdent

/-- The code point may begin a type name. -/
def isNameStart (c : Code) : Bool := c.isLetter || c = .char '_'

/-- The code point may continue a type name. -/
def isNameRest (c : Code) : Bool := c.isAlphanum || c = .char '_' || c = .char ':'

mutual

/-- An ident at the start of a text, and the text behind it; `room` brackets may be opened. -/
def readIdent : (fuel room : Nat) → Text → Except TypeIdentError (TypeIdent × Text)
  | 0, _, _ => .error .outOfFuel
  | fuel + 1, room, s =>
    match trimStart s with
    | .char '(' :: rest => do
      let (items, rest) ← readItems fuel room ')' rest
      if items.isEmpty then return (⟨unitName, []⟩, rest) else return (⟨tupleName, items⟩, rest)
    | c :: rest =>
      if isNameStart c then
        let name := c :: rest.takeWhile isNameRest
        match trimStart (rest.dropWhile isNameRest) with
        | .char '<' :: rest => do
          let (args, rest) ← readItems fuel room '>' rest
          return (⟨name, args⟩, rest)
        | rest => return (⟨name, []⟩, rest)
      else .error (.expectedName (c :: rest))
    | [] => .error (.expectedName [])

/-- Idents set apart by commas, behind a bracket up to the one that closes it, and the text behind
it; `room` brackets may be opened, this one among them. -/
def readItems : (fuel room : Nat) → (close : Char) → Text →
    Except TypeIdentError (List TypeIdent × Text)
  | 0, _, _, _ => .error .outOfFuel
  | _ + 1, 0, _, _ => .error .tooDeep
  | fuel + 1, room + 1, close, s =>
    let s := trimStart s
    if s.head? = some (.char close) then return ([], s.drop 1)
    else do
      let (item, rest) ← readIdent fuel room s
      let rest := trimStart rest
      if rest.head? = some (.char ',') then
        let (items, rest) ← readItems fuel (room + 1) close (rest.drop 1)
        return (item :: items, rest)
      else if rest.head? = some (.char close) then return ([item], rest.drop 1)
      else .error (.expectedSeparator close rest)

end

/-- The ident that a text writes with no more than `room` brackets open at a time. -/
def parseWithin (room : Nat) (whole : Text) : Except TypeIdentError TypeIdent := do
  let s := trim whole
  let (ident, rest) ← readIdent (2 * s.length + 1) room s
  if (trim rest).isEmpty then return ident else .error (.trailing whole rest)

/-- How many brackets may be open at a time: each takes two calls. -/
def openLimit : Nat := callRoom / 2

/-- The ident that a text writes. -/
def parse (whole : Text) : Except TypeIdentError TypeIdent := parseWithin openLimit whole

end TypeIdent

end WasmBridge
