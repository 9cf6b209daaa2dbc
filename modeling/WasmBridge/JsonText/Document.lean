import WasmBridge.JsonText.Scalar

/-!
# JSON documents

A JSON document as a value: objects are maps whose keys are texts, and arrays are lists. Of two
members with one name the later counts, in the place of the earlier. The first fault of a document,
read from the left, is its error.

Every call of a reader is given more fuel than it can use: a call that consumes nothing is followed
by one that does, so twice the length of the document bounds their number. Arrays and objects may be
nested as deep as there is room for.
-/

namespace WasmBridge.JsonText

/-- A blank between the parts of a document. -/
def isSpace (c : Code) : Bool := c = .char ' ' || c = .char '\t' || c = .char '\n' || c = .char '\r'

/-- The text without the blanks at its start. -/
def skipSpace (s : Text) : Text := s.dropWhile isSpace

mutual

/-- A value at the start of a text; `room` arrays and objects may be opened. -/
def readValue : (fuel room : Nat) → Text → Except Stop (Value × Text)
  | 0, _, s => .error (.fault .expectedValue s)
  | fuel + 1, room, s =>
    match s, room with
    | .char '"' :: rest, _ => do
      let (text, rest) ← readText s rest
      return (.str text, rest)
    | .char '\x7b' :: _, 0 | .char '[' :: _, 0 => .error .tooDeep
    | .char '\x7b' :: rest, room + 1 =>
      match skipSpace rest with
      | .char '\x7d' :: rest => .ok (.map [], rest)
      | rest => do
        let (entries, rest) ← readMembers fuel room [] rest
        return (.map entries, rest)
    | .char '[' :: rest, room + 1 =>
      match skipSpace rest with
      | .char ']' :: rest => .ok (.list [], rest)
      | rest => do
        let (items, rest) ← readItems fuel room rest
        return (.list items, rest)
    | s, _ => readScalar s

/-- The members of an object, stored one after the other, up to its closing brace. -/
def readMembers : (fuel room : Nat) → Entries → Text → Except Stop (Entries × Text)
  | 0, _, _, s => .error (.fault .expectedName s)
  | fuel + 1, room, entries, s =>
    match s with
    | .char '"' :: rest => do
      let (name, rest) ← readText s rest
      match skipSpace rest with
      | .char ':' :: rest =>
        let (value, rest) ← readValue fuel room (skipSpace rest)
        let entries := Entries.put (.str name) value entries
        match skipSpace rest with
        | .char '\x7d' :: rest => .ok (entries, rest)
        | .char ',' :: rest => readMembers fuel room entries (skipSpace rest)
        | rest => .error (.fault .expectedComma rest)
      | rest => .error (.fault .expectedColon rest)
    | s => .error (.fault .expectedName s)

/-- The items of an array up to its closing bracket. -/
def readItems : (fuel room : Nat) → Text → Except Stop (List Value × Text)
  | 0, _, s => .error (.fault .expectedValue s)
  | fuel + 1, room, s => do
    let (item, rest) ← readValue fuel room s
    match skipSpace rest with
    | .char ']' :: rest => .ok ([item], rest)
    | .char ',' :: rest =>
      let (items, rest) ← readItems fuel room (skipSpace rest)
      return (item :: items, rest)
    | rest => .error (.fault .expectedComma rest)

end

/-- A document at the start of a text, and nothing but blanks behind it. -/
def readWhole (s : Text) : Except Stop Value := do
  if s.head? = some (.char '\ufeff') then .error (.fault .byteOrderMark s)
  let (value, rest) ← readValue (2 * s.length + 2) openLimit (skipSpace s)
  let rest := skipSpace rest
  if rest.isEmpty then return value else .error (.fault .extraData rest)

/-- The value that a document writes. -/
def read (document : Text) : Except JsonError Value :=
  match readWhole document with
  | .ok value => .ok value
  | .error (.fault cause rest) => .error (.misplaced cause (Place.ofRest document rest))
  | .error (.longInteger digits) => .error (.longInteger digits)
  | .error .tooDeep => .error .tooDeep

end WasmBridge.JsonText
