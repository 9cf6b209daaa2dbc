import WasmBridge.Text.Basic

/-!
# Paths

A path names a place by the names on the way to it. Empty names and single dots on the way say
nothing and are dropped. File systems know paths by bytes; a byte that is part of no character
stands in a text as half of a surrogate pair.
-/

namespace WasmBridge

/-- The way to a place. -/
structure Path where
  /-- What the text begins with if the way starts at the top; else it starts where one is. -/
  root : Text
  names : List Text
  deriving DecidableEq

namespace Path

/-- The parts of a text between slashes. -/
def splitSlashes : Text → List Text
  | [] => [[]]
  | c :: rest =>
    if c = .char '/' then [] :: splitSlashes rest
    else
      match splitSlashes rest with
      | part :: parts => (c :: part) :: parts
      | [] => [[c]]

/-- What a text begins with. Exactly two slashes are kept apart from one. -/
def rootOf : Text → Text
  | .char '/' :: .char '/' :: .char '/' :: _ => "/"
  | .char '/' :: .char '/' :: _ => "//"
  | .char '/' :: _ => "/"
  | _ => ""

/-- The path that a text writes. -/
def ofText (s : Text) : Path where
  root := rootOf s
  names := (splitSlashes s).filter fun name => !name.isEmpty && name ≠ "."

/-- The text of a path; the path to where one is has a dot as its text. -/
def text (p : Path) : Text :=
  if p.root.isEmpty && p.names.isEmpty then "." else p.root ++ Text.separated "/" p.names

/-- The path to a name in the place that a path leads to. -/
def child (p : Path) (name : Text) : Path := { p with names := p.names ++ [name] }

/-- The path without its last name. -/
def parent (p : Path) : Path := { p with names := p.names.dropLast }

/-- The path starts at the top. -/
def isAbsolute (p : Path) : Bool := !p.root.isEmpty

/-- The bytes of a code point in a path. -/
def codeBytes? : Code → Option (List UInt8)
  | .char c => some (String.utf8EncodeChar c)
  | .half place =>
    if 0x480 ≤ place.val ∧ place.val < 0x500 then some [UInt8.ofNat (place - 0x400)] else none

/-- The number of bytes of a text in a path. -/
def byteCount? (t : Text) : Option Nat := do
  return (← t.mapM codeBytes?).flatten.length

end Path

end WasmBridge
