import WasmBridge.Text.Basic

/-!
# Sets of characters

A property of characters is a list of ranges in increasing order of their first members. A range
may take every second character only, as the capitals of an alphabet do that alternate with the
small letters. No property that is listed here holds of half a surrogate pair.
-/

namespace WasmBridge.Text

/-- The code points `first, first + step, …` up to `last`. -/
structure CharRange where
  first : Nat
  last : Nat
  step : Nat
  deriving DecidableEq

/-- Membership of a number. -/
def CharRange.contains (r : CharRange) (n : Nat) : Bool :=
  r.first ≤ n && n ≤ r.last && (n - r.first) % r.step == 0

/-- Ranges in increasing order of their first members. -/
abbrev CharSet := List CharRange

/-- Membership of a number; the search stops at the first range that begins above it. -/
def CharSet.containsNumber : CharSet → Nat → Bool
  | [], _ => false
  | r :: rest, n => if n < r.first then false else r.contains n || CharSet.containsNumber rest n

/-- Membership of a code point. -/
def CharSet.contains (s : CharSet) (c : Code) : Bool := s.containsNumber c.value

end WasmBridge.Text
