import WasmBridge.Number.Shortest
import WasmBridge.Text.Quoted
import WasmBridge.Value

/-!
# Values in messages

How a message shows a value, and in which order it shows the keys of a map that do not belong there.
Only keys of one sort have an order: numbers among themselves, texts, byte strings, and tuples whose
first differing items have one. To show a value takes a call for each list, tuple or map around a
part of it, and three for each variant.
-/

namespace WasmBridge.Value

open Text

mutual

/-- A value as messages show it. -/
def describe : Value → Text
  | null => "None"
  | bool true => "True"
  | bool false => "False"
  | int n => toString n
  | float x => x.text
  | str s => quote s
  | bytes bs => quoteBytes bs
  | list items => bracketed "[" "]" (describeAll items)
  | tuple items => tupled (describeAll items)
  | map entries => bracketed "\x7b" "\x7d" (describeEntries entries)
  | variant name payload =>
    "EnumValue(variant=" ++ quote name ++ ", payload=" ++ describe payload ++ ")"
  | ext code data => "ExtType(code=" ++ toString code ++ ", data=" ++ quoteBytes data ++ ")"
  | timestamp seconds nanoseconds =>
    "Timestamp(seconds=" ++ toString seconds ++ ", nanoseconds=" ++ toString nanoseconds ++ ")"

/-- Several values as messages show them. -/
def describeAll : List Value → List Text
  | [] => []
  | v :: vs => describe v :: describeAll vs

/-- Entries as messages show them. -/
def describeEntries : List (Value × Value) → List Text
  | [] => []
  | (k, v) :: rest => (describe k ++ ": " ++ describe v) :: describeEntries rest

end

mutual

/-- The room that it takes to show a value. -/
def describeRoom : Value → Nat
  | list items | tuple items => 1 + describeRoomAll items
  | map entries => 1 + describeRoomEntries entries
  | variant _ payload => 3 + describeRoom payload
  | _ => 0

/-- The most room that it takes to show one of several values. -/
def describeRoomAll : List Value → Nat
  | [] => 0
  | v :: vs => Nat.max (describeRoom v) (describeRoomAll vs)

/-- The most room that it takes to show a key or a value of some entries. -/
def describeRoomEntries : List (Value × Value) → Nat
  | [] => 0
  | (k, v) :: rest =>
    Nat.max (Nat.max (describeRoom k) (describeRoom v)) (describeRoomEntries rest)

end

/-- A value as it stands in running text: a text as it is. -/
def display : Value → Text
  | str s => s
  | v => v.describe

/-- The order of two numbers. A NaN is as good as any number. -/
def compareNumbers (a b : Int ⊕ Binary64) : Ordering :=
  let place : Int ⊕ Binary64 → Int × Int
    | .inl n => Binary64.placeInt n
    | .inr x => x.place
  let isNaN : Int ⊕ Binary64 → Bool
    | .inl _ => false
    | .inr x => x.isNaN
  if isNaN a || isNaN b then .eq
  else (compare (place a).1 (place b).1).then (compare (place a).2 (place b).2)

/-- The order of two byte strings. -/
def compareBytes : (as bs : List UInt8) → Ordering
  | [], [] => .eq
  | [], _ :: _ => .lt
  | _ :: _, [] => .gt
  | a :: as, b :: bs => (compare a.toNat b.toNat).then (compareBytes as bs)

/-- The order of a sequence and the pair of a code and its data. -/
def orderToPair? (code : Nat) (data : List UInt8) : List Value → Option Ordering
  | [] => some .lt
  | c :: rest => do
    let n ← c.number?
    if equalNumbers false n (.inl code) then
      match rest with
      | [] => some .lt
      | bytes d :: more => some ((compareBytes d data).then (if more.isEmpty then .eq else .gt))
      | _ => none
    else some (compareNumbers n (.inl code))

mutual

/-- The order of two keys, if they have one. -/
def order? : (a b : Value) → Option Ordering
  | str s, str t => some (compare s t)
  | bytes s, bytes t => some (compareBytes s t)
  | tuple xs, tuple ys => orderAll? xs ys
  | tuple xs, ext code data => orderToPair? code data xs
  | ext code data, tuple xs => (orderToPair? code data xs).map Ordering.swap
  | ext c d, ext c' d' => some ((compare c c').then (compareBytes d d'))
  | a, b =>
    match a.number?, b.number? with
    | some x, some y => some (compareNumbers x y)
    | _, _ => none

/-- The order of two sequences: that of the first items that differ, else that of the lengths. -/
def orderAll? : (as bs : List Value) → Option Ordering
  | [], [] => some .eq
  | [], _ :: _ => some .lt
  | _ :: _, [] => some .gt
  | a :: as, b :: bs => if same a b then orderAll? as bs else order? a b

end

/-- Every two of some keys have an order. -/
def comparable : List Value → Bool
  | [] => true
  | k :: ks => ks.all (fun l => (order? k l).isSome) && comparable ks

/-- Keys in their order; none if two of them have no order. -/
def sort? (keys : List Value) : Option (List Value) :=
  if comparable keys then
    some (keys.mergeSort fun a b => ((order? a b).getD .eq).isLE)
  else none

end WasmBridge.Value
