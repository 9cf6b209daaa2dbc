import WasmBridge.Number.Binary64
import WasmBridge.Room
import WasmBridge.Text.Basic

/-!
# Values

One type of values serves both sides of the codec, and documents. Logical values are what a program
handles: an enum is a variant with its payload, a tuple is not a list, a struct is a map by field
names. Wire values are what MessagePack can hold, extensions and timestamps included. The value of a
document holds lists and maps by texts.

Maps keep the order in which their keys were first stored. The numbers `1`, `1.0` and `true` are
equal, and an extension is equal to the pair of its code and its data. Lists and maps cannot be
keys, nor can tuples and variants that hold them.
-/

namespace WasmBridge

/-- A logical or a wire value. -/
inductive Value where
  | null
  | bool (b : Bool)
  | int (n : Int)
  | float (x : Binary64)
  | str (s : Text)
  | bytes (bytes : List UInt8)
  | list (items : List Value)
  | tuple (items : List Value)
  | map (entries : List (Value × Value))
  | variant (name : Text) (payload : Value)
  | ext (code : Nat) (data : List UInt8)
  | timestamp (seconds : Int) (nanoseconds : Nat)
  deriving Inhabited

/-- The entries of a map, in the order in which their keys were first stored. -/
abbrev Entries := List (Value × Value)

/-- Why something is no value. -/
inductive ValueFault where
  /-- A list or a map stands where the key of a map should be. -/
  | notKey
  | extensionCode
  /-- There is no room to go through it. -/
  | tooDeep
  deriving DecidableEq

/-- The wording of the causes that have one. -/
def ValueFault.message? : ValueFault → Option Text
  | notKey | tooDeep => none
  | extensionCode => some "code must be 0~127"

namespace Value

mutual

/-- The room that it takes to go through a value: two calls for a list, a tuple or a map, and one
for a variant. -/
def depth : Value → Nat
  | list items | tuple items => 2 + depthAll items
  | map entries => 2 + depthEntries entries
  | variant _ payload => 1 + depth payload
  | _ => 0

/-- The most room that one of several values takes. -/
def depthAll : List Value → Nat
  | [] => 0
  | v :: vs => Nat.max (depth v) (depthAll vs)

/-- The most room that a key or a value of some entries takes. -/
def depthEntries : List (Value × Value) → Nat
  | [] => 0
  | (k, v) :: rest => Nat.max (Nat.max (depth k) (depth v)) (depthEntries rest)

end

/-- A value that is handed over, if there is room to go through it. -/
def handOver (v : Value) : Except ValueFault Value :=
  if v.depth ≤ callRoom then .ok v else .error .tooDeep

/-- The word for the kind of a value. -/
def kind : Value → Text
  | null => "NoneType"
  | bool _ => "bool"
  | int _ => "int"
  | float _ => "float"
  | str _ => "str"
  | bytes _ => "bytes"
  | list _ => "list"
  | tuple _ => "tuple"
  | map _ => "dict"
  | variant .. => "EnumValue"
  | ext .. => "ExtType"
  | timestamp .. => "Timestamp"

/-- The items of a sequence: of a list, of a tuple, or of an extension, which is the pair of its
code and its data. -/
def items? : Value → Option (List Value)
  | list items | tuple items => some items
  | ext code data => some [int code, bytes data]
  | _ => none

/-- Nothing is there. -/
def isNull : Value → Bool
  | null => true
  | _ => false

/-- A value that counts as true: not null, false or zero, and not empty. -/
def isSet : Value → Bool
  | null => false
  | bool b => b
  | int n => n ≠ 0
  | float x => !x.equalsInt 0
  | str s => !s.isEmpty
  | bytes bs => !bs.isEmpty
  | list items | tuple items => !items.isEmpty
  | map entries => !entries.isEmpty
  | _ => true

/-- The value is the float that is no number. -/
def isNaN : Value → Bool
  | float x => x.isNaN
  | _ => false

/-- The value is a given text. -/
def isName : Value → Text → Bool
  | str s, name => s == name
  | _, _ => false

/-- A number is an integer or a float; a truth value counts as zero or one. -/
def number? : Value → Option (Int ⊕ Binary64)
  | bool b => some (.inl (if b then 1 else 0))
  | int n => some (.inl n)
  | float x => some (.inr x)
  | _ => none

/-- Two numbers are equal; of a NaN and a NaN `nan` decides. -/
def equalNumbers (nan : Bool) : (a b : Int ⊕ Binary64) → Bool
  | .inl m, .inl n => m == n
  | .inl m, .inr x | .inr x, .inl m => x.equalsInt m
  | .inr x, .inr y => x.equals y || (nan && x.isNaN && y.isNaN)

/-- The value is a pair of a number equal to `code` and of the byte string `data`. -/
def isCodeAndData (code : Nat) (data : List UInt8) : List Value → Bool
  | [c, bytes d] =>
    match c.number? with
    | some n => equalNumbers false n (.inl code) && d == data
    | none => false
  | _ => false

mutual

/-- Two values are equal; of a NaN and a NaN `nan` decides. -/
def equalsWith (nan : Bool) : (a b : Value) → Bool
  | null, null => true
  | str s, str t => s == t
  | bytes s, bytes t => s == t
  | list xs, list ys => equalsAllWith nan xs ys
  | tuple xs, tuple ys => equalsAllWith nan xs ys
  | tuple xs, ext code data => isCodeAndData code data xs
  | ext code data, tuple xs => isCodeAndData code data xs
  | map xs, map ys => xs.length == ys.length && includedWith nan xs ys
  | ext c d, ext c' d' => c == c' && d == d'
  | timestamp s n, timestamp s' n' => s == s' && n == n'
  | variant n p, variant m q => n == m && equalsWith nan p q
  | a, b =>
    match a.number?, b.number? with
    | some x, some y => equalNumbers nan x y
    | _, _ => false

/-- Two sequences are equal item by item. -/
def equalsAllWith (nan : Bool) : (as bs : List Value) → Bool
  | [], [] => true
  | a :: as, b :: bs => equalsWith nan a b && equalsAllWith nan as bs
  | _, _ => false

/-- Every entry is equal to one of the others. -/
def includedWith (nan : Bool) : (entries others : List (Value × Value)) → Bool
  | [], _ => true
  | (k, v) :: rest, others =>
    others.any (fun other => equalsWith nan k other.1 && equalsWith nan v other.2) &&
      includedWith nan rest others

end

/-- Two values are the same as keys of a map. No NaN is found under another one. -/
def same (a b : Value) : Bool := equalsWith false a b

mutual

/-- The value can be the key of a map. -/
def isKey : Value → Bool
  | list _ | map _ => false
  | tuple items => allKeys items
  | variant _ payload => isKey payload
  | _ => true

/-- All of several values can be keys. -/
def allKeys : List Value → Bool
  | [] => true
  | v :: vs => isKey v && allKeys vs

end

/-- The extension with a code. -/
def extension (code : Int) (data : List UInt8) : Except ValueFault Value :=
  if 0 ≤ code ∧ code ≤ 127 then .ok (.ext code.toNat data) else .error .extensionCode

end Value

namespace Entries

/-- The value stored under a key. -/
def find? (entries : Entries) (key : Value) : Option Value :=
  match entries with
  | [] => none
  | (k, v) :: rest => if k.same key then some v else find? rest key

/-- The value stored under a name. -/
def findName? (entries : Entries) (name : Text) : Option Value :=
  match entries with
  | [] => none
  | (k, v) :: rest => if k.isName name then some v else findName? rest name

/-- Entries with a key stored: in its place, and in the form it has there, if it is the same as one
of them, else at the end. -/
def put (key value : Value) : Entries → Entries
  | [] => [(key, value)]
  | (k, v) :: rest => if k.same key then (k, value) :: rest else (k, v) :: put key value rest

/-- Entries with further entries stored one after the other. -/
def putAll (entries : Entries) (more : Entries) : Entries :=
  more.foldl (fun entries e => put e.1 e.2 entries) entries

/-- Entries with a key stored, if it can be one. -/
def store (entries : Entries) (key value : Value) : Except ValueFault Entries :=
  if key.isKey then .ok (put key value entries) else .error .notKey

/-- Entries without the one of a name. -/
def withoutName (entries : Entries) (name : Text) : Entries :=
  entries.filter fun (k, _) => !k.isName name

end Entries

end WasmBridge
