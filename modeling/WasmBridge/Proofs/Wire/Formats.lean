import Mathlib.Algebra.Group.Int.Defs
import Mathlib.Algebra.Group.Nat.Defs
import WasmBridge.Proofs.Wire.Entries
import WasmBridge.Wire.Packing

/-!
# What a packing library owes the codec

The codec packs and unpacks with whatever library it is given. Three things are relied on, each
where it is needed and nowhere else.

**Unpacking is told apart.** Bytes may be anything. Those that are not well formed are said to be,
a map whose key no dictionary can have is refused as such, and nothing else goes wrong. What is
read is `Plain`: integers have 64 bits, with or without a sign, and maps have keys.

**What is packed comes back.** A value is `Portable` when it is made of what MessagePack can hold.
Within the limits of the format it is packed, and unpacked as it was. Sizes have to fit 32 bits
and texts have to have bytes, which the format asks for; how deep values may be nested is up to
the library.

**Nothing is packed as nothing.** Every value has a first byte.
-/

namespace WasmBridge

/-! ## Values of the format -/

/-- A value has no integers of more than 64 bits in it, and its maps have keys. -/
inductive Value.Plain : Value → Prop where
  | null : Plain .null
  | bool (b : Bool) : Plain (.bool b)
  | int {n : Int} (least : -2 ^ 63 ≤ n) (greatest : n < 2 ^ 64) : Plain (.int n)
  | float (x : Binary64) : Plain (.float x)
  | str (s : Text) : Plain (.str s)
  | bytes (bytes : List UInt8) : Plain (.bytes bytes)
  | ext (code : Nat) (data : List UInt8) : Plain (.ext code data)
  | timestamp (seconds : Int) (nanoseconds : Nat) : Plain (.timestamp seconds nanoseconds)
  | list {items : List Value} (items_plain : ∀ item ∈ items, Plain item) : Plain (.list items)
  | map {entries : List (Value × Value)} (keys : ∀ e ∈ entries, e.1.isKey = true)
      (keys_plain : ∀ e ∈ entries, Plain e.1) (values_plain : ∀ e ∈ entries, Plain e.2) :
      Plain (.map entries)

/-- A value is made of what MessagePack can hold. -/
inductive Value.Portable : Value → Prop where
  | null : Portable .null
  | bool (b : Bool) : Portable (.bool b)
  | int {n : Int} (least : -2 ^ 63 ≤ n) (greatest : n ≤ 2 ^ 64 - 1) : Portable (.int n)
  | float (x : Binary64) : Portable (.float x)
  | str (s : Text) : Portable (.str s)
  | bytes (bytes : List UInt8) : Portable (.bytes bytes)
  | list {items : List Value} (items_portable : ∀ item ∈ items, Portable item) :
      Portable (.list items)
  | map {entries : List (Value × Value)} (keys : ∀ e ∈ entries, e.1.isKey = true)
      (distinct : DistinctKeys (entries.map (·.1))) (keys_portable : ∀ e ∈ entries, Portable e.1)
      (values_portable : ∀ e ∈ entries, Portable e.2) : Portable (.map entries)

namespace MessagePack

/-- What texts, bytes, lists and maps of MessagePack have to be smaller than. -/
def sizeLimit : Nat := 2 ^ 32

mutual

/-- All sizes in a value are within the limits, and its texts have bytes; a float that is no number
is the one that all such floats are read as. -/
def fits : Value → Bool
  | .float x => !x.isNaN || x = .nan
  | .str s => s.utf8?.any (·.length < sizeLimit)
  | .bytes bs => bs.length < sizeLimit
  | .list items | .tuple items => items.length < sizeLimit && fitsAll items
  | .map entries => entries.length < sizeLimit && fitsEntries entries
  | .variant _ payload => fits payload
  | _ => true

/-- All of several values are within the limits. -/
def fitsAll : List Value → Bool
  | [] => true
  | v :: vs => fits v && fitsAll vs

/-- The keys and the values of some entries are within the limits. -/
def fitsEntries : List (Value × Value) → Bool
  | [] => true
  | (k, v) :: rest => fits k && fits v && fitsEntries rest

end

end MessagePack

/-! ## Laws -/

namespace PackFormat

/-- Unpacking fails for bytes that are not well formed, or for a key that no dictionary can have;
all that is unpacked is plain. -/
structure Unpacks (format : PackFormat) : Prop where
  fails : ∀ bytes e, format.unpack bytes = .error e →
    (∃ reason, e = .malformed reason) ∨ e = .unhashableKey
  plain : ∀ bytes v, format.unpack bytes = .ok v → v.Plain

/-- What is packed comes back, where fewer than `depthLimit` lists and maps may be within each
other. -/
def Restores (format : PackFormat) (depthLimit : Nat) : Prop :=
  ∀ v : Value, v.Portable → MessagePack.fits v = true → v.depth < 2 * depthLimit →
    ∃ bytes, format.pack v = .ok bytes ∧ format.unpack bytes = .ok v

/-- No value is packed as no bytes at all. -/
def NeverEmpty (format : PackFormat) : Prop :=
  ∀ v bytes, format.pack v = .ok bytes → 1 ≤ bytes.length

end PackFormat

end WasmBridge
