import WasmBridge.Number.BigEndian
import WasmBridge.Wire.Packing

/-!
# Packing

The MessagePack form of a value. Every integer, text, byte string and container takes its shortest
form, floats always take eight bytes, and tuples are packed as arrays.
-/

namespace WasmBridge.MessagePack

/-- An integer in its shortest form; one that is not negative is packed without sign. -/
def packInt (n : Int) : Except PackError (List UInt8) :=
  if 0 ≤ n then
    let m := n.toNat
    if m < 0x80 then .ok (bigEndian 1 m)
    else if m < 0x100 then .ok (0xcc :: bigEndian 1 m)
    else if m < 0x10000 then .ok (0xcd :: bigEndian 2 m)
    else if m < 0x100000000 then .ok (0xce :: bigEndian 4 m)
    else if m < 0x10000000000000000 then .ok (0xcf :: bigEndian 8 m)
    else .error .integerRange
  else if -0x20 ≤ n then .ok (bigEndian 1 (n + 0x100).toNat)
  else if -0x80 ≤ n then .ok (0xd0 :: bigEndian 1 (n + 0x100).toNat)
  else if -0x8000 ≤ n then .ok (0xd1 :: bigEndian 2 (n + 0x10000).toNat)
  else if -0x80000000 ≤ n then .ok (0xd2 :: bigEndian 4 (n + 0x100000000).toNat)
  else if -0x8000000000000000 ≤ n then .ok (0xd3 :: bigEndian 8 (n + 0x10000000000000000).toNat)
  else .error .integerRange

/-- What stands in front of a text of `n` bytes. -/
def textHeader (n : Nat) : List UInt8 :=
  if n < 32 then [UInt8.ofNat (0xa0 + n)]
  else if n < 0x100 then 0xd9 :: bigEndian 1 n
  else if n < 0x10000 then 0xda :: bigEndian 2 n
  else 0xdb :: bigEndian 4 n

/-- A text by its bytes in UTF-8. -/
def packText (s : Text) : Except PackError (List UInt8) :=
  match s.utf8? with
  | some bytes => .ok (textHeader bytes.length ++ bytes)
  | none => .error .textWithoutBytes

/-- What stands in front of `n` bytes. -/
def bytesHeader (n : Nat) : List UInt8 :=
  if n < 0x100 then 0xc4 :: bigEndian 1 n
  else if n < 0x10000 then 0xc5 :: bigEndian 2 n
  else 0xc6 :: bigEndian 4 n

/-- What stands in front of `n` items. -/
def arrayHeader (n : Nat) : List UInt8 :=
  if n < 16 then [UInt8.ofNat (0x90 + n)]
  else if n < 0x10000 then 0xdc :: bigEndian 2 n
  else 0xdd :: bigEndian 4 n

/-- What stands in front of `n` entries. -/
def mapHeader (n : Nat) : List UInt8 :=
  if n < 16 then [UInt8.ofNat (0x80 + n)]
  else if n < 0x10000 then 0xde :: bigEndian 2 n
  else 0xdf :: bigEndian 4 n

/-- An extension by its type byte and its data. -/
def packExt (type : UInt8) (data : List UInt8) : List UInt8 :=
  let n := data.length
  let header :=
    if n = 1 then [0xd4]
    else if n = 2 then [0xd5]
    else if n = 4 then [0xd6]
    else if n = 8 then [0xd7]
    else if n = 16 then [0xd8]
    else if n < 0x100 then 0xc7 :: bigEndian 1 n
    else if n < 0x10000 then 0xc8 :: bigEndian 2 n
    else 0xc9 :: bigEndian 4 n
  header ++ type :: data

/-- The data of a timestamp: four bytes for seconds alone, eight with nanoseconds, twelve when the
seconds need more than 34 bits. -/
def timestampData (seconds : Int) (nanoseconds : Nat) : List UInt8 :=
  if 0 ≤ seconds ∧ seconds < 0x400000000 then
    if nanoseconds = 0 ∧ seconds < 0x100000000 then bigEndian 4 seconds.toNat
    else bigEndian 8 (nanoseconds * 0x400000000 + seconds.toNat)
  else bigEndian 4 nanoseconds ++ bigEndian 8 (seconds % 0x10000000000000000).toNat

/-- How deep a value may be nested. -/
def depthLimit : Nat := 512

mutual

/-- A value packed, where `room` levels are left. -/
def packWithin : (room : Nat) → Value → Except PackError (List UInt8)
  | 0, _ => .error .tooDeep
  | _ + 1, .null => .ok [0xc0]
  | _ + 1, .bool false => .ok [0xc2]
  | _ + 1, .bool true => .ok [0xc3]
  | _ + 1, .int n => packInt n
  | _ + 1, .float x => .ok (0xcb :: bigEndian 8 x.bits.toNat)
  | _ + 1, .str s => packText s
  | _ + 1, .bytes bs => .ok (bytesHeader bs.length ++ bs)
  | room + 1, .list items => return arrayHeader items.length ++ (← packAll room items)
  | room + 1, .tuple items => return arrayHeader items.length ++ (← packAll room items)
  | room + 1, .map entries => return mapHeader entries.length ++ (← packEntries room entries)
  | _ + 1, .variant .. => .error .unpackable
  | _ + 1, .ext code data => .ok (packExt (UInt8.ofNat code) data)
  | _ + 1, .timestamp seconds nanoseconds =>
    .ok (packExt 0xff (timestampData seconds nanoseconds))

/-- Items packed one after the other. -/
def packAll (room : Nat) : List Value → Except PackError (List UInt8)
  | [] => .ok []
  | v :: vs => return (← packWithin room v) ++ (← packAll room vs)

/-- Entries packed one after the other, each key before its value. -/
def packEntries (room : Nat) : List (Value × Value) → Except PackError (List UInt8)
  | [] => .ok []
  | (k, v) :: rest =>
    return (← packWithin room k) ++ (← packWithin room v) ++ (← packEntries room rest)

end

/-- The MessagePack form of a value. -/
def pack (v : Value) : Except PackError (List UInt8) := packWithin depthLimit v

end WasmBridge.MessagePack
