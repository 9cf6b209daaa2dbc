import WasmBridge.Wire.MessagePack.Error
import WasmBridge.Wire.MessagePack.Pack

/-!
# Unpacking

The value of some bytes that are exactly one MessagePack value. All forms are read, the shortest or
not. Input is read from left to right and the first problem wins: the depth and the length of a
container are judged at its header, a map key when its value has been read.

A byte is consumed by every value, so fuel of twice the number of bytes is never used up.
-/

namespace WasmBridge.MessagePack

/-- What goes wrong while reading: the bytes are not well formed, or a map has a key that no map can
have. -/
inductive ReadError where
  | malformed (cause : Malformation)
  | unhashableKey
  deriving DecidableEq

/-- What is told of what goes wrong. -/
def ReadError.told : ReadError → UnpackError
  | malformed cause => .malformed cause.message
  | unhashableKey => .unhashableKey

/-- What a step of reading gives: what was read, and the bytes behind it. -/
abbrev Step (α : Type) := α × List UInt8

/-- The first `n` bytes. -/
def takeBytes (n : Nat) (input : List UInt8) : Except ReadError (Step (List UInt8)) :=
  let taken := input.take n
  if taken.length < n then .error (.malformed .incomplete) else .ok (taken, input.drop n)

/-- A number of `width` bytes without sign. -/
def readNat (width : Nat) (input : List UInt8) : Except ReadError (Step Nat) := do
  let (bytes, rest) ← takeBytes width input
  return (bigEndianValue bytes, rest)

/-- The number with sign that has the given bits. -/
def signedValue (width n : Nat) : Int :=
  if n < Nat.pow 2 (8 * width - 1) then n else (n : Int) - Nat.pow 2 (8 * width)

/-- A number of `width` bytes with sign. -/
def readInt (width : Nat) (input : List UInt8) : Except ReadError (Step Value) := do
  let (n, rest) ← readNat width input
  return (.int (signedValue width n), rest)

/-- A text of `n` bytes. -/
def readText (n : Nat) (input : List UInt8) : Except ReadError (Step Value) := do
  let (bytes, rest) ← takeBytes n input
  match String.fromUTF8? ⟨bytes.toArray⟩ with
  | some s => return (.str s, rest)
  | none => .error (.malformed .invalidText)

/-- A byte string of `n` bytes. -/
def readBytes (n : Nat) (input : List UInt8) : Except ReadError (Step Value) := do
  let (bytes, rest) ← takeBytes n input
  return (.bytes bytes, rest)

/-- The timestamp of the data of an extension. -/
def timestampOf (data : List UInt8) : Except ReadError Value :=
  let make (seconds : Int) (nanoseconds : Nat) : Except ReadError Value :=
    if nanoseconds ≤ 999999999 then .ok (.timestamp seconds nanoseconds)
    else .error (.malformed .timestampNanoseconds)
  if data.length = 4 then make (bigEndianValue data) 0
  else if data.length = 8 then
    make (bigEndianValue data % 0x400000000 : Nat) (bigEndianValue data / 0x400000000)
  else if data.length = 12 then
    make (signedValue 8 (bigEndianValue (data.drop 4))) (bigEndianValue (data.take 4))
  else .error (.malformed (.timestampLength data.length))

/-- An extension of `n` bytes of data. Type `-1` is a timestamp, no other type is negative. -/
def readExt (n : Nat) (input : List UInt8) : Except ReadError (Step Value) := do
  let (type, rest) ← readNat 1 input
  let (data, rest) ← takeBytes n rest
  if type < 128 then return (.ext type data, rest)
  else if type = 255 then return (← timestampOf data, rest)
  else .error (.malformed .extensionCode)

/-- The limits that hold for a whole input: an array may announce as many items as there are bytes,
a map half as many entries. -/
structure Limits where
  items : Nat
  entries : Nat

/-- The limits of an input. -/
def Limits.of (input : List UInt8) : Limits := ⟨input.length, input.length / 2⟩

/-- How many arrays and maps may be open. -/
def openLimit : Nat := 1024

/-- Whether an array of `count` items may be opened inside `depth` open containers. -/
def admitArray (limits : Limits) (depth count : Nat) : Except ReadError Unit :=
  if openLimit ≤ depth then .error (.malformed .tooDeep)
  else if limits.items < count then .error (.malformed (.arrayTooLong count limits.items))
  else .ok ()

/-- Whether a map of `count` entries may be opened inside `depth` open containers. -/
def admitMap (limits : Limits) (depth count : Nat) : Except ReadError Unit :=
  if openLimit ≤ depth then .error (.malformed .tooDeep)
  else if limits.entries < count then .error (.malformed (.mapTooLong count limits.entries))
  else .ok ()

mutual

/-- The value at the start of some bytes, inside `depth` open containers. -/
def readValue (limits : Limits) :
    (fuel depth : Nat) → List UInt8 → Except ReadError (Step Value)
  | 0, _, _ | _, _, [] => .error (.malformed .incomplete)
  | fuel + 1, depth, first :: rest =>
    let b := first.toNat
    let array (count : Nat) (rest : List UInt8) : Except ReadError (Step Value) := do
      admitArray limits depth count
      let (items, rest) ← readItems limits fuel (depth + 1) count rest
      return (.list items, rest)
    let map (count : Nat) (rest : List UInt8) : Except ReadError (Step Value) := do
      admitMap limits depth count
      let (entries, rest) ← readEntries limits fuel (depth + 1) count [] rest
      return (.map entries, rest)
    if b < 0x80 then .ok (.int b, rest)
    else if b < 0x90 then map (b - 0x80) rest
    else if b < 0xa0 then array (b - 0x90) rest
    else if b < 0xc0 then readText (b - 0xa0) rest
    else if 0xe0 ≤ b then .ok (.int ((b : Int) - 0x100), rest)
    else
      match b with
      | 0xc0 => .ok (.null, rest)
      | 0xc2 => .ok (.bool false, rest)
      | 0xc3 => .ok (.bool true, rest)
      | 0xc4 => do let (n, rest) ← readNat 1 rest; readBytes n rest
      | 0xc5 => do let (n, rest) ← readNat 2 rest; readBytes n rest
      | 0xc6 => do let (n, rest) ← readNat 4 rest; readBytes n rest
      | 0xc7 => do let (n, rest) ← readNat 1 rest; readExt n rest
      | 0xc8 => do let (n, rest) ← readNat 2 rest; readExt n rest
      | 0xc9 => do let (n, rest) ← readNat 4 rest; readExt n rest
      | 0xca => do
        let (n, rest) ← readNat 4 rest
        return (.float (Binary64.ofBinary32 (UInt32.ofNat n)), rest)
      | 0xcb => do
        let (n, rest) ← readNat 8 rest
        return (.float (Binary64.ofBits (UInt64.ofNat n)), rest)
      | 0xcc => do let (n, rest) ← readNat 1 rest; return (.int n, rest)
      | 0xcd => do let (n, rest) ← readNat 2 rest; return (.int n, rest)
      | 0xce => do let (n, rest) ← readNat 4 rest; return (.int n, rest)
      | 0xcf => do let (n, rest) ← readNat 8 rest; return (.int n, rest)
      | 0xd0 => readInt 1 rest
      | 0xd1 => readInt 2 rest
      | 0xd2 => readInt 4 rest
      | 0xd3 => readInt 8 rest
      | 0xd4 => readExt 1 rest
      | 0xd5 => readExt 2 rest
      | 0xd6 => readExt 4 rest
      | 0xd7 => readExt 8 rest
      | 0xd8 => readExt 16 rest
      | 0xd9 => do let (n, rest) ← readNat 1 rest; readText n rest
      | 0xda => do let (n, rest) ← readNat 2 rest; readText n rest
      | 0xdb => do let (n, rest) ← readNat 4 rest; readText n rest
      | 0xdc => do let (n, rest) ← readNat 2 rest; array n rest
      | 0xdd => do let (n, rest) ← readNat 4 rest; array n rest
      | 0xde => do let (n, rest) ← readNat 2 rest; map n rest
      | 0xdf => do let (n, rest) ← readNat 4 rest; map n rest
      | _ => .error (.malformed .unusedByte)
  termination_by structural fuel => fuel

/-- Values one after the other. -/
def readItems (limits : Limits) :
    (fuel depth count : Nat) → List UInt8 → Except ReadError (Step (List Value))
  | _, _, 0, input => .ok ([], input)
  | 0, _, _, _ => .error (.malformed .incomplete)
  | fuel + 1, depth, count + 1, input => do
    let (item, rest) ← readValue limits fuel depth input
    let (items, rest) ← readItems limits fuel depth count rest
    return (item :: items, rest)

/-- Keys and values in turn, stored to the entries read so far. -/
def readEntries (limits : Limits) :
    (fuel depth count : Nat) → Entries → List UInt8 → Except ReadError (Step Entries)
  | _, _, 0, entries, input => .ok (entries, input)
  | 0, _, _, _, _ => .error (.malformed .incomplete)
  | fuel + 1, depth, count + 1, entries, input => do
    let (key, rest) ← readValue limits fuel depth input
    let (value, rest) ← readValue limits fuel depth rest
    if key.isKey then readEntries limits fuel depth count (entries.put key value) rest
    else .error .unhashableKey

end

/-- The value that some bytes are the MessagePack form of. -/
def unpack (input : List UInt8) : Except ReadError Value := do
  let (value, rest) ← readValue (Limits.of input) (2 * input.length + 1) 0 input
  if rest.isEmpty then return value else .error (.malformed .extraData)

/-- MessagePack, as the codec is given it when programs are run. -/
def format : PackFormat where
  pack := pack
  unpack input := (unpack input).mapError ReadError.told

theorem format_unpack (input : List UInt8) :
    format.unpack input = (unpack input).mapError ReadError.told := rfl

end WasmBridge.MessagePack
