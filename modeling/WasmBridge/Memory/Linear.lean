import WasmBridge.Number.BigEndian
import WasmBridge.Memory.FatPtr

/-!
# Linear memory

The guest's memory and its allocator. Blocks are multiples of the alignment. A request takes whole
the earliest freed block that is large enough, and otherwise a new block behind all others, for
which the memory grows by pages. The first block starts at the alignment, so no block is at offset
zero.

An operation keeps what it changed before it failed: a request of negative length leaves its block
live, and a number that does not fit a word leaves the word cleared.
-/

namespace WasmBridge

/-- A part of memory handed out by the allocator. -/
structure Block where
  start : Int
  size : Int
  deriving DecidableEq

/-- The guest's memory. Bytes outside its size are zero. -/
structure LinearMemory where
  byteAt : Int → UInt8
  size : Int
  align : Int
  /-- Where the next new block starts. -/
  next : Int
  live : List Block
  /-- Freed blocks, the earliest freed first. -/
  freed : List Block

/-- An operation on the memory; on failure too it leaves a memory behind. -/
abbrev MemoryOp := EStateM BoundaryError LinearMemory

namespace LinearMemory

/-- The number of bytes in a page. -/
def pageSize : Int := 65536

/-- The number fits 64 bits with sign. -/
def isIndex (n : Int) : Bool := -0x8000000000000000 ≤ n && n < 0x8000000000000000

/-- The most bytes that a memory can have. -/
def capacity : Int := 0x800000000

/-- A memory of `size` bytes can have `count` more. -/
def checkGrowth (size count : Int) : Except BoundaryError Unit :=
  if !isIndex count then .error .sizeRange
  else if count < 0 then .error .negativeSize
  else if capacity < size + count then .error .outOfMemory
  else .ok ()

/-- A memory of some size, all zero and nothing allocated. -/
def create (size align : Int) : Except BoundaryError LinearMemory := do
  checkGrowth 0 size
  return { byteAt := fun _ => 0, size, align, next := align, live := [], freed := [] }

/-- The bytes from `start` on. -/
def bytesFrom (m : LinearMemory) (start : Int) (count : Nat) : List UInt8 :=
  (List.range count).map fun (i : Nat) => m.byteAt (start + i)

/-- The memory with bytes written from `start` on. -/
def setBytes (m : LinearMemory) (start : Int) (bytes : List UInt8) : LinearMemory :=
  let written := bytes.toArray
  { m with
    byteAt := fun a =>
      if start ≤ a ∧ a < start + bytes.length then written.getD (a - start).toNat 0
      else m.byteAt a }

/-- The memory with bytes written over those from `start` on. Bytes that reach beyond its end make
it longer. -/
def overwrite (m : LinearMemory) (start : Int) (bytes : List UInt8) : LinearMemory :=
  let first := min start m.size
  { m.setBytes first bytes with size := max m.size (first + bytes.length) }

/-- A length rounded up to a multiple of the alignment. -/
def round (m : LinearMemory) (length : Int) : Int :=
  Int.fdiv (length + m.align - 1) m.align * m.align

/-- The outcome of an operation that leaves the memory as it is. -/
def orFail {α : Type} : Except BoundaryError α → MemoryOp α
  | .ok a => pure a
  | .error e => throw e

/-- The memory with as many whole pages more as hold `extra` bytes. -/
def grow (extra : Int) : MemoryOp Unit := do
  let count := -Int.fdiv (-extra) pageSize * pageSize
  orFail (checkGrowth (← get).size count)
  modify fun m => { m with size := m.size + count }

/-- The earliest freed block of at least some size, and the others. -/
def takeFreed? (size : Int) : List Block → Option (Block × List Block)
  | [] => none
  | block :: rest =>
    if size ≤ block.size then some (block, rest)
    else (takeFreed? size rest).map fun (found, others) => (found, block :: others)

/-- The memory with a block live. -/
def setLive (m : LinearMemory) (block : Block) : LinearMemory :=
  { m with live := block :: m.live.filter fun b => b.start ≠ block.start }

/-- A block of at least some size, taken from the freed ones or put behind all others. -/
def allocate (size : Int) : MemoryOp Block := do
  let m ← get
  match takeFreed? size m.freed with
  | some (block, others) =>
    set { m with freed := others }
    return block
  | none =>
    if m.size < m.next + size then grow (m.next + size - m.size)
    modify fun m => { m with next := m.next + size }
    return ⟨m.next, size⟩

/-- A fresh buffer of some length. -/
def malloc (length : Int) : MemoryOp Int := do
  let m ← get
  if m.align = 0 then throw .zeroAlign
  let block ← allocate (max (m.round length) m.align)
  modify fun m => m.setLive block
  orFail (FatPtr.pack block.start length)

/-- The live block that starts at an offset. -/
def blockAt? (m : LinearMemory) (start : Int) : Option Block :=
  m.live.find? fun b => b.start = start

/-- Gives back the block that a pointer starts at. -/
def free (fat : Int) : MemoryOp Unit := do
  let (pointer, _) ← orFail (FatPtr.unpack fat)
  let m ← get
  match m.blockAt? pointer with
  | none => throw (.freeUnallocated pointer)
  | some block =>
    set { m with
      live := m.live.filter fun b => b.start ≠ pointer
      freed := m.freed ++ [block] }

/-- A live block starts where the pointer does. -/
def isAllocated (m : LinearMemory) (fat : Int) : Except BoundaryError Bool := do
  let (pointer, _) ← FatPtr.unpack fat
  return (m.blockAt? pointer).isSome

/-- Some bytes lie within one live block. -/
def check (m : LinearMemory) (pointer length : Int) : Except BoundaryError Unit :=
  if m.live.any fun b => b.start ≤ pointer ∧ pointer + length ≤ b.start + b.size then .ok ()
  else .error (.outsideLive length pointer)

/-- The bytes of a buffer. -/
def read (m : LinearMemory) (fat : Int) : Except BoundaryError (List UInt8) := do
  let (pointer, length) ← FatPtr.unpack fat
  m.check pointer length
  return m.bytesFrom pointer length.toNat

/-- Bytes written to the start of a buffer. -/
def write (fat : Int) (payload : List UInt8) : MemoryOp Unit := do
  let (pointer, length) ← orFail (FatPtr.unpack fat)
  if length < payload.length then throw (.writeTooLong payload.length length)
  let m ← get
  orFail (m.check pointer payload.length)
  set (m.overwrite pointer payload)

/-- Where a word at an offset begins; a negative offset counts from the end. -/
def wordStart (m : LinearMemory) (offset : Int) : Except BoundaryError Int :=
  let start := if offset < 0 then m.size + offset else offset
  if start < 0 ∨ m.size < start + 4 then .error .wordAccess else .ok start

/-- The number that four bytes spell, low bytes first. -/
def wordOfBytes (bytes : List UInt8) : Int :=
  bytes.foldr (fun b n => (b.toNat : Int) + 256 * n) 0

/-- Four bytes of a number, low bytes first. -/
def bytesOfWord (n : Int) : List UInt8 := (bigEndian 4 n.toNat).reverse

/-- The word of 32 bits at an offset, whatever lies there. -/
def readWord (m : LinearMemory) (offset : Int) : Except BoundaryError Int := do
  if !isIndex offset then .error .readOffsetRange
  let start ← m.wordStart offset
  return wordOfBytes (m.bytesFrom start 4)

/-- A word of 32 bits written at an offset, whatever lies there. -/
def writeWord (offset value : Int) : MemoryOp Unit := do
  if !isIndex offset then throw .writeOffsetRange
  let m ← get
  let start ← orFail (m.wordStart offset)
  if value < 0 ∨ 0x100000000 ≤ value then
    set (m.setBytes start [0, 0, 0, 0])
    throw .wordAccess
  set (m.setBytes start (bytesOfWord value))

/-- The bytes between two offsets, as far as the memory reaches; negative offsets count from the
end. -/
def slice (m : LinearMemory) (first last : Int) : List UInt8 :=
  let place (offset : Int) : Int :=
    min m.size (if offset < 0 then max 0 (m.size + offset) else offset)
  m.bytesFrom (place first) (place last - place first).toNat

end LinearMemory

end WasmBridge
