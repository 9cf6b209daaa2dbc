import WasmBridge.Text.Hex
import WasmBridge.Wire.Codec

/-!
# Boundary errors

What can go wrong between guest and host: a number that is no pointer, an access outside the live
blocks, an asynchronous call that is resolved at the wrong moment, or a value that the codec
refuses.
-/

namespace WasmBridge

open Text

/-- What can go wrong at the boundary. -/
inductive BoundaryError where
  | pointerRange (pointer : Int)
  | lengthRange (length : Int)
  | fatPointerRange (fat : Int)
  /-- A block cannot be rounded to multiples of zero. -/
  | zeroAlign
  /-- A memory cannot have, nor grow by, a negative number of bytes. -/
  | negativeSize
  /-- A number of bytes that needs more than 64 bits. -/
  | sizeRange
  /-- More bytes than a memory can have. -/
  | outOfMemory
  | freeUnallocated (pointer : Int)
  | writeTooLong (bytes room : Int)
  | outsideLive (bytes pointer : Int)
  /-- A word lies outside the memory, or a number does not fit a word. -/
  | wordAccess
  /-- An offset to read a word at that needs more than 64 bits. -/
  | readOffsetRange
  /-- An offset to write a word at that needs more than 64 bits. -/
  | writeOffsetRange
  | alreadyAssigned (fat : Int)
  | alreadyConsumed (fat : Int)
  | notReady
  | unexpectedStatus (status : Int)
  | alreadyRegistered (fat : Int)
  | unknownPromise
  | promiseNotReady
  | codec (cause : CodecError)

/-- The wording of the causes that have one of their own. -/
def BoundaryError.message? : BoundaryError → Option Text
  | pointerRange pointer => some ("Pointer out of 32-bit range: " ++ toString pointer)
  | lengthRange length => some ("Length out of 32-bit range: " ++ toString length)
  | fatPointerRange fat => some ("FatPtr out of 64-bit range: " ++ toString fat)
  | zeroAlign | sizeRange | outOfMemory | wordAccess | readOffsetRange | writeOffsetRange
  | codec _ => none
  | negativeSize => some "negative count"
  | freeUnallocated pointer => some ("Free of unallocated pointer " ++ address pointer)
  | writeTooLong bytes room =>
    some ("Write of " ++ toString bytes ++ " bytes into " ++ toString room ++ "-byte buffer")
  | outsideLive bytes pointer =>
    some ("Access of " ++ toString bytes ++ " bytes at " ++ address pointer ++
      " outside live allocations")
  | alreadyAssigned fat => some ("Async value " ++ address fat ++ " was already assigned")
  | alreadyConsumed fat => some ("Async value " ++ address fat ++ " was already consumed")
  | notReady => some "Tried to read async value that is not ready"
  | unexpectedStatus status => some ("Unexpected status: " ++ toString status)
  | alreadyRegistered fat => some ("Async value " ++ address fat ++ " is already registered")
  | unknownPromise => some "Tried to resolve unknown promise"
  | promiseNotReady => some "Tried to resolve promise that is not ready"

end WasmBridge
