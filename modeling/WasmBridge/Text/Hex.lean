import WasmBridge.Text.Basic

/-!
# Hexadecimal digits

Lower-case hexadecimal: of numbers, padded to a width where a format asks for one, and of byte
strings, two digits a byte.
-/

namespace WasmBridge.Text

/-- The lower-case digit of a number below sixteen. -/
def hexDigit (n : Nat) : Char :=
  if n < 10 then Char.ofNat (0x30 + n) else Char.ofNat (0x57 + n)

/-- The value of a hexadecimal digit of either case. -/
def hexValue? : Code → Option Nat
  | .half _ => none
  | .char c =>
    if '0' ≤ c && c ≤ '9' then some (c.toNat - 0x30)
    else if 'a' ≤ c && c ≤ 'f' then some (c.toNat - 0x57)
    else if 'A' ≤ c && c ≤ 'F' then some (c.toNat - 0x37)
    else none

/-- Exactly `width` digits of `n`, high digits first. -/
def hexPadded : (width : Nat) → (n : Nat) → Text
  | 0, _ => []
  | w + 1, n => hexPadded w (n / 16) ++ [.char (hexDigit (n % 16))]

/-- The digits of `n` without leading zeros. -/
def hexNat (n : Nat) : Text := (Nat.toDigits 16 n).map .char

/-- An address with its mark: `0x10`, and `-0x5` below zero. -/
def address (n : Int) : Text :=
  if n < 0 then "-0x" ++ hexNat n.natAbs else "0x" ++ hexNat n.natAbs

/-- Two digits a byte. -/
def hexBytes (bytes : List UInt8) : Text := bytes.flatMap fun b => hexPadded 2 b.toNat

/-- The bytes of a text of digit pairs; nothing if a character is no digit or one is left over. -/
def bytesOfHex? : Text → Option (List UInt8)
  | [] => some []
  | [_] => none
  | a :: b :: rest => do
    let high ← hexValue? a
    let low ← hexValue? b
    let bytes ← bytesOfHex? rest
    return UInt8.ofNat (16 * high + low) :: bytes

end WasmBridge.Text
