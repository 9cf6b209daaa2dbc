import WasmBridge.Number.Binary64

/-!
# Decimals as binary numbers

The number of 64 bits that is nearest to a decimal fraction, a half going to the even neighbour.
What is too great becomes infinite and what is too small becomes zero; the arithmetic in between is
exact.
-/

namespace WasmBridge.Binary64

/-- A fraction rounded to the nearest integer, a half to the even neighbour. -/
def roundRatio (numerator denominator : Nat) : Nat :=
  let quotient := numerator / denominator
  let rest := numerator % denominator
  if denominator < 2 * rest ∨ (2 * rest = denominator ∧ quotient % 2 = 1) then quotient + 1
  else quotient

/-- The number nearest to a fraction. It has as many bits behind the point as its size leaves of 53,
and never a bit below `2 ^ (-1074)`. -/
def ofRatio (negative : Bool) (numerator denominator : Nat) : Binary64 :=
  let scaled := numerator * Nat.pow 2 1074
  let shift := (scaled / denominator).log2 + 1 - 53
  let rounded := roundRatio scaled (denominator * Nat.pow 2 shift)
  let (significand, shift) :=
    if rounded = 2 * leadingBit then (leadingBit, shift + 1) else (rounded, shift)
  if significand < leadingBit then ofFields negative 0 significand
  else if 2046 ≤ shift then ofFields negative 2047 0
  else ofFields negative (shift + 1) (significand - leadingBit)

/-- The number nearest to `digits * 10 ^ exponent`. Beyond 310 digits before the point every number
is infinite, and with more than 330 zeros behind it every number is zero. -/
def ofDecimal (negative : Bool) (digits : Nat) (exponent : Int) : Binary64 :=
  let point : Int := (Nat.toDigits 10 digits).length + exponent
  if digits = 0 ∨ point < -330 then ofFields negative 0 0
  else if 310 < point then ofFields negative 2047 0
  else if 0 ≤ exponent then ofRatio negative (digits * Nat.pow 10 exponent.toNat) 1
  else ofRatio negative digits (Nat.pow 10 exponent.natAbs)

end WasmBridge.Binary64
