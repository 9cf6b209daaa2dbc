/-!
# Binary floating-point numbers

Numbers of 64 bits: a sign, an exponent of 11 bits and a fraction of 52 bits. They are held as
their bits, so that equal numbers that differ stay apart, and all arithmetic on them is exact
arithmetic on integers. There is one NaN: whatever is read as a NaN becomes that one.
-/

namespace WasmBridge

/-- A floating-point number of 64 bits. -/
structure Binary64 where
  bits : UInt64
  deriving DecidableEq

namespace Binary64

/-- The sign among the bits. -/
def signBit : Nat := 0x8000000000000000

/-- The bit above the fraction: the leading bit of a significand with all its 53 bits. -/
def leadingBit : Nat := 0x10000000000000

/-- The number is negative, or the negative zero. -/
def isNegative (x : Binary64) : Bool := signBit ≤ x.bits.toNat

/-- The biased exponent. -/
def exponentField (x : Binary64) : Nat := x.bits.toNat / leadingBit % 0x800

/-- The digits behind the point of the significand. -/
def fractionField (x : Binary64) : Nat := x.bits.toNat % leadingBit

/-- Neither infinite nor NaN. -/
def isFinite (x : Binary64) : Bool := x.exponentField ≠ 2047

/-- Not a number. -/
def isNaN (x : Binary64) : Bool := x.exponentField = 2047 && x.fractionField ≠ 0

/-- Put together from sign, biased exponent and fraction. -/
def ofFields (negative : Bool) (exponent fraction : Nat) : Binary64 :=
  ⟨UInt64.ofNat ((if negative then signBit else 0) + exponent * leadingBit + fraction)⟩

/-- The one NaN. -/
def nan : Binary64 := ofFields false 2047 (leadingBit / 2)

/-- The number that 64 bits stand for. -/
def ofBits (bits : UInt64) : Binary64 := if isNaN ⟨bits⟩ then nan else ⟨bits⟩

/-- The significand of a finite number as an integer: the number is this times `2 ^ exponent`. -/
def significand (x : Binary64) : Nat :=
  if x.exponentField = 0 then x.fractionField else leadingBit + x.fractionField

/-- The exponent of a finite number, counted from `2 ^ (-1074)`: never below zero. -/
def scale (x : Binary64) : Nat := x.exponentField - 1

/-- A finite number times `2 ^ 1074`, which is an integer. -/
def scaled (x : Binary64) : Int :=
  let magnitude : Int := (x.significand * Nat.pow 2 x.scale : Nat)
  if x.isNegative then -magnitude else magnitude

/-- An integer on the same scale. -/
def scaleInt (n : Int) : Int := n * Nat.pow 2 1074

/-- Equal as numbers: the zeros are equal to each other, the NaN to nothing. -/
def equals (x y : Binary64) : Bool :=
  !x.isNaN && !y.isNaN &&
    (x.bits == y.bits || (x.isFinite && y.isFinite && x.scaled == y.scaled))

/-- Equal to an integer. -/
def equalsInt (x : Binary64) (n : Int) : Bool := x.isFinite && x.scaled == scaleInt n

/-- A place in the order of numbers: below all, finite, above all. -/
def place (x : Binary64) : Int × Int :=
  if x.isFinite then (0, x.scaled) else (if x.isNegative then -1 else 1, 0)

/-- The place of an integer. -/
def placeInt (n : Int) : Int × Int := (0, scaleInt n)

/-- `n / 2 ^ shift` rounded to the nearest integer, a half to the even neighbour. -/
def shiftRound (n shift : Nat) : Nat :=
  let unit := Nat.pow 2 shift
  let quotient := n / unit
  let rest := n % unit
  if unit < 2 * rest ∨ (2 * rest = unit ∧ quotient % 2 = 1) then quotient + 1
  else quotient

/-- The number nearest to an integer, a half going to the even neighbour; none beyond the greatest
finite number. -/
def ofInt? (n : Int) : Option Binary64 :=
  let magnitude := n.natAbs
  if magnitude = 0 then some (ofFields false 0 0)
  else
    let width := magnitude.log2 + 1
    let (significand, shift) :=
      if width ≤ 53 then (magnitude * Nat.pow 2 (53 - width), 0)
      else (shiftRound magnitude (width - 53), width - 53)
    let carried := significand = 2 * leadingBit
    let exponent :=
      if width ≤ 53 then width + 1022 else shift + 1075 + (if carried then 1 else 0)
    if 2047 ≤ exponent then none
    else some (ofFields (n < 0) exponent (if carried then 0 else significand - leadingBit))

/-- The number that 32 bits stand for, with 8 of exponent and 23 of fraction; every one of them is a
number of 64 bits too. -/
def ofBinary32 (bits : UInt32) : Binary64 :=
  let n := bits.toNat
  let negative : Bool := 0x80000000 ≤ n
  let exponent := n / 0x800000 % 0x100
  let fraction := n % 0x800000
  if exponent = 255 then
    if fraction = 0 then ofFields negative 2047 0 else nan
  else if exponent = 0 then
    if fraction = 0 then ofFields negative 0 0
    else
      let top := fraction.log2
      ofFields negative (top + 874) ((fraction - Nat.pow 2 top) * Nat.pow 2 (52 - top))
  else ofFields negative (exponent + 896) (fraction * 0x20000000)

end Binary64

end WasmBridge
