import WasmBridge.Number.Binary64
import WasmBridge.Text.Basic

/-!
# Shortest decimal text

A finite number is written with the fewest significant digits that read back as the same number,
and of those the nearest to it. On the grid of decimals with `n` significant digits the two
neighbours of the number are tried, for `n = 1, 2, …, 17`; the first grid with a neighbour in the
interval that rounds to the number wins. All of it is exact arithmetic on fractions.
-/

namespace WasmBridge.Binary64

/-- The fraction `numerator / denominator`, multiplied by ten to the power `k`. -/
def scaleTen (numerator denominator : Nat) (k : Int) : Nat × Nat :=
  if 0 ≤ k then (numerator * Nat.pow 10 k.toNat, denominator)
  else (numerator, denominator * Nat.pow 10 k.natAbs)

/-- The number of digits before the point of a positive fraction; zero or below when it is less
than one tenth. -/
def pointPosition (numerator denominator : Nat) : Int :=
  let guess : Int :=
    ((Nat.toDigits 10 numerator).length : Int) - (Nat.toDigits 10 denominator).length
  let (n, d) := scaleTen numerator denominator (-guess)
  if d ≤ n then guess + 1 else guess

/-- Digits of a positive finite number: an integer and the power of ten it is multiplied by. -/
def shortestDigits (x : Binary64) : Nat × Int :=
  let denominator := Nat.pow 2 1076
  let unit := Nat.pow 2 x.scale
  let value := 4 * x.significand * unit
  let below := if x.fractionField = 0 ∧ 1 < x.exponentField then value - unit else value - 2 * unit
  let above := value + 2 * unit
  let inclusive := x.significand % 2 = 0
  let point := pointPosition value denominator
  let candidate (n : Nat) : Option (Nat × Int) :=
    let power : Int := point - n
    let (num, den) := scaleTen value denominator (-power)
    let (lowNum, _) := scaleTen below denominator (-power)
    let (highNum, _) := scaleTen above denominator (-power)
    let floor := num / den
    let fits (d : Nat) : Bool :=
      if inclusive then lowNum ≤ d * den && d * den ≤ highNum
      else lowNum < d * den && d * den < highNum
    let floorNearer : Bool :=
      2 * (num - floor * den) < den || (2 * (num - floor * den) = den && floor % 2 = 0)
    match fits floor, fits (floor + 1) with
    | true, true => some (if floorNearer then floor else floor + 1, power)
    | true, false => some (floor, power)
    | false, true => some (floor + 1, power)
    | false, false => none
  ((List.range 17).findSome? fun n => candidate (n + 1)).getD (0, 0)

/-- How a decimal is laid out. -/
structure Layout where
  /-- Positional up to this many digits before the point. -/
  mostBefore : Int
  /-- Positional down to this many zeros behind the point. -/
  mostZeros : Int
  /-- The least number of digits of an exponent. -/
  exponentWidth : Nat

/-- Numbers stand positionally from `0.0001` up to sixteen digits before the point; integers keep
`.0`; others have a signed exponent of at least two digits. -/
def layout : Layout := ⟨16, 3, 2⟩

/-- Zeros in front up to a width. -/
def padZeros (width : Nat) (digits : List Char) : List Char :=
  List.replicate (width - digits.length) '0' ++ digits

/-- Digits laid out around the point, which stands `point` digits behind the start of them. -/
def placePoint (layout : Layout) (digits : List Char) (point : Int) : List Char :=
  if point > layout.mostBefore ∨ point < -layout.mostZeros then
    let exponent := point - 1
    let mantissa :=
      match digits with
      | [] => []
      | [d] => [d]
      | d :: rest => d :: '.' :: rest
    let sign := if exponent < 0 then '-' else '+'
    mantissa ++ 'e' :: sign :: padZeros layout.exponentWidth (Nat.toDigits 10 exponent.natAbs)
  else if point ≤ 0 then '0' :: '.' :: List.replicate point.natAbs '0' ++ digits
  else
    let whole := point.toNat
    if digits.length ≤ whole then
      digits ++ List.replicate (whole - digits.length) '0' ++ ['.', '0']
    else digits.take whole ++ '.' :: digits.drop whole

/-- Digits without the zeros at their end. -/
def stripZeros (digits : List Char) : List Char :=
  (digits.reverse.dropWhile (· = '0')).reverse

/-- The text of a number. -/
def text (x : Binary64) : Text :=
  let sign : Text := if x.isNegative then "-" else ""
  if x.isNaN then "nan"
  else if !x.isFinite then sign ++ "inf"
  else if x.significand = 0 then sign ++ "0.0"
  else
    let (digits, power) := x.shortestDigits
    let all := Nat.toDigits 10 digits
    sign ++ (placePoint layout (stripZeros all) (all.length + power)).map .char

end WasmBridge.Binary64
