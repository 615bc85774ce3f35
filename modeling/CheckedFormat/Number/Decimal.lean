import CheckedFormat.Byte
import CheckedFormat.Number.Rounding
/-! Decimal digits of exact ratios.

A ratio is written in two shapes, with a fixed number of places after the point or
with a fixed number of significant digits and an exponent. Both round the exact
value once, half to even. -/
namespace CheckedFormat

/-- The decimal numeral of a number, as bytes. -/
def decimalNumeral (n : Nat) : List Byte := (Nat.toDigits 10 n).map Char.toUInt8

/-- A numeral with zeros in front up to a number of digits. -/
def paddedNumeral (digits n : Nat) : List Byte :=
  let numeral := decimalNumeral n
  List.replicate (digits - numeral.length) 48 ++ numeral

namespace Ratio

/-- The exponent of the highest power of ten that is not above a positive ratio. -/
def floorLog10 (r : Ratio) : Int :=
  let k : Int := (Nat.toDigits 10 r.num).length - (Nat.toDigits 10 r.den).length
  let s := r.scale 10 (-k)
  if s.den ≤ s.num then k else k - 1

/-- The ratio with `places` digits after the point; there is no point without
digits behind it. -/
def fixed (r : Ratio) (places : Nat) : List Byte :=
  let numeral := paddedNumeral (places + 1) (r.scale 10 places).round
  let whole := numeral.take (numeral.length - places)
  if places = 0 then whole
  else whole ++ 46 :: numeral.drop (numeral.length - places)

/-- The first `places + 1` significant digits as a whole number, and the decimal
exponent of the first one. Rounding up to a further digit moves the exponent. -/
def significant (r : Ratio) (places : Nat) : Nat × Int :=
  if r.num = 0 then (0, 0)
  else
    let exponent := r.floorLog10
    let digits := (r.scale 10 (places - exponent)).round
    if digits = Nat.pow 10 (places + 1) then (Nat.pow 10 places, exponent + 1) else (digits, exponent)

/-- One digit, the point, and `places` further digits. -/
def mantissa (r : Ratio) (places : Nat) : List Byte :=
  let numeral := paddedNumeral (places + 1) (r.significant places).1
  if places = 0 then numeral
  else numeral.take 1 ++ 46 :: numeral.drop 1

end Ratio

/-- Drops the zeros at the end of the digits after a point, and then a point that
has none. A numeral without a point stays as it is. -/
def stripTrailingZeros (numeral : List Byte) : List Byte :=
  if numeral.contains 46 then
    let kept := numeral.reverse.dropWhile (· == 48)
    (if kept.head? == some 46 then kept.drop 1 else kept).reverse
  else numeral

end CheckedFormat
