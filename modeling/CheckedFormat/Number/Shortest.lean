import CheckedFormat.Number.Decimal
import CheckedFormat.Number.Float
/-! The shortest decimal that reads back.

A finite float stands for an interval of numbers that all round to it; its ends
belong to it when the significand is even. For one digit, two digits and so on the
two decimals next to the float are tried, and the first number of digits at which
one lies in the interval wins. Of two that do, the nearer is taken. -/
namespace CheckedFormat

/-- A decimal `digits * 10 ^ exponent`. -/
structure Decimal where
  digits : Nat
  exponent : Int
  deriving DecidableEq, Repr

namespace Shortest

/-- Which of two decimals is taken when both are equally near. -/
inductive Tie where
  | up
  | toEven
  deriving DecidableEq, Repr

/-- A positive float with the numbers that round to it. All bounds are over one
divisor. -/
structure Interval where
  low : Nat
  value : Nat
  high : Nat
  den : Nat
  closed : Bool

/-- The interval of the float `significand * 2 ^ exponent`. Below the lowest float of
a binade the spacing is half of that above, but for the smallest binades. -/
def interval (f : FloatFormat) (significand : Nat) (exponent : Int) : Interval :=
  let narrow := significand = f.fractions ∧ f.leastExponent < exponent
  let r := Ratio.ofBinary 1 (exponent - 2)
  let low := if narrow then 4 * significand - 1 else 4 * significand - 2
  ⟨low * r.num, 4 * significand * r.num, (4 * significand + 2) * r.num, r.den,
    significand % 2 == 0⟩

namespace Interval

/-- Whether `n / d` lies in the interval. -/
def contains (i : Interval) (n d : Nat) : Bool :=
  if i.closed then i.low * d ≤ n * i.den && n * i.den ≤ i.high * d
  else i.low * d < n * i.den && n * i.den < i.high * d

/-- The decimal with a given last place that is nearest to the value, if one of the
two next to it lies in the interval. -/
def atPlace? (i : Interval) (tie : Tie) (place : Int) : Option Decimal :=
  let grid := Ratio.scale ⟨1, 1⟩ 10 place
  let num := i.value * grid.den
  let den := i.den * grid.num
  let below := num / den
  let rest := num % den
  let lowIn := below != 0 && i.contains (below * grid.num) grid.den
  let highIn := i.contains ((below + 1) * grid.num) grid.den
  let highNearer :=
    if 2 * rest = den then tie == .up || below % 2 == 1 else den < 2 * rest
  if lowIn && !(highIn && highNearer) then some ⟨below, place⟩
  else if highIn then some ⟨below + 1, place⟩
  else none

end Interval

/-- Carries a nine that was rounded up to ten. Decimals of more digits never end in
zero, since a shorter one would have been found first. -/
def carry (d : Decimal) : Decimal := if d.digits = 10 then ⟨1, d.exponent + 1⟩ else d

/-- The shortest decimal of a positive float. Seventeen digits always suffice. -/
def digits (f : FloatFormat) (tie : Tie) (significand : Nat) (exponent : Int) : Decimal :=
  let i := interval f significand exponent
  let top := (Ratio.ofBinary significand exponent).floorLog10
  carry (((List.range 18).findSome? fun (n : Nat) => i.atPlace? tie (top - n)).getD
    ⟨i.value / i.den, 0⟩)

end Shortest

namespace Decimal

def zeros (n : Nat) : List Byte := List.replicate n 48

/-- The decimal without an exponent, and without a point when it is whole. -/
def positional (d : Decimal) : List Byte :=
  let numeral := decimalNumeral d.digits
  if 0 ≤ d.exponent then numeral ++ zeros d.exponent.toNat
  else
    let places := (-d.exponent).toNat
    let padded := zeros (places + 1 - numeral.length) ++ numeral
    padded.take (padded.length - places) ++ 46 :: padded.drop (padded.length - places)

end Decimal

namespace FloatFormat

/-- The shortest text of a float without an exponent. -/
def displayText (f : FloatFormat) (bits : Nat) : List Byte :=
  match f.decode bits with
  | .nan _ => ascii "NaN"
  | .infinite negative => ascii (if negative then "-inf" else "inf")
  | .finite negative significand exponent =>
    ascii (if negative then "-" else "") ++
      if significand = 0 then ascii "0"
      else (Shortest.digits f .up significand exponent).positional

end FloatFormat
end CheckedFormat
