import CheckedFormat.Number.Rounding
/-! IEEE 754 floats as bits and as exact numbers.

A format is given by the widths of its two fields. A finite float is a whole
number times a power of two, so every operation here is exact arithmetic followed
by one rounding to the nearest float, ties to the even one (`FloatFormat.nearest`).
Results beyond the largest float are infinite. -/
namespace CheckedFormat

/-- What a float is. -/
inductive FloatValue where
  | nan (negative : Bool)
  | infinite (negative : Bool)
  /-- The number `significand * 2 ^ exponent`, with a sign that zero has too. -/
  | finite (negative : Bool) (significand : Nat) (exponent : Int)
  deriving DecidableEq, Repr

namespace FloatValue

def isNegative : FloatValue → Bool
  | nan negative | infinite negative | finite negative .. => negative

end FloatValue

/-- The widths of the fields of a float. -/
structure FloatFormat where
  fractionBits : Nat
  exponentBits : Nat
  deriving DecidableEq, Repr

namespace FloatFormat

/-- The format of a C `double`. -/
def binary64 : FloatFormat := ⟨52, 11⟩

/-- The format of a C `float`. -/
def binary32 : FloatFormat := ⟨23, 8⟩

/-- How many floats a binade has: one for every fraction. -/
def fractions (f : FloatFormat) : Nat := Nat.pow 2 f.fractionBits

/-- The fraction whose highest bit alone is set; in a NaN that bit means quiet. -/
def quietBit (f : FloatFormat) : Nat := Nat.pow 2 (f.fractionBits - 1)

/-- The exponent of the smallest positive float. -/
def leastExponent (f : FloatFormat) : Int :=
  2 - (Nat.pow 2 (f.exponentBits - 1) : Nat) - f.fractionBits

/-- The exponent field of infinities and NaNs. -/
def topField (f : FloatFormat) : Nat := Nat.pow 2 f.exponentBits - 1

/-- The weight of the sign bit. -/
def signWeight (f : FloatFormat) : Nat := Nat.pow 2 (f.fractionBits + f.exponentBits)

/-- The bits of positive infinity. -/
def infinityBits (f : FloatFormat) : Nat := f.topField * f.fractions

/-- The bits of the positive quiet NaN without payload. -/
def quietNan (f : FloatFormat) : Nat := f.infinityBits + f.quietBit

/-- Adds the sign to the bits of a magnitude. -/
def withSign (f : FloatFormat) (negative : Bool) (magnitude : Nat) : Nat :=
  if negative then f.signWeight + magnitude else magnitude

/-- The bits without the sign. -/
def magnitude (f : FloatFormat) (bits : Nat) : Nat := bits % f.signWeight

def isNegative (f : FloatFormat) (bits : Nat) : Bool := (bits / f.signWeight) % 2 == 1

/-- The bits with the other sign. -/
def negate (f : FloatFormat) (bits : Nat) : Nat :=
  f.withSign (!f.isNegative bits) (f.magnitude bits)

/-- What the bits denote. -/
def decode (f : FloatFormat) (bits : Nat) : FloatValue :=
  let negative := f.isNegative bits
  let field := f.magnitude bits / f.fractions
  let fraction := f.magnitude bits % f.fractions
  if field = f.topField then
    if fraction = 0 then .infinite negative else .nan negative
  else if field = 0 then .finite negative fraction f.leastExponent
  else .finite negative (f.fractions + fraction) (f.leastExponent + (field - 1 : Nat))

/-- The exponent of the highest power of two that is not above a positive ratio. -/
def floorLog2 (r : Ratio) : Int :=
  let k : Int := r.num.log2 - r.den.log2
  let s := r.scale 2 (-k)
  if s.den ≤ s.num then k else k - 1

/-- The bits of the float nearest to a ratio. Counting the floats of one binade
upwards runs on into the next, so the exponent field and the fraction are one sum. -/
def nearest (f : FloatFormat) (r : Ratio) : Nat :=
  if r.num = 0 then 0
  else
    let exponent := max (floorLog2 r - f.fractionBits) f.leastExponent
    let steps := (r.scale 2 (-exponent)).round
    min ((exponent - f.leastExponent).toNat * f.fractions + steps) f.infinityBits

/-- How many fractions of a double there are for one of a float. -/
def fractionGap : Nat := binary64.fractions / binary32.fractions

/-- Rounds a double to a float. A NaN keeps its sign and the high bits of its
payload and becomes quiet. -/
def toSingle (bits : Nat) : Nat :=
  match binary64.decode bits with
  | .finite negative significand exponent =>
    binary32.withSign negative (binary32.nearest (Ratio.ofBinary significand exponent))
  | .infinite negative => binary32.withSign negative binary32.infinityBits
  | .nan negative =>
    let payload := binary64.magnitude bits / fractionGap % binary32.quietBit
    binary32.withSign negative (binary32.quietNan ||| payload)

/-- Widens a float to a double, which holds every float exactly. -/
def toDouble (bits : Nat) : Nat :=
  match binary32.decode bits with
  | .finite negative significand exponent =>
    binary64.withSign negative (binary64.nearest (Ratio.ofBinary significand exponent))
  | .infinite negative => binary64.withSign negative binary64.infinityBits
  | .nan negative =>
    let payload := binary32.magnitude bits % binary32.quietBit * fractionGap
    binary64.withSign negative (binary64.quietNan ||| payload)

/-- The exact value of a finite magnitude. -/
def ratio? (f : FloatFormat) (bits : Nat) : Option Ratio :=
  match f.decode bits with
  | .finite _ significand exponent => some (Ratio.ofBinary significand exponent)
  | _ => none

end FloatFormat
end CheckedFormat
