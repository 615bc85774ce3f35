import CheckedFormat.Json.Token
import CheckedFormat.Word
import CheckedFormat.Number.Shortest
/-! The numbers of a JSON text.

A numeral without point and exponent is a whole number as long as it fits 64 bits;
every other one is a double. The double is computed from the leading digits that
fit 64 bits and a power of ten, each step rounding: so it is near the written
number but not always the nearest. A double is written with the fewest digits that
read back, always with a point or an exponent. -/
namespace CheckedFormat
namespace Json

inductive Number where
  | natural (n : Nat)
  /-- A number below zero. -/
  | negative (magnitude : Nat)
  | float (bits : Word)
  deriving DecidableEq, Repr

/-! ### Reading -/

/-- Digits taken into a significand that stays within 64 bits. -/
structure Significand where
  value : Nat
  /-- How many digits were left out, from the first one that did not fit on. -/
  dropped : Nat
  deriving DecidableEq, Repr

namespace Significand

/-- Takes one more digit, unless digits were dropped before it or it does not fit. -/
def push (s : Significand) (digit : Byte) : Significand :=
  let value := s.value * 10 + (digit.toNat - 48)
  if s.dropped = 0 ∧ value ≤ wordMax then { s with value } else { s with dropped := s.dropped + 1 }

def pushAll (s : Significand) (digits : List Byte) : Significand := digits.foldl push s

end Significand

/-- The double nearest to a ratio, as bits of a magnitude. -/
def nearestDouble (r : Ratio) : Nat := FloatFormat.binary64.nearest r

def powerOfTen (n : Nat) : Nat := nearestDouble ⟨Nat.pow 10 n, 1⟩

/-- The exact value of a finite double. -/
def exactly (bits : Nat) : Ratio := (FloatFormat.binary64.ratio? bits).getD ⟨0, 1⟩

def times (a b : Nat) : Nat :=
  nearestDouble ⟨(exactly a).num * (exactly b).num, (exactly a).den * (exactly b).den⟩

def dividedBy (a b : Nat) : Nat :=
  nearestDouble ⟨(exactly a).num * (exactly b).den, (exactly a).den * (exactly b).num⟩

/-- The largest power of ten that is used at once. -/
def largestPower : Nat := 308

/-- A double divided by a power of ten. Large powers are divided out in steps, which
stop when nothing is left. -/
def shrink (double : Nat) (n : Nat) : Nat :=
  if n ≤ largestPower then dividedBy double (powerOfTen n)
  else if double = 0 then 0
  else shrink (dividedBy double (powerOfTen largestPower)) (n - largestPower)
  termination_by n
  decreasing_by simp_wf; simp only [largestPower] at *; omega

/-- A double times a power of ten, unless it is too large to be one. -/
def grow? (double : Nat) (n : Nat) : Option Nat :=
  if n ≤ largestPower then
    let product := times double (powerOfTen n)
    if product = FloatFormat.binary64.infinityBits then none else some product
  else if double = 0 then some 0
  else none

def scale? (significand : Nat) (exponent : Int) : Option Nat :=
  let double := nearestDouble ⟨significand, 1⟩
  if exponent < 0 then some (shrink double exponent.natAbs) else grow? double exponent.natAbs

/-- An exponent held at the bounds of 32 bits. -/
def clampExponent (e : Int) : Int := max (-intMax - 1) (min e intMax)

def decimalValue (digits : List Byte) : Nat :=
  digits.foldl (fun n d => n * 10 + (d.toNat - 48)) 0

/-- The magnitude of a numeral with a point or an exponent, or too long for a whole
number. Digits behind the point are tried anew, even where some before it did not
fit. A written exponent out of all bounds makes it zero or too large. -/
def magnitude? (n : Numeral) : Option Nat :=
  let whole := Significand.pushAll ⟨0, 0⟩ n.whole
  let fraction := n.fraction.getD []
  let all := Significand.pushAll ⟨whole.value, 0⟩ fraction
  let taken := fraction.length - all.dropped
  let exponent : Int := whole.dropped - taken
  match n.exponent with
  | none => scale? all.value exponent
  | some (negative, digits) =>
    let written := decimalValue digits
    if intMax < written then
      if all.value ≠ 0 ∧ !negative then none else some 0
    else
      scale? all.value (clampExponent (if negative then exponent - written else exponent + written))

/-- Whether a numeral is written as a whole number. -/
def Numeral.isWhole (n : Numeral) : Bool := n.fraction.isNone && n.exponent.isNone

/-- What a numeral stands for; none when it is too large for a double. Minus zero is
a double. -/
def Numeral.value? (n : Numeral) : Option Number :=
  let whole := decimalValue n.whole
  if n.isWhole && !n.negative && whole ≤ wordMax then some (.natural whole)
  else if n.isWhole && n.negative && 0 < whole && whole ≤ longMax + 1 then some (.negative whole)
  else
    (magnitude? n).map fun bits =>
      .float (BitVec.ofNat 64 (FloatFormat.binary64.withSign n.negative bits))

/-! ### Writing -/

/-- A decimal in the shape that JSON gives doubles: positional from 10⁻⁵ up to 10¹⁶,
with a point in any case, and with an exponent and its sign outside. -/
def decimalText (d : Decimal) : List Byte :=
  let numeral := decimalNumeral d.digits
  let length : Int := numeral.length
  let point := length + d.exponent
  if 0 ≤ d.exponent ∧ point ≤ 16 then d.positional ++ ascii ".0"
  else if -5 < point ∧ point ≤ 16 then d.positional
  else
    let fraction := if numeral.length = 1 then [] else 46 :: numeral.drop 1
    numeral.take 1 ++ fraction ++ 101 :: (if 0 < point then 43 else 45) ::
      decimalNumeral (point - 1).natAbs

/-- A finite double. -/
def floatText (negative : Bool) (significand : Nat) (exponent : Int) : List Byte :=
  ascii (if negative then "-" else "") ++
    if significand = 0 then ascii "0.0"
    else decimalText (Shortest.digits FloatFormat.binary64 .toEven significand exponent)

/-- The text of a number. What is no number in JSON is null. -/
def Number.text : Number → List Byte
  | natural n => decimalNumeral n
  | negative n => 45 :: decimalNumeral n
  | float bits =>
    match FloatFormat.binary64.decode bits.toNat with
    | .finite sign significand exponent => floatText sign significand exponent
    | _ => ascii "null"

end Json
end CheckedFormat
