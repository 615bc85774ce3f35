import CheckedFormat.Field.Placement
import CheckedFormat.Number.Decimal
import CheckedFormat.Number.Float
/-! Fields of floating-point numbers.

The digits are those of the exact binary value. The general style picks one of the
other two by the decimal exponent that remains after rounding, and drops zeros at
the end unless `#` asks for them; `#` also keeps a point without digits behind it.
Infinities and NaNs are words and never filled with zeros. -/
namespace CheckedFormat

/-- How a finite number is written. -/
inductive FloatStyle where
  /-- Digits with a point. -/
  | fixed
  /-- One digit before the point, and an exponent. -/
  | scientific
  /-- Whichever of the two suits the exponent. -/
  | general
  deriving DecidableEq, Repr

/-- A style and the case of its letters. -/
structure FloatForm where
  style : FloatStyle
  upper : Bool
  deriving DecidableEq, Repr

/-- The form that a conversion letter names; a letter that names none means fixed. -/
def FloatForm.ofLetter (letter : Byte) : FloatForm where
  style :=
    match Conversion.ofLetter? letter with
    | some .e | some .E => .scientific
    | some .g | some .G => .general
    | _ => .fixed
  upper := letter.isUpper

namespace Field

/-- The point that `#` keeps when no digits follow it. -/
def barePoint (alternative : Bool) (places : Nat) : List Byte :=
  if alternative && places == 0 then ascii "." else []

def fixedText (value : Ratio) (places : Nat) (alternative : Bool) : List Byte :=
  value.fixed places ++ barePoint alternative places

/-- An exponent: its letter, its sign, and at least two digits. -/
def exponentText (exponent : Int) (upper : Bool) : List Byte :=
  ascii (if upper then "E" else "e") ++ ascii (if exponent < 0 then "-" else "+") ++
    paddedNumeral 2 exponent.natAbs

def scientificText (value : Ratio) (places : Nat) (upper alternative : Bool) : List Byte :=
  value.mantissa places ++ barePoint alternative places ++
    exponentText (value.significant places).2 upper

/-- The general style with `digits` significant digits, at least one. -/
def generalText (value : Ratio) (digits : Nat) (upper alternative : Bool) : List Byte :=
  let digits := max digits 1
  let exponent := (value.significant (digits - 1)).2
  if -4 ≤ exponent ∧ exponent < digits then
    let places := (digits - 1 - exponent).toNat
    if alternative then fixedText value places true
    else stripTrailingZeros (value.fixed places)
  else if alternative then scientificText value (digits - 1) upper true
  else
    stripTrailingZeros (value.mantissa (digits - 1)) ++ exponentText exponent upper

/-- The magnitude of a finite number. -/
def finiteText (value : Ratio) (form : FloatForm) (places : Nat) (alternative : Bool) : List Byte :=
  match form.style with
  | .fixed => fixedText value places alternative
  | .scientific => scientificText value places form.upper alternative
  | .general => generalText value places form.upper alternative

def word (text : String) (upper : Bool) : List Byte :=
  if upper then (ascii text).map Byte.upper else ascii text

/-- The body of a double, given by its bits. -/
def floatBody (bits : Word) (form : FloatForm) (layout : Layout) : Body :=
  let value := FloatFormat.binary64.decode bits.toNat
  let lead := layout.flags.sign value.isNegative
  match value with
  | .nan _ => ⟨lead, word "nan" form.upper, false⟩
  | .infinite _ => ⟨lead, word "inf" form.upper, false⟩
  | .finite _ significand exponent =>
    ⟨lead, finiteText (Ratio.ofBinary significand exponent) form (layout.precision.getD 6)
      layout.flags.alternative, true⟩

def float (bits : Word) (form : FloatForm) (layout : Layout) : List Byte :=
  (floatBody bits form layout).placeIn layout

end Field
end CheckedFormat
