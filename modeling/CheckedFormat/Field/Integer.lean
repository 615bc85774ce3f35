import CheckedFormat.Field.Placement
import CheckedFormat.Number.Decimal
/-! Fields of whole numbers.

The digits are the numeral of the magnitude, with zeros in front up to the
precision; zero with precision zero has no digits. `#` marks a hexadecimal number
that is not zero and gives an octal one a leading zero. The `0` flag counts only
when no precision stands in the directive. -/
namespace CheckedFormat

/-- How the digits of an unsigned number are written. -/
inductive Radix where
  | decimal
  | octal
  | hexLower
  | hexUpper
  deriving DecidableEq, Repr

namespace Radix

/-- The radix that a conversion letter names; a letter that names none means
decimal. -/
def ofLetter (letter : Byte) : Radix :=
  match Conversion.ofLetter? letter with
  | some .o => octal
  | some .x => hexLower
  | some .X => hexUpper
  | _ => decimal

def base : Radix → Nat
  | decimal => 10
  | octal => 8
  | hexLower | hexUpper => 16

/-- The numeral of a number, without superfluous zeros. -/
def numeral (r : Radix) (n : Nat) : List Byte :=
  let digits := (Nat.toDigits r.base n).map Char.toUInt8
  if r = hexUpper then digits.map Byte.upper else digits

/-- The mark that `#` puts in front. Octal numbers are marked by a digit instead. -/
def mark : Radix → List Byte
  | hexLower => ascii "0x"
  | hexUpper => ascii "0X"
  | _ => []

end Radix

namespace Field

/-- A numeral with zeros in front up to `least` digits. -/
def withLeastDigits (least : Nat) (numeral : List Byte) : List Byte :=
  List.replicate (least - numeral.length) 48 ++ numeral

/-- The body of a signed number. -/
def signedBody (value : Int) (layout : Layout) : Body where
  lead := layout.flags.sign (value < 0)
  rest :=
    if value = 0 ∧ layout.precision = .given 0 then []
    else withLeastDigits (layout.precision.getD 1) (Radix.decimal.numeral value.natAbs)
  takesZeros := layout.precision == .absent

/-- The least number of digits of an unsigned number: the precision, and one more
than the numeral has when the number is octal, not zero, and marked. -/
def leastDigits (value : Nat) (radix : Radix) (layout : Layout) : Nat :=
  let least := layout.precision.getD 1
  if layout.flags.alternative && radix == .octal && value != 0 then
    max least ((radix.numeral value).length + 1)
  else least

/-- The body of an unsigned number. -/
def unsignedBody (value : Nat) (radix : Radix) (layout : Layout) : Body where
  lead := if layout.flags.alternative && value != 0 then radix.mark else []
  rest :=
    if value = 0 ∧ layout.precision = .given 0 ∧ ¬(layout.flags.alternative ∧ radix = .octal) then
      []
    else withLeastDigits (leastDigits value radix layout) (radix.numeral value)
  takesZeros := layout.precision == .absent

def signed (value : Int) (layout : Layout) : List Byte := (signedBody value layout).placeIn layout

def unsigned (value : Nat) (radix : Radix) (layout : Layout) : List Byte :=
  (unsignedBody value radix layout).placeIn layout

end Field
end CheckedFormat
