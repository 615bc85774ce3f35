import CheckedFormat.Number.Float
import CheckedFormat.Scan.Reader
import CheckedFormat.Word
/-! The tokens of floating-point numbers and their values.

A token is an optional sign and one of: decimal digits with an optional point and
exponent, the same in hexadecimal behind `0x` with a binary exponent, or one of the
words for infinity and NaN. An exponent counts only when it has digits, a point
alone is no number, and `0x` without digits is the number zero before the `x`.

A decimal token means the nearest double. A hexadecimal one means its leading
digits, as many as fit a 64-bit word, rounded to a double and then multiplied by a
power of two that is itself a double or infinite. -/
namespace CheckedFormat
namespace FloatToken

/-- Which digits a number has. -/
inductive Radix where
  | decimal
  | hex
  deriving DecidableEq, Repr

namespace Radix

def base : Radix → Nat
  | decimal => 10
  | hex => 16

/-- The letter of the exponent, in lower case. -/
def exponentLetter : Radix → Byte
  | decimal => 'e'.toUInt8
  | hex => 'p'.toUInt8

end Radix

inductive State where
  | start
  | signed
  /-- Within a word: what is left of it, and whether it may end here. -/
  | word (rest : List Byte) (ends : Bool)
  /-- A zero that a radix mark may follow. -/
  | zero
  /-- Before the point, with or without digits so far. -/
  | whole (radix : Radix) (digits : Bool)
  /-- Behind the point, with or without digits so far. -/
  | fraction (radix : Radix) (digits : Bool)
  /-- Behind the letter of an exponent. -/
  | exponentMark
  | exponentSign
  | exponent
  deriving DecidableEq, Repr

/-- The state behind a byte of a word. Infinity may be cut short to its first three
letters. -/
def letter (rest : List Byte) (b : Byte) : Option State :=
  match rest with
  | [] => none
  | want :: rest =>
    if b.lower == want then some (.word rest (rest.isEmpty || rest == ascii "inity")) else none

/-- The state behind the first byte of a number without its sign. -/
def first (b : Byte) : Option State :=
  if b.lower == 105 then letter (ascii "infinity") b
  else if b.lower == 110 then letter (ascii "nan") b
  else if b == 48 then some .zero
  else if b.isDigit then some (.whole .decimal true)
  else if b == 46 then some (.fraction .decimal false)
  else none

/-- The state behind the letter of an exponent, which needs digits in front. -/
def markExponent (radix : Radix) (digits : Bool) (b : Byte) : Option State :=
  if digits && b.lower == radix.exponentLetter then some .exponentMark else none

/-- The state behind a byte of the whole part. -/
def inWhole (radix : Radix) (digits : Bool) (b : Byte) : Option State :=
  if b.isDigitOf radix.base then some (.whole radix true)
  else if b == 46 then some (.fraction radix digits)
  else markExponent radix digits b

def step : State → Byte → Option State
  | .start, b => if b.isSign then some .signed else first b
  | .signed, b => first b
  | .word rest _, b => letter rest b
  | .zero, b => if b.lower == 120 then some (.whole .hex false) else inWhole .decimal true b
  | .whole radix digits, b => inWhole radix digits b
  | .fraction radix digits, b =>
    if b.isDigitOf radix.base then some (.fraction radix true) else markExponent radix digits b
  | .exponentMark, b =>
    if b.isSign then some .exponentSign else if b.isDigit then some .exponent else none
  | .exponentSign, b => if b.isDigit then some .exponent else none
  | .exponent, b => if b.isDigit then some .exponent else none

def accepts : State → Bool
  | .word _ ends => ends
  | .zero => true
  | .whole _ digits => digits
  | .fraction _ digits => digits
  | .exponent => true
  | _ => false

def recogniser : Recogniser State := ⟨.start, step, accepts⟩

/-! ### Parts of a token -/

/-- A number as it is written: digits before and behind the point, and the digits of
the exponent with their sign. -/
structure Parts where
  whole : List Byte
  fraction : List Byte
  exponentNegative : Bool
  exponent : List Byte
  deriving DecidableEq, Repr

/-- Splits the text of a number, without sign and radix mark. -/
def parts (radix : Radix) (text : List Byte) : Parts :=
  let isDigit := Byte.isDigitOf radix.base
  let whole := text.takeWhile isDigit
  let rest := text.dropWhile isDigit
  let rest := if rest.head? == some 46 then rest.drop 1 else rest
  let fraction := rest.takeWhile isDigit
  let written := (rest.dropWhile isDigit).drop 1
  ⟨whole, fraction, written.head? == some 45, written.filter Byte.isDigit⟩

/-! ### Decimal values -/

/-- The power of ten from which on every number but zero is infinite, and below the
negative of which it is zero. -/
def decimalBound : Int := 400

/-- The double nearest to `digits * 10 ^ exponent`, as bits of a magnitude; `size` is
how many digits `digits` has. -/
def nearestDecimal (digits size : Nat) (exponent : Int) : Nat :=
  let top : Int := size + exponent
  if digits = 0 ∨ top < -decimalBound then 0
  else if decimalBound < top then FloatFormat.binary64.infinityBits
  else FloatFormat.binary64.nearest (Ratio.scale ⟨digits, 1⟩ 10 exponent)

/-- The size from which on the written exponent of a decimal number takes no more
digits. -/
def exponentBound : Nat := 0x10000

/-- The written exponent of a decimal number. -/
def decimalExponent (digits : List Byte) : Nat :=
  digits.foldl (fun n b => if n < exponentBound then n * 10 + (b.toNat - 48) else n) 0

def decimalValue (p : Parts) : Nat :=
  let written : Int := decimalExponent p.exponent
  let digits := (p.whole ++ p.fraction).dropWhile (· == 48)
  nearestDecimal (digitsValue 10 digits) digits.length
    ((if p.exponentNegative then -written else written) - p.fraction.length)

/-! ### Hexadecimal values -/

/-- Leading digits as a whole number, and the binary exponent that the others leave
it. -/
structure Leading where
  value : Nat
  exponent : Int
  deriving DecidableEq, Repr

/-- The bound below which one more digit still fits. -/
def leadingBound : Nat := 0x800000000000000

/-- Takes one more digit, behind the point or before it. A digit that does not fit
counts only by its place. -/
def Leading.push (behindPoint : Bool) (l : Leading) (digit : Byte) : Leading :=
  if l.value < leadingBound then
    ⟨l.value * 16 + (digit.digit? 16).getD 0, if behindPoint then l.exponent - 4 else l.exponent⟩
  else if behindPoint then l
  else ⟨l.value, l.exponent + 4⟩

/-- The written exponent, held at a bound that is far beyond every double. -/
def boundedExponent (digits : List Byte) : Nat :=
  digits.foldl (fun n b => min (n * 10 + (b.toNat - 48)) 100000) 0

/-- The bits of a power of two. Powers beyond the largest double are infinite, and
those below the reciprocal of its binade are zero. -/
def powerOfTwo (exponent : Int) : Nat :=
  if exponent ≤ -1024 then 0 else FloatFormat.binary64.nearest (Ratio.ofBinary 1 exponent)

/-- The product of two magnitudes. An infinity times zero is the negative NaN. -/
def product (a b : Nat) : Nat :=
  let f := FloatFormat.binary64
  match f.ratio? a, f.ratio? b with
  | some x, some y => f.nearest ⟨x.num * y.num, x.den * y.den⟩
  | _, _ => if a = 0 ∨ b = 0 then f.withSign true f.quietNan else f.infinityBits

def hexValue (p : Parts) : Nat :=
  let l := p.whole.foldl (Leading.push false) ⟨0, 0⟩
  let l := p.fraction.foldl (Leading.push true) l
  let written : Int := boundedExponent p.exponent
  product (FloatFormat.binary64.nearest ⟨l.value, 1⟩)
    (powerOfTwo (l.exponent + if p.exponentNegative then -written else written))

/-! ### Values -/

/-- The bits of a token's value without its sign. -/
def magnitude (text : List Byte) : Nat :=
  match text with
  | 48 :: mark :: rest =>
    if mark.lower == 120 then hexValue (parts .hex rest)
    else decimalValue (parts .decimal text)
  | b :: _ =>
    if b.lower == 105 then FloatFormat.binary64.infinityBits
    else if b.lower == 110 then FloatFormat.binary64.quietNan
    else decimalValue (parts .decimal text)
  | [] => 0

/-- The double that a token means. A minus changes the sign, a NaN's too. -/
def value (token : List Byte) : Word :=
  let bits :=
    match token with
    | 43 :: text => magnitude text
    | 45 :: text => FloatFormat.binary64.negate (magnitude text)
    | text => magnitude text
  BitVec.ofNat 64 bits

end FloatToken
end CheckedFormat
