import CheckedFormat.Scan.Reader
import CheckedFormat.Word
/-! The tokens of whole numbers and their values.

A token is an optional sign and digits. Hexadecimal digits may have `0x` in front,
which counts only when a digit follows it; where the base is to be detected, `0x`
means sixteen, another leading zero eight, and everything else ten. The value is
exact; storing it as a signed number holds it at the ends of the 64-bit range, and
storing it as an unsigned one wraps a negative value and holds a magnitude that is
too large at the largest word. -/
namespace CheckedFormat
namespace IntegerToken

/-- How the base of a token is found. -/
inductive Base where
  | fixed (base : Nat)
  /-- Sixteen, with or without a mark. -/
  | hex
  | detect
  deriving DecidableEq, Repr

inductive State where
  | start
  | signed
  /-- A zero that a radix mark may follow. -/
  | zero
  /-- A radix mark that a digit must follow. -/
  | marked
  | digits (base : Nat)
  deriving DecidableEq, Repr

def isMark (b : Byte) : Bool := b.lower == 120

/-- The state after a digit of a base. -/
def digitIn (base : Nat) (b : Byte) : Option State :=
  if b.isDigitOf base then some (.digits base) else none

/-- The state after the first digit. -/
def first (base : Base) (b : Byte) : Option State :=
  match base with
  | .fixed base => digitIn base b
  | .hex => if b == 48 then some .zero else digitIn 16 b
  | .detect => if b == 48 then some .zero else digitIn 10 b

/-- The base of the digits behind a leading zero that has no mark. -/
def baseAfterZero : Base → Nat
  | .fixed base => base
  | .hex => 16
  | .detect => 8

def step (base : Base) : State → Byte → Option State
  | .start, b => if b.isSign then some .signed else first base b
  | .signed, b => first base b
  | .zero, b => if isMark b then some .marked else digitIn (baseAfterZero base) b
  | .marked, b => digitIn 16 b
  | .digits n, b => digitIn n b

def accepts : State → Bool
  | .zero | .digits _ => true
  | _ => false

/-- The tokens of a base. -/
def recogniser (base : Base) : Recogniser State := ⟨.start, step base, accepts⟩

/-! ### Values -/

/-- The value of a token without its sign. -/
def magnitude (base : Base) (digits : List Byte) : Nat :=
  match base, digits with
  | .fixed base, digits => digitsValue base digits
  | .hex, 48 :: mark :: rest =>
    if isMark mark then digitsValue 16 rest else digitsValue 16 (mark :: rest)
  | .hex, digits => digitsValue 16 digits
  | .detect, 48 :: mark :: rest =>
    if isMark mark then digitsValue 16 rest else digitsValue 8 (mark :: rest)
  | .detect, digits => digitsValue 10 digits

/-- The value of a token: its sign and its magnitude. -/
structure Value where
  negative : Bool
  magnitude : Nat
  deriving DecidableEq, Repr

def value (base : Base) : List Byte → Value
  | 43 :: digits => ⟨false, magnitude base digits⟩
  | 45 :: digits => ⟨true, magnitude base digits⟩
  | digits => ⟨false, magnitude base digits⟩

namespace Value

def toInt (v : Value) : Int := if v.negative then -v.magnitude else v.magnitude

/-- The value held within the signed range. -/
def toSigned (v : Value) : Word := BitVec.ofInt 64 (max (-longMax - 1) (min v.toInt longMax))

/-- The value modulo 2^64, or the largest word for a magnitude beyond it. -/
def toUnsigned (v : Value) : Word :=
  if wordMax < v.magnitude then BitVec.ofNat 64 wordMax else BitVec.ofInt 64 v.toInt

end Value
end IntegerToken
end CheckedFormat
