import CheckedFormat.Byte
import CheckedFormat.Word
/-! The parts of a conversion directive that printing and scanning share.

A directive names what it converts by a letter and the size of the object by a
length modifier. Which pairs make sense differs between the two families and is
decided here, by `LengthModifier.printable` and `LengthModifier.scannable`. A
directive that cannot be read is rejected for one of four causes (`Malformed`);
a format reports the cause with the offset of the percent sign. -/
namespace CheckedFormat

/-- The byte that opens a directive. -/
def opener : Byte := '%'.toUInt8

/-- What a directive converts, by its letter. -/
inductive Conversion where
  | d | i | u | o | x | X
  | f | F | e | E | g | G | a | A
  | c | s | p | n
  deriving DecidableEq, Repr

namespace Conversion

def all : List Conversion := [d, i, u, o, x, X, f, F, e, E, g, G, a, A, c, s, p, n]

def letterChar : Conversion → Char
  | d => 'd' | i => 'i' | u => 'u' | o => 'o' | x => 'x' | X => 'X'
  | f => 'f' | F => 'F' | e => 'e' | E => 'E' | g => 'g' | G => 'G' | a => 'a' | A => 'A'
  | c => 'c' | s => 's' | p => 'p' | n => 'n'

/-- The byte that spells the conversion. -/
def letter (conversion : Conversion) : Byte := conversion.letterChar.toUInt8

def ofLetter? (b : Byte) : Option Conversion := all.find? (·.letter == b)

/-- Conversions of whole numbers. -/
def isInteger : Conversion → Bool
  | d | i | u | o | x | X => true
  | _ => false

/-- Conversions of floating-point numbers. -/
def isFloat : Conversion → Bool
  | f | F | e | E | g | G | a | A => true
  | _ => false

/-- Conversions that printing knows: all but the two of hexadecimal floats. -/
def isPrintable : Conversion → Bool
  | a | A => false
  | _ => true

theorem ofLetter?_letter (conversion : Conversion) :
    ofLetter? conversion.letter = some conversion := by
  cases conversion <;> decide

end Conversion

/-- The size of the object that a directive converts. -/
inductive LengthModifier where
  /-- No modifier: `int`, or `float` when scanning. -/
  | plain
  | char
  | short
  | long
  | longLong
  | size
  | difference
  | maximal
  | longDouble
  deriving DecidableEq, Repr

namespace LengthModifier

def all : List LengthModifier :=
  [plain, char, short, long, longLong, size, difference, maximal, longDouble]

def spelling : LengthModifier → String
  | plain => ""
  | char => "hh"
  | short => "h"
  | long => "l"
  | longLong => "ll"
  | size => "z"
  | difference => "t"
  | maximal => "j"
  | longDouble => "L"

def ofSpelling? (text : String) : Option LengthModifier := all.find? (·.spelling == text)

/-- The bytes of the integer object that the modifier selects. -/
def integerSize : LengthModifier → Nat
  | char => 1
  | short => 2
  | plain => 4
  | long | longLong | size | difference | maximal | longDouble => 8

/-- Whether an integer under this modifier arrives in 64 bits. -/
def isWide (l : LengthModifier) : Bool := l.integerSize == 8

/-- Takes the longest modifier at the front of a text. -/
def take : List Byte → LengthModifier × List Byte
  | 104 :: 104 :: rest => (char, rest)
  | 104 :: rest => (short, rest)
  | 108 :: 108 :: rest => (longLong, rest)
  | 108 :: rest => (long, rest)
  | 122 :: rest => (size, rest)
  | 116 :: rest => (difference, rest)
  | 106 :: rest => (maximal, rest)
  | 76 :: rest => (longDouble, rest)
  | text => (plain, text)

theorem length_take_le (text : List Byte) : (take text).2.length ≤ text.length := by
  unfold take
  split <;> simp <;> omega

/-- The pairs that printing accepts. `l` changes nothing for a float; `L` is for
floats alone, and the rest is for integers and counts. -/
def printable (l : LengthModifier) (conversion : Conversion) : Bool :=
  match l with
  | plain => true
  | long => conversion.isInteger || conversion.isFloat || conversion == .n
  | longDouble => conversion.isFloat
  | _ => conversion.isInteger || conversion == .n

/-- The pairs that scanning accepts. -/
def scannable (l : LengthModifier) (conversion : Conversion) : Bool :=
  match l with
  | plain => true
  | long => conversion.isFloat || conversion.isInteger || conversion == .n
  | longDouble => conversion.isFloat
  | _ => conversion.isInteger || conversion == .n

end LengthModifier

/-- Why a directive cannot be read. -/
inductive Malformed where
  /-- The format ends inside the directive. -/
  | truncated
  | unknownConversion (letter : Byte)
  | badLength (length : LengthModifier) (letter : Byte)
  | unterminatedSet
  deriving DecidableEq, Repr

namespace Malformed

def message : Malformed → String
  | truncated => "format ends inside a directive"
  | unknownConversion letter => s!"unknown conversion '{letter.toChar}'"
  | badLength length letter =>
    s!"length modifier '{length.spelling}' cannot apply to '%{letter.toChar}'"
  | unterminatedSet => "unterminated scanset"

end Malformed

/-- A malformed directive and where its percent sign stands. -/
structure FormatError where
  offset : Nat
  cause : Malformed
  deriving DecidableEq, Repr

def FormatError.message (e : FormatError) : String :=
  s!"malformed format directive at byte {e.offset}: {e.cause.message}"

/-- The value of a run of decimal digits, held at the largest word when it grows
beyond it. -/
def saturatingDecimal (digits : List Byte) : Nat :=
  digits.foldl (fun n d => min (n * 10 + (d.toNat - 48)) wordMax) 0

/-- Splits off the decimal digits at the front of a text. -/
def takeDigits (text : List Byte) : List Byte × List Byte :=
  (text.takeWhile Byte.isDigit, text.dropWhile Byte.isDigit)

theorem length_dropWhile_le (p : Byte → Bool) (text : List Byte) :
    (text.dropWhile p).length ≤ text.length :=
  (List.dropWhile_suffix p).length_le

end CheckedFormat
