/-! Bytes and their ASCII classes.

Formats, inputs and outputs are lists of bytes; nothing here knows an encoding
beyond ASCII. The classes are those of the "C" locale: six bytes are spaces,
ten are digits, and letters fold their case only between `A` and `Z`. -/
namespace CheckedFormat

/-- A byte of text. -/
abbrev Byte := UInt8

/-- The bytes of an ASCII text, one per character. -/
def ascii (text : String) : List Byte := text.toList.map Char.toUInt8

namespace Byte

/-- The character whose code is the byte. -/
def toChar (b : Byte) : Char := Char.ofNat b.toNat

/-- Space, tab, line feed, vertical tab, form feed and carriage return. -/
def isSpace (b : Byte) : Bool := b == 32 || (9 ≤ b && b ≤ 13)

def isDigit (b : Byte) : Bool := 48 ≤ b && b ≤ 57

/-- A plus or a minus. -/
def isSign (b : Byte) : Bool := b == 43 || b == 45

theorem isSign_iff {b : Byte} : b.isSign = true ↔ b = 43 ∨ b = 45 := by
  simp [isSign]

def isUpper (b : Byte) : Bool := 65 ≤ b && b ≤ 90

def isLower (b : Byte) : Bool := 97 ≤ b && b ≤ 122

/-- The lower-case form of an ASCII letter; every other byte is itself. -/
def lower (b : Byte) : Byte := if isUpper b then b + 32 else b

/-- The upper-case form of an ASCII letter; every other byte is itself. -/
def upper (b : Byte) : Byte := if isLower b then b - 32 else b

/-- The value of a digit or letter, counting letters on from ten. -/
def alphanumericValue? (b : Byte) : Option Nat :=
  if isDigit b then some (b.toNat - 48)
  else if isLower b then some (b.toNat - 87)
  else if isUpper b then some (b.toNat - 55)
  else none

/-- The value of the byte as a digit of `base`, if it is one. -/
def digit? (base : Nat) (b : Byte) : Option Nat :=
  (alphanumericValue? b).filter (· < base)

def isDigitOf (base : Nat) (b : Byte) : Bool := (digit? base b).isSome

end Byte

/-- The number that digits denote. A byte that is no digit counts as zero. -/
def digitsValue (base : Nat) (digits : List Byte) : Nat :=
  digits.foldl (fun n b => n * base + (b.digit? base).getD 0) 0

/-- What a text of bytes shows when cut at its first zero byte. -/
def upToNul (bytes : List Byte) : List Byte := bytes.takeWhile (· != 0)

/-- `new` laid over the front of `old`. -/
def overlay (new old : List Byte) : List Byte := new ++ old.drop new.length

theorem length_overlay (new old : List Byte) :
    (overlay new old).length = max new.length old.length := by
  simp only [overlay, List.length_append, List.length_drop]
  omega

end CheckedFormat
