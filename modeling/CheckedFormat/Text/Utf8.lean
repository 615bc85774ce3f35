import CheckedFormat.Byte
/-! Reading UTF-8.

The first byte of a character says which bytes may follow it. Bytes that do not
continue a character as they should are one invalid run, up to the first byte that
breaks it: a strict reader refuses them, a lenient one puts U+FFFD in their place
and goes on at that byte. -/
namespace CheckedFormat
namespace Utf8

/-- The bytes of a text. -/
def encode (text : String) : List Byte := text.toUTF8.toList

/-- The range that a following byte must lie in. -/
structure Tail where
  low : Byte
  high : Byte

def anyTail : Tail := ⟨0x80, 0xBF⟩

/-- The bits that a first byte contributes, and what must follow it. -/
def lead? (b : Byte) : Option (Nat × List Tail) :=
  if b < 0x80 then some (b.toNat, [])
  else if b < 0xC2 then none
  else if b < 0xE0 then some (b.toNat - 0xC0, [anyTail])
  else if b = 0xE0 then some (0, [⟨0xA0, 0xBF⟩, anyTail])
  else if b = 0xED then some (0xD, [⟨0x80, 0x9F⟩, anyTail])
  else if b < 0xF0 then some (b.toNat - 0xE0, [anyTail, anyTail])
  else if b = 0xF0 then some (0, [⟨0x90, 0xBF⟩, anyTail, anyTail])
  else if b < 0xF4 then some (b.toNat - 0xF0, [anyTail, anyTail, anyTail])
  else if b = 0xF4 then some (4, [⟨0x80, 0x8F⟩, anyTail, anyTail])
  else none

/-- Adds the bits of the bytes that must follow. There is no character when one of
them is missing, and the rest then starts at the byte that broke it. -/
def takeTails (code : Nat) : List Tail → List Byte → Option Char × List Byte
  | [], rest => (some (Char.ofNat code), rest)
  | _ :: _, [] => (none, [])
  | tail :: tails, b :: rest =>
    if tail.low ≤ b && b ≤ tail.high then takeTails (code * 64 + (b.toNat - 0x80)) tails rest
    else (none, b :: rest)

/-- Takes the character at a byte, or the invalid run there. -/
def takeChar (b : Byte) (rest : List Byte) : Option Char × List Byte :=
  match lead? b with
  | none => (none, rest)
  | some (code, tails) => takeTails code tails rest

theorem length_takeTails_le (code : Nat) (tails : List Tail) (bytes : List Byte) :
    (takeTails code tails bytes).2.length ≤ bytes.length := by
  fun_induction takeTails code tails bytes with
  | case1 => simp
  | case2 => simp
  | case3 code tail tails b rest h ih => simp only [List.length_cons]; omega
  | case4 => simp

theorem length_takeChar_le (b : Byte) (rest : List Byte) :
    (takeChar b rest).2.length ≤ rest.length := by
  unfold takeChar
  split
  · simp
  · exact length_takeTails_le _ _ _

/-- The characters of the bytes, none for an invalid run. -/
def decode : List Byte → List (Option Char)
  | [] => []
  | b :: rest =>
    have := length_takeChar_le b rest
    (takeChar b rest).1 :: decode (takeChar b rest).2
  termination_by bytes => bytes.length

/-- The text of the bytes, if they are valid. -/
def decode? (bytes : List Byte) : Option String := ((decode bytes).mapM id).map String.ofList

/-- What stands for an invalid run. -/
def replacement : Char := Char.ofNat 0xFFFD

/-- The text of the bytes, with U+FFFD for every invalid run. -/
def decodeLossy (bytes : List Byte) : String :=
  String.ofList ((decode bytes).map (·.getD replacement))

end Utf8
end CheckedFormat
