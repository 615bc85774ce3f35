import CheckedFormat.Byte
import CheckedFormat.Word
import CheckedFormat.Number.Float
import CheckedFormat.Text.Hex
/-! Memory that holds the strings and objects of formatted calls.

The engines reach memory in two ways: they read a string up to its zero byte or a
limit, and they store bytes at an address. Integers are stored as their low bytes,
least significant first; floats as their IEEE 754 bits in the same order. -/
namespace CheckedFormat

/-- Why an access fails. -/
inductive MemoryError where
  /-- The address is zero. -/
  | null
  | outOfBounds (address length : Nat)
  /-- No object has this size. -/
  | badWidth (size : Nat)
  deriving DecidableEq, Repr

namespace MemoryError

def message : MemoryError → String
  | null => "null pointer dereference"
  | outOfBounds address length =>
    s!"address 0x{Hex.numeral address} (+{length}) is outside mapped memory"
  | badWidth size => s!"unsupported store width {size}"

end MemoryError

/-- The accesses that formatted calls make. -/
class Memory (M : Type) where
  /-- Reads the string at an address up to its zero byte, or to the limit when that
  comes first. -/
  readString : M → (address : Nat) → (limit : Option Nat) → Except MemoryError (List Byte)
  /-- Stores bytes at an address. -/
  writeBytes : M → (address : Nat) → List Byte → Except MemoryError M

/-- The `size` low bytes of a number, least significant first. -/
def littleEndian : (size : Nat) → Nat → List Byte
  | 0, _ => []
  | size + 1, n => n.toUInt8 :: littleEndian size (n / 256)

/-- The number that bytes denote, least significant first. -/
def ofLittleEndian : List Byte → Nat
  | [] => 0
  | b :: rest => b.toNat + 256 * ofLittleEndian rest

theorem length_littleEndian (size n : Nat) : (littleEndian size n).length = size := by
  induction size generalizing n with
  | zero => rfl
  | succ size ih => simp [littleEndian, ih]

/-- The sizes that an integer object can have. -/
def integerSizes : List Nat := [1, 2, 4, 8]

namespace Memory

variable {M : Type} [Memory M]

/-- Stores the low `size` bytes of a word. -/
def writeInteger (m : M) (address : Nat) (value : Word) (size : Nat) : Except MemoryError M :=
  if integerSizes.contains size then writeBytes m address (littleEndian size value.toNat)
  else .error (.badWidth size)

/-- Stores a double, as such or rounded to a float. -/
def writeFloat (m : M) (address : Nat) (value : Word) (size : Nat) : Except MemoryError M :=
  if size = 4 then writeBytes m address (littleEndian 4 (FloatFormat.toSingle value.toNat))
  else if size = 8 then writeBytes m address (littleEndian 8 value.toNat)
  else .error (.badWidth size)

end Memory
end CheckedFormat
