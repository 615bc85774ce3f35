/-! Machine words: 64 bits that a reader takes as a number of the type it wants. -/
namespace CheckedFormat

/-- A machine word. -/
abbrev Word := BitVec 64

/-- The largest value of a word. -/
def wordMax : Nat := 0xFFFFFFFFFFFFFFFF

/-- The largest signed value of a word. -/
def longMax : Nat := 0x7FFFFFFFFFFFFFFF

/-- The largest value of a C `int`. -/
def intMax : Nat := 0x7FFFFFFF

namespace Word

/-- The low 32 bits, as a signed number. -/
def asInt (w : Word) : Int := (w.setWidth 32).toInt

/-- The low 32 bits, as an unsigned number. -/
def asUnsignedInt (w : Word) : Nat := (w.setWidth 32).toNat

def asLong (w : Word) : Int := w.toInt

def asUnsignedLong (w : Word) : Nat := w.toNat

def asAddress (w : Word) : Nat := w.toNat

end Word
end CheckedFormat
