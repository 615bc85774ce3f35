import CheckedFormat.Word
/-! The slots of a variadic call.

After the default promotions an argument is one of six types. A slot holds its 64
bits and the type it was passed as: signed values are extended by their sign,
unsigned ones by zeros, and floats are their IEEE 754 bits. A callee reads the
bits back at the type it asks for. -/
namespace CheckedFormat

/-- The type of a promoted argument. -/
inductive ArgumentType where
  | int
  | unsignedInt
  | long
  | unsignedLong
  | double
  | pointer
  deriving DecidableEq, Repr

namespace ArgumentType

def all : List ArgumentType := [int, unsignedInt, long, unsignedLong, double, pointer]

/-- The type's name in C. -/
def name : ArgumentType → String
  | int => "int"
  | unsignedInt => "unsigned int"
  | long => "long"
  | unsignedLong => "unsigned long"
  | double => "double"
  | pointer => "void *"

/-- The number that stands for the type in a descriptor. -/
def tag : ArgumentType → Nat
  | int => 0
  | unsignedInt => 1
  | long => 2
  | unsignedLong => 3
  | double => 4
  | pointer => 5

def ofTag? (n : Nat) : Option ArgumentType := all.find? (·.tag == n)

/-- Types of one family may stand for each other: a signed type for its unsigned
counterpart and the other way round. -/
inductive Family where
  | narrow
  | wide
  | floating
  | address
  deriving DecidableEq

def family : ArgumentType → Family
  | int | unsignedInt => .narrow
  | long | unsignedLong => .wide
  | double => .floating
  | pointer => .address

/-- Whether an argument passed at one type may be read at the other. -/
def compatible (passed requested : ArgumentType) : Bool := passed.family == requested.family

end ArgumentType

/-- A promoted argument. -/
structure Slot where
  type : ArgumentType
  bits : Word
  deriving DecidableEq, Repr

namespace Slot

def int (v : Int) : Slot := ⟨.int, BitVec.ofInt 64 v⟩
def unsignedInt (v : Nat) : Slot := ⟨.unsignedInt, BitVec.ofNat 64 v⟩
def long (v : Int) : Slot := ⟨.long, BitVec.ofInt 64 v⟩
def unsignedLong (v : Nat) : Slot := ⟨.unsignedLong, BitVec.ofNat 64 v⟩
def double (bits : Word) : Slot := ⟨.double, bits⟩
def pointer (address : Nat) : Slot := ⟨.pointer, BitVec.ofNat 64 address⟩

end Slot

end CheckedFormat
