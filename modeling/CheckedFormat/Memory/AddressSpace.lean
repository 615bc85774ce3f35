import CheckedFormat.Memory.Basic
/-! The memory of a running program.

Every address but zero holds a byte and can be stored to: what an access may touch
is the caller's promise, not the memory's check. Objects are placed one after the
other with room between them. -/
namespace CheckedFormat

structure AddressSpace where
  byteAt : Nat → Byte
  /-- Where the next object is placed. -/
  free : Nat

namespace AddressSpace

/-- One past the last address. -/
def bound : Nat := wordMax + 1

/-- Zero bytes everywhere, with objects from 2^20 on. -/
def empty : AddressSpace := ⟨fun _ => 0, 0x100000⟩

def readBytes (m : AddressSpace) (address length : Nat) : List Byte :=
  (List.range length).map fun i => m.byteAt (address + i)

/-- The bytes from an address on up to a zero byte or the last address. -/
def stringFrom (m : AddressSpace) (address : Nat) : List Byte :=
  if address < bound then
    let b := m.byteAt address
    if b = 0 then [] else b :: stringFrom m (address + 1)
  else []
  termination_by bound - address

/-- At most `limit` bytes from an address on, up to a zero byte. -/
def stringWithin (m : AddressSpace) (address : Nat) : (limit : Nat) → List Byte
  | 0 => []
  | limit + 1 =>
    let b := m.byteAt address
    if b = 0 then [] else b :: stringWithin m (address + 1) limit

def readString (m : AddressSpace) (address : Nat) (limit : Option Nat) :
    Except MemoryError (List Byte) :=
  if address = 0 then .error .null
  else
    match limit with
    | none => .ok (m.stringFrom address)
    | some n => .ok (m.stringWithin address n)

/-- Lays bytes over the memory at an address. -/
def store (m : AddressSpace) (address : Nat) (bytes : List Byte) : AddressSpace :=
  -- An array, so that each look-up takes one step.
  let stored := bytes.toArray
  { m with byteAt := fun a =>
      if a < address then m.byteAt a else (stored[a - address]?).getD (m.byteAt a) }

def writeBytes (m : AddressSpace) (address : Nat) (bytes : List Byte) :
    Except MemoryError AddressSpace :=
  if address = 0 then .error .null else .ok (m.store address bytes)

/-- Places an object and gives its address. -/
def place (m : AddressSpace) (bytes : List Byte) : Nat × AddressSpace :=
  (m.free, { m.store m.free bytes with free := m.free + (bytes.length / 16 + 2) * 16 })

/-- Places a string with its zero byte. -/
def placeString (m : AddressSpace) (text : List Byte) : Nat × AddressSpace := m.place (text ++ [0])

instance : Memory AddressSpace where
  readString := readString
  writeBytes := writeBytes

end AddressSpace
end CheckedFormat
