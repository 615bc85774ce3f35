import CheckedFormat.Memory.Basic
/-! A growing block of memory that checks every access.

The arena is a run of bytes from a base address on. Allocation appends zeroed
bytes at the next multiple of eight, at least one of them, so that no two
allocations share an address; nothing is ever given back. An access outside the
bytes in use fails and changes nothing. -/
namespace CheckedFormat

structure Arena where
  base : Nat
  bytes : List Byte
  deriving DecidableEq, Repr

namespace Arena

/-- Where an arena starts unless it is told otherwise. -/
def defaultBase : Nat := 0x10000

/-- An arena without bytes. Address zero stays invalid, so a base of zero means
one. -/
def withBase (base : Nat) : Arena := ⟨max base 1, []⟩

def empty : Arena := withBase defaultBase

def size (a : Arena) : Nat := a.bytes.length

/-- The first multiple of eight that is not below `n`. -/
def alignUp (n : Nat) : Nat := (n + 7) / 8 * 8

/-- Reserves zeroed bytes and gives their address. -/
def allocate (a : Arena) (length : Nat) : Nat × Arena :=
  let offset := alignUp a.size
  (a.base + offset,
    { a with bytes := a.bytes ++ List.replicate (offset - a.size + max length 1) 0 })

/-- The offset of an access that lies within the arena. -/
def locate (a : Arena) (address length : Nat) : Except MemoryError Nat :=
  if address = 0 then .error .null
  else if address < a.base then .error (.outOfBounds address length)
  else if address - a.base + length > a.size then .error (.outOfBounds address length)
  else .ok (address - a.base)

def readBytes (a : Arena) (address length : Nat) : Except MemoryError (List Byte) := do
  let offset ← a.locate address length
  return (a.bytes.drop offset).take length

/-- Lays bytes over the arena from an offset within it on. -/
def store (a : Arena) (offset : Nat) (bytes : List Byte) : Arena :=
  { a with bytes := a.bytes.take offset ++ overlay bytes (a.bytes.drop offset) }

def writeBytes (a : Arena) (address : Nat) (bytes : List Byte) : Except MemoryError Arena := do
  let offset ← a.locate address bytes.length
  return a.store offset bytes

/-- Copies a string and its zero byte into the arena and gives the address. -/
def allocateString (a : Arena) (text : List Byte) : Nat × Arena :=
  let (address, b) := a.allocate (text.length + 1)
  (address, b.store (address - b.base) text)

/-- Reads a string. It must end, by a zero byte or at the limit, within the bytes in
use. -/
def readString (a : Arena) (address : Nat) (limit : Option Nat) :
    Except MemoryError (List Byte) := do
  let offset ← a.locate address 0
  let tail := a.bytes.drop offset
  let window := (limit.map tail.take).getD tail
  let text := upToNul window
  if text.length < window.length || limit == some window.length then return text
  else .error (.outOfBounds address (window.length + 1))

def readUnsigned (a : Arena) (address size : Nat) : Except MemoryError Nat :=
  if integerSizes.contains size then
    (a.readBytes address size).map ofLittleEndian
  else .error (.badWidth size)

/-- Reads an integer and extends it by its sign. -/
def readSigned (a : Arena) (address size : Nat) : Except MemoryError Int :=
  (a.readUnsigned address size).map fun n => (BitVec.ofNat (8 * size) n).toInt

/-- Reads the bits of a float of so many bytes. -/
def readFloatBits (a : Arena) (address size : Nat) : Except MemoryError Nat :=
  (a.readBytes address size).map ofLittleEndian

instance : Memory Arena where
  readString := readString
  writeBytes := writeBytes

end Arena
end CheckedFormat
