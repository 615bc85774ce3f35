import CheckedFormat.Byte
import CheckedFormat.Stream.Error
import CheckedFormat.Word
/-! What a stream stands on.

A transport moves bytes at a position that it keeps itself. It may deliver and
accept fewer bytes than it is asked to, and any operation may fail; a read that
delivers nothing says that there is nothing left. The bytes that reads can still
deliver are bounded (`pending`), so reading to the end comes to an end. -/
namespace CheckedFormat

/-- Where to go. -/
inductive SeekTarget where
  | start (offset : Nat)
  | current (delta : Int)
  | fromEnd (delta : Int)
  deriving DecidableEq, Repr

/-- The operations of a transport with state `T`. -/
class Transport (T : Type) where
  /-- Delivers at most so many bytes. -/
  read : T → (limit : Nat) → Except TransportFailure (List Byte) × T
  /-- Accepts some bytes from the front and says how many. -/
  write : T → List Byte → Except TransportFailure Nat × T
  /-- Moves to an offset and gives it. -/
  seek : T → SeekTarget → Except TransportFailure Nat × T
  flush : T → Except TransportFailure Unit × T
  close : T → Except TransportFailure Unit × T
  /-- A bound on the bytes that reads can still deliver. -/
  pending : T → Nat
  pending_read : ∀ {t t' limit bytes},
    read t limit = (.ok bytes, t') → bytes.length + pending t' ≤ pending t

namespace SeekTarget

/-- The largest offset. -/
def furthest : Nat := longMax

/-- The offset of a target, given the position and the size. Nothing lies before the
start, and what lies beyond the largest offset is that offset. -/
def resolve? (target : SeekTarget) (position size : Nat) : Option Nat :=
  let offset : Int :=
    match target with
    | start offset => offset
    | current delta => position + delta
    | fromEnd delta => size + delta
  if offset < 0 then none else some (min offset.toNat furthest)

end SeekTarget

/-- Bytes written over a store at a position, after zeros where the store ends
before it. -/
def writeAt : (store : List Byte) → (position : Nat) → (bytes : List Byte) → List Byte
  | store, 0, bytes => overlay bytes store
  | [], position + 1, bytes => 0 :: writeAt [] position bytes
  | b :: store, position + 1, bytes => b :: writeAt store position bytes

/-- A file in memory. -/
structure MemoryFile where
  data : List Byte
  position : Nat
  /-- Every write goes to the end. -/
  append : Bool
  deriving DecidableEq, Repr

namespace MemoryFile

def readUpTo (f : MemoryFile) (limit : Nat) : List Byte := (f.data.drop f.position).take limit

def write (f : MemoryFile) (bytes : List Byte) : MemoryFile :=
  let position := if f.append then f.data.length else f.position
  { f with data := writeAt f.data position bytes, position := position + bytes.length }

def seek (f : MemoryFile) (target : SeekTarget) : Except TransportFailure Nat × MemoryFile :=
  match target.resolve? f.position f.data.length with
  | some offset => (.ok offset, { f with position := offset })
  | none => (.error ⟨.invalidInput, none⟩, f)

instance : Transport MemoryFile where
  read f limit := (.ok (f.readUpTo limit), { f with position := f.position + (f.readUpTo limit).length })
  write f bytes := (.ok bytes.length, f.write bytes)
  seek := seek
  flush f := (.ok (), f)
  close f := (.ok (), f)
  pending f := f.data.length - f.position
  pending_read h := by
    cases h
    simp only [readUpTo, List.length_take, List.length_drop]
    omega

end MemoryFile
end CheckedFormat
