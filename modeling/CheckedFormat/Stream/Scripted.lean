import CheckedFormat.Stream.Transport
/-! A transport that follows a script of faults.

It is a file in memory that moves bytes in chunks, stops accepting them at a
capacity, and fails when its script says so: reads and writes after so many
successes, the other operations always. -/
namespace CheckedFormat

/-- What goes wrong, and when. -/
structure FaultScript where
  /-- The most bytes that one read or write moves. -/
  chunk : Option Nat
  /-- The offset at which writes stop. -/
  capacity : Option Nat
  /-- Reads fail after so many successes. -/
  readsUntilFailure : Option Nat
  writesUntilFailure : Option Nat
  failSeek : Bool
  failFlush : Bool
  failClose : Bool
  /-- What every failure reports. -/
  failure : TransportFailure
  deriving DecidableEq, Repr

structure ScriptedFile where
  data : List Byte
  position : Nat
  script : FaultScript
  /-- Successful reads and writes so far. -/
  reads : Nat
  writes : Nat
  deriving DecidableEq, Repr

namespace ScriptedFile

def atMost (bound : Option Nat) (n : Nat) : Nat := (bound.map (min n)).getD n

def readUpTo (f : ScriptedFile) (limit : Nat) : List Byte :=
  (f.data.drop f.position).take (atMost f.script.chunk limit)

def read (f : ScriptedFile) (limit : Nat) : Except TransportFailure (List Byte) × ScriptedFile :=
  if f.script.readsUntilFailure = some f.reads then (.error f.script.failure, f)
  else
    (.ok (f.readUpTo limit),
      { f with position := f.position + (f.readUpTo limit).length, reads := f.reads + 1 })

/-- How many of so many bytes a write moves. -/
def accepted (f : ScriptedFile) (n : Nat) : Nat :=
  atMost (f.script.capacity.map (· - f.position)) (atMost f.script.chunk n)

def write (f : ScriptedFile) (bytes : List Byte) : Except TransportFailure Nat × ScriptedFile :=
  if f.script.writesUntilFailure = some f.writes then (.error f.script.failure, f)
  else
    let n := f.accepted bytes.length
    (.ok n, { f with
      data := writeAt f.data f.position (bytes.take n)
      position := f.position + n
      writes := f.writes + 1 })

def seek (f : ScriptedFile) (target : SeekTarget) : Except TransportFailure Nat × ScriptedFile :=
  if f.script.failSeek then (.error f.script.failure, f)
  else
    match target.resolve? f.position f.data.length with
    | some offset => (.ok offset, { f with position := offset })
    | none => (.error ⟨.invalidInput, none⟩, f)

/-- Fails when the script says so. -/
def failIf (f : ScriptedFile) (fails : Bool) : Except TransportFailure Unit × ScriptedFile :=
  (if fails then .error f.script.failure else .ok (), f)

instance : Transport ScriptedFile where
  read := read
  write := write
  seek := seek
  flush f := f.failIf f.script.failFlush
  close f := f.failIf f.script.failClose
  pending f := f.data.length - f.position
  pending_read {f f' limit bytes} h := by
    unfold read at h
    split at h
    · cases h
    · cases h
      simp only [readUpTo, List.length_take, List.length_drop]
      omega

end ScriptedFile
end CheckedFormat
