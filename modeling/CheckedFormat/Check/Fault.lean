/-! The fault journal: the latest faults, numbered.

Every recorded fault gets the next sequence number, counting from one. The
journal keeps at most `capacity` entries and evicts the oldest when it is full;
`dropped` counts the evicted ones. Clearing forgets the entries and the count of
evictions and keeps the numbering, so a number never names two faults. -/
namespace CheckedFormat

/-- What sort of rule a fault broke. -/
inductive FaultKind where
  | argumentUnderrun
  | argumentTypeMismatch
  | useAfterEnd
  | formatError
  | streamError
  | memoryError
  deriving DecidableEq, Repr

namespace FaultKind

def all : List FaultKind :=
  [argumentUnderrun, argumentTypeMismatch, useAfterEnd, formatError, streamError, memoryError]

def name : FaultKind → String
  | argumentUnderrun => "argument_underrun"
  | argumentTypeMismatch => "argument_type_mismatch"
  | useAfterEnd => "use_after_end"
  | formatError => "format_error"
  | streamError => "stream_error"
  | memoryError => "memory_error"

def ofName? (text : String) : Option FaultKind := all.find? (·.name == text)

end FaultKind

/-- A fault as it happened: its kind, the operation that met it, and the text of
the error. -/
structure Fault where
  kind : FaultKind
  operation : String
  detail : String
  deriving DecidableEq, Repr

namespace Journal

/-- A recorded fault with its sequence number. -/
structure Entry where
  sequence : Nat
  fault : Fault
  deriving DecidableEq, Repr

end Journal

/-- The latest faults, oldest first. -/
structure Journal where
  capacity : Nat
  entries : List Journal.Entry
  /-- How many faults were ever recorded; also the latest sequence number. -/
  recorded : Nat
  /-- How many entries were evicted since the last clearing. -/
  dropped : Nat
  deriving DecidableEq, Repr

namespace Journal

/-- The number of entries the process-wide journal keeps. -/
def defaultCapacity : Nat := 256

/-- A journal without entries. One that could hold nothing would lose every
fault, so a capacity of zero means one. -/
def empty (capacity : Nat) : Journal := ⟨max capacity 1, [], 0, 0⟩

/-- Drops the oldest entry of a full journal. -/
def evict (j : Journal) : Journal :=
  if j.entries.length < j.capacity then j
  else { j with entries := j.entries.drop 1, dropped := j.dropped + 1 }

/-- Numbers a fault and keeps it as the latest entry. -/
def record (j : Journal) (fault : Fault) : Journal :=
  let j := j.evict
  { j with entries := j.entries ++ [⟨j.recorded + 1, fault⟩], recorded := j.recorded + 1 }

/-- Records faults in order. -/
def recordAll (j : Journal) (faults : List Fault) : Journal := faults.foldl record j

def last? (j : Journal) : Option Entry := j.entries.getLast?

/-- The retained entries with a number above `sequence`. -/
def since (j : Journal) (sequence : Nat) : List Entry :=
  j.entries.filter (sequence < ·.sequence)

def clear (j : Journal) : Journal := { j with entries := [], dropped := 0 }

end Journal
end CheckedFormat
