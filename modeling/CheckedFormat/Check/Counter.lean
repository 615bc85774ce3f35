/-! Counters of what the engines did.

Counters are 64-bit words and wrap. The growth between two readings is counted
from the earlier to the later one, and a counter that went down did not grow. -/
namespace CheckedFormat

inductive Counter where
  | argumentsRead
  | underruns
  | typeMismatches
  | usesAfterEnd
  | formatErrors
  | streamErrors
  | printCalls
  | bytesRendered
  | scanCalls
  | fieldsAssigned
  deriving DecidableEq, Repr

namespace Counter

def all : List Counter :=
  [argumentsRead, underruns, typeMismatches, usesAfterEnd, formatErrors, streamErrors, printCalls,
    bytesRendered, scanCalls, fieldsAssigned]

def name : Counter → String
  | argumentsRead => "va_reads"
  | underruns => "va_underruns"
  | typeMismatches => "va_type_mismatches"
  | usesAfterEnd => "va_use_after_end"
  | formatErrors => "format_errors"
  | streamErrors => "stream_errors"
  | printCalls => "printf_calls"
  | bytesRendered => "bytes_rendered"
  | scanCalls => "scanf_calls"
  | fieldsAssigned => "fields_assigned"

def ofName? (text : String) : Option Counter := all.find? (·.name == text)

/-- The counter's place in a reading. -/
def index : Counter → Fin 10
  | argumentsRead => 0
  | underruns => 1
  | typeMismatches => 2
  | usesAfterEnd => 3
  | formatErrors => 4
  | streamErrors => 5
  | printCalls => 6
  | bytesRendered => 7
  | scanCalls => 8
  | fieldsAssigned => 9

theorem index_inj {a b : Counter} : a.index = b.index ↔ a = b := by
  cases a <;> cases b <;> decide

end Counter

/-- A reading of every counter. -/
structure Counts where
  values : Vector UInt64 10
  deriving DecidableEq

namespace Counts

/-- All counters at zero. -/
def zero : Counts := ⟨Vector.replicate 10 0⟩

def get (m : Counts) (c : Counter) : UInt64 := m.values[c.index]

def add (m : Counts) (c : Counter) (n : UInt64) : Counts :=
  ⟨m.values.set c.index (m.get c + n)⟩

def increment (m : Counts) (c : Counter) : Counts := m.add c 1

/-- How much each counter grew since an earlier reading. -/
def since (later earlier : Counts) : Counts :=
  ⟨later.values.zipWith (fun a b => if a < b then 0 else a - b) earlier.values⟩

/-- The counters that are not zero. -/
def nonzero (m : Counts) : List (Counter × UInt64) :=
  (Counter.all.map fun c => (c, m.get c)).filter (·.2 != 0)

theorem get_add_self (m : Counts) (c : Counter) (n : UInt64) :
    (m.add c n).get c = m.get c + n := by
  simp [get, add]

theorem get_add_of_ne (m : Counts) {c d : Counter} (n : UInt64) (h : c ≠ d) :
    (m.add c n).get d = m.get d := by
  have hne : (c.index : Nat) ≠ d.index := fun e => h (Counter.index_inj.1 (Fin.ext e))
  simp [get, add, hne]

end Counts
end CheckedFormat
