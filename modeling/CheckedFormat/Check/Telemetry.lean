import CheckedFormat.Check.Counter
import CheckedFormat.Check.Fault
import CheckedFormat.Check.Level
/-! The journal and the counters, as one value that the engines carry along.

The process has a check level of its own, beside the levels that lists were started
with. It decides whether what no list answers for is journaled: the failed transfers
of streams and the stale handles of lists. Both are counted at either level. -/
namespace CheckedFormat

/-- Everything a run leaves behind for its observer. -/
structure Telemetry where
  /-- The check level of the process. -/
  level : CheckLevel
  journal : Journal
  counts : Counts

namespace Telemetry

/-- A journal of the default capacity and counters at zero, in a process of a level. -/
def start (level : CheckLevel) : Telemetry :=
  ⟨level, Journal.empty Journal.defaultCapacity, Counts.zero⟩

/-- The start of a process that nothing was said to about its level. -/
def initial : Telemetry := .start .checked

def count (t : Telemetry) (c : Counter) : Telemetry := { t with counts := t.counts.increment c }

def countMany (t : Telemetry) (c : Counter) (n : Nat) : Telemetry :=
  { t with counts := t.counts.add c n.toUInt64 }

def record (t : Telemetry) (fault : Fault) : Telemetry :=
  { t with journal := t.journal.record fault }

/-- Journals a fault where the process reports faults. -/
def report (t : Telemetry) (fault : Fault) : Telemetry :=
  if t.level.reportsFaults then t.record fault else t

end Telemetry
end CheckedFormat
