import CheckedFormat.Conformance.Verdict
import CheckedFormat.Keyed
/-! Totals over verdicts, per family and over all. -/
namespace CheckedFormat
namespace Conformance

/-- How many cases passed and failed. -/
structure Tally where
  passed : Nat
  failed : Nat
  deriving DecidableEq, Repr

namespace Tally

def zero : Tally := ⟨0, 0⟩

/-- Counts one more verdict. -/
def add (t : Tally) (passed : Bool) : Tally :=
  if passed then { t with passed := t.passed + 1 } else { t with failed := t.failed + 1 }

def json (t : Tally) : Json.Value := .object [("passed", .ofNat t.passed), ("failed", .ofNat t.failed)]

end Tally

/-- Counts a verdict under its family. -/
def tallyVerdict (families : Keyed Tally) (v : Verdict) : Keyed Tally :=
  families.update v.family fun t => (t.getD .zero).add v.passed

structure Summary where
  total : Nat
  passed : Nat
  failed : Nat
  byFamily : Keyed Tally
  verdicts : List Verdict
  deriving DecidableEq, Repr

/-- How many cases of all families passed. -/
def totalPassed (families : Keyed Tally) : Nat :=
  families.foldl (fun n (_, t) => n + t.passed) 0

namespace Summary

def ofVerdicts (verdicts : List Verdict) : Summary :=
  let byFamily := verdicts.foldl tallyVerdict []
  let passed := totalPassed byFamily
  ⟨verdicts.length, passed, verdicts.length - passed, byFamily, verdicts⟩

def allPassed (s : Summary) : Bool := s.failed == 0

def failures (s : Summary) : List Verdict := s.verdicts.filter (!·.passed)

def json (s : Summary) : Json.Value :=
  .object [
    ("total", .ofNat s.total),
    ("passed", .ofNat s.passed),
    ("failed", .ofNat s.failed),
    ("by_family", .object (s.byFamily.map fun (family, t) => (family, t.json))),
    ("results", .array (s.verdicts.map (·.json)))]

end Summary
end Conformance
end CheckedFormat
