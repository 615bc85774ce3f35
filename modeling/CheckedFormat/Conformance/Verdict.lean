import CheckedFormat.Conformance.Difference
import CheckedFormat.Conformance.Run
/-! Verdicts on cases.

A case passes when a run shows the expected output and leaves the expected error
number; what differs otherwise becomes the verdict's difference. A case that cannot
be run gets a verdict too, on a run that shows why. -/
namespace CheckedFormat
namespace Conformance

/-- The verdict on one case at one level. -/
structure Verdict where
  caseName : String
  family : String
  clause : String
  /-- The name of the level. -/
  mode : String
  passed : Bool
  expected : String
  actual : String
  expectedErrno : Errno
  actualErrno : Errno
  /-- How the run differs from what was expected; none for a case that passed. -/
  difference : Option String
  deriving DecidableEq, Repr

namespace Verdict

/-- The text of the differences between a run and what its case expects. -/
def differences (c : Case) (run : CaseRun) : String :=
  (if run.output == c.expectedOutput then "" else outputDifference c.expectedOutput run.output) ++
    (if run.errno == c.expectedErrno then "" else errnoDifference c.expectedErrno run.errno)

/-- How a run differs from what a case expects. -/
def difference? (c : Case) (run : CaseRun) : Option String :=
  if (differences c run).isEmpty then none else some (differences c run)

/-- Compares a run with what its case expects. -/
def compare (family mode : String) (c : Case) (run : CaseRun) : Verdict :=
  { caseName := c.name
    family
    clause := c.clause
    mode
    passed := run.output == c.expectedOutput && run.errno == c.expectedErrno
    expected := c.expectedOutput
    actual := run.output
    expectedErrno := c.expectedErrno
    actualErrno := run.errno
    difference := difference? c run }

def json (v : Verdict) : Json.Value :=
  .object [
    ("case_name", .string v.caseName),
    ("family", .string v.family),
    ("spec_section", .string v.clause),
    ("mode", .string v.mode),
    ("passed", .bool v.passed),
    ("expected", .string v.expected),
    ("actual", .string v.actual),
    ("expected_errno", .ofInt v.expectedErrno),
    ("actual_errno", .ofInt v.actualErrno),
    ("diff", .ofOption (v.difference.map .string))]

/-- Reads a verdict that was written. -/
def reads : Json.Reads Verdict := fun depth t => do
  let f ← Json.Fields.of?
    ["case_name", "family", "spec_section", "mode", "passed", "expected", "actual",
      "expected_errno", "actual_errno", "diff"] depth t
  return {
    caseName := ← f.required "case_name" .string
    family := ← f.required "family" .string
    clause := ← f.required "spec_section" .string
    mode := ← f.required "mode" .string
    passed := ← f.required "passed" .bool
    expected := ← f.required "expected" .string
    actual := ← f.required "actual" .string
    expectedErrno := ← f.required "expected_errno" int32
    actualErrno := ← f.required "actual_errno" int32
    difference := ← f.optional "diff" .string }

end Verdict

/-- The verdict on a case at a level. -/
def Case.verdict (family : String) (level : CheckLevel) (c : Case) : Verdict :=
  let run :=
    match c.run level with
    | .ok run => run
    | .error e => ⟨s!"unsupported:{e.message}", 0⟩
  .compare family level.name c run

/-- The verdicts on the cases of a suite that are run at a level, in order. -/
def Suite.verdicts (s : Suite) (level : CheckLevel) : List Verdict :=
  (s.cases.filter (·.runsAt level)).map (Case.verdict s.family level)

end Conformance
end CheckedFormat
