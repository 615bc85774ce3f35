import CheckedFormat.Conformance.SuiteFile
import CheckedFormat.Conformance.Summary
/-! Conformance reports.

A report says which suite files were run, how each family fared, and what became of
every case, with the differences of those that failed. It is written as Markdown for
readers and as JSON for tools. -/
namespace CheckedFormat
namespace Conformance

/-- Where the cases of a suite came from. -/
structure Provenance where
  path : String
  family : String
  cases : Nat
  sha256 : String
  deriving DecidableEq, Repr

namespace Provenance

def ofFile (file : SuiteFile) : Provenance :=
  ⟨file.path, file.suite.family, file.suite.cases.length, file.sha256⟩

def json (p : Provenance) : Json.Value :=
  .object [
    ("path", .string p.path),
    ("family", .string p.family),
    ("cases", .ofNat p.cases),
    ("sha256", .string p.sha256)]

end Provenance

structure Report where
  title : String
  /-- The levels that were run. -/
  mode : String
  timestamp : String
  fixtures : List Provenance
  summary : Summary
  deriving DecidableEq, Repr

/-- The verdicts on all files at each level in turn. -/
def verdictsAt (levels : List CheckLevel) (files : List SuiteFile) : List Verdict :=
  levels.flatMap fun level => files.flatMap (·.suite.verdicts level)

/-- The names of levels, joined by plus signs. -/
def levelNames (levels : List CheckLevel) : String := "+".intercalate (levels.map (·.name))

/-- Runs files at levels and reports on them. -/
def Report.ofRun (title timestamp : String) (levels : List CheckLevel) (files : List SuiteFile) :
    Report :=
  { title
    mode := levelNames levels
    timestamp
    fixtures := files.map .ofFile
    summary := .ofVerdicts (verdictsAt levels files) }

namespace Report

/-! ### Markdown -/

/-- A line of a table. -/
def row (cells : List String) : String := "| " ++ " | ".intercalate cells ++ " |\n"

def heading (r : Report) : String :=
  String.join [
    "# ", r.title, "\n\n",
    "- Mode: ", r.mode, "\n",
    "- Timestamp: ", r.timestamp, "\n",
    "- Total: ", toString r.summary.total, "\n",
    "- Passed: ", toString r.summary.passed, "\n",
    "- Failed: ", toString r.summary.failed, "\n\n"]

def fixtureTable (r : Report) : String :=
  "## Fixtures\n\n| File | Family | Cases | SHA-256 |\n|------|--------|-------|---------|\n" ++
    String.join (r.fixtures.map fun f =>
      row [f.path, f.family, toString f.cases, "`" ++ f.sha256 ++ "`"])

def familyTable (r : Report) : String :=
  "\n## Families\n\n| Family | Passed | Failed |\n|--------|--------|--------|\n" ++
    String.join (r.summary.byFamily.map fun (family, t) =>
      row [family, toString t.passed, toString t.failed])

def caseTable (r : Report) : String :=
  "\n## Cases\n\n| Case | Family | Section | Mode | Status |\n" ++
    "|------|--------|---------|------|--------|\n" ++
    String.join (r.summary.verdicts.map fun v =>
      row [v.caseName, v.family, v.clause, v.mode, if v.passed then "PASS" else "FAIL"])

/-- What a failed case got wrong. -/
def failureSection (v : Verdict) : String :=
  String.join [
    "\n### ", v.caseName, " (", v.mode, ")\n\n",
    "```diff\n", v.difference.getD "", "```\n"]

def failureSections (r : Report) : String :=
  match r.summary.failures with
  | [] => ""
  | failures => "\n## Failures\n" ++ String.join (failures.map failureSection)

def markdown (r : Report) : String :=
  String.join [r.heading, r.fixtureTable, r.familyTable, r.caseTable, r.failureSections]

/-! ### JSON -/

def json (r : Report) : Json.Value :=
  .object [
    ("title", .string r.title),
    ("mode", .string r.mode),
    ("timestamp", .string r.timestamp),
    ("fixtures", .array (r.fixtures.map (·.json))),
    ("summary", r.summary.json)]

end Report
end Conformance
end CheckedFormat
