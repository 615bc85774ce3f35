import CheckedFormat.Conformance.Verdict
/-! The log of a conformance run.

Every entry is one line of JSON. The time, the trace, the level and the event are
always there; what else is unset is left out. Traces are numbered within a run. -/
namespace CheckedFormat
namespace Conformance

open Json (Value Fields Reads)

inductive LogLevel where
  | debug
  | info
  | warn
  | error
  deriving DecidableEq, Repr

namespace LogLevel

def all : List LogLevel := [debug, info, warn, error]

def name : LogLevel → String
  | debug => "debug"
  | info => "info"
  | warn => "warn"
  | error => "error"

def ofName? (text : String) : Option LogLevel := all.find? (·.name == text)

end LogLevel

/-- How a case came out. -/
inductive LogOutcome where
  | pass
  | fail
  deriving DecidableEq, Repr

namespace LogOutcome

def all : List LogOutcome := [pass, fail]

def name : LogOutcome → String
  | pass => "pass"
  | fail => "fail"

def ofName? (text : String) : Option LogOutcome := all.find? (·.name == text)

end LogOutcome

structure LogEntry where
  timestamp : String
  traceId : String
  level : LogLevel
  event : String
  mode : Option String := none
  family : Option String := none
  caseName : Option String := none
  outcome : Option LogOutcome := none
  errno : Option Errno := none
  /-- Anything else. -/
  details : Option Value := none
  deriving Repr

namespace LogEntry

/-! ### Reading and writing -/

def reads : Reads LogEntry := fun depth t => do
  let f ← Fields.of?
    ["timestamp", "trace_id", "level", "event", "mode", "api_family", "case", "outcome", "errno",
      "details"] depth t
  return {
    timestamp := ← f.required "timestamp" .string
    traceId := ← f.required "trace_id" .string
    level := ← f.required "level" (.named LogLevel.all LogLevel.name)
    event := ← f.required "event" .string
    mode := ← f.optional "mode" .string
    family := ← f.optional "api_family" .string
    caseName := ← f.optional "case" .string
    outcome := ← f.optional "outcome" (.named LogOutcome.all LogOutcome.name)
    errno := ← f.optional "errno" int32
    details := ← f.optional "details" .value }

/-- A member that is there only when its value is. -/
def optionalMember (key : String) (v : Option Value) : List (String × Value) :=
  (v.map (key, ·)).toList

def json (e : LogEntry) : Value :=
  .object (
    [("timestamp", .string e.timestamp),
      ("trace_id", .string e.traceId),
      ("level", .string e.level.name),
      ("event", .string e.event)] ++
    optionalMember "mode" (e.mode.map .string) ++
    optionalMember "api_family" (e.family.map .string) ++
    optionalMember "case" (e.caseName.map .string) ++
    optionalMember "outcome" (e.outcome.map fun o => .string o.name) ++
    optionalMember "errno" (e.errno.map .ofInt) ++
    optionalMember "details" e.details)

/-- The line of an entry. -/
def line (e : LogEntry) : String := e.json.compact

/-- What is wrong with a line. -/
inductive LineError where
  /-- It is no entry. -/
  | invalid
  /-- A field that must not be empty is. -/
  | emptyField (name : String)
  deriving DecidableEq, Repr

def LineError.message : LineError → String
  | invalid => "invalid entry"
  | emptyField name => s!"field '{name}' is empty"

/-- The first of the fields that must not be empty that is. -/
def emptyField? (e : LogEntry) : Option String :=
  ([("timestamp", e.timestamp), ("trace_id", e.traceId), ("event", e.event)].find?
    (·.2.isEmpty)).map (·.1)

/-- Reads a line back. -/
def validate (line : List Byte) : Except LineError LogEntry :=
  match Json.read? reads line with
  | none => .error .invalid
  | some e =>
    match e.emptyField? with
    | some field => .error (.emptyField field)
    | none => .ok e

/-- The entry about a verdict. -/
def ofVerdict (timestamp traceId : String) (v : Verdict) : LogEntry :=
  { timestamp
    traceId
    level := if v.passed then .info else .error
    event := "case_verified"
    mode := some v.mode
    family := some v.family
    caseName := some v.caseName
    outcome := some (if v.passed then .pass else .fail)
    errno := some v.actualErrno
    details :=
      if v.passed then none
      else some (.ofMembers [
        ("expected", .string v.expected),
        ("actual", .string v.actual),
        ("expected_errno", .ofInt v.expectedErrno)]) }

end LogEntry

/-- A log that is being written. -/
structure Log where
  runId : String
  /-- How many traces were numbered. -/
  traces : Nat
  /-- The lines so far. -/
  lines : List String
  deriving DecidableEq, Repr

namespace Log

def start (runId : String) : Log := ⟨runId, 0, []⟩

/-- A number with four digits at least. -/
def fourDigits (n : Nat) : String :=
  let numeral := Nat.toDigits 10 n
  String.ofList (List.replicate (4 - numeral.length) '0' ++ numeral)

/-- Numbers the next trace. -/
def nextTrace (l : Log) : String × Log :=
  (l.runId ++ "::" ++ fourDigits (l.traces + 1), { l with traces := l.traces + 1 })

def write (l : Log) (e : LogEntry) : Log := { l with lines := l.lines ++ [e.line] }

/-- Writes an entry; one without a trace gets the next. -/
def emit (l : Log) (e : LogEntry) : Log :=
  if e.traceId.isEmpty then
    let (traceId, l) := l.nextTrace
    l.write { e with traceId }
  else l.write e

/-- Writes an entry about a verdict, under the next trace. -/
def emitVerdict (timestamp : String) (l : Log) (v : Verdict) : Log :=
  let (traceId, l) := l.nextTrace
  l.emit (.ofVerdict timestamp traceId v)

def emitVerdicts (l : Log) (timestamp : String) (verdicts : List Verdict) : Log :=
  verdicts.foldl (emitVerdict timestamp) l

end Log
end Conformance
end CheckedFormat
