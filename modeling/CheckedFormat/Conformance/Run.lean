import CheckedFormat.Conformance.Case
import CheckedFormat.Memory.Arena
import CheckedFormat.Number.Shortest
import CheckedFormat.Print.Render
import CheckedFormat.Scan.Engine
import CheckedFormat.Text.Utf8
/-! Running a case.

Every case gets an arena of its own, with its strings and zeroed destinations placed
in the order of the arguments. What a run shows is the result of the call and then
each destination, separated by bars. The result is the printed text; or the length of
the whole output and what the buffer holds of it; or the number of scanned fields.
A call that fails shows the word `error` and leaves its error number. -/
namespace CheckedFormat
namespace Conformance

/-- What a run of a case shows. -/
structure CaseRun where
  output : String
  /-- The error number left behind, zero on success. -/
  errno : Errno
  deriving DecidableEq, Repr

/-- Why a case cannot be run. -/
inductive CaseError where
  | unsupportedFunction (name : String)
  | missingField (caseName field : String)
  /-- A destination cannot be read back. -/
  | readBack (e : MemoryError)
  deriving DecidableEq, Repr

def CaseError.message : CaseError → String
  | unsupportedFunction name => s!"unsupported function '{name}'"
  | missingField caseName field => s!"case '{caseName}' is missing field '{field}'"
  | readBack e => s!"reading back result: {e.message}"

/-- The functions that cases call. -/
inductive Callee where
  | printf
  | snprintf
  | sscanf
  | fscanf
  deriving DecidableEq, Repr

namespace Callee

def all : List Callee := [printf, snprintf, sscanf, fscanf]

def name : Callee → String
  | printf => "printf"
  | snprintf => "snprintf"
  | sscanf => "sscanf"
  | fscanf => "fscanf"

def ofName? (text : String) : Option Callee := all.find? (·.name == text)

end Callee

/-- The objects of a case in its arena. -/
structure Prepared where
  arena : Arena
  slots : List Slot
  /-- The destinations with their addresses. -/
  destinations : List (Destination × Nat)

namespace Prepared

def empty : Prepared := ⟨Arena.empty, [], []⟩

def push (p : Prepared) (slot : Slot) : Prepared := { p with slots := p.slots ++ [slot] }

/-- Adds an argument, placing what it points to. -/
def add (p : Prepared) : CaseArgument → Prepared
  | .int v => p.push (.int v)
  | .unsignedInt v => p.push (.unsignedInt v)
  | .long v => p.push (.long v)
  | .unsignedLong v => p.push (.unsignedLong v)
  | .double bits => p.push (.double bits)
  | .null => p.push (.pointer 0)
  | .string s =>
    let (address, arena) := p.arena.allocateString (Utf8.encode s)
    { p with arena }.push (.pointer address)
  | .destination d =>
    let (address, arena) := p.arena.allocate d.size
    { p with arena, destinations := p.destinations ++ [(d, address)] }.push (.pointer address)

def ofArguments (arguments : List CaseArgument) : Prepared := arguments.foldl add empty

def frame (p : Prepared) (level : CheckLevel) : Frame Arena :=
  ⟨.start level p.slots, p.arena, .initial⟩

end Prepared

/-- What a zeroed buffer of a size shows of an output that is printed into it. -/
def shownWithin (size : Nat) (output : List Byte) : List Byte := upToNul (output.take (size - 1))

/-- What a call shows of its result: the text, or that it failed. -/
def resultRun {ε α : Type} (errno : ε → Errno) (show_ : α → CaseRun) : Except ε α → CaseRun
  | .ok a => show_ a
  | .error e => ⟨"error", errno e⟩

def scanRun : Except ScanError ScanOutcome → CaseRun :=
  resultRun ScanError.errno fun o => ⟨toString o.value, (o.failure.map (·.errno)).getD 0⟩

/-- Makes the call of a case. -/
def Case.call (c : Case) (callee : Callee) (frame : Frame Arena) :
    Except CaseError (CaseRun × Frame Arena) := do
  let format := Utf8.encode c.format
  let field {α : Type} (found : Option α) (name : String) : Except CaseError α :=
    match found with
    | some a => .ok a
    | none => .error (.missingField c.name name)
  match callee with
  | .printf =>
    let (result, frame) := Print.format format frame
    return (resultRun PrintError.errno (fun out => ⟨Utf8.decodeLossy out, 0⟩) result, frame)
  | .snprintf =>
    let size ← field c.bufferSize "buffer_size"
    let (result, frame) := Print.format format frame
    let shown (out : List Byte) : CaseRun :=
      ⟨toString out.length ++ ":" ++ Utf8.decodeLossy (shownWithin size out), 0⟩
    return (resultRun PrintError.errno shown result, frame)
  | .sscanf =>
    let input ← field c.input "input"
    let (result, frame) := Scan.scanString (Utf8.encode input) format frame
    return (scanRun result, frame)
  | .fscanf =>
    let input ← field c.input "input"
    let stream := Stream.wrap (⟨Utf8.encode input, 0, false⟩ : MemoryFile) .readOnly
    let (result, _, frame) := Scan.scan stream format frame
    return (scanRun result, frame)

/-- The text of what a destination holds. -/
def Destination.read (d : Destination) (arena : Arena) (address : Nat) :
    Except MemoryError String :=
  match d with
  | i8 | i16 | i32 | i64 => (arena.readSigned address d.size).map toString
  | u8 | u16 | u32 | u64 => (arena.readUnsigned address d.size).map toString
  | f32 => (arena.readFloatBits address d.size).map fun bits =>
      Json.asciiText (FloatFormat.binary32.displayText bits)
  | f64 => (arena.readFloatBits address d.size).map fun bits =>
      Json.asciiText (FloatFormat.binary64.displayText bits)
  | bytes => (arena.readString address (some d.size)).map Utf8.decodeLossy

/-- Adds the destinations to what a call showed. -/
def readBack (arena : Arena) (destinations : List (Destination × Nat)) (output : String) :
    Except MemoryError String :=
  destinations.foldlM (fun output (d, address) => do
    return output ++ "|" ++ (← d.read arena address)) output

/-- Runs a case at a level. -/
def Case.run (c : Case) (level : CheckLevel) : Except CaseError CaseRun := do
  let prepared := Prepared.ofArguments c.arguments
  let callee ←
    match Callee.ofName? c.function with
    | some callee => pure callee
    | none => .error (.unsupportedFunction c.function)
  let (run, frame) ← c.call callee (prepared.frame level)
  let output ← (readBack frame.memory prepared.destinations run.output).mapError .readBack
  return { run with output }

end Conformance
end CheckedFormat
