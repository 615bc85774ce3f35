import CheckedFormat.Argument.Cursor
import CheckedFormat.Directive.Scan
import CheckedFormat.Memory.Basic
import CheckedFormat.Scan.FloatToken
import CheckedFormat.Scan.IntegerToken
/-! Scanning under a format.

The whole format is read before anything is scanned. Then each segment matches the
input in turn, and a directive stores what it matched at the address that the next
argument gives, unless it is suppressed. Scanning stops at the first segment that
the input does not match, which is no error: the outcome says how far it came. A
wrong argument or a failing store is an error and ends the call.

`Scan.scan` is the whole call with its bookkeeping, for any source of bytes. -/
namespace CheckedFormat

/-- Why a scanning call fails outright. -/
inductive ScanError where
  | format (e : FormatError)
  | argument (e : ArgumentError)
  | memory (e : MemoryError)
  deriving DecidableEq, Repr

namespace ScanError

def message : ScanError → String
  | format e => e.message
  | argument e => e.message
  | memory e => e.message

def errno : ScanError → Errno
  | format _ | argument _ => Errno.invalidArgument
  | memory _ => Errno.badAddress

/-- The kind of fault that a call reports for the error. Argument errors are reported
where they arise. -/
def faultKind? : ScanError → Option FaultKind
  | format _ => some .formatError
  | memory _ => some .memoryError
  | argument _ => none

end ScanError

/-- How a scan ended. -/
inductive ScanStatus where
  | complete
  /-- The input does not match. -/
  | matchingFailure
  /-- The input ended, or could not be read, before a directive matched. -/
  | inputFailure
  deriving DecidableEq, Repr

/-- What a scan did. -/
structure ScanOutcome where
  /-- Fields stored; counts are not among them. -/
  assigned : Nat
  /-- Bytes consumed from the source. -/
  consumed : Nat
  status : ScanStatus
  /-- The read error that ended the input. -/
  failure : Option StreamError
  deriving DecidableEq, Repr

/-- What a C caller gets: the number of fields, or minus one when the input ended
before the first. -/
def ScanOutcome.value (o : ScanOutcome) : Int :=
  if o.assigned = 0 ∧ o.status = .inputFailure then -1 else min o.assigned intMax

namespace Scan

/-- Everything that a scanning call works on. -/
structure State (S M : Type) where
  reader : Reader S
  frame : Frame M

/-- A step of a scanning call. -/
abbrev Step (S M : Type) := EStateM ScanError (State S M)

/-- How a directive ended. -/
inductive Progress where
  | assigned
  /-- Matched, but nothing that counts as a field was stored. -/
  | skipped
  | stopped (status : ScanStatus)
  deriving DecidableEq, Repr

variable {S M : Type}

/-- The frame after reading; a read error is reported when it happens. -/
def noteRead (before after : Reader S) (frame : Frame M) : Frame M :=
  match before.failure, after.failure with
  | none, some e => frame.note (·.noteStreamError e)
  | _, _ => frame

/-- Reads from the source. -/
def reading {α : Type} (f : Reader S → α × Reader S) : Step S M α := fun state =>
  let (result, reader) := f state.reader
  .ok result { reader, frame := noteRead state.reader reader state.frame }

/-- The bytes consumed so far. -/
def consumed : Step S M Nat := fun state => .ok state.reader.consumed state

/-- Takes the address that the next argument gives. -/
def fetchAddress : Step S M Nat := fun state =>
  match state.frame.fetch .pointer with
  | (.ok bits, frame) => .ok bits.asAddress { state with frame }
  | (.error e, frame) => .error (.argument e) { state with frame }

/-- Changes the memory. -/
def storing (f : M → Except MemoryError M) : Step S M Unit := fun state =>
  match f state.frame.memory with
  | .ok memory => .ok () { state with frame := { state.frame with memory } }
  | .error e => .error (.memory e) state

variable [Memory M]

/-- Stores a text, and a zero byte behind it when it is a string. -/
def storeText (suppress terminate : Bool) (text : List Byte) : Step S M Progress := do
  if suppress then return .skipped
  else
    let address ← fetchAddress
    storing fun m => Memory.writeBytes m address text
    if terminate then storing fun m => Memory.writeBytes m (address + text.length) [0]
    return .assigned

/-- Stores a number in some way. -/
def storeNumber (suppress : Bool) (store : M → Nat → Except MemoryError M) :
    Step S M Progress := do
  if suppress then return .skipped
  else
    let address ← fetchAddress
    storing fun m => store m address
    return .assigned

/-- Stores the count of bytes consumed. It is no field. -/
def convertCount (spec : ScanSpec) : Step S M Progress := do
  if spec.suppress then return .skipped
  else
    let address ← fetchAddress
    let count ← consumed
    storing fun m =>
      Memory.writeInteger m address (BitVec.ofNat 64 count) spec.length.integerSize
    return .skipped

variable [ByteSource S]

/-- Takes as many characters as the width says, white space included. -/
def convertCharacters (spec : ScanSpec) : Step S M Progress := do
  let run ← reading (Reader.takeWhile (fun _ => true) (some (spec.width.getD 1)))
  if run.bytes.isEmpty then return .stopped .inputFailure
  else storeText spec.suppress false run.bytes

/-- Skips white space and goes on, unless the input ends. -/
def afterSpace (convert : Step S M Progress) : Step S M Progress := do
  if ← reading Reader.skipSpace then convert else return .stopped .inputFailure

/-- Takes a word. -/
def convertString (spec : ScanSpec) : Step S M Progress := afterSpace do
  let run ← reading (Reader.takeWhile (fun b => !b.isSpace) spec.width)
  storeText spec.suppress true run.bytes

/-- Takes a run of members of a byte set. -/
def convertSet (spec : ScanSpec) (members : ByteSet) : Step S M Progress := do
  let run ← reading (Reader.takeWhile members.contains spec.width)
  if run.bytes.isEmpty then
    return .stopped (if run.atEnd then .inputFailure else .matchingFailure)
  else storeText spec.suppress true run.bytes

/-- Takes a whole number. -/
def convertInteger (spec : ScanSpec) (base : IntegerToken.Base) (signed : Bool) (size : Nat) :
    Step S M Progress := afterSpace do
  match ← reading (Reader.token (IntegerToken.recogniser base) spec.width) with
  | none => return .stopped .matchingFailure
  | some token =>
    let value := IntegerToken.value base token
    let bits := if signed then value.toSigned else value.toUnsigned
    storeNumber spec.suppress fun m address => Memory.writeInteger m address bits size

/-- The size of the object that a floating-point directive stores; a `long double` is
stored as a double. -/
def floatSize : LengthModifier → Nat
  | .long | .longDouble => 8
  | _ => 4

/-- Takes a floating-point number. -/
def convertFloat (spec : ScanSpec) : Step S M Progress := afterSpace do
  match ← reading (Reader.token FloatToken.recogniser spec.width) with
  | none => return .stopped .matchingFailure
  | some token =>
    storeNumber spec.suppress fun m address =>
      Memory.writeFloat m address (FloatToken.value token) (floatSize spec.length)

/-- Matches one directive. -/
def convert (spec : ScanSpec) : Step S M Progress :=
  let size := spec.length.integerSize
  match spec.conversion with
  | .set members => convertSet spec members
  | .letter .n => convertCount spec
  | .letter .c => convertCharacters spec
  | .letter .s => convertString spec
  | .letter .d => convertInteger spec (.fixed 10) true size
  | .letter .u => convertInteger spec (.fixed 10) false size
  | .letter .i => convertInteger spec .detect true size
  | .letter .o => convertInteger spec (.fixed 8) false size
  | .letter .x | .letter .X => convertInteger spec .hex false size
  | .letter .p => convertInteger spec .hex false 8
  | .letter .f | .letter .F | .letter .e | .letter .E | .letter .g | .letter .G
  | .letter .a | .letter .A => convertFloat spec

/-- How matching literal bytes ends a segment. -/
def ofMatch : Reader.Match → Progress
  | .complete => .skipped
  | .mismatch => .stopped .matchingFailure
  | .atEnd => .stopped .inputFailure

/-- Matches one segment. -/
def matchSegment : ScanSegment → Step S M Progress
  | .space => do
    let _ ← reading Reader.skipSpace
    return .skipped
  | .literal bytes => return ofMatch (← reading (Reader.expect bytes))
  | .percent => afterSpace do
    return ofMatch (← reading (Reader.expect [opener]))
  | .directive spec => convert spec

/-- Matches segments in turn, after `assigned` fields. -/
def runFrom (assigned : Nat) : List ScanSegment → Step S M (Nat × ScanStatus)
  | [] => return (assigned, .complete)
  | segment :: rest => do
    match ← matchSegment segment with
    | .assigned => runFrom (assigned + 1) rest
    | .skipped => runFrom assigned rest
    | .stopped status => return (assigned, status)

/-- Reads the format and scans under all of it. -/
def run (format : List Byte) : Step S M (Nat × ScanStatus) :=
  match ScanFormat.parse format with
  | .error e => throw (.format e)
  | .ok segments => runFrom 0 segments

/-- Counts a failed call, and journals what the frame reports. -/
def noteFailure (e : ScanError) (frame : Frame M) : Frame M :=
  let frame :=
    match e with
    | .format _ => frame.note (·.count .formatErrors)
    | _ => frame
  match e.faultKind? with
  | some kind =>
    if frame.reportsFaults then frame.note (·.record ⟨kind, "scanf", e.message⟩) else frame
  | none => frame

/-- Scans a source under a format. -/
def scan (source : S) (format : List Byte) (frame : Frame M) :
    Except ScanError ScanOutcome × S × Frame M :=
  match run format ⟨.start source, frame.note (·.count .scanCalls)⟩ with
  | .ok (assigned, status) ⟨reader, frame⟩ =>
    (.ok ⟨assigned, reader.consumed, status, reader.failure⟩, reader.source,
      frame.note (·.countMany .fieldsAssigned assigned))
  | .error e ⟨reader, frame⟩ => (.error e, reader.source, noteFailure e frame)

omit [ByteSource S] in
/-- Scans a C string, which ends at its first zero byte. -/
def scanString (input format : List Byte) (frame : Frame M) :
    Except ScanError ScanOutcome × Frame M :=
  let (result, _, frame) := scan (TextSource.mk (upToNul input)) format frame
  (result, frame)

end Scan
end CheckedFormat
