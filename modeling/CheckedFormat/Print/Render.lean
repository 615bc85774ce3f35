import CheckedFormat.Field.Floating
import CheckedFormat.Field.Text
import CheckedFormat.Memory.Basic
import CheckedFormat.Print.Operand
import CheckedFormat.Stream.Basic
/-! Printing under a format.

The whole format is read before anything is printed. Then each segment adds to the
output in turn: a directive first takes the arguments that its stars stand for,
then its value, and a count directive stores the length of the output so far and
adds nothing. Nothing is produced when any directive fails.

`Print.format` is the whole call with its bookkeeping; `Print.formatInto` and
`Print.formatTo` send the same bytes to a bounded buffer and to a stream. -/
namespace CheckedFormat

/-- Why a printing call fails. -/
inductive PrintError where
  | format (e : FormatError)
  | argument (e : ArgumentError)
  | memory (e : MemoryError)
  | stream (e : StreamError)
  /-- The output, or a width or precision, exceeds the largest `int`. -/
  | overflow
  deriving DecidableEq, Repr

namespace PrintError

def message : PrintError → String
  | format e => e.message
  | argument e => e.message
  | memory e => e.message
  | stream e => e.message
  | overflow => "output length exceeds INT_MAX"

def errno : PrintError → Errno
  | format _ | argument _ => Errno.invalidArgument
  | memory _ => Errno.badAddress
  | stream e => e.errno
  | overflow => Errno.overflow

/-- The kind of fault that a call reports for the error. Argument and stream errors
are reported where they arise. -/
def faultKind? : PrintError → Option FaultKind
  | format _ | overflow => some .formatError
  | memory _ => some .memoryError
  | argument _ | stream _ => none

end PrintError

namespace Print

/-- A step of a printing call: it works on the frame and may fail. -/
abbrev Step (M : Type) := EStateM PrintError (Frame M)

variable {M : Type}

/-- Takes an argument at a type. -/
def fetch (type : ArgumentType) : Step M Word := fun frame =>
  match frame.fetch type with
  | (.ok bits, frame) => .ok bits frame
  | (.error e, frame) => .error (.argument e) frame

/-- Takes the value of a directive. -/
def fetchOperand (spec : PrintSpec) : Step M Operand := fun frame =>
  match frame.fetchOperand (.ofConversion spec.conversion) spec.length with
  | (.ok operand, frame) => .ok operand frame
  | (.error e, frame) => .error (.argument e) frame

/-- The layout with the width that an argument gives. A negative one asks for the
left side and gives its magnitude. -/
def withWidth (layout : Layout) (width : Int) : Layout :=
  if width < 0 then
    { layout with
      flags := { layout.flags with left := true, zero := false }
      width := .given width.natAbs }
  else { layout with width := .given width.natAbs }

/-- The layout with the precision that an argument gives. A negative one is none. -/
def withPrecision (layout : Layout) (precision : Int) : Layout :=
  { layout with precision := if precision < 0 then .absent else .given precision.natAbs }

def resolveWidth (layout : Layout) : Step M Layout := do
  if layout.width = .fromArgument then return withWidth layout (← fetch .int).asInt
  else return layout

def resolvePrecision (layout : Layout) : Step M Layout := do
  if layout.precision = .fromArgument then return withPrecision layout (← fetch .int).asInt
  else return layout

/-- The layout with its stars replaced by arguments, the width's first. -/
def resolve (layout : Layout) : Step M Layout := do resolvePrecision (← resolveWidth layout)

/-- Whether width and precision are within the largest `int`. -/
def withinLimits (layout : Layout) : Bool :=
  layout.width.getD 0 ≤ intMax && layout.precision.getD 0 ≤ intMax

variable [Memory M]

/-- Reads the string of a directive, at most up to its precision. -/
def readString (address : Nat) (layout : Layout) : Step M (List Byte) := fun frame =>
  let limit :=
    match layout.precision with
    | .given places => some places
    | _ => none
  match Memory.readString frame.memory address limit with
  | .ok text => .ok text frame
  | .error e => .error (.memory e) frame

/-- Stores the count of bytes so far. -/
def storeCount (address count size : Nat) : Step M Unit := fun frame =>
  match Memory.writeInteger frame.memory address (BitVec.ofNat 64 count) size with
  | .ok memory => .ok () { frame with memory }
  | .error e => .error (.memory e) frame

/-- What a directive with a value and a resolved layout adds to an output of
`written` bytes. -/
def renderOperand (spec : PrintSpec) (layout : Layout) (written : Nat) :
    Operand → Step M (List Byte)
  | .signed value => return Field.signed value layout
  | .unsigned value => return Field.unsigned value (.ofLetter spec.conversion.letter) layout
  | .float bits => return Field.float bits (.ofLetter spec.conversion.letter) layout
  | .character b => return Field.character b layout
  | .pointer address => return Field.pointer address layout
  | .string address => do
    if address = 0 then return Field.stringAtNull layout
    else return Field.string (← readString address layout) layout
  | .count address => do
    storeCount address written spec.length.integerSize
    return []

/-- What a directive adds to an output of `written` bytes. -/
def renderDirective (spec : PrintSpec) (written : Nat) : Step M (List Byte) := do
  let layout ← resolve spec.layout
  if withinLimits layout then
    renderOperand spec layout written (← fetchOperand spec)
  else throw .overflow

/-- What a segment adds to an output of `written` bytes. -/
def renderSegment (written : Nat) : PrintSegment → Step M (List Byte)
  | .literal bytes => return bytes
  | .percent => return [opener]
  | .directive spec => renderDirective spec written

/-- What segments add to an output of `written` bytes, one after the other. -/
def renderFrom (written : Nat) : List PrintSegment → Step M (List Byte)
  | [] => return []
  | segment :: rest => do
    let piece ← renderSegment written segment
    let written := written + piece.length
    if intMax < written then throw .overflow
    else return piece ++ (← renderFrom written rest)

/-- Reads the format and prints all of it. -/
def render (format : List Byte) : Step M (List Byte) :=
  match PrintFormat.parse format with
  | .error e => throw (.format e)
  | .ok segments => renderFrom 0 segments

/-- Counts a failed call, and journals what the frame reports. -/
def noteFailure (e : PrintError) (frame : Frame M) : Frame M :=
  let frame :=
    match e with
    | .format _ => frame.note (·.count .formatErrors)
    | _ => frame
  match e.faultKind? with
  | some kind =>
    if frame.reportsFaults then frame.note (·.record ⟨kind, "printf", e.message⟩) else frame
  | none => frame

/-- Prints under a format and gives the bytes. -/
def format (text : List Byte) (frame : Frame M) : Except PrintError (List Byte) × Frame M :=
  match render text (frame.note (·.count .printCalls)) with
  | .ok output frame => (.ok output, frame.note (·.countMany .bytesRendered output.length))
  | .error e frame => (.error e, noteFailure e frame)

/-- What a buffer of a size gets of an output: as much as there is room for before a
zero byte. A buffer without room gets nothing. -/
def truncated (size : Nat) (output : List Byte) : List Byte :=
  if size = 0 then [] else output.take (size - 1) ++ [0]

/-- The buffer with what it gets of an output. -/
def truncateInto (buffer output : List Byte) : List Byte :=
  overlay (truncated buffer.length output) buffer

/-- Prints into a buffer and gives the length of the whole output. -/
def formatInto (buffer text : List Byte) (frame : Frame M) :
    Except PrintError Nat × List Byte × Frame M :=
  match format text frame with
  | (.ok output, frame) => (.ok output.length, truncateInto buffer output, frame)
  | (.error e, frame) => (.error e, buffer, frame)

/-- Prints to a stream and gives the number of bytes. -/
def formatTo {T : Type} [Transport T] (stream : Stream T) (text : List Byte) (frame : Frame M) :
    Except PrintError Nat × Stream T × Frame M :=
  match format text frame with
  | (.error e, frame) => (.error e, stream, frame)
  | (.ok output, frame) =>
    match stream.write output with
    | (.ok n, stream) => (.ok n, stream, frame)
    | (.error e, stream) => (.error (.stream e), stream, frame.note (·.noteStreamError e))

end Print
end CheckedFormat
