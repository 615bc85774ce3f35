import CheckedFormat.Errno
import CheckedFormat.Check.Telemetry
/-! How stream operations fail.

A transport failure has a kind and, when the operating system reported it, its
error number. Every failed transfer raises the stream's error indicator, is counted,
and is journaled in a process that reports faults, unless the stream is closed. -/
namespace CheckedFormat

/-- What sort of failure a transport met. -/
inductive FailureKind where
  /-- A write took nothing. -/
  | writeZero
  | invalidInput
  | notSeekable
  | isDirectory
  | uncategorized
  /-- A kind that the transport names itself. -/
  | named (name : String)
  deriving DecidableEq, Repr

def FailureKind.name : FailureKind → String
  | writeZero => "WriteZero"
  | invalidInput => "InvalidInput"
  | notSeekable => "NotSeekable"
  | isDirectory => "IsADirectory"
  | uncategorized => "Uncategorized"
  | named name => name

/-- A failure of a transport. -/
structure TransportFailure where
  kind : FailureKind
  /-- The operating system's error number. -/
  code : Option Errno
  deriving DecidableEq, Repr

/-- A failure of a stream operation. -/
inductive StreamError where
  | closed
  | notReadable
  | notWritable
  | invalidMode
  | transport (failure : TransportFailure)
  deriving DecidableEq, Repr

namespace StreamError

def message : StreamError → String
  | closed => "stream is closed"
  | notReadable => "stream is not open for reading"
  | notWritable => "stream is not open for writing"
  | invalidMode => "invalid open mode"
  | transport failure => s!"transport failure: {failure.kind.name}"

def errno : StreamError → Errno
  | closed | notReadable | notWritable => Errno.badDescriptor
  | invalidMode => Errno.invalidArgument
  | transport failure => failure.code.getD Errno.inputOutput

def fault (e : StreamError) : Fault := ⟨.streamError, "stream", e.message⟩

end StreamError

namespace Telemetry

/-- Counts and reports a failed transfer on a stream that is not closed. -/
def noteStreamError (t : Telemetry) : StreamError → Telemetry
  | .closed => t
  | e => (t.count .streamErrors).report e.fault

/-- What a transfer leaves in the telemetry, if it failed. -/
def noteTransfer (t : Telemetry) : Option StreamError → Telemetry
  | none => t
  | some e => t.noteStreamError e

end Telemetry
end CheckedFormat
