import CheckedFormat.Argument.Cursor
import CheckedFormat.Host.Files
import CheckedFormat.Memory.AddressSpace
import CheckedFormat.Stream.Basic
/-! What a running program holds between its calls.

A session has the files of its system, the open streams and argument lists under the handles that
the program was given, its memory and its error number. Handles are numbers that are
issued in ascending order and never again, so one that is no longer live can always
be told from a live one. The three standard streams have handles of their own. -/
namespace CheckedFormat
namespace Host

/-- Values under handles; the ones issued first come first. -/
structure Table (α : Type) where
  entries : List (Nat × α)
  /-- The handle to be issued next. -/
  next : Nat
  deriving DecidableEq, Repr

namespace Table

variable {α : Type}

def find? (t : Table α) (handle : Nat) : Option α :=
  (t.entries.find? (·.1 == handle)).map (·.2)

/-- Issues a handle for a value. -/
def issue (t : Table α) (a : α) : Nat × Table α :=
  (t.next, ⟨t.entries ++ [(t.next, a)], t.next + 1⟩)

/-- Puts a new value under a live handle. -/
def update (t : Table α) (handle : Nat) (a : α) : Table α :=
  { t with entries := t.entries.map fun e => if e.1 = handle then (handle, a) else e }

/-- Ends the life of a handle. -/
def remove (t : Table α) (handle : Nat) : Table α :=
  { t with entries := t.entries.filter (·.1 != handle) }

end Table

/-- A session of a program under a system; one that is not said otherwise has its files
in a table. -/
structure Session (F : Type := Files) (D : Type := Descriptor) where
  files : F
  streams : Table (Stream D)
  lists : Table ArgumentList
  memory : AddressSpace
  errno : Errno
  telemetry : Telemetry

/-- A call of a program: what it gives back and what it leaves. -/
abbrev Call (α : Type) (F : Type := Files) (D : Type := Descriptor) :=
  Session F D → α × Session F D

namespace Session

variable {F D : Type}

/-! ### Handles -/

/-- What stands for no stream, no list and no address. -/
def null : Nat := 0

def stdin : Nat := 0x10000001

def stdout : Nat := 0x10000002

def stderr : Nat := 0x10000003

/-- The first handle of a stream that a program opens. -/
def firstStream : Nat := 0x10000010

/-- The first handle of an argument list. -/
def firstList : Nat := 1

/-- A session at its start in a process of a level, over files and descriptors of the
standard ones. -/
def start [FileSystem F D] (files : F) (input output errors : D)
    (level : CheckLevel := .checked) : Session F D :=
  { files
    streams := {
      entries := [
        (stdin, .wrap input .readOnly),
        (stdout, .wrap output .writeOnly),
        (stderr, .wrap errors .writeOnly)]
      next := firstStream }
    lists := ⟨[], firstList⟩
    memory := .empty
    errno := 0
    telemetry := .start level }

/-- The check level of the process. -/
def level (s : Session F D) : CheckLevel := s.telemetry.level

/-! ### Errors and observations -/

/-- Sets the error number and gives the value that stands for failure. -/
def fail {α : Type} (errno : Errno) (a : α) : Call α F D := fun s => (a, { s with errno })

def clearErrno : Call Unit F D := fun s => ((), { s with errno := 0 })

def note (s : Session F D) (f : Telemetry → Telemetry) : Session F D :=
  { s with telemetry := f s.telemetry }

/-- Stores bytes where a pointer of the program leads. -/
def store (s : Session F D) (address : Nat) (bytes : List Byte) : Session F D :=
  { s with memory := s.memory.store address bytes }

/-! ### Streams -/

/-- An operation on a stream that works on the files, within a session. -/
abbrev OnStream (α : Type) (F : Type := Files) (D : Type := Descriptor) :=
  Stream (OpenFile F D) → Session F D → α × Stream (OpenFile F D) × Session F D

/-- Runs an operation on the stream behind a handle, or fails with the given value. -/
def withStream {α : Type} (handle : Nat) (failed : α) (f : OnStream α F D) :
    Call α F D := fun s =>
  match s.streams.find? handle with
  | none => fail Errno.badDescriptor failed s
  | some stream =>
    let (a, stream, s) := f (stream.withTransport ⟨stream.transport, s.files⟩) s
    (a, { s with
      files := stream.transport.files
      streams := s.streams.update handle (stream.withTransport stream.transport.descriptor) })

/-- Gives what an operation on a stream delivered; a failure sets the error number. -/
def delivering {α β : Type} (ok : α → β) (failed : β)
    (op : Stream (OpenFile F D) → Except StreamError α × Stream (OpenFile F D)) :
    OnStream β F D := fun stream s =>
  match op stream with
  | (.ok a, stream) => (ok a, stream, s)
  | (.error e, stream) => (failed, stream, { s with errno := e.errno })

/-- A transfer, whose failure is reported too. -/
def transferring {α β : Type} (ok : α → β) (failed : β)
    (op : Stream (OpenFile F D) → Except StreamError α × Stream (OpenFile F D)) :
    OnStream β F D := fun stream s =>
  match op stream with
  | (.ok a, stream) => (ok a, stream, s)
  | (.error e, stream) => (failed, stream, { s with errno := e.errno }.note (·.noteStreamError e))

/-! ### Argument lists -/

/-- Whether a handle of a list was ever issued. -/
def wasIssued (s : Session F D) (list : Nat) : Bool := list != null && list < s.lists.next

/-- Counts and reports the use of a handle whose list was ended. -/
def noteStaleList (list : Nat) (operation : String) (s : Session F D) : Session F D :=
  s.note fun t => (t.count .usesAfterEnd).report
    ⟨.useAfterEnd, operation, s!"va_list handle {list} used after va_end"⟩

/-- Runs an operation on the list behind a handle, or fails with the given value. The
use of an ended list is reported. -/
def withList {α : Type} (list : Nat) (operation : String) (failed : α)
    (f : ArgumentList → Session F D → α × ArgumentList × Session F D) : Call α F D := fun s =>
  match s.lists.find? list with
  | some arguments =>
    let (a, arguments, s) := f arguments s
    (a, { s with lists := s.lists.update list arguments })
  | none =>
    let s := if s.wasIssued list then noteStaleList list operation s else s
    fail Errno.invalidArgument failed s

/-! ### Formatted calls -/

/-- The frame of a call in a session. -/
def frame (s : Session F D) (arguments : ArgumentList) : Frame AddressSpace :=
  ⟨arguments, s.memory, s.telemetry⟩

/-- The session after a call in it. -/
def after (s : Session F D) (frame : Frame AddressSpace) : Session F D :=
  { s with memory := frame.memory, telemetry := frame.telemetry }

end Session
end Host
end CheckedFormat
