import CheckedFormat.Host.Session
/-! Streams of a program: opening, characters, strings, blocks, positions, indicators.

Every call names a stream by its handle. Arguments that make no sense by themselves
are refused before the stream is looked up; a handle that is not live then fails
with the error number of a bad descriptor.

The calls are the same under every system, which decides what becomes of an opening and
of a transfer, and any of them may fail. -/
namespace CheckedFormat
namespace Host
namespace Session

variable {F D : Type} [FileSystem F D]

/-- What stands for the end of the data and for failure. -/
def eof : Int := -1

/-- A text of the program, none for a null pointer. -/
abbrev Text := Option (List Byte)

/-- A text that is given as characters has their bytes. -/
instance : Coe (Option String) Text := ⟨Option.map Utf8.encode⟩

/-! ### Opening and closing -/

/-- Opens a path in a mode and gives the handle of the stream, or null. -/
def fopen (path mode : Text) : Call Nat F D := fun s =>
  match path, mode.bind OpenFlags.parse? with
  | some path, some flags =>
    match FileSystem.openPath s.files path (.ofFlags flags) with
    | (.error errno, files) => fail errno null { s with files }
    | (.ok descriptor, files) =>
      let (handle, streams) := s.streams.issue (.wrap descriptor flags)
      (handle, { s with files, streams })
  | _, _ => fail Errno.invalidArgument null s

/-- Closes a stream. Its handle is dead even when closing fails. -/
def fclose (stream : Nat) : Call Int F D := fun s =>
  let (result, s) := withStream stream eof (delivering (fun _ => 0) eof Stream.close) s
  (result, { s with streams := s.streams.remove stream })

/-- Flushes a stream. -/
def flushOne (stream : Nat) : Call Int F D :=
  withStream stream eof (transferring (fun _ => 0) eof Stream.flush)

/-- Flushes streams one after the other; one failure is a failure of all. -/
def flushEach : List Nat → Call Int F D
  | [] => fun s => (0, s)
  | stream :: rest => fun s =>
    let (first, s) := flushOne stream s
    let (others, s) := flushEach rest s
    (if first = 0 then others else eof, s)

/-- Flushes a stream, or every open one when it is null. -/
def fflush (stream : Nat) : Call Int F D := fun s =>
  if stream = null then flushEach (s.streams.entries.map (·.1)) s else flushOne stream s

/-! ### Characters and strings -/

def fgetc (stream : Nat) : Call Int F D :=
  withStream stream eof
    (transferring (fun b => (b.map fun b => (b.toNat : Int)).getD eof) eof Stream.getByte)

/-- Writes the low byte of a number and gives it. -/
def fputc (c : Int) (stream : Nat) : Call Int F D :=
  let b := (c % 256).toNat.toUInt8
  withStream stream eof (transferring (fun _ => b.toNat) eof (·.putByte b))

def putchar (c : Int) : Call Int F D := fputc c stdout

def fputs (text : Text) (stream : Nat) : Call Int F D :=
  match text with
  | none => fail Errno.invalidArgument eof
  | some text => withStream stream eof (transferring (fun _ => 0) eof (·.write text))

/-- Writes a line and gives its length. -/
def putLine (text : List Byte) (stream : Stream (OpenFile F D)) :
    Except StreamError Nat × Stream (OpenFile F D) :=
  match stream.write text with
  | (.error e, stream) => (.error e, stream)
  | (.ok n, stream) =>
    let (result, stream) := stream.putByte 10
    (result.map fun _ => n + 1, stream)

def puts (text : Text) : Call Int F D :=
  match text with
  | none => fail Errno.invalidArgument eof
  | some text =>
    withStream stdout eof (transferring (fun (n : Nat) => (min n intMax : Int)) eof (putLine text))

/-- Reads a line into a buffer and gives the buffer, or null. -/
def fgets (buffer : Nat) (size : Int) (stream : Nat) : Call Nat F D :=
  if buffer = null ∨ size ≤ 0 then fail Errno.invalidArgument null
  else
    withStream stream null fun stream s =>
      let (line, stream) := stream.getLine size.toNat
      let s := s.store buffer line.stored
      match line.length with
      | .ok (some _) => (buffer, stream, s)
      | .ok none => (null, stream, s)
      | .error e => (null, stream, { s with errno := e.errno }.note (·.noteStreamError e))

/-! ### Blocks -/

/-- The size of a block of items; an error number where it cannot be transferred, and
nothing where there is nothing to transfer. -/
def blockSize {α : Type} (pointer : Option α) (size count : Nat) : Except (Option Errno) (α × Nat) :=
  if wordMax < size * count then .error (some Errno.overflow)
  else if size * count = 0 then .error none
  else
    match pointer with
    | none => .error (some Errno.invalidArgument)
    | some a => .ok (a, size * count)

/-- The session after a transfer that may have failed. -/
def afterTransfer (s : Session F D) (failure : Option StreamError) :
    Session F D :=
  match failure with
  | none => s
  | some e => { s with errno := e.errno }.note (·.noteStreamError e)

/-- Transfers a block and gives the number of whole items. -/
def transferBlock {α : Type} (pointer : Option α) (size count stream : Nat)
    (f : α → (total : Nat) → OnStream Nat F D) : Call Nat F D := fun s =>
  match blockSize pointer size count with
  | .error none => (0, s)
  | .error (some errno) => fail errno 0 s
  | .ok (a, total) => withStream stream 0 (f a total) s

def fread (buffer size count stream : Nat) : Call Nat F D :=
  transferBlock (if buffer = null then none else some buffer) size count stream
    fun buffer total stream s =>
      let (items, delivery, stream) := stream.readItems total size
      (items, stream, (s.store buffer delivery.bytes).afterTransfer delivery.failure)

/-- Writes items that stand in `bytes`, none for a null pointer. -/
def fwrite (bytes : Text) (size count stream : Nat) : Call Nat F D :=
  transferBlock bytes size count stream fun bytes total stream s =>
    let (items, failure, stream) := stream.writeItems (bytes.take total) size
    (items, stream, s.afterTransfer failure)

/-! ### Positions and indicators -/

/-- Where a seek goes: the number says from where the offset counts. A start has
nothing before it. -/
def seekTarget? (offset : Int) (whence : Int) : Option SeekTarget :=
  if whence = 0 then if offset < 0 then none else some (.start offset.toNat)
  else if whence = 1 then some (.current offset)
  else if whence = 2 then some (.fromEnd offset)
  else none

def fseek (stream : Nat) (offset whence : Int) : Call Int F D :=
  match seekTarget? offset whence with
  | none => fail Errno.invalidArgument (-1)
  | some target => withStream stream (-1) (delivering (fun _ => 0) (-1) (·.seek target))

/-- Gives the position, unless a result cannot be that large. -/
def ftell (stream : Nat) : Call Int F D :=
  withStream stream (-1) fun stream s =>
    match stream.tell with
    | (.ok offset, stream) =>
      if longMax < offset then (-1, stream, { s with errno := Errno.overflow })
      else (offset, stream, s)
    | (.error e, stream) => (-1, stream, { s with errno := e.errno })

def rewind (stream : Nat) : Call Unit F D :=
  withStream stream () fun stream s =>
    match stream.rewind with
    | (none, stream) => ((), stream, s)
    | (some e, stream) => ((), stream, { s with errno := e.errno })

def feof (stream : Nat) : Call Bool F D :=
  withStream stream false fun stream s => (stream.eof, stream, s)

def ferror (stream : Nat) : Call Bool F D :=
  withStream stream false fun stream s => (stream.error, stream, s)

def clearerr (stream : Nat) : Call Unit F D :=
  withStream stream () fun stream s => ((), stream.clearIndicators, s)

end Session
end Host
end CheckedFormat
