import CheckedFormat.Stream.Mode
import CheckedFormat.Stream.Transport
/-! Buffered streams.

A stream reads ahead into a buffer and takes bytes back in front of it; writes go
straight to the transport. The bytes that the next reads deliver are the ones
taken back, latest first, then the buffer, then what the transport holds. The
transport's position is ahead of the stream's by the bytes that were fetched but
not read (`unread`), and every operation that depends on the position corrects for
them.

The end indicator is raised when a read finds nothing more; the error indicator
when a transfer fails. A closed stream refuses everything and never touches its
transport again. -/
namespace CheckedFormat

structure Stream (T : Type) where
  transport : T
  flags : OpenFlags
  /-- The end indicator. -/
  eof : Bool
  /-- The error indicator. -/
  error : Bool
  /-- Bytes taken back, the next one first. -/
  pushback : List Byte
  /-- Bytes read ahead and not yet delivered. -/
  buffer : List Byte
  closed : Bool
  deriving DecidableEq, Repr

namespace Stream

/-- The most bytes that are read ahead at once. -/
def bufferSize : Nat := 8192

/-- A stream over a transport that is open. -/
def wrap {T : Type} (transport : T) (flags : OpenFlags) : Stream T :=
  ⟨transport, flags, false, false, [], [], false⟩

/-- A stream over a file in memory that holds `initial`. -/
def inMemory (initial mode : List Byte) : Except StreamError (Stream MemoryFile) :=
  match OpenFlags.parse? mode with
  | none => .error .invalidMode
  | some flags => .ok (wrap ⟨if flags.truncate then [] else initial, 0, flags.append⟩ flags)

variable {T : Type}

/-- The stream over another transport, everything else alike. -/
def withTransport {U : Type} (s : Stream T) (transport : U) : Stream U :=
  ⟨transport, s.flags, s.eof, s.error, s.pushback, s.buffer, s.closed⟩

/-- The bytes fetched from the transport, or taken back, and not yet delivered. -/
def unread (s : Stream T) : List Byte := s.pushback ++ s.buffer

/-- Forgets the unread bytes. -/
def dropUnread (s : Stream T) : Stream T := { s with pushback := [], buffer := [] }

def raiseError (s : Stream T) : Stream T := { s with error := true }

/-- Lowers both indicators. -/
def clearIndicators (s : Stream T) : Stream T := { s with eof := false, error := false }

variable [Transport T]

/-! ### Reading -/

/-- Delivers the next byte, or none at the end. -/
def getByte (s : Stream T) : Except StreamError (Option Byte) × Stream T :=
  if s.closed then (.error .closed, s)
  else if !s.flags.readable then (.error .notReadable, s.raiseError)
  else
    match s.pushback with
    | b :: rest => (.ok (some b), { s with pushback := rest })
    | [] =>
      match s.buffer with
      | b :: rest => (.ok (some b), { s with buffer := rest })
      | [] =>
        match Transport.read s.transport bufferSize with
        | (.ok [], transport) => (.ok none, { s with transport, eof := true })
        | (.ok (b :: rest), transport) => (.ok (some b), { s with transport, buffer := rest })
        | (.error failure, transport) =>
          (.error (.transport failure), { s with transport, error := true })

/-- Takes a byte back, so that the next read delivers it. -/
def ungetByte (s : Stream T) (b : Byte) : Except StreamError Unit × Stream T :=
  if s.closed then (.error .closed, s)
  else if !s.flags.readable then (.error .notReadable, s)
  else (.ok (), { s with pushback := b :: s.pushback, eof := false })

/-- Bytes that a read delivered, and the failure that cut it short. -/
structure Delivery where
  bytes : List Byte
  failure : Option StreamError
  deriving DecidableEq, Repr

/-- Reads up to a number of bytes, stopping early behind a byte that `last` marks. -/
def takeUntil (last : Byte → Bool) : (limit : Nat) → Stream T → Delivery × Stream T
  | 0, s => (⟨[], none⟩, s)
  | limit + 1, s =>
    match s.getByte with
    | (.error e, s) => (⟨[], some e⟩, s)
    | (.ok none, s) => (⟨[], none⟩, s)
    | (.ok (some b), s) =>
      if last b then (⟨[b], none⟩, s)
      else
        let (rest, s) := takeUntil last limit s
        (⟨b :: rest.bytes, rest.failure⟩, s)

/-- Reads up to a number of bytes; fewer only at the end or on a failure. -/
def read (s : Stream T) (limit : Nat) : Delivery × Stream T := takeUntil (fun _ => false) limit s

/-- A bound on the bytes that the stream can still deliver. -/
def available (s : Stream T) : Nat := s.unread.length + Transport.pending s.transport

/-- Reads to the end, or to the first failure. -/
def drain (s : Stream T) : Delivery × Stream T := s.read (s.available + 1)

/-- Reads whole items of `size` bytes into a buffer of `length` and counts them. -/
def readItems (s : Stream T) (length size : Nat) : Nat × Delivery × Stream T :=
  if size = 0 then (0, ⟨[], none⟩, s)
  else
    let (delivery, s) := s.read length
    (delivery.bytes.length / size, delivery, s)

/-- What reading a line did to the caller's buffer. -/
structure LineRead where
  /-- The length of the line; none when the end came first. -/
  length : Except StreamError (Option Nat)
  /-- What now stands at the front of the buffer. -/
  stored : List Byte

/-- Reads a line, its end included, into a buffer of `capacity` bytes, the last of
which is kept for a zero byte. -/
def getLine (s : Stream T) (capacity : Nat) : LineRead × Stream T :=
  if capacity = 0 then (⟨.ok none, []⟩, s)
  else
    let (line, s) := takeUntil (· == 10) (capacity - 1) s
    match line.failure with
    | some e => (⟨.error e, line.bytes⟩, s)
    | none =>
      if line.bytes.isEmpty && 1 < capacity then (⟨.ok none, []⟩, s)
      else (⟨.ok (some line.bytes.length), line.bytes ++ [0]⟩, s)

/-! ### Writing -/

/-- Sends all bytes to the transport, or as many as it takes, and counts them. -/
def send (transport : T) (bytes : List Byte) : Nat × Option TransportFailure × T :=
  match bytes with
  | [] => (0, none, transport)
  | b :: rest =>
    match Transport.write transport (b :: rest) with
    | (.error failure, transport) => (0, some failure, transport)
    | (.ok 0, transport) => (0, some ⟨.writeZero, none⟩, transport)
    | (.ok (n + 1), transport) =>
      let (sent, failure, transport) := send transport (rest.drop n)
      (n + 1 + sent, failure, transport)
  termination_by bytes.length
  decreasing_by simp only [List.length_drop, List.length_cons]; omega

/-- Moves the transport back over the unread bytes and forgets them. -/
def stepBack (s : Stream T) : Except StreamError Unit × Stream T :=
  if s.unread.isEmpty then (.ok (), s)
  else
    match Transport.seek s.transport (.current (-s.unread.length)) with
    | (.ok _, transport) => (.ok (), { s with transport }.dropUnread)
    | (.error failure, transport) => (.error (.transport failure), { s with transport })

/-- Writes bytes and counts those that reached the transport. -/
def writePartial (s : Stream T) (bytes : List Byte) : Nat × Option StreamError × Stream T :=
  if s.closed then (0, some .closed, s)
  else if !s.flags.writable then (0, some .notWritable, s.raiseError)
  else
    match s.stepBack with
    | (.error e, s) => (0, some e, s.raiseError)
    | (.ok (), s) =>
      match send s.transport bytes with
      | (n, none, transport) => (n, none, { s with transport })
      | (n, some failure, transport) =>
        (n, some (.transport failure), { s with transport }.raiseError)

/-- Writes all bytes and gives their number. -/
def write (s : Stream T) (bytes : List Byte) : Except StreamError Nat × Stream T :=
  match s.writePartial bytes with
  | (n, none, s) => (.ok n, s)
  | (_, some e, s) => (.error e, s)

/-- Writes bytes as items of `size` and counts the whole ones. -/
def writeItems (s : Stream T) (bytes : List Byte) (size : Nat) :
    Nat × Option StreamError × Stream T :=
  if size = 0 then (0, none, s)
  else
    let (n, failure, s) := s.writePartial bytes
    (n / size, failure, s)

def putByte (s : Stream T) (b : Byte) : Except StreamError Unit × Stream T :=
  let (result, s) := s.write [b]
  (result.map fun _ => (), s)

def flush (s : Stream T) : Except StreamError Unit × Stream T :=
  if s.closed then (.error .closed, s)
  else
    match Transport.flush s.transport with
    | (.ok (), transport) => (.ok (), { s with transport })
    | (.error failure, transport) => (.error (.transport failure), { s with transport }.raiseError)

/-! ### Positioning -/

/-- A target relative to the stream's position, made relative to the transport's. -/
def correct (s : Stream T) : SeekTarget → SeekTarget
  | .current delta => .current (delta - s.unread.length)
  | target => target

/-- Moves to a position and gives its offset. A failure moves nothing and raises no
indicator. -/
def seek (s : Stream T) (target : SeekTarget) : Except StreamError Nat × Stream T :=
  if s.closed then (.error .closed, s)
  else
    match Transport.seek s.transport (s.correct target) with
    | (.ok offset, transport) => (.ok offset, { s with transport, eof := false }.dropUnread)
    | (.error failure, transport) => (.error (.transport failure), { s with transport })

/-- The offset of the next byte to be read or written. -/
def tell (s : Stream T) : Except StreamError Nat × Stream T :=
  if s.closed then (.error .closed, s)
  else
    match Transport.seek s.transport (.current 0) with
    | (.ok offset, transport) => (.ok (offset - s.unread.length), { s with transport })
    | (.error failure, transport) => (.error (.transport failure), { s with transport })

/-- Moves to the start and lowers both indicators, even when the move fails. Gives
that failure. -/
def rewind (s : Stream T) : Option StreamError × Stream T :=
  match s.seek (.start 0) with
  | (.ok _, s) => (none, s.clearIndicators)
  | (.error e, s) => (some e, s.clearIndicators)

/-- Closes the stream. The transport is flushed and closed in any case; the first
failure of the two is reported. -/
def close (s : Stream T) : Except StreamError Unit × Stream T :=
  if s.closed then (.error .closed, s)
  else
    let (flushed, transport) := Transport.flush s.transport
    let (closed, transport) := Transport.close transport
    let result : Except TransportFailure Unit := do flushed; closed
    (result.mapError .transport, { s with transport, closed := true }.dropUnread)

end Stream
end CheckedFormat
