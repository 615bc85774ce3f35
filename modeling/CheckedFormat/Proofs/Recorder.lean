import CheckedFormat.Proofs.PlainFile
/-! Transports that keep their calls.

A `Recorder` is a transport with the calls that were made to it and what each of them
gave. It answers as the transport inside it does, so a stream over a recorder does what
the stream over the transport does (`onStream_bare`), and whatever happens between a
stream and its transport can be read off the recorder. -/
namespace CheckedFormat

/-- A call of a transport, and what it gave. -/
inductive TransportCall where
  | read (limit : Nat) (result : Except TransportFailure (List Byte))
  | write (bytes : List Byte) (result : Except TransportFailure Nat)
  | seek (target : SeekTarget) (result : Except TransportFailure Nat)
  | flush (result : Except TransportFailure Unit)
  | close (result : Except TransportFailure Unit)

/-- A transport and the calls made to it, the oldest first. -/
structure Recorder (T : Type) where
  inner : T
  calls : List TransportCall

namespace Recorder
variable {T : Type} [Transport T]

/-- The recorder behind a call. -/
def behind {α : Type} (r : Recorder T) (call : Except TransportFailure α → TransportCall)
    (answer : Except TransportFailure α × T) : Except TransportFailure α × Recorder T :=
  (answer.1, ⟨answer.2, r.calls ++ [call answer.1]⟩)

instance : Transport (Recorder T) where
  read r limit := r.behind (.read limit) (Transport.read r.inner limit)
  write r bytes := r.behind (.write bytes) (Transport.write r.inner bytes)
  seek r target := r.behind (.seek target) (Transport.seek r.inner target)
  flush r := r.behind .flush (Transport.flush r.inner)
  close r := r.behind .close (Transport.close r.inner)
  pending r := Transport.pending r.inner
  pending_read h := by
    obtain ⟨hresult, hinner⟩ := Prod.mk.inj h
    rw [← hinner]
    exact Transport.pending_read (Prod.ext hresult rfl)

@[simp] theorem read_eq (r : Recorder T) (limit : Nat) :
    Transport.read r limit = r.behind (.read limit) (Transport.read r.inner limit) := rfl

@[simp] theorem write_eq (r : Recorder T) (bytes : List Byte) :
    Transport.write r bytes = r.behind (.write bytes) (Transport.write r.inner bytes) := rfl

@[simp] theorem seek_eq (r : Recorder T) (target : SeekTarget) :
    Transport.seek r target = r.behind (.seek target) (Transport.seek r.inner target) := rfl

@[simp] theorem flush_eq (r : Recorder T) :
    Transport.flush r = r.behind .flush (Transport.flush r.inner) := rfl

@[simp] theorem close_eq (r : Recorder T) :
    Transport.close r = r.behind .close (Transport.close r.inner) := rfl

end Recorder

namespace Stream
variable {T : Type}

/-- The stream over a recorder without calls. -/
def recorded (s : Stream T) : Stream (Recorder T) := s.withTransport ⟨s.transport, []⟩

/-- The stream over the transport inside the recorder. -/
def bare (s : Stream (Recorder T)) : Stream T := s.withTransport s.transport.inner

theorem bare_recorded (s : Stream T) : s.recorded.bare = s := rfl

section Fields
variable (s : Stream (Recorder T))

@[simp] theorem bare_transport : s.bare.transport = s.transport.inner := rfl
@[simp] theorem bare_flags : s.bare.flags = s.flags := rfl
@[simp] theorem bare_eof : s.bare.eof = s.eof := rfl
@[simp] theorem bare_error : s.bare.error = s.error := rfl
@[simp] theorem bare_pushback : s.bare.pushback = s.pushback := rfl
@[simp] theorem bare_buffer : s.bare.buffer = s.buffer := rfl
@[simp] theorem bare_closed : s.bare.closed = s.closed := rfl
@[simp] theorem bare_unread : s.bare.unread = s.unread := rfl

@[simp] theorem bare_mk (r : Recorder T) (flags : OpenFlags) (eof error : Bool)
    (pushback buffer : List Byte) (closed : Bool) :
    bare ⟨r, flags, eof, error, pushback, buffer, closed⟩ =
      ⟨r.inner, flags, eof, error, pushback, buffer, closed⟩ := rfl

theorem bare_raiseError : s.raiseError.bare = s.bare.raiseError := rfl
theorem bare_clearIndicators : s.clearIndicators.bare = s.bare.clearIndicators := rfl
theorem bare_correct (target : SeekTarget) : s.bare.correct target = s.correct target := by
  cases target <;> rfl

end Fields

/-! ### Reading -/

theorem ungetByte_bare (s : Stream (Recorder T)) (b : Byte) :
    s.bare.ungetByte b = ((s.ungetByte b).1, (s.ungetByte b).2.bare) := by
  by_cases hclosed : s.closed = true
  · simp [ungetByte, hclosed]
  by_cases hreadable : s.flags.readable = true <;> simp [ungetByte, hclosed, hreadable]

variable [Transport T] (s : Stream (Recorder T))

theorem getByte_bare : s.bare.getByte = (s.getByte.1, s.getByte.2.bare) := by
  by_cases hclosed : s.closed = true
  · simp [getByte, hclosed]
  by_cases hreadable : s.flags.readable = true
  · cases hpushback : s.pushback with
    | cons b rest => simp [getByte, hclosed, hreadable, hpushback]
    | nil =>
      cases hbuffer : s.buffer with
      | cons b rest =>
        simp [getByte, hclosed, hreadable, hpushback, hbuffer]
      | nil =>
        rcases hread : Transport.read s.transport.inner bufferSize with ⟨result, inner⟩
        rcases result with failure | _ | ⟨b, rest⟩ <;>
          simp [getByte, hclosed, hreadable, hpushback, hbuffer, hread, Recorder.behind]
  · simp [getByte, hclosed, hreadable, bare_raiseError]

theorem takeUntil_bare (last : Byte → Bool) (limit : Nat) :
    takeUntil last limit s.bare = ((takeUntil last limit s).1, (takeUntil last limit s).2.bare) := by
  induction limit generalizing s with
  | zero => rfl
  | succ limit ih =>
    rcases hget : s.getByte with ⟨result, t⟩
    rcases result with e | _ | b
    · simp [takeUntil, getByte_bare, hget]
    · simp [takeUntil, getByte_bare, hget]
    · by_cases hlast : last b = true <;> simp [takeUntil, getByte_bare, hget, hlast, ih]

theorem readItems_bare (length size : Nat) :
    s.bare.readItems length size =
      ((s.readItems length size).1, (s.readItems length size).2.1,
        (s.readItems length size).2.2.bare) := by
  by_cases hsize : size = 0 <;> simp [readItems, read, hsize, takeUntil_bare]

theorem getLine_bare (capacity : Nat) :
    s.bare.getLine capacity = ((s.getLine capacity).1, (s.getLine capacity).2.bare) := by
  by_cases hcapacity : capacity = 0
  · simp [getLine, hcapacity]
  rcases hline : takeUntil (· == 10) (capacity - 1) s with ⟨⟨bytes, failure⟩, t⟩
  cases failure with
  | some e => simp [getLine, hcapacity, takeUntil_bare, hline]
  | none =>
    by_cases hempty : (bytes.isEmpty && decide (1 < capacity)) = true <;>
      simp [getLine, hcapacity, takeUntil_bare, hline, hempty]

/-! ### Writing -/

/-- Sending to the transport inside sends the same. -/
theorem send_bare (r : Recorder T) (bytes : List Byte) :
    send r.inner bytes = ((send r bytes).1, (send r bytes).2.1, (send r bytes).2.2.inner) := by
  induction hsize : bytes.length using Nat.strongRecOn generalizing r bytes with
  | ind size ih =>
    cases bytes with
    | nil => simp [send]
    | cons b rest =>
      rw [send, send]
      simp only [Recorder.write_eq, Recorder.behind]
      rcases hwrite : Transport.write r.inner (b :: rest) with ⟨result, inner⟩
      rcases result with failure | _ | n
      · rfl
      · rfl
      · have hrest := ih (rest.drop n).length (by simp at hsize ⊢; omega)
          ⟨inner, r.calls ++ [.write (b :: rest) (.ok (n + 1))]⟩ (rest.drop n) rfl
        simp only [hrest]

theorem stepBack_bare : s.bare.stepBack = (s.stepBack.1, s.stepBack.2.bare) := by
  by_cases hunread : s.unread.isEmpty = true
  · simp [stepBack, hunread]
  rcases hseek : Transport.seek s.transport.inner (.current (-s.unread.length)) with
    ⟨result, inner⟩
  cases result <;>
    simp [stepBack, hunread, hseek, Recorder.behind, dropUnread]

theorem writePartial_bare (bytes : List Byte) :
    s.bare.writePartial bytes =
      ((s.writePartial bytes).1, (s.writePartial bytes).2.1, (s.writePartial bytes).2.2.bare) := by
  by_cases hclosed : s.closed = true
  · simp [writePartial, hclosed]
  by_cases hwritable : s.flags.writable = true
  · rcases hback : s.stepBack with ⟨result, t⟩
    cases result with
    | error e => simp [writePartial, hclosed, hwritable, stepBack_bare, hback, bare_raiseError]
    | ok _ =>
      rcases hsend : send t.transport bytes with ⟨n, failure, r⟩
      cases failure <;>
        simp [writePartial, hclosed, hwritable, stepBack_bare, hback, send_bare, hsend, raiseError]
  · simp [writePartial, hclosed, hwritable, bare_raiseError]

theorem write_bare (bytes : List Byte) :
    s.bare.write bytes = ((s.write bytes).1, (s.write bytes).2.bare) := by
  rcases hwrite : s.writePartial bytes with ⟨n, failure, t⟩
  cases failure <;> simp [write, writePartial_bare, hwrite]

theorem writeItems_bare (bytes : List Byte) (size : Nat) :
    s.bare.writeItems bytes size =
      ((s.writeItems bytes size).1, (s.writeItems bytes size).2.1,
        (s.writeItems bytes size).2.2.bare) := by
  by_cases hsize : size = 0 <;> simp [writeItems, hsize, writePartial_bare]

theorem putByte_bare (b : Byte) : s.bare.putByte b = ((s.putByte b).1, (s.putByte b).2.bare) := by
  simp only [putByte, write_bare]

theorem flush_bare : s.bare.flush = (s.flush.1, s.flush.2.bare) := by
  by_cases hclosed : s.closed = true
  · simp [flush, hclosed]
  rcases hflush : Transport.flush s.transport.inner with ⟨result, inner⟩
  cases result <;>
    simp [flush, hclosed, hflush, Recorder.behind, raiseError]

/-! ### Positioning -/

theorem seek_bare (target : SeekTarget) :
    s.bare.seek target = ((s.seek target).1, (s.seek target).2.bare) := by
  by_cases hclosed : s.closed = true
  · simp [seek, hclosed]
  rcases hseek : Transport.seek s.transport.inner (s.correct target) with ⟨result, inner⟩
  cases result <;>
    simp [seek, hclosed, bare_correct, hseek, Recorder.behind, dropUnread]

theorem tell_bare : s.bare.tell = (s.tell.1, s.tell.2.bare) := by
  by_cases hclosed : s.closed = true
  · simp [tell, hclosed]
  rcases hseek : Transport.seek s.transport.inner (.current 0) with ⟨result, inner⟩
  cases result <;> simp [tell, hclosed, hseek, Recorder.behind, unread]

theorem rewind_bare : s.bare.rewind = (s.rewind.1, s.rewind.2.bare) := by
  rcases hseek : s.seek (.start 0) with ⟨result, t⟩
  cases result <;> simp [rewind, seek_bare, hseek, bare_clearIndicators]

theorem close_bare : s.bare.close = (s.close.1, s.close.2.bare) := by
  by_cases hclosed : s.closed = true <;>
    simp [close, hclosed, Recorder.behind, dropUnread]

end Stream

/-- What a recorder is told does not change what an operation does. -/
theorem Operation.onStream_bare {T : Type} [Transport T] (s : Stream (Recorder T))
    (op : Operation) : op.onStream s.bare = ((op.onStream s).1, (op.onStream s).2.bare) := by
  cases op with
  | getByte => simp only [onStream, Stream.getByte_bare, Prod.map, id]
  | ungetByte b => simp only [onStream, Stream.ungetByte_bare, Prod.map, id]
  | read limit => simp only [onStream, Stream.read, Stream.takeUntil_bare, Prod.map, id]
  | getLine capacity => simp only [onStream, Stream.getLine_bare, Prod.map, id]
  | readItems length size => simp only [onStream, Stream.readItems_bare]
  | write bytes => simp only [onStream, Stream.write_bare, Prod.map, id]
  | writeItems bytes size => simp only [onStream, Stream.writeItems_bare]
  | putByte b => simp only [onStream, Stream.putByte_bare, Prod.map, id]
  | putText bytes => simp only [onStream, Stream.write_bare, Prod.map, id]
  | flush => simp only [onStream, Stream.flush_bare, Prod.map, id]
  | seek target => simp only [onStream, Stream.seek_bare, Prod.map, id]
  | tell => simp only [onStream, Stream.tell_bare, Prod.map, id]
  | rewind => simp only [onStream, Stream.rewind_bare, Prod.map, id]
  | clearIndicators => rfl
  | raiseError => rfl
  | close => simp only [onStream, Stream.close_bare, Prod.map, id]

end CheckedFormat
