import CheckedFormat.Proofs.Indicators
import CheckedFormat.Proofs.PrintTargets
import CheckedFormat.Proofs.Sources
/-! Refused moves and writes lose no input.

Moving a stream, and writing to it, forgets what was taken back and read ahead. That comes
behind the transport's answer: where the transport does not go to the place it is sent to,
or the mode forbids the write, the stream keeps every byte that it owes its reader and sends
none (`refused_calls_lose_no_input`), and reads then give what they would have given
(`SameInput.serve`). Of the transport it is asked only that a seek that fails leaves what
reads deliver. -/
namespace CheckedFormat

namespace Transport
variable {T : Type} [Transport T]

/-- Reads deliver the same, now and ever after. -/
def ReadsAlike (t u : T) : Prop :=
  ∀ n, (read (afterReads n t) Stream.bufferSize).1 = (read (afterReads n u) Stream.bufferSize).1

theorem ReadsAlike.refl (t : T) : ReadsAlike t t := fun _ => rfl

theorem ReadsAlike.next {t u : T} (h : ReadsAlike t u) :
    ReadsAlike (read t Stream.bufferSize).2 (read u Stream.bufferSize).2 := fun n => h (n + 1)

variable (T) in
/-- A seek that fails leaves what reads deliver. -/
def FailedSeeksStay : Prop :=
  ∀ {t t' : T} {target : SeekTarget} {failure : TransportFailure},
    seek t target = (.error failure, t') → ReadsAlike t t'

/-- The transport does not go there. -/
def Refuses (t : T) (target : SeekTarget) : Prop := ∃ failure, (seek t target).1 = .error failure

theorem Refuses.seek {t : T} {target : SeekTarget} (h : Refuses t target) :
    ∃ failure t', Transport.seek t target = (.error failure, t') :=
  h.imp fun _ hfailure => ⟨_, Prod.ext hfailure rfl⟩

end Transport

namespace Stream
open Transport (ReadsAlike Refuses FailedSeeksStay)

variable {T : Type} [Transport T]

/-! ### Streams with the same input -/

/-- The streams differ in no more than their indicators and their transports. -/
structure SameUnread {T U : Type} (s : Stream T) (t : Stream U) : Prop where
  flags : t.flags = s.flags
  closed : t.closed = s.closed
  pushback : t.pushback = s.pushback
  buffer : t.buffer = s.buffer

/-- Reads see no difference between the streams: the same bytes are unread, and the
transports deliver the same behind them. -/
structure SameInput (s t : Stream T) : Prop extends s.SameUnread t where
  rest : ReadsAlike s.transport t.transport

namespace SameInput
variable {s t : Stream T}

theorem getByte (h : s.SameInput t) :
    t.getByte.1 = s.getByte.1 ∧ s.getByte.2.SameInput t.getByte.2 := by
  unfold Stream.getByte
  rw [h.closed, h.flags, h.pushback, h.buffer]
  cases hclosed : s.closed with
  | true => exact ⟨rfl, h⟩
  | false =>
    cases s.flags.readable with
    | false => exact ⟨rfl, { h with }⟩
    | true =>
      cases s.pushback with
      | cons b pushback => exact ⟨rfl, ⟨rfl, rfl, rfl, rfl⟩, h.rest⟩
      | nil =>
        cases s.buffer with
        | cons b buffer => exact ⟨rfl, ⟨rfl, rfl, rfl, rfl⟩, h.rest⟩
        | nil =>
          -- Here alone the transport is read.
          have hread : (Transport.read s.transport bufferSize).1 =
            (Transport.read t.transport bufferSize).1 := h.rest 0
          have hnext := h.rest.next
          rcases hs : Transport.read s.transport bufferSize with ⟨result, s'⟩
          rcases ht : Transport.read t.transport bufferSize with ⟨result', t'⟩
          rw [hs, ht] at hread hnext
          dsimp only at hread hnext
          subst hread
          rcases result with failure | _ | ⟨b, rest⟩ <;>
            exact ⟨rfl, ⟨rfl, rfl, rfl, rfl⟩, hnext⟩

theorem ungetByte (h : s.SameInput t) (b : Byte) :
    (t.ungetByte b).1 = (s.ungetByte b).1 ∧ (s.ungetByte b).2.SameInput (t.ungetByte b).2 := by
  unfold Stream.ungetByte
  rw [h.closed, h.flags]
  cases s.closed with
  | true => exact ⟨rfl, h⟩
  | false =>
    cases s.flags.readable with
    | false => exact ⟨rfl, h⟩
    | true => exact ⟨rfl, ⟨rfl, rfl, congrArg (b :: ·) h.pushback, h.buffer⟩, h.rest⟩

theorem takeUntil (h : s.SameInput t) (last : Byte → Bool) (limit : Nat) :
    (t.takeUntil last limit).1 = (s.takeUntil last limit).1 ∧
      (s.takeUntil last limit).2.SameInput (t.takeUntil last limit).2 := by
  induction limit generalizing s t with
  | zero => exact ⟨rfl, h⟩
  | succ limit ih =>
    obtain ⟨hresult, hsame⟩ := h.getByte
    rw [Stream.takeUntil, Stream.takeUntil]
    rcases hs : s.getByte with ⟨result, s'⟩
    rcases ht : t.getByte with ⟨result', t'⟩
    rw [hs, ht] at hresult hsame
    dsimp only at hresult hsame
    subst hresult
    rcases result' with e | _ | b
    · exact ⟨rfl, hsame⟩
    · exact ⟨rfl, hsame⟩
    · dsimp only
      cases last b with
      | true => exact ⟨rfl, hsame⟩
      | false =>
        obtain ⟨hrest, hleft⟩ := ih hsame
        exact ⟨by simp [hrest], hleft⟩

theorem readItems (h : s.SameInput t) (length size : Nat) :
    (t.readItems length size).1 = (s.readItems length size).1 ∧
      (t.readItems length size).2.1 = (s.readItems length size).2.1 ∧
      (s.readItems length size).2.2.SameInput (t.readItems length size).2.2 := by
  unfold Stream.readItems
  by_cases hsize : size = 0
  · rw [if_pos hsize, if_pos hsize]
    exact ⟨rfl, rfl, h⟩
  · rw [if_neg hsize, if_neg hsize]
    obtain ⟨hdelivery, hsame⟩ := h.takeUntil (fun _ => false) length
    exact ⟨congrArg (·.bytes.length / size) hdelivery, hdelivery, hsame⟩

theorem getLine (h : s.SameInput t) (capacity : Nat) :
    (t.getLine capacity).1 = (s.getLine capacity).1 ∧
      (s.getLine capacity).2.SameInput (t.getLine capacity).2 := by
  unfold Stream.getLine
  by_cases hcapacity : capacity = 0
  · rw [if_pos hcapacity, if_pos hcapacity]
    exact ⟨rfl, h⟩
  · rw [if_neg hcapacity, if_neg hcapacity]
    obtain ⟨hline, hsame⟩ := h.takeUntil (· == 10) (capacity - 1)
    rcases hs : s.takeUntil (· == 10) (capacity - 1) with ⟨line, s'⟩
    rcases ht : t.takeUntil (· == 10) (capacity - 1) with ⟨line', t'⟩
    rw [hs, ht] at hline hsame
    dsimp only at hline hsame
    subst hline
    dsimp only
    cases line'.failure with
    | some e => exact ⟨rfl, hsame⟩
    | none =>
      dsimp only
      split
      · exact ⟨rfl, hsame⟩
      · exact ⟨rfl, hsame⟩

/-- An operation that only takes input, or takes a byte back, answers the same. -/
theorem onStream {op : Operation} (hop : (op.reads || op.pushesBack) = true)
    (h : s.SameInput t) :
    (op.onStream t).1 = (op.onStream s).1 ∧ (op.onStream s).2.SameInput (op.onStream t).2 := by
  cases op with
  | getByte =>
    obtain ⟨hresult, hsame⟩ := h.getByte
    exact ⟨congrArg Answer.byte hresult, hsame⟩
  | ungetByte b =>
    obtain ⟨hresult, hsame⟩ := h.ungetByte b
    exact ⟨congrArg Answer.done hresult, hsame⟩
  | read limit =>
    obtain ⟨hresult, hsame⟩ := h.takeUntil (fun _ => false) limit
    exact ⟨congrArg Answer.bytes hresult, hsame⟩
  | getLine capacity =>
    obtain ⟨hline, hsame⟩ := h.getLine capacity
    exact ⟨congrArg Answer.line hline, hsame⟩
  | readItems length size =>
    obtain ⟨hcount, hdelivery, hsame⟩ := h.readItems length size
    exact ⟨by simp only [Operation.onStream, hcount, hdelivery], hsame⟩
  | _ => cases hop

/-- Runs of reads give the same. -/
theorem serve {ops : List Operation} (hops : ∀ op ∈ ops, (op.reads || op.pushesBack) = true)
    (h : s.SameInput t) :
    (t.serve ops).1.map (·.answer) = (s.serve ops).1.map (·.answer) := by
  induction ops generalizing s t with
  | nil => rfl
  | cons op rest ih =>
    obtain ⟨hop, hrest⟩ := List.forall_mem_cons.1 hops
    obtain ⟨hanswer, hsame⟩ := h.onStream hop
    simp only [Stream.serve, List.map_cons, hanswer, ih hrest hsame]

end SameInput

/-! ### Refusals -/

/-- A write will not get as far as the transport: the mode forbids it, or the transport does
not go back over what is unread. -/
def RefusesWrites (s : Stream T) : Prop :=
  s.flags.writable = false ∨
    s.unread ≠ [] ∧ Refuses s.transport (.current (-s.unread.length))

/-- The stream as it was, but for its indicators and a seek that failed. -/
structure Stays (s t : Stream T) : Prop extends s.SameUnread t where
  transport : t.transport = s.transport ∨
    ∃ target failure, Transport.seek s.transport target = (.error failure, t.transport)

namespace Stays

theorem of_seek {s : Stream T} {t : T} {target : SeekTarget} {failure : TransportFailure}
    (h : Transport.seek s.transport target = (.error failure, t)) :
    s.Stays { s with transport := t } :=
  ⟨⟨rfl, rfl, rfl, rfl⟩, .inr ⟨target, failure, h⟩⟩

theorem sameInput (hstay : FailedSeeksStay T) {s t : Stream T} (h : s.Stays t) :
    s.SameInput t where
  toSameUnread := h.toSameUnread
  rest := by
    rcases h.transport with hsame | ⟨target, failure, hseek⟩
    · rw [hsame]
      exact .refl _
    · exact hstay hseek

variable {s : Stream T} {t : Stream (Recorder T)}

theorem bare (h : s.recorded.Stays t) : s.Stays t.bare where
  toSameUnread := ⟨h.flags, h.closed, h.pushback, h.buffer⟩
  transport := by
    refine h.transport.imp (congrArg Recorder.inner) ?_
    rintro ⟨target, failure, hseek⟩
    obtain ⟨hresult, hinner⟩ := Prod.mk.inj hseek
    exact ⟨target, failure, Prod.ext hresult (congrArg Recorder.inner hinner)⟩

/-- The transport was not called, or a seek failed and nothing came behind it. -/
theorem calls (h : s.recorded.Stays t) : t.transport.calls = [] ∨
    ∃ target failure, t.transport.calls = [.seek target (.error failure)] := by
  refine h.transport.imp (congrArg Recorder.calls) ?_
  rintro ⟨target, failure, hseek⟩
  obtain ⟨hresult, hinner⟩ := Prod.mk.inj hseek
  refine ⟨target, failure, ?_⟩
  rw [← hinner, ← hresult]
  rfl

end Stays

section Refused
variable {s : Stream T} (hopen : s.closed = false)
include hopen

theorem seek_refused {target : SeekTarget} (h : Refuses s.transport (s.correct target)) :
    ∃ e t, s.seek target = (.error e, t) ∧ s.Stays t ∧ t.eof = s.eof ∧ t.error = s.error := by
  obtain ⟨failure, t, hseek⟩ := h.seek
  refine ⟨.transport failure, { s with transport := t }, ?_, .of_seek hseek, rfl, rfl⟩
  rw [seek, hopen, hseek]
  rfl

theorem tell_refused (h : Refuses s.transport (.current 0)) :
    ∃ e t, s.tell = (.error e, t) ∧ s.Stays t ∧ t.eof = s.eof ∧ t.error = s.error := by
  obtain ⟨failure, t, hseek⟩ := h.seek
  refine ⟨.transport failure, { s with transport := t }, ?_, .of_seek hseek, rfl, rfl⟩
  rw [tell, hopen, hseek]
  rfl

theorem rewind_refused (h : Refuses s.transport (.start 0)) :
    ∃ e t, s.rewind = (some e, t) ∧ s.Stays t ∧ t.eof = false ∧ t.error = false := by
  have hstart : Refuses s.transport (s.correct (.start 0)) := h
  obtain ⟨e, t, hseek, hstays, -, -⟩ := seek_refused hopen hstart
  refine ⟨e, t.clearIndicators, ?_, { hstays with }, rfl, rfl⟩
  rw [rewind, hseek]

theorem writePartial_refused (h : s.RefusesWrites) (bytes : List Byte) :
    ∃ e t, s.writePartial bytes = (0, some e, t) ∧ s.Stays t ∧ t.eof = s.eof ∧ t.error = true := by
  cases hwritable : s.flags.writable with
  | false =>
    refine ⟨.notWritable, s.raiseError, ?_, ⟨⟨rfl, rfl, rfl, rfl⟩, .inl rfl⟩, rfl, rfl⟩
    rw [writePartial, hopen, hwritable]
    rfl
  | true =>
    obtain ⟨hunread, hrefuses⟩ := h.resolve_left (by simp [hwritable])
    obtain ⟨failure, t, hseek⟩ := hrefuses.seek
    have hback : s.stepBack = (.error (.transport failure), { s with transport := t }) := by
      rw [stepBack, if_neg (by simpa using hunread), hseek]
    exact ⟨_, _, writePartial_of_stuck hopen hwritable hback bytes, { Stays.of_seek hseek with },
      rfl, rfl⟩

theorem write_refused (h : s.RefusesWrites) (bytes : List Byte) :
    ∃ e t, s.write bytes = (.error e, t) ∧ s.Stays t ∧ t.eof = s.eof ∧ t.error = true := by
  obtain ⟨e, t, hwrite, hleft⟩ := writePartial_refused hopen h bytes
  refine ⟨e, t, ?_, hleft⟩
  rw [write, hwrite]

/-- Only the mode makes a write fail as one that it forbids. -/
theorem refusesWrites_of_writePartial {bytes : List Byte}
    (h : (s.writePartial bytes).2.1 = some .notWritable) : s.RefusesWrites := by
  refine .inl (Bool.eq_false_iff.2 fun hwritable => ?_)
  have hgoes : s.stepBack.1 = .ok () ∨ ∃ failure, s.stepBack.1 = .error (.transport failure) := by
    unfold stepBack
    split
    · exact .inl rfl
    · split
      · exact .inl rfl
      · exact .inr ⟨_, rfl⟩
  rcases hback : s.stepBack with ⟨result, t⟩
  rw [hback] at hgoes
  rcases hgoes with rfl | ⟨failure, rfl⟩
  · rcases hsend : send t.transport bytes with ⟨sent, failure | failure, last⟩
    · rw [writePartial_of_stepBack hopen hwritable hback hsend] at h
      cases h
    · rw [writePartial_of_stepBack hopen hwritable hback hsend] at h
      cases h
  · rw [writePartial_of_stuck hopen hwritable hback] at h
    cases h

theorem refusesWrites_of_write {bytes : List Byte} {t : Stream T}
    (h : s.write bytes = (.error .notWritable, t)) : s.RefusesWrites := by
  rcases hpartial : s.writePartial bytes with ⟨n, failure, last⟩
  rw [write, hpartial] at h
  cases failure with
  | none => cases h
  | some e =>
    cases h
    exact refusesWrites_of_writePartial hopen (congrArg (·.2.1) hpartial)

end Refused
end Stream

namespace Operation
open Transport (Refuses FailedSeeksStay)

variable {T : Type} [Transport T] {s : Stream T}

/-- The operation looks for a position. -/
def moves : Operation → Bool
  | seek _ | tell | rewind => true
  | _ => false

/-- The transport does not go where the operation sends it first, or the mode forbids the
operation to write. Items of no size are never written. -/
def Refused (s : Stream T) : Operation → Prop
  | seek target => Refuses s.transport (s.correct target)
  | tell => Refuses s.transport (.current 0)
  | rewind => Refuses s.transport (.start 0)
  | write _ | putText _ | putByte _ => s.RefusesWrites
  | writeItems _ size => size ≠ 0 ∧ s.RefusesWrites
  | _ => False

/-- What a refused operation leaves: it fails, the stream stays, a write raises the error
indicator, and a rewind lowers both. -/
structure RefusedWith (op : Operation) (s : Stream T) (answer : Answer) (t : Stream T) : Prop where
  fails : answer.failure?.isSome = true
  stays : s.Stays t
  eof : t.eof = (s.eof && op != .rewind)
  error : t.error = ((s.error || op.writes) && op != .rewind)

theorem refusedWith {op : Operation} (hopen : s.closed = false) (h : op.Refused s) :
    op.RefusedWith s (op.onStream s).1 (op.onStream s).2 := by
  cases op with
  | seek target =>
    obtain ⟨e, t, hseek, hstays, heof, herror⟩ := Stream.seek_refused hopen h
    simp only [onStream, hseek]
    exact ⟨rfl, hstays, by simp [heof], by simp [herror, writes]⟩
  | tell =>
    obtain ⟨e, t, htell, hstays, heof, herror⟩ := Stream.tell_refused hopen h
    simp only [onStream, htell]
    exact ⟨rfl, hstays, by simp [heof], by simp [herror, writes]⟩
  | rewind =>
    obtain ⟨e, t, hrewind, hstays, heof, herror⟩ := Stream.rewind_refused hopen h
    simp only [onStream, hrewind]
    exact ⟨rfl, hstays, by simp [heof], by simp [herror]⟩
  | write bytes | putText bytes =>
    obtain ⟨e, t, hwrite, hstays, heof, herror⟩ := Stream.write_refused hopen h bytes
    simp only [onStream, hwrite]
    exact ⟨rfl, hstays, by simp [heof], by simp [herror, writes]⟩
  | putByte b =>
    obtain ⟨e, t, hwrite, hstays, heof, herror⟩ := Stream.write_refused hopen h [b]
    simp only [onStream, Stream.putByte, hwrite]
    exact ⟨rfl, hstays, by simp [heof], by simp [herror, writes]⟩
  | writeItems bytes size =>
    obtain ⟨hsize, hrefuses⟩ := h
    obtain ⟨e, t, hwrite, hstays, heof, herror⟩ :=
      Stream.writePartial_refused hopen hrefuses bytes
    simp only [onStream, Stream.writeItems, if_neg hsize, hwrite]
    exact ⟨rfl, hstays, by simp [heof], by simp [herror, writes]⟩
  | _ => exact h.elim

theorem Refused.recorded {op : Operation} (h : op.Refused s) : op.Refused s.recorded := by
  cases op with
  | seek target => cases target <;> exact h
  | _ => exact h

/-- On an open stream a move fails only where the transport refuses it. -/
theorem refused_of_fails {op : Operation} (hop : op.moves = true) (hopen : s.closed = false)
    (hfails : (op.onStream s).1.failure? ≠ none) : op.Refused s := by
  cases op with
  | seek target =>
    rcases hseek : Transport.seek s.transport (s.correct target) with ⟨failure | offset, t⟩
    · exact ⟨failure, congrArg Prod.fst hseek⟩
    · simp [onStream, Stream.seek, hopen, hseek, Answer.failure?] at hfails
  | tell =>
    rcases hseek : Transport.seek s.transport (.current 0) with ⟨failure | offset, t⟩
    · exact ⟨failure, congrArg Prod.fst hseek⟩
    · simp [onStream, Stream.tell, hopen, hseek, Answer.failure?] at hfails
  | rewind =>
    rcases hseek : Transport.seek s.transport (.start 0) with ⟨failure | offset, t⟩
    · exact ⟨failure, congrArg Prod.fst hseek⟩
    · simp [onStream, Stream.rewind, Stream.seek, Stream.correct, hopen, hseek,
        Answer.failure?] at hfails
  | _ => cases hop

/-- A write that the mode forbids is refused. -/
theorem refused_of_notWritable {op : Operation} (hop : op.writes = true) (hopen : s.closed = false)
    (hfails : (op.onStream s).1.failure? = some .notWritable) : op.Refused s := by
  cases op with
  | write bytes | putText bytes =>
    rcases hwrite : s.write bytes with ⟨e | n, t⟩
    · simp only [onStream, hwrite, Prod.map, Answer.failure?, Option.some.injEq] at hfails
      subst hfails
      exact Stream.refusesWrites_of_write hopen hwrite
    · simp [onStream, hwrite, Answer.failure?] at hfails
  | putByte b =>
    rcases hwrite : s.write [b] with ⟨e | n, t⟩
    · simp only [onStream, Stream.putByte, hwrite, Prod.map, Except.map, Answer.failure?,
        Option.some.injEq] at hfails
      subst hfails
      exact Stream.refusesWrites_of_write hopen hwrite
    · simp [onStream, Stream.putByte, hwrite, Except.map, Answer.failure?] at hfails
  | writeItems bytes size =>
    by_cases hsize : size = 0
    · simp [onStream, Stream.writeItems, hsize, Answer.failure?] at hfails
    · simp only [onStream, Stream.writeItems, if_neg hsize, Answer.failure?] at hfails
      exact ⟨hsize, Stream.refusesWrites_of_writePartial hopen hfails⟩
  | _ => cases hop

end Operation

namespace Stream
open Transport (FailedSeeksStay)

variable {T : Type} [Transport T]

/-- What is left of a stream by a call that could not move its transport: every byte that
it owes its reader. No byte was sent, and reads give what they would have given. -/
structure LosesNothing (s : Stream T) (t : Stream (Recorder T)) : Prop where
  input : s.SameInput t.bare
  unsent : t.transport.calls = [] ∨
    ∃ target failure, t.transport.calls = [.seek target (.error failure)]
  reads : ∀ ops : List Operation, (∀ op ∈ ops, (op.reads || op.pushesBack) = true) →
    (t.bare.serve ops).1.map (·.answer) = (s.serve ops).1.map (·.answer)

theorem Stays.losesNothing (hstay : FailedSeeksStay T) {s : Stream T} {t : Stream (Recorder T)}
    (h : s.recorded.Stays t) : s.LosesNothing t where
  input := h.bare.sameInput hstay
  unsent := h.calls
  reads _ hops := (h.bare.sameInput hstay).serve hops

/-- **Refused calls lose no input.** On an open stream, whatever is unread, over a transport
whose failed seeks leave what it delivers: a move that fails, and a write that the mode forbids
or whose transport does not go back over what is unread, sends nothing and leaves every unread
byte, so that all later reads give what they would have given. A write raises the error
indicator, and a rewind lowers both and gives its failure, for the error number; nothing else
changes. So it is with formatted output, too, which without an output does not touch the
stream. -/
theorem refused_calls_lose_no_input {M : Type} [Memory M] (hstay : FailedSeeksStay T)
    {s : Stream T} (hopen : s.closed = false) :
    (∀ op : Operation, op.moves = true → (op.onStream s).1.failure? ≠ none → op.Refused s) ∧
    (∀ op : Operation, op.writes = true → (op.onStream s).1.failure? = some .notWritable →
      op.Refused s) ∧
    (∀ op : Operation, op.Refused s → ∃ answer, ∃ t : Stream (Recorder T),
      op.onStream s.recorded = (answer, t) ∧ op.onStream s = (answer, t.bare) ∧
      answer.failure?.isSome = true ∧ s.LosesNothing t ∧
      t.eof = (s.eof && op != .rewind) ∧ t.error = ((s.error || op.writes) && op != .rewind)) ∧
    ∀ (text : List Byte) (frame : Frame M), s.RefusesWrites →
      ∃ e left, ∃ t : Stream (Recorder T),
        Print.formatTo s.recorded text frame = (.error e, t, left) ∧
        Print.formatTo s text frame = (.error e, t.bare, left) ∧ s.LosesNothing t ∧
        t.eof = s.eof ∧ t.error = (s.error || (Print.format text frame).1.toBool) := by
  refine ⟨fun op hop hfails => Operation.refused_of_fails hop hopen hfails,
    fun op hop hfails => Operation.refused_of_notWritable hop hopen hfails,
    fun op hrefused => ?_, fun text frame hrefuses => ?_⟩
  · have hleft := Operation.refusedWith (s := s.recorded) hopen hrefused.recorded
    have hbare := op.onStream_bare s.recorded
    exact ⟨_, _, rfl, hbare, hleft.fails, hleft.stays.losesNothing hstay, hleft.eof, hleft.error⟩
  · rcases hformat : Print.format text frame with ⟨e | output, left⟩
    · exact ⟨e, left, s.recorded, Print.formatTo_of_error hformat, Print.formatTo_of_error hformat,
        (Stays.mk ⟨rfl, rfl, rfl, rfl⟩ (.inl rfl)).losesNothing hstay, rfl, (Bool.or_false _).symm⟩
    · obtain ⟨e, t, hwrite, hstays, heof, herror⟩ :=
        write_refused (s := s.recorded) hopen hrefuses output
      have hbare := s.recorded.write_bare output
      rw [hwrite] at hbare
      refine ⟨.stream e, left.note (·.noteStreamError e), t, ?_, ?_, hstays.losesNothing hstay,
        heof, herror.trans (Bool.or_true _).symm⟩
      · rw [Print.formatTo, hformat]
        dsimp only
        rw [hwrite]
      · rw [Print.formatTo, hformat]
        dsimp only
        rw [show s.write output = _ from hbare]

end Stream

/-! ### Scripted files -/

/-- A scripted file that fails to seek stays where it is. -/
theorem ScriptedFile.failedSeeksStay : Transport.FailedSeeksStay ScriptedFile := by
  intro f f' target failure h
  replace h : f.seek target = (.error failure, f') := h
  have hsame : f' = f := by
    unfold seek at h
    split at h
    · exact (Prod.mk.inj h).2.symm
    · split at h
      · cases h
      · exact (Prod.mk.inj h).2.symm
  rw [hsame]
  exact .refl f

/-- A stream with a byte taken back and one read ahead, over a pipe that comes in chunks of
two. -/
def Stream.pipeStream : Stream ScriptedFile :=
  ⟨⟨ascii "abcdef", 4, ⟨some 2, none, none, none, true, false, false, ⟨.notSeekable, none⟩⟩, 0, 0⟩,
    .readWrite, true, false, ascii "c", ascii "d", false⟩

/-- Neither a rewind nor a write gets anywhere on it, and all four bytes are still read. -/
theorem Stream.pipe_loses_no_input :
    let s := pipeStream
    Transport.FailedSeeksStay ScriptedFile ∧ s.closed = false ∧
      ∀ op ∈ [Operation.rewind, .write (ascii "UV")], op.Refused s ∧
        ∃ answer, ∃ t : Stream (Recorder ScriptedFile), op.onStream s = (answer, t.bare) ∧
          answer.failure?.isSome = true ∧ t.error = op.writes ∧
          (t.bare.serve [.getByte, .ungetByte 0, .read 9]).1.map (·.answer) =
            [.byte (.ok (some 99)), .done (.ok ()), .bytes ⟨0 :: ascii "def", none⟩] := by
  intro s
  have hwrite : s.RefusesWrites := .inr ⟨by decide, _, rfl⟩
  have hrefused : ∀ op ∈ [Operation.rewind, .write (ascii "UV")], op.Refused s := by
    simp only [List.forall_mem_cons]
    exact ⟨⟨_, rfl⟩, hwrite, nofun⟩
  refine ⟨ScriptedFile.failedSeeksStay, rfl, fun op hop => ⟨hrefused op hop, ?_⟩⟩
  obtain ⟨-, -, hrefuses, -⟩ :=
    refused_calls_lose_no_input (M := Arena) ScriptedFile.failedSeeksStay (s := s) rfl
  obtain ⟨answer, t, -, hbare, hfails, hleft, -, herror⟩ := hrefuses op (hrefused op hop)
  refine ⟨answer, t, hbare, hfails, ?_, ?_⟩
  · rw [herror]
    simp only [List.mem_cons, List.not_mem_nil, or_false] at hop
    rcases hop with rfl | rfl <;> rfl
  · rw [hleft.reads _ (by decide)]
    rfl

end CheckedFormat
