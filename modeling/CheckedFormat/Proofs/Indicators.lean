import CheckedFormat.Proofs.Recorder
/-! The indicators of a stream, from its history.

The history of a stream lists the operations put to it, each with its answer and with
the calls of the transport that it made. The end indicator is up exactly when a read
call that delivered nothing is the latest of the events that bear on it, the error
indicator when a refused or a failed transfer is (`indicators_follow_history`). Neither
looks at anything else, and behind a close there are no calls any more. -/
namespace CheckedFormat

namespace TransportCall

/-- A read that delivered nothing. -/
def findsEnd : TransportCall → Bool
  | read _ (.ok []) => true
  | _ => false

/-- A failure. A write that took nothing is one. -/
def fails : TransportCall → Bool
  | read _ (.error _) | write _ (.error _) | write _ (.ok 0) | seek _ (.error _)
  | flush (.error _) | close (.error _) => true
  | _ => false

end TransportCall

/-- How an operation failed, if it did. -/
def Answer.failure? : Answer → Option StreamError
  | byte (.error e) | done (.error e) | number (.error e) => some e
  | byte (.ok _) | done (.ok _) | number (.ok _) | silence => none
  | bytes delivery | items _ delivery => delivery.failure
  | line ⟨.error e, _⟩ => some e
  | line ⟨.ok _, _⟩ => none
  | sent _ failure | rewound failure => failure

namespace Operation

/-- The operation delivers bytes. -/
def reads : Operation → Bool
  | getByte | read _ | getLine _ | readItems _ _ => true
  | _ => false

/-- The operation sends bytes. -/
def writes : Operation → Bool
  | write _ | writeItems _ _ | putByte _ | putText _ => true
  | _ => false

/-- The operation moves bytes between the stream and its transport. -/
def transfers (op : Operation) : Bool := op.reads || op.writes || op == .flush

/-- The operation looks for a position, takes a byte back or closes: no transfer, and
nothing that is about the indicators. -/
def failsQuietly : Operation → Bool
  | ungetByte _ | seek _ | tell | close => true
  | _ => false

/-- How the operation fails when the mode does not allow it. -/
def refusal (op : Operation) : StreamError := if op.reads then .notReadable else .notWritable

theorem of_failsQuietly {op : Operation} (h : op.failsQuietly = true) :
    op.transfers = false ∧ op ≠ .raiseError ∧ op ≠ .rewind ∧ op ≠ .clearIndicators := by
  cases op with
  | ungetByte _ | seek _ | tell | close => exact ⟨rfl, nofun, nofun, nofun⟩
  | _ => cases h

end Operation

/-! ### Histories -/

/-- An operation on a stream, what it answered and the calls it made. -/
structure Event where
  operation : Operation
  answer : Answer
  calls : List TransportCall

namespace Event

/-- A read reached the transport and delivered nothing. -/
def FindsEnd (e : Event) : Prop := ∃ call ∈ e.calls, call.findsEnd = true

/-- The operation lowers the end indicator. -/
def LowersEof (e : Event) : Prop :=
  match e.operation with
  | .ungetByte _ | .seek _ => e.answer.failure? = none
  | .rewind | .clearIndicators => True
  | _ => False

/-- The operation raises the error indicator: it is told to, or it is a transfer that
the mode refused or in which a call failed. -/
def RaisesError (e : Event) : Prop :=
  e.operation = .raiseError ∨
    e.operation.reads = true ∧ e.answer.failure? = some .notReadable ∨
    e.answer.failure? = some .notWritable ∨
    e.operation.transfers = true ∧ ∃ call ∈ e.calls, call.fails = true

/-- The operation lowers the error indicator. -/
def LowersError (e : Event) : Prop :=
  e.operation = .rewind ∨ e.operation = .clearIndicators

theorem not_lowersEof_of_failsQuietly {op : Operation} {answer : Answer}
    {calls : List TransportCall} (hquiet : op.failsQuietly = true)
    (hfails : answer.failure? ≠ none) : ¬LowersEof ⟨op, answer, calls⟩ := by
  cases op with
  | ungetByte _ | seek _ => exact hfails
  | tell | close => exact id
  | _ => cases hquiet

/-- Something in the history sets an indicator, and nothing behind it clears it. -/
def Latest (sets clears : Event → Prop) (history : List Event) : Prop :=
  ∃ before event after, history = before ++ event :: after ∧
    sets event ∧ ∀ later ∈ after, ¬clears later

variable {sets clears : Event → Prop}

@[simp] theorem not_latest_nil : ¬Latest sets clears [] := by
  intro ⟨before, event, after, h, _⟩
  simp at h

theorem latest_cons (event : Event) (rest : List Event) :
    Latest sets clears (event :: rest) ↔
      Latest sets clears rest ∨ sets event ∧ ∀ later ∈ rest, ¬clears later := by
  constructor
  · intro ⟨before, setting, after, h, hsets, hlater⟩
    cases before with
    | nil =>
      obtain ⟨rfl, rfl⟩ := List.cons.inj h
      exact .inr ⟨hsets, hlater⟩
    | cons first before =>
      exact .inl ⟨before, setting, after, (List.cons.inj h).2, hsets, hlater⟩
  · intro h
    rcases h with ⟨before, setting, after, rfl, hsets, hlater⟩ | ⟨hsets, hlater⟩
    · exact ⟨event :: before, setting, after, rfl, hsets, hlater⟩
    · exact ⟨[], event, rest, rfl, hsets, hlater⟩

end Event

namespace Stream

/-! ### One transfer -/

/-- A transfer on a stream whose calls are kept: the calls it made decide about the
indicators, and it fails just when the mode refuses it (`refusal`), a call failed or the
stream is closed. -/
structure Transfer {T : Type} (s t : Stream (Recorder T)) (refusal : StreamError)
    (failure : Option StreamError) (calls : List TransportCall) : Prop where
  recorded : t.transport.calls = s.transport.calls ++ calls
  eof : t.eof = true ↔ s.eof = true ∨ ∃ call ∈ calls, call.findsEnd = true
  error : t.error = true ↔
    s.error = true ∨ failure = some refusal ∨ ∃ call ∈ calls, call.fails = true
  fails : (∃ call ∈ calls, call.fails = true) ↔ ∃ f, failure = some (.transport f)
  kinds : ∀ e, failure = some e → e = refusal ∨ e = .closed ∨ ∃ f, e = .transport f
  closed : failure = some .closed → s.closed = true
  stays : t.closed = s.closed

namespace Transfer
variable {T : Type} {s t u : Stream (Recorder T)} {refusal : StreamError} {failure : Option StreamError}
  {calls more : List TransportCall}

/-- Bytes that need no call. -/
theorem still (hcalls : t.transport.calls = s.transport.calls) (heof : t.eof = s.eof)
    (herror : t.error = s.error) (hclosed : t.closed = s.closed) :
    Transfer s t refusal none [] := by
  constructor <;> simp [hcalls, heof, herror, hclosed]

/-- A transfer that goes on behind one that succeeded. -/
theorem trans (first : Transfer s t refusal none calls) (rest : Transfer t u refusal failure more) :
    Transfer s u refusal failure (calls ++ more) where
  recorded := by rw [rest.recorded, first.recorded, List.append_assoc]
  eof := by simp only [rest.eof, first.eof, List.mem_append, or_and_right, exists_or, or_assoc]
  error := by
    have hfirst := first.fails
    simp only [reduceCtorEq, exists_false, iff_false] at hfirst
    simp [rest.error, first.error, or_and_right, exists_or, hfirst]
  fails := by
    have hfirst := first.fails
    simp only [reduceCtorEq, exists_false, iff_false] at hfirst
    simp only [List.mem_append, or_and_right, exists_or, hfirst, false_or, rest.fails]
  kinds := rest.kinds
  closed h := by rw [← first.stays, rest.closed h]
  stays := by rw [rest.stays, first.stays]

/-- A transfer decides about the indicators as its event says. -/
theorem decides {op : Operation} {answer : Answer} (h : op.transfers = true)
    (transfer : Transfer s t op.refusal answer.failure? calls) :
    let e : Event := ⟨op, answer, calls⟩
    (t.eof = true ↔ e.FindsEnd ∨ s.eof = true ∧ ¬e.LowersEof) ∧
      (t.error = true ↔ e.RaisesError ∨ s.error = true ∧ ¬e.LowersError) := by
  intro e
  have hneither : ¬e.LowersEof ∧ ¬e.LowersError ∧ op ≠ .raiseError := by
    cases op <;>
      simp_all [e, Operation.transfers, Operation.reads, Operation.writes, Event.LowersEof,
        Event.LowersError]
  obtain ⟨heof, herror, hraise⟩ := hneither
  have hrefusal : answer.failure? = some op.refusal ↔
      op.reads = true ∧ answer.failure? = some .notReadable ∨
        answer.failure? = some .notWritable := by
    cases hreads : op.reads with
    | false => simp [Operation.refusal, hreads]
    | true =>
      have hwritable : answer.failure? ≠ some .notWritable := by
        intro hfailure
        rcases transfer.kinds _ hfailure with h | h | ⟨f, h⟩ <;>
          simp [Operation.refusal, hreads] at h
      simp [Operation.refusal, hreads, hwritable]
  refine ⟨?_, ?_⟩
  · simp only [transfer.eof, heof, not_false_eq_true, and_true, Event.FindsEnd, e]
    exact or_comm
  · simp only [transfer.error, herror, not_false_eq_true, and_true, Event.RaisesError, e, hraise,
      false_or, hrefusal, h, true_and, or_assoc]
    exact or_comm.trans (by simp only [or_assoc])

end Transfer

variable {T : Type} [Transport T]

/-- What happens when an operation is put to a stream. -/
def event (s : Stream T) (op : Operation) : Event :=
  let (answer, left) := op.onStream s.recorded
  ⟨op, answer, left.transport.calls⟩

/-- What happens when operations are put to a stream in turn. -/
def history : Stream T → List Operation → List Event
  | _, [] => []
  | s, op :: rest => s.event op :: (op.onStream s).2.history rest

/-! ### Transfers -/

section Transfers
variable (s : Stream (Recorder T))

theorem getByte_transfer :
    ∃ calls, Transfer s s.getByte.2 .notReadable (Answer.byte s.getByte.1).failure? calls := by
  by_cases hclosed : s.closed = true
  · refine ⟨[], ?_⟩
    constructor <;> simp [getByte, hclosed, Answer.failure?]
  by_cases hreadable : s.flags.readable = true
  · cases hpushback : s.pushback with
    | cons b rest =>
      refine ⟨[], ?_⟩
      constructor <;> simp [getByte, hclosed, hreadable, hpushback, Answer.failure?]
    | nil =>
      cases hbuffer : s.buffer with
      | cons b rest =>
        refine ⟨[], ?_⟩
        constructor <;> simp [getByte, hclosed, hreadable, hpushback, hbuffer, Answer.failure?]
      | nil =>
        rcases hread : Transport.read s.transport.inner bufferSize with ⟨result, inner⟩
        refine ⟨[.read bufferSize result], ?_⟩
        rcases result with failure | _ | ⟨b, rest⟩ <;> constructor <;>
          simp [getByte, hclosed, hreadable, hpushback, hbuffer, hread, Recorder.behind,
            Answer.failure?, TransportCall.findsEnd, TransportCall.fails]
  · refine ⟨[], ?_⟩
    constructor <;> simp [getByte, hclosed, hreadable, Answer.failure?, raiseError]

theorem takeUntil_transfer (last : Byte → Bool) (limit : Nat) :
    ∃ calls, Transfer s (takeUntil last limit s).2 .notReadable
      (takeUntil last limit s).1.failure calls := by
  induction limit generalizing s with
  | zero => exact ⟨[], .still rfl rfl rfl rfl⟩
  | succ limit ih =>
    obtain ⟨calls, hfirst⟩ := s.getByte_transfer
    rcases hget : s.getByte with ⟨result, t⟩
    rw [hget] at hfirst
    rcases result with e | _ | b
    · exact ⟨calls, by simpa [takeUntil, hget, Answer.failure?] using hfirst⟩
    · exact ⟨calls, by simpa [takeUntil, hget, Answer.failure?] using hfirst⟩
    · by_cases hlast : last b = true
      · exact ⟨calls, by simpa [takeUntil, hget, hlast, Answer.failure?] using hfirst⟩
      · obtain ⟨more, hrest⟩ := ih t
        refine ⟨calls ++ more, ?_⟩
        simpa [takeUntil, hget, hlast] using hfirst.trans hrest

theorem getLine_transfer (capacity : Nat) :
    ∃ calls, Transfer s (s.getLine capacity).2 .notReadable
      (Answer.line (s.getLine capacity).1).failure? calls := by
  by_cases hcapacity : capacity = 0
  · exact ⟨[], by simpa [getLine, hcapacity, Answer.failure?] using .still rfl rfl rfl rfl⟩
  obtain ⟨calls, hline⟩ := s.takeUntil_transfer (· == 10) (capacity - 1)
  rcases htake : takeUntil (· == 10) (capacity - 1) s with ⟨⟨bytes, failure⟩, t⟩
  rw [htake] at hline
  refine ⟨calls, ?_⟩
  cases failure with
  | some e => simpa [getLine, hcapacity, htake, Answer.failure?] using hline
  | none =>
    by_cases hempty : (bytes.isEmpty && decide (1 < capacity)) = true <;>
      simpa [getLine, hcapacity, htake, hempty, Answer.failure?] using hline

/-- Sending makes write calls only, and fails just when one of them does. -/
theorem send_calls (r : Recorder T) (bytes : List Byte) :
    ∃ calls, (send r bytes).2.2.calls = r.calls ++ calls ∧
      (∀ call ∈ calls, call.findsEnd = false) ∧
      ((∃ call ∈ calls, call.fails = true) ↔ (send r bytes).2.1 ≠ none) := by
  induction hsize : bytes.length using Nat.strongRecOn generalizing r bytes with
  | ind size ih =>
    cases bytes with
    | nil => exact ⟨[], by simp [send]⟩
    | cons b rest =>
      rcases hwrite : Transport.write r.inner (b :: rest) with ⟨result, inner⟩
      rcases result with failure | _ | n
      · refine ⟨[.write (b :: rest) (.error failure)], ?_⟩
        simp [send, Recorder.behind, hwrite, TransportCall.findsEnd, TransportCall.fails]
      · refine ⟨[.write (b :: rest) (.ok 0)], ?_⟩
        simp [send, Recorder.behind, hwrite, TransportCall.findsEnd, TransportCall.fails]
      · obtain ⟨calls, hcalls, hends, hfails⟩ :=
          ih (rest.drop n).length (by simp only [List.length_drop, List.length_cons] at hsize ⊢; omega)
            ⟨inner, r.calls ++ [.write (b :: rest) (.ok (n + 1))]⟩ (rest.drop n) rfl
        refine ⟨.write (b :: rest) (.ok (n + 1)) :: calls, ?_, ?_, ?_⟩
        · simp [send, Recorder.behind, hwrite, hcalls]
        · simpa [TransportCall.findsEnd] using hends
        · simpa [send, Recorder.behind, hwrite, TransportCall.fails] using hfails

/-- Sending moves the stream as a transfer does, once the failure raised the indicator. -/
theorem send_transfer (bytes : List Byte) :
    ∃ calls, match send s.transport bytes with
      | (_, none, transport) => Transfer s { s with transport } .notWritable none calls
      | (_, some failure, transport) =>
        Transfer s { s with transport }.raiseError .notWritable (some (.transport failure))
          calls := by
  obtain ⟨calls, hcalls, hends, hfails⟩ := send_calls s.transport bytes
  rcases hsend : send s.transport bytes with ⟨n, failure, r⟩
  rw [hsend] at hcalls hfails
  refine ⟨calls, ?_⟩
  cases failure with
  | none => constructor <;> simp_all
  | some failure => constructor <;> simp_all [raiseError]

/-- Stepping back moves the stream as a transfer does, once the failure raised the
indicator. -/
theorem stepBack_transfer :
    ∃ calls, match s.stepBack with
      | (.ok (), t) => Transfer s t .notWritable none calls
      | (.error e, t) => Transfer s t.raiseError .notWritable (some e) calls := by
  by_cases hunread : s.unread.isEmpty = true
  · refine ⟨[], ?_⟩
    rw [stepBack, if_pos hunread]
    exact .still rfl rfl rfl rfl
  · rcases hseek : Transport.seek s.transport.inner (.current (-s.unread.length)) with
      ⟨result, inner⟩
    refine ⟨[.seek (.current (-s.unread.length)) result], ?_⟩
    rw [stepBack, if_neg hunread]
    simp only [Recorder.seek_eq, Recorder.behind, hseek]
    cases result <;> constructor <;>
      simp [dropUnread, raiseError, TransportCall.findsEnd, TransportCall.fails]

theorem writePartial_transfer (bytes : List Byte) :
    ∃ calls, Transfer s (s.writePartial bytes).2.2 .notWritable (s.writePartial bytes).2.1
      calls := by
  by_cases hclosed : s.closed = true
  · refine ⟨[], ?_⟩
    constructor <;> simp [writePartial, hclosed]
  by_cases hwritable : s.flags.writable = true
  · obtain ⟨calls, hback⟩ := s.stepBack_transfer
    rcases hstep : s.stepBack with ⟨result, t⟩
    rw [hstep] at hback
    cases result with
    | error e => exact ⟨calls, by simpa [writePartial, hclosed, hwritable, hstep] using hback⟩
    | ok _ =>
      obtain ⟨more, hrest⟩ := t.send_transfer bytes
      rcases hsend : send t.transport bytes with ⟨n, failure, r⟩
      rw [hsend] at hrest
      refine ⟨calls ++ more, ?_⟩
      cases failure <;>
        simpa [writePartial, hclosed, hwritable, hstep, hsend] using hback.trans hrest
  · refine ⟨[], ?_⟩
    constructor <;> simp [writePartial, hclosed, hwritable, raiseError]

theorem write_transfer (bytes : List Byte) :
    ∃ calls, Transfer s (s.write bytes).2 .notWritable
      (Answer.number (s.write bytes).1).failure? calls := by
  obtain ⟨calls, hsent⟩ := s.writePartial_transfer bytes
  rcases hwrite : s.writePartial bytes with ⟨n, failure, t⟩
  rw [hwrite] at hsent
  refine ⟨calls, ?_⟩
  cases failure <;> simpa [write, hwrite, Answer.failure?] using hsent

theorem flush_transfer :
    ∃ calls, Transfer s s.flush.2 .notWritable (Answer.done s.flush.1).failure? calls := by
  by_cases hclosed : s.closed = true
  · refine ⟨[], ?_⟩
    constructor <;> simp [flush, hclosed, Answer.failure?]
  rcases hflush : Transport.flush s.transport.inner with ⟨result, inner⟩
  refine ⟨[.flush result], ?_⟩
  cases result <;> constructor <;>
    simp [flush, hclosed, hflush, Recorder.behind, Answer.failure?, raiseError,
      TransportCall.findsEnd, TransportCall.fails]

theorem onStream_transfer (op : Operation) (h : op.transfers = true) :
    ∃ calls, Transfer s (op.onStream s).2 op.refusal (op.onStream s).1.failure? calls := by
  cases op with
  | getByte => exact s.getByte_transfer
  | read limit => exact s.takeUntil_transfer _ limit
  | getLine capacity => exact s.getLine_transfer capacity
  | readItems length size =>
    by_cases hsize : size = 0
    · exact ⟨[], by simpa [Operation.onStream, readItems, hsize] using .still rfl rfl rfl rfl⟩
    · simpa [Operation.onStream, Operation.refusal, Operation.reads, readItems, hsize, read,
        Answer.failure?] using s.takeUntil_transfer _ length
  | write bytes | putText bytes => exact s.write_transfer bytes
  | putByte b =>
    obtain ⟨calls, hwrite⟩ := s.write_transfer [b]
    refine ⟨calls, ?_⟩
    rcases hresult : s.write [b] with ⟨result, t⟩
    rw [hresult] at hwrite
    cases result <;>
      simpa [Operation.onStream, Operation.refusal, Operation.reads, putByte, hresult, Except.map,
        Answer.failure?] using hwrite
  | writeItems bytes size =>
    by_cases hsize : size = 0
    · exact ⟨[], by simpa [Operation.onStream, writeItems, hsize] using .still rfl rfl rfl rfl⟩
    · simpa [Operation.onStream, Operation.refusal, Operation.reads, writeItems, hsize,
        Answer.failure?] using s.writePartial_transfer bytes
  | flush => exact s.flush_transfer
  | ungetByte _ | seek _ | tell | rewind | clearIndicators | raiseError | close =>
    simp [Operation.transfers, Operation.reads, Operation.writes] at h

end Transfers

/-! ### One operation -/

/-- An operation on a closed stream reaches no transport. Only the operations that are
about the indicators change anything. -/
theorem onStream_of_closed (s : Stream T) (hclosed : s.closed = true) (op : Operation) :
    (op.onStream s).2 =
      match op with
      | .rewind | .clearIndicators => s.clearIndicators
      | .raiseError => s.raiseError
      | _ => s := by
  have htake (last : Byte → Bool) (limit : Nat) : (takeUntil last limit s).2 = s := by
    cases limit <;> simp [takeUntil, getByte, hclosed]
  have hpartial (bytes : List Byte) : s.writePartial bytes = (0, some .closed, s) := by
    simp [writePartial, hclosed]
  cases op with
  | getLine capacity =>
    by_cases hcapacity : capacity = 0
    · simp [Operation.onStream, getLine, hcapacity]
    have hline := htake (· == 10) (capacity - 1)
    rcases htaken : takeUntil (· == 10) (capacity - 1) s with ⟨⟨bytes, failure⟩, t⟩
    rw [htaken] at hline
    cases failure with
    | some e => simpa [Operation.onStream, getLine, hcapacity, htaken] using hline
    | none =>
      by_cases hempty : (bytes.isEmpty && decide (1 < capacity)) = true <;>
        simpa [Operation.onStream, getLine, hcapacity, htaken, hempty] using hline
  | readItems length size =>
    by_cases hsize : size = 0 <;> simp [Operation.onStream, readItems, hsize, read, htake]
  | writeItems bytes size =>
    by_cases hsize : size = 0 <;> simp [Operation.onStream, writeItems, hsize, hpartial]
  | read limit => exact htake _ limit
  | write bytes | putText bytes | putByte b =>
    simp [Operation.onStream, putByte, write, hpartial]
  | _ => simp [Operation.onStream, getByte, ungetByte, flush, seek, tell, rewind, close, hclosed]

omit [Transport T] in
/-- A failure of the transport is none of the stream's own refusals. -/
theorem failure?_mapError (result : Except TransportFailure Unit) {e : StreamError}
    (hown : ∀ failure, e ≠ .transport failure) :
    (Answer.done (result.mapError .transport)).failure? ≠ some e := by
  cases result with
  | ok _ => exact fun h => nomatch h
  | error failure => exact fun h => hown failure (Option.some.inj h).symm

/-- What an operation other than a transfer does to the indicators, and the calls it
makes. -/
theorem onStream_still (s : Stream (Recorder T)) (op : Operation) (h : op.transfers = false) :
    ∃ calls, (op.onStream s).2.transport.calls = s.transport.calls ++ calls ∧
      let e : Event := ⟨op, (op.onStream s).1, calls⟩
      ¬e.FindsEnd ∧ e.answer.failure? ≠ some .notWritable ∧
      ((op.onStream s).2.eof = true ↔ s.eof = true ∧ ¬e.LowersEof) ∧
      ((op.onStream s).2.error = true ↔ op = .raiseError ∨ s.error = true ∧ ¬e.LowersError) ∧
      (e.answer.failure? = some .closed → s.closed = true) ∧
      (op.onStream s).2.closed = (s.closed || op == .close) := by
  by_cases hclosed : s.closed = true
  · refine ⟨[], ?_⟩
    cases op <;>
      simp_all [Operation.onStream, ungetByte, seek, tell, rewind, close, clearIndicators,
        raiseError, Answer.failure?, Event.FindsEnd, Event.LowersEof, Event.LowersError,
        Operation.transfers, Operation.reads, Operation.writes]
  · cases op with
    | ungetByte b =>
      refine ⟨[], ?_⟩
      by_cases hreadable : s.flags.readable = true <;>
        simp [Operation.onStream, ungetByte, hclosed, hreadable, Answer.failure?, Event.FindsEnd,
          Event.LowersEof, Event.LowersError]
    | seek target =>
      rcases hseek : Transport.seek s.transport.inner (s.correct target) with ⟨result, inner⟩
      refine ⟨[.seek (s.correct target) result], ?_⟩
      cases result <;>
        simp [Operation.onStream, seek, hclosed, hseek, Recorder.behind, dropUnread,
          Answer.failure?, Event.FindsEnd, TransportCall.findsEnd, Event.LowersEof,
          Event.LowersError]
    | tell =>
      rcases hseek : Transport.seek s.transport.inner (.current 0) with ⟨result, inner⟩
      refine ⟨[.seek (.current 0) result], ?_⟩
      cases result <;>
        simp [Operation.onStream, tell, hclosed, hseek, Recorder.behind,
          Answer.failure?, Event.FindsEnd, TransportCall.findsEnd, Event.LowersEof,
          Event.LowersError]
    | rewind =>
      rcases hseek : Transport.seek s.transport.inner (.start 0) with ⟨result, inner⟩
      refine ⟨[.seek (.start 0) result], ?_⟩
      cases result <;>
        simp [Operation.onStream, rewind, seek, correct, hclosed, hseek, Recorder.behind,
          dropUnread, clearIndicators, Answer.failure?, Event.FindsEnd, TransportCall.findsEnd,
          Event.LowersEof, Event.LowersError]
    | close =>
      rcases hflush : Transport.flush s.transport.inner with ⟨flushed, inner⟩
      rcases hclose : Transport.close inner with ⟨closed, left⟩
      refine ⟨[.flush flushed, .close closed], ?_⟩
      simp [Operation.onStream, close, hclosed, hflush, hclose, Recorder.behind, dropUnread,
        failure?_mapError, Event.FindsEnd, TransportCall.findsEnd, Event.LowersEof,
        Event.LowersError]
    | clearIndicators | raiseError =>
      refine ⟨[], ?_⟩
      simp [Operation.onStream, clearIndicators, raiseError, Answer.failure?, Event.FindsEnd,
        Event.LowersEof, Event.LowersError]
    | _ => simp [Operation.transfers, Operation.reads, Operation.writes] at h

/-- What an operation does to the indicators can be read off its event. -/
theorem indicators_event (s : Stream T) (op : Operation) :
    ((op.onStream s).2.eof = true ↔
      (s.event op).FindsEnd ∨ s.eof = true ∧ ¬(s.event op).LowersEof) ∧
    ((op.onStream s).2.error = true ↔
      (s.event op).RaisesError ∨ s.error = true ∧ ¬(s.event op).LowersError) := by
  rw [← bare_recorded s, Operation.onStream_bare, bare_recorded, bare_eof, bare_error]
  cases htransfers : op.transfers with
  | true =>
    obtain ⟨calls, transfer⟩ := s.recorded.onStream_transfer op htransfers
    obtain rfl : (op.onStream s.recorded).2.transport.calls = calls := transfer.recorded
    exact transfer.decides htransfers
  | false =>
    obtain ⟨calls, hcalls, hends, hwritable, heof, herror, -⟩ :=
      s.recorded.onStream_still op htransfers
    obtain rfl : (op.onStream s.recorded).2.transport.calls = calls := hcalls
    have hreads : op.reads = false := by simp_all [Operation.transfers]
    have hraises : (s.event op).RaisesError ↔ op = .raiseError := by
      simp only [Event.RaisesError, event, hreads, htransfers, hwritable]
      simp
    refine ⟨heof.trans ?_, herror.trans ?_⟩
    · exact (or_iff_right hends).symm
    · exact or_congr_left hraises.symm

/-- Only a stream that is closed fails as closed, and only closing closes it. -/
theorem closed_event (s : Stream T) (op : Operation) :
    ((s.event op).answer.failure? = some .closed → s.closed = true) ∧
      (op.onStream s).2.closed = (s.closed || op == .close) := by
  rw [← bare_recorded s, Operation.onStream_bare, bare_recorded, bare_closed]
  cases htransfers : op.transfers with
  | true =>
    obtain ⟨calls, transfer⟩ := s.recorded.onStream_transfer op htransfers
    have hclose : (op == .close) = false := by
      cases op <;> simp_all [Operation.transfers, Operation.reads, Operation.writes]
    exact ⟨transfer.closed, by rw [transfer.stays, hclose, Bool.or_false]; rfl⟩
  | false =>
    obtain ⟨calls, -, -, -, -, -, hclosed, hstays⟩ := s.recorded.onStream_still op htransfers
    exact ⟨hclosed, hstays⟩

/-- A closed stream makes no calls. -/
theorem calls_of_closed (s : Stream T) (hclosed : s.closed = true) (op : Operation) :
    (s.event op).calls = [] := by
  have hleft := s.recorded.onStream_of_closed hclosed op
  simp only [event, hleft]
  cases op <;> rfl

/-- Taking back, moving, telling and closing leave the indicators alone when they fail,
and so does whatever fails because the stream is closed. -/
theorem indicators_of_failure (s : Stream T) (op : Operation)
    (hfailure : op.failsQuietly = true ∧ (op.onStream s).1.failure? ≠ none ∨
      op ≠ .rewind ∧ (op.onStream s).1.failure? = some .closed) :
    (op.onStream s).2.eof = s.eof ∧ (op.onStream s).2.error = s.error := by
  rcases hfailure with ⟨hquiet, hfails⟩ | ⟨hrewind, hfails⟩
  · rw [← bare_recorded s, Operation.onStream_bare] at hfails ⊢
    obtain ⟨htransfers, hraise, hrewind, hclear⟩ := Operation.of_failsQuietly hquiet
    obtain ⟨calls, -, -, -, heof, herror, -⟩ := s.recorded.onStream_still op htransfers
    have hlowers : ¬Event.LowersEof ⟨op, (op.onStream s.recorded).1, calls⟩ :=
      Event.not_lowersEof_of_failsQuietly hquiet hfails
    refine ⟨Bool.eq_iff_iff.2 (heof.trans (and_iff_left hlowers)),
      Bool.eq_iff_iff.2 (herror.trans ?_)⟩
    simp [hraise, hrewind, hclear, Event.LowersError]
  · have hanswer : (op.onStream s).1 = (s.event op).answer :=
      congrArg Prod.fst (Operation.onStream_bare s.recorded op)
    have hclosed := (s.closed_event op).1 (hanswer ▸ hfails)
    rw [s.onStream_of_closed hclosed op]
    cases op with
    | rewind => exact absurd rfl hrewind
    | clearIndicators | raiseError => cases hfails
    | _ => exact ⟨rfl, rfl⟩

/-! ### Runs -/

/-- An indicator that every operation sets, lowers or leaves alone follows the latest
event that bears on it. -/
theorem serve_latest (flag : Stream T → Bool) (sets clears : Event → Prop)
    (hstep : ∀ s op, flag (Operation.onStream s op).2 = true ↔
      sets (s.event op) ∨ flag s = true ∧ ¬clears (s.event op))
    (s : Stream T) (ops : List Operation) :
    flag (s.serve ops).2 = true ↔
      Event.Latest sets clears (s.history ops) ∨
        flag s = true ∧ ∀ e ∈ s.history ops, ¬clears e := by
  induction ops generalizing s with
  | nil => simp [serve, history]
  | cons op rest ih =>
    simp only [serve, history, ih, hstep, Event.latest_cons, List.forall_mem_cons]
    simp only [or_and_right, and_assoc, or_assoc]

/-- Once closed, a stream makes no calls whatever is put to it. -/
theorem history_of_closed (s : Stream T) (hclosed : s.closed = true) (ops : List Operation) :
    ∀ e ∈ s.history ops, e.calls = [] := by
  induction ops generalizing s with
  | nil => simp [history]
  | cons op rest ih =>
    have hstays : (op.onStream s).2.closed = true := by
      rw [(s.closed_event op).2, hclosed, Bool.true_or]
    simpa [history, s.calls_of_closed hclosed op] using ih (op.onStream s).2 hstays

theorem history_after_close (s : Stream T) (ops : List Operation) (before after : List Event)
    (e : Event) (hsplit : s.history ops = before ++ e :: after) (hclose : e.operation = .close) :
    ∀ later ∈ after, later.calls = [] := by
  induction ops generalizing s before with
  | nil => simp [history] at hsplit
  | cons op rest ih =>
    cases before with
    | nil =>
      obtain ⟨hevent, hrest⟩ := List.cons.inj hsplit
      have hop : op = .close := by rw [← hclose, ← hevent]; rfl
      rw [← hrest]
      exact history_of_closed _ (by rw [(s.closed_event op).2, hop]; simp) rest
    | cons first before => exact ih _ before (List.cons.inj hsplit).2

/-- **The indicators are a function of the history.** For every transport, every mode and
every run of operations, the end indicator is up just when some read call delivered
nothing and no byte was taken back, no move succeeded and nothing lowered the indicators
since. The error indicator is up just when, since it was last lowered, it was raised
outright, a transfer was refused by the mode or a call of a transfer failed. At any
moment, taking back, moving, telling and closing fail without a change of either, and so
does everything that fails because the stream is closed (a rewind does not fail then: it
lowers both). Behind a close the transport is not called. -/
theorem indicators_follow_history (transport : T) (flags : OpenFlags) (ops : List Operation) :
    let opened := Stream.wrap transport flags
    let left := (opened.serve ops).2
    (left.eof = true ↔
        Event.Latest Event.FindsEnd Event.LowersEof (opened.history ops)) ∧
      (left.error = true ↔
        Event.Latest Event.RaisesError Event.LowersError (opened.history ops)) ∧
      (∀ op : Operation, op.failsQuietly = true ∧ (op.onStream left).1.failure? ≠ none ∨
          op ≠ .rewind ∧ (op.onStream left).1.failure? = some .closed →
        (op.onStream left).2.eof = left.eof ∧ (op.onStream left).2.error = left.error) ∧
      ∀ before e after, opened.history ops = before ++ e :: after → e.operation = .close →
        ∀ later ∈ after, later.calls = [] := by
  intro opened left
  have heof := serve_latest (·.eof) _ _ (fun s op => (s.indicators_event op).1) opened ops
  have herror := serve_latest (·.error) _ _ (fun s op => (s.indicators_event op).2) opened ops
  refine ⟨?_, ?_, left.indicators_of_failure,
    fun before e after => opened.history_after_close ops before after e⟩
  · exact heof.trans (or_iff_left fun h => Bool.false_ne_true h.1)
  · exact herror.trans (or_iff_left fun h => Bool.false_ne_true h.1)

end Stream
end CheckedFormat
