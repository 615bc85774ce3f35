import CheckedFormat.Proofs.Sending
/-! How far a write gets.

A transport may take any part of what a write gives it, take nothing, or fail. Whatever it
does, the bytes it took are a front of the data, each once and in order, and the write
says how long that front is (`writes_report_how_far`). The transport is moved back over
the unread bytes before the first of them, and if it does not go there, nothing is sent. -/
namespace CheckedFormat

/-- No write takes more than it is given. -/
def Transport.TakesFronts (T : Type) [Transport T] : Prop :=
  ∀ {t t' : T} {bytes : List Byte} {n : Nat}, write t bytes = (.ok n, t') → n ≤ bytes.length

namespace Stream

/-- The write calls by which bytes are sent, how many bytes they bring to the transport, and
the failure that stops them. Every call gives what is left, and the next follows as long as
some of it was taken. -/
inductive Sends : List Byte → List TransportCall → Nat → Option TransportFailure → Prop where
  | done : Sends [] [] 0 none
  | took {bytes : List Byte} {n sent : Nat} {calls : List TransportCall}
      {failure : Option TransportFailure} : 0 < n → n ≤ bytes.length →
      Sends (bytes.drop n) calls sent failure →
      Sends bytes (.write bytes (.ok n) :: calls) (n + sent) failure
  | stalled {bytes : List Byte} : bytes ≠ [] →
      Sends bytes [.write bytes (.ok 0)] 0 (some ⟨.writeZero, none⟩)
  | failed {bytes : List Byte} {failure : TransportFailure} : bytes ≠ [] →
      Sends bytes [.write bytes (.error failure)] 0 (some failure)

namespace Sends
variable {bytes : List Byte} {calls : List TransportCall} {sent : Nat}
  {failure : Option TransportFailure}

theorem sent_le (h : Sends bytes calls sent failure) : sent ≤ bytes.length := by
  induction h with
  | done => exact Nat.le_refl _
  | took _ hle _ ih =>
    rw [List.length_drop] at ih
    omega
  | stalled | failed => exact Nat.zero_le _

/-- What the calls bring is a front of the bytes. -/
theorem received (h : Sends bytes calls sent failure) :
    calls.flatMap TransportCall.received = bytes.take sent := by
  induction h with
  | done => rfl
  | took _ _ _ ih =>
    rw [List.flatMap_cons, ih, List.take_add]
    rfl
  | stalled => rfl
  | failed => rfl

/-- All of the bytes just if there is no failure. -/
theorem sent_eq_length_iff (h : Sends bytes calls sent failure) :
    sent = bytes.length ↔ failure = none := by
  induction h with
  | done => exact ⟨fun _ => rfl, fun _ => rfl⟩
  | took _ hle _ ih =>
    rw [← ih, List.length_drop]
    omega
  | stalled hsome | failed hsome =>
    have hlength := List.length_pos_iff.2 hsome
    exact ⟨fun hall => absurd hall (Nat.ne_of_lt hlength), nofun⟩

/-- Every call takes some or is the last, and gives some. -/
theorem length_calls_le (h : Sends bytes calls sent failure) : calls.length ≤ bytes.length := by
  induction h with
  | done => exact Nat.le_refl _
  | took hsome hle _ ih =>
    rw [List.length_drop] at ih
    rw [List.length_cons]
    omega
  | stalled hsome | failed hsome => exact List.length_pos_iff.2 hsome

/-- A call that is the only one gives all. -/
theorem given_alone {earlier later : List TransportCall} {call : TransportCall}
    {result : Except TransportFailure Nat}
    (hcalls : [.write bytes result] = earlier ++ call :: later) :
    ∃ result,
      call = .write (bytes.drop (earlier.flatMap TransportCall.received).length) result := by
  cases earlier with
  | nil =>
    obtain ⟨rfl, _⟩ := List.cons.inj hcalls
    exact ⟨result, rfl⟩
  | cons first rest => simp at hcalls

/-- Every call gives what was not taken before it. -/
theorem given (h : Sends bytes calls sent failure) {earlier later : List TransportCall}
    {call : TransportCall} (hcalls : calls = earlier ++ call :: later) :
    ∃ result,
      call = .write (bytes.drop (earlier.flatMap TransportCall.received).length) result := by
  induction h generalizing earlier with
  | done => exact absurd hcalls (by simp)
  | @took bytes n _ _ _ _ hle _ ih =>
    cases earlier with
    | nil =>
      obtain ⟨rfl, _⟩ := List.cons.inj hcalls
      exact ⟨.ok n, rfl⟩
    | cons first rest =>
      obtain ⟨rfl, hrest⟩ := List.cons.inj hcalls
      obtain ⟨result, rfl⟩ := ih hrest
      have htook : (TransportCall.write bytes (.ok n)).received.length = n :=
        List.length_take_of_le hle
      refine ⟨result, ?_⟩
      rw [List.drop_drop, List.flatMap_cons, List.length_append, htook]
  | stalled _ | failed _ => exact given_alone hcalls

/-- The call that stops the others is the last one. -/
theorem stopped {cause : TransportFailure} (h : Sends bytes calls sent (some cause)) :
    ∃ earlier result, calls = earlier ++ [.write (bytes.drop sent) result] ∧
      (result = .error cause ∨ result = .ok 0 ∧ cause = ⟨.writeZero, none⟩) := by
  generalize hsome : some cause = failure at h
  induction h with
  | done => cases hsome
  | @took bytes n sent _ _ _ _ _ ih =>
    obtain ⟨earlier, result, rfl, hresult⟩ := ih hsome
    refine ⟨.write bytes (.ok n) :: earlier, result, ?_, hresult⟩
    rw [List.drop_drop]
    rfl
  | stalled =>
    cases hsome
    exact ⟨[], .ok 0, rfl, .inr ⟨rfl, rfl⟩⟩
  | @failed _ cause =>
    cases hsome
    exact ⟨[], .error cause, rfl, .inl rfl⟩

end Sends

/-- What calls of a transport do with bytes that are to be sent, of which so many get there
before a failure stops them. -/
structure Brings (bytes : List Byte) (calls : List TransportCall) (sent : Nat)
    (failure : Option TransportFailure) : Prop where
  /-- They bring a front of the bytes, each once and in order. -/
  received : calls.flatMap TransportCall.received = bytes.take sent
  within : sent ≤ bytes.length
  /-- It is all of them unless there is a failure. -/
  complete : sent = bytes.length ↔ failure = none
  /-- Every call is a write of what the calls before it left. -/
  given : ∀ earlier call later, calls = earlier ++ call :: later → ∃ result,
    call = .write (bytes.drop (earlier.flatMap TransportCall.received).length) result
  /-- The failure is that of the last call, or that it took nothing. -/
  stopped : ∀ cause, failure = some cause → ∃ earlier result,
    calls = earlier ++ [.write (bytes.drop sent) result] ∧
      (result = .error cause ∨ result = .ok 0 ∧ cause = ⟨.writeZero, none⟩)
  /-- There are no more calls than bytes. -/
  few : calls.length ≤ bytes.length

theorem Sends.brings {bytes : List Byte} {calls : List TransportCall} {sent : Nat}
    {failure : Option TransportFailure} (h : Sends bytes calls sent failure) :
    Brings bytes calls sent failure where
  received := h.received
  within := h.sent_le
  complete := h.sent_eq_length_iff
  given _ _ _ hcalls := h.given hcalls
  stopped _ hcause := (hcause ▸ h).stopped
  few := h.length_calls_le

section Writes
open Transport (TakesFronts)

variable {T : Type} [Transport T]

/-- Sending comes to an end, in one of the ways of `Sends`. -/
theorem send_sends (hfronts : TakesFronts T) (r : Recorder T) (bytes : List Byte) :
    ∃ calls, (send r bytes).2.2.calls = r.calls ++ calls ∧
      Sends bytes calls (send r bytes).1 (send r bytes).2.1 := by
  induction hsize : bytes.length using Nat.strongRecOn generalizing r bytes with
  | ind size ih =>
    cases bytes with
    | nil => exact ⟨[], by simp [send], by rw [send]; exact .done⟩
    | cons b rest =>
      rw [send]
      simp only [Recorder.write_eq, Recorder.behind]
      rcases hwrite : Transport.write r.inner (b :: rest) with ⟨failure | _ | n, inner⟩
      · exact ⟨[.write (b :: rest) (.error failure)], rfl, .failed (List.cons_ne_nil b rest)⟩
      · exact ⟨[.write (b :: rest) (.ok 0)], rfl, .stalled (List.cons_ne_nil b rest)⟩
      · have hle := hfronts hwrite
        obtain ⟨calls, hcalls, hrest⟩ := ih (rest.drop n).length
          (by simp only [List.length_drop, List.length_cons] at hsize ⊢; omega)
          ⟨inner, r.calls ++ [.write (b :: rest) (.ok (n + 1))]⟩ (rest.drop n) rfl
        refine ⟨.write (b :: rest) (.ok (n + 1)) :: calls, ?_, .took (Nat.succ_pos n) hle hrest⟩
        rw [hcalls, List.append_assoc, List.singleton_append]

/-- The calls of a write to a stream, how many bytes they bring to the transport, and the
failure that stops them. -/
inductive WriteCalls (s : Stream T) (bytes : List Byte) :
    List TransportCall → Nat → Option StreamError → Prop where
  /-- The transport does not go back over what is unread. -/
  | stuck {failure : TransportFailure} : s.unread ≠ [] →
      WriteCalls s bytes [.seek (.current (-s.unread.length)) (.error failure)] 0
        (some (.transport failure))
  /-- It goes back, if there is something unread, and is then sent the bytes. -/
  | sent {back calls : List TransportCall} {sent : Nat} {failure : Option TransportFailure} :
      s.CallsBack back → Brings bytes calls sent failure →
      WriteCalls s bytes (back ++ calls) sent (failure.map .transport)

/-- The result of a write of bytes that a failure stops, or not. -/
def written (bytes : List Byte) : Option StreamError → Except StreamError Nat
  | none => .ok bytes.length
  | some e => .error e

theorem writePartial_recorded (hfronts : TakesFronts T) {s : Stream T} (hopen : s.closed = false)
    (hwritable : s.flags.writable = true) (bytes : List Byte) :
    ∃ sent failure, ∃ t : Stream (Recorder T),
      s.recorded.writePartial bytes = (sent, failure, t) ∧
        t.error = (s.error || failure.isSome) ∧
        s.WriteCalls bytes t.transport.calls sent failure := by
  -- Where the transport went back, or did not have to, the bytes are sent.
  have hsent (r : Recorder T) (hcalls : s.CallsBack r.calls)
      (hback : s.recorded.stepBack = (.ok (), (s.withTransport r).dropUnread)) :
      ∃ sent failure, ∃ t : Stream (Recorder T),
        s.recorded.writePartial bytes = (sent, failure, t) ∧
          t.error = (s.error || failure.isSome) ∧
          s.WriteCalls bytes t.transport.calls sent failure := by
    obtain ⟨calls, hwrites, hsends⟩ := send_sends hfronts r bytes
    rcases hsend : send r bytes with ⟨sent, failure, last⟩
    rw [hsend] at hwrites hsends
    refine ⟨sent, failure.map .transport, _,
      writePartial_of_stepBack hopen hwritable hback hsend, ?_, ?_⟩
    · rw [Option.isSome_map]
      rfl
    · rw [hwrites]
      exact .sent hcalls hsends.brings
  have hgoes := s.stepBack_recorded
  generalize hback : s.recorded.stepBack = result at hgoes
  cases hgoes with
  | nothing hunread => exact hsent _ (.inl ⟨hunread, rfl⟩) hback
  | moved hunread _ => exact hsent _ (.inr ⟨hunread, _, rfl⟩) hback
  | stuck hunread _ =>
    have hwrite := writePartial_of_stuck (s := s.recorded) hopen hwritable hback bytes
    exact ⟨0, _, _, hwrite, (Bool.or_true _).symm, .stuck hunread⟩

omit [Transport T] in
/-- Bytes that no failure stops were all sent. -/
theorem WriteCalls.sent_eq_length {s : Stream T} {bytes : List Byte} {calls : List TransportCall}
    {sent : Nat} (h : s.WriteCalls bytes calls sent none) : sent = bytes.length := by
  generalize hnone : none = failure at h
  cases h with
  | stuck => cases hnone
  | sent _ hbrings => exact hbrings.complete.2 (Option.map_eq_none_iff.1 hnone.symm)

/-- **A write reports how far it got.** On an open stream that can be written to, over any
transport that takes no more than it is given, a write first moves the transport back over
what is unread, and is stuck if that fails. Then the transport receives a front of the bytes,
each once and in order, in at most as many calls as there are bytes: all of them, and the
write gives their number, or those before a failure, which raises the error indicator and is
given as it is. A write of items counts the whole ones among them. -/
theorem writes_report_how_far (hfronts : TakesFronts T) {s : Stream T} (hopen : s.closed = false)
    (hwritable : s.flags.writable = true) (bytes : List Byte) {size : Nat} (hsize : 0 < size) :
    ∃ calls sent failure, s.WriteCalls bytes calls sent failure ∧
      ∃ t : Stream (Recorder T), t.transport.calls = calls ∧
        t.error = (s.error || failure.isSome) ∧
        s.recorded.write bytes = (written bytes failure, t) ∧
        s.recorded.writeItems bytes size = (sent / size, failure, t) ∧
        s.write bytes = (written bytes failure, t.bare) ∧
        s.writeItems bytes size = (sent / size, failure, t.bare) := by
  obtain ⟨sent, failure, t, hpartial, herror, hcalls⟩ :=
    writePartial_recorded hfronts hopen hwritable bytes
  have hwrite : s.recorded.write bytes = (written bytes failure, t) := by
    rw [write, hpartial]
    cases failure with
    | none => rw [hcalls.sent_eq_length, written]
    | some e => rfl
  have hitems : s.recorded.writeItems bytes size = (sent / size, failure, t) := by
    rw [writeItems, if_neg (Nat.ne_of_gt hsize), hpartial]
  refine ⟨t.transport.calls, sent, failure, hcalls, t, rfl, herror, hwrite, hitems, ?_, ?_⟩
  · have hbare := s.recorded.write_bare bytes
    rwa [hwrite] at hbare
  · have hbare := s.recorded.writeItems_bare bytes size
    rwa [hitems] at hbare

end Writes

end Stream

/-! ### Scripted files -/

/-- A scripted file takes no more than it is given. -/
theorem ScriptedFile.takesFronts : Transport.TakesFronts ScriptedFile := by
  intro t t' bytes n h
  replace h : t.write bytes = (.ok n, t') := h
  unfold ScriptedFile.write at h
  split at h
  · cases h
  · cases h
    unfold accepted atMost
    cases t.script.chunk <;> cases t.script.capacity <;>
      simp only [Option.map_some, Option.map_none, Option.getD_some, Option.getD_none] <;> omega

/-- A stream with a byte taken back and one read ahead, over a file that takes two bytes at
a time and fails at the third write. -/
def Stream.breakingStream : Stream ScriptedFile :=
  ⟨⟨ascii "abcdef", 4, ⟨some 2, none, none, some 2, false, false, false, ⟨.uncategorized, none⟩⟩,
    0, 0⟩, .readWrite, true, false, ascii "c", ascii "d", false⟩

/-- Six bytes for such a stream, as two items: it steps back over two bytes, four bytes get
there, and the count of items is one. -/
theorem Stream.write_stops_behind_four_bytes :
    let s := breakingStream
    let failure := StreamError.transport ⟨.uncategorized, none⟩
    Transport.TakesFronts ScriptedFile ∧ s.closed = false ∧ s.flags.writable = true ∧ 0 < 3 ∧
      ∃ calls sent, s.WriteCalls (ascii "UVWXYZ") calls sent (some failure) ∧
        ∃ t : Stream (Recorder ScriptedFile), t.transport.calls = calls ∧ t.error = true ∧
          s.recorded.write (ascii "UVWXYZ") = (.error failure, t) ∧
          s.writeItems (ascii "UVWXYZ") 3 = (1, some failure, t.bare) ∧
          calls.flatMap TransportCall.received = ascii "UVWX" ∧
          t.bare.transport.data = ascii "abUVWX" := by
  intro s failure
  obtain ⟨calls, sent, stopped, hcalls, t, rfl, herror, hwrite, -, -, hitems⟩ :=
    writes_report_how_far (s := s) ScriptedFile.takesFronts rfl rfl (ascii "UVWXYZ")
      (by decide : 0 < 3)
  have hresult : (s.writeItems (ascii "UVWXYZ") 3).1 = 1 ∧
      (s.writeItems (ascii "UVWXYZ") 3).2.1 = some failure := by decide +kernel
  have hbytes : (s.recorded.write (ascii "UVWXYZ")).2.transport.calls.flatMap
      TransportCall.received = ascii "UVWX" := by decide +kernel
  have hdata : (s.recorded.write (ascii "UVWXYZ")).2.bare.transport.data = ascii "abUVWX" := by
    decide +kernel
  rw [hitems] at hresult
  rw [hwrite] at hbytes hdata
  obtain ⟨hcount, rfl⟩ := hresult
  dsimp only at hcount
  rw [hcount] at hitems
  exact ⟨ScriptedFile.takesFronts, rfl, rfl, by decide, _, sent, hcalls, t, rfl, herror, hwrite,
    hitems, hbytes, hdata⟩

end CheckedFormat
