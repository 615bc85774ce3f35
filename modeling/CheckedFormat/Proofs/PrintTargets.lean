import CheckedFormat.Proofs.Rendering
import CheckedFormat.Proofs.Sending
/-! One output, wherever it goes.

Whether a call gives its output, stores it in a buffer or writes it to a stream, the bytes
are the same: the whole format is printed first and then sent (`print_calls_agree`). A
buffer gets as much of the output as there is room for before a zero byte. A stream gets
all of it, once and in order, in whatever parts its transport takes it. Where the call
fails nothing is sent at all. -/
namespace CheckedFormat
namespace Print

/-- A buffer that was given an output: a front of it and a zero byte, and behind them what
stood there before. A buffer without room stays empty. -/
def filled (buffer output : List Byte) : List Byte :=
  match buffer with
  | [] => []
  | _ :: rest =>
    let front := min output.length rest.length
    output.take front ++ [0] ++ buffer.drop (front + 1)

theorem truncateInto_eq_filled (buffer output : List Byte) :
    truncateInto buffer output = filled buffer output := by
  cases buffer with
  | nil => rfl
  | cons b rest =>
    have htake : output.take rest.length = output.take (min output.length rest.length) := by
      rw [Nat.min_comm]
      exact List.take_eq_take_min
    have hlength : (output.take (min output.length rest.length) ++ [0]).length =
        min output.length rest.length + 1 := by
      rw [List.length_append, List.length_take, Nat.min_eq_left (Nat.min_le_left _ _)]
      rfl
    have htruncated : truncated (b :: rest).length output =
        output.take (min output.length rest.length) ++ [0] := by
      rw [← htake]
      rfl
    rw [truncateInto, overlay, htruncated, hlength]
    rfl

section Calls
variable {M : Type} [Memory M] {T : Type} [Transport T] {text output : List Byte}
  {frame left : Frame M}

theorem length_le_of_format (h : format text frame = (.ok output, left)) :
    output.length ≤ intMax := by
  obtain ⟨segments, last, _, hrender, _⟩ := format_eq_ok_iff.1 h
  have hlength := length_le_of_renderFrom (Nat.zero_le intMax) hrender
  rwa [Nat.zero_add] at hlength

theorem formatTo_of_ok {s t : Stream T} {n : Nat} (h : format text frame = (.ok output, left))
    (hwrite : s.write output = (.ok n, t)) : formatTo s text frame = (.ok n, t, left) := by
  rw [formatTo, h]
  dsimp only
  rw [hwrite]

theorem formatTo_of_error {s : Stream T} {e : PrintError}
    (h : format text frame = (.error e, left)) : formatTo s text frame = (.error e, s, left) := by
  rw [formatTo, h]

/-- **All printing calls print the same.** Where the call for the bytes gives an output, it
is no longer than the largest `int`; the call for a buffer gives its length, and fills the
buffer with it; and the call for a stream that everything can be written to gives its
length, and the transport received just the output, once and in order, behind at most one
move over what was unread. Where the call for the bytes fails, so do the others, for the
same cause: the buffer and the stream stay as they are, and the transport is not called.
All of them leave the same frame. -/
theorem print_calls_agree (text : List Byte) (frame : Frame M) (buffer : List Byte)
    (s : Stream T) (hs : s.TakesWrites) :
    (∀ output left, format text frame = (.ok output, left) →
      output.length ≤ intMax ∧
      formatInto buffer text frame = (.ok output.length, filled buffer output, left) ∧
      ∃ r : Recorder T,
        formatTo s text frame =
          (.ok output.length, (s.withTransport r.inner).dropUnread, left) ∧
        formatTo s.recorded text frame =
          (.ok output.length, (s.withTransport r).dropUnread, left) ∧
        ∃ back writes, r.calls = back ++ writes ∧ s.CallsBack back ∧
          (∀ call ∈ writes, call.isWrite = true) ∧
          writes.flatMap TransportCall.received = output) ∧
    ∀ e left, format text frame = (.error e, left) →
      formatInto buffer text frame = (.error e, buffer, left) ∧
      formatTo s text frame = (.error e, s, left) ∧
      formatTo s.recorded text frame = (.error e, s.recorded, left) := by
  constructor
  · intro output left h
    obtain ⟨r, hrecorded, hcalls⟩ := Stream.write_recorded hs output
    have hwrite : s.write output = (.ok output.length, (s.withTransport r.inner).dropUnread) := by
      have hbare := s.recorded.write_bare output
      rwa [hrecorded] at hbare
    refine ⟨length_le_of_format h, ?_, r, formatTo_of_ok h hwrite, formatTo_of_ok h hrecorded,
      hcalls⟩
    rw [formatInto, h, ← truncateInto_eq_filled]
  · intro e left h
    refine ⟨?_, formatTo_of_error h, formatTo_of_error h⟩
    rw [formatInto, h]

end Calls

/-- A stream with a byte taken back and one read ahead, over a file that takes two bytes at
a time. -/
def chunkedStream : Stream ScriptedFile :=
  ⟨⟨ascii "abcdef", 4, ⟨some 2, none, none, none, false, false, false, ⟨.writeZero, none⟩⟩, 0, 0⟩,
    .readWrite, true, false, ascii "c", ascii "d", false⟩

/-- A number and a word for the stream, and for a buffer that is too small. -/
theorem print_calls_agree_in_chunks :
    let frame : Frame Arena := ⟨.start .checked [.int (-7), .pointer 0x10000],
      (Arena.empty.allocateString (ascii "ok")).2, .initial⟩
    chunkedStream.TakesWrites ∧
    ∃ left, format (ascii "%d %s") frame = (.ok (ascii "-7 ok"), left) ∧
      formatInto (ascii "xxx") (ascii "%d %s") frame = (.ok 5, ascii "-7" ++ [0], left) ∧
      ∃ r : Recorder ScriptedFile,
        formatTo chunkedStream.recorded (ascii "%d %s") frame =
          (.ok 5, (chunkedStream.withTransport r).dropUnread, left) ∧
        ∃ back writes, r.calls = back ++ writes ∧ chunkedStream.CallsBack back ∧
          (∀ call ∈ writes, call.isWrite = true) ∧
          writes.flatMap TransportCall.received = ascii "-7 ok" := by
  intro frame
  have htakes : chunkedStream.TakesWrites := ⟨rfl, rfl, ScriptedFile.takesSome rfl rfl (by decide),
    2, { chunkedStream.transport with position := 2 }, rfl,
    ScriptedFile.takesSome rfl rfl (by decide)⟩
  have hformat : (format (ascii "%d %s") frame).1 = .ok (ascii "-7 ok") :=
    ok_of_toOption (by decide +kernel)
  obtain ⟨_, hbuffer, r, _, hstream, hcalls⟩ :=
    (print_calls_agree (ascii "%d %s") frame (ascii "xxx") chunkedStream htakes).1 _ _
      (Prod.ext hformat rfl)
  exact ⟨htakes, _, Prod.ext hformat rfl, hbuffer, r, hstream, hcalls⟩

end Print
end CheckedFormat
