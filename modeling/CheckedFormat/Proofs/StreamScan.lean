import CheckedFormat.Proofs.ScanPairs
/-! Scanning a stream is scanning its text.

A scan sees its source only through the reader's operations, and each of those is a
function of the text to come (`Reader.Computes`). So two scans under one format that
start with the same frame and show the same text go in lockstep, whatever kinds of
sources they read: after every step the frames are equal and both readers stand at
the same place. `scan_stream` says it of a stream and of the text that is to be read
from it: the same result, memory and arguments, and the bytes left unread in the
stream are those left of the text. -/
namespace CheckedFormat

/-! ### Steps in parallel -/

namespace Scan

variable {S₁ S₂ M : Type} [ByteSource S₁] [ByteSource S₂] {V₁ : SourceView S₁}
  {V₂ : SourceView S₂} {R : State S₁ M → State S₂ M → Prop}

variable (V₁ V₂ R) in
/-- What two scans in related states owe for their steps to stay together: what they read
of their texts is the same, what they take from the arguments, and what they store. -/
structure Parallel : Prop where
  reading : ∀ {α : Type} {f₁ : Reader S₁ → α × Reader S₁} {f₂ : Reader S₂ → α × Reader S₂}
    {g : TextReading α}, Reader.Computes V₁ f₁ g → Reader.Computes V₂ f₂ g →
    Lockstep R (Scan.reading f₁) (Scan.reading f₂)
  fetchAddress : Lockstep R (Scan.fetchAddress (S := S₁)) (Scan.fetchAddress (S := S₂))
  storing : ∀ f : M → Except MemoryError M,
    Lockstep R (Scan.storing (S := S₁) f) (Scan.storing (S := S₂) f)

theorem Parallel.paired (P : Parallel V₁ V₂ R) : Paired R where
  skipSpace := P.reading Reader.skipSpace_computes Reader.skipSpace_computes
  takeWhile _ _ := P.reading (Reader.takeWhile_computes _ _) (Reader.takeWhile_computes _ _)
  expect _ := P.reading (Reader.expect_computes _) (Reader.expect_computes _)
  token _ _ := P.reading (Reader.token_computes _ _) (Reader.token_computes _ _)
  fetchAddress := P.fetchAddress
  storing := P.storing

/-! ### Scans of the same text -/

variable (V₁ V₂) (text : List Byte)

/-- Two states of scans of one text: the frames are equal, and both readers stand at
the same place in the text. -/
structure Together (s₁ : State S₁ M) (s₂ : State S₂ M) : Prop where
  frame : s₁.frame = s₂.frame
  place : ∃ behind ahead, behind.reverse ++ ahead = text ∧ s₁.reader.At V₁ behind ahead ∧
    s₂.reader.At V₂ behind ahead

variable {V₁ V₂ text}

theorem parallel_together : Parallel V₁ V₂ (Together (M := M) V₁ V₂ text) where
  reading h₁ h₂ := by
    intro s₁ s₂ h
    obtain ⟨hframe, behind, ahead, htext, hat₁, hat₂⟩ := h
    obtain ⟨hresult₁, hplace₁⟩ := h₁ hat₁
    obtain ⟨hresult₂, hplace₂⟩ := h₂ hat₂
    rw [reading_eq, reading_eq, hresult₁, hresult₂, afterReading, afterReading,
      noteRead_of_no_failure _ hplace₁.failure, noteRead_of_no_failure _ hplace₂.failure]
    refine .ok _ ⟨hframe, _, _, ?_, hplace₁, hplace₂⟩
    rw [List.reverse_append, List.reverse_reverse, List.append_assoc, List.take_append_drop, htext]
  fetchAddress := by
    intro s₁ s₂ h
    unfold fetchAddress
    rw [← h.frame]
    split
    · exact .ok _ ⟨rfl, h.place⟩
    · exact .error _ ⟨rfl, h.place⟩
  storing f := by
    intro s₁ s₂ h
    unfold storing
    rw [← h.frame]
    split
    · exact .ok _ ⟨rfl, h.place⟩
    · exact .error _ h

theorem consumed_lockstep :
    Lockstep (Together (M := M) V₁ V₂ text) (consumed (S := S₁)) (consumed (S := S₂)) := by
  intro s₁ s₂ h
  obtain ⟨behind, ahead, _, hat₁, hat₂⟩ := h.place
  show Alike _ (.ok s₁.reader.consumed s₁) (.ok s₂.reader.consumed s₂)
  rw [hat₁.consumed, hat₂.consumed]
  exact .ok _ h

variable [Memory M]

theorem run_lockstep (format : List Byte) :
    Lockstep (Together (M := M) V₁ V₂ text) (run (S := S₁) format) (run (S := S₂) format) :=
  parallel_together.paired.run consumed_lockstep format

/-! ### Whole scans -/

variable (V₁ V₂)

/-- What two scans of the same text end with: one result, without a read error, one
frame, and sources that show the same place, which is as far on as the result
counts. -/
theorem scan_together (format : List Byte) (frame : Frame M) {s₁ : S₁} {s₂ : S₂}
    (h₁ : V₁.shows s₁ [] text) (h₂ : V₂.shows s₂ [] text) :
    (scan s₁ format frame).1 = (scan s₂ format frame).1 ∧
      (scan s₁ format frame).2.2 = (scan s₂ format frame).2.2 ∧
      ∃ behind ahead, behind.reverse ++ ahead = text ∧
        V₁.shows (scan s₁ format frame).2.1 behind ahead ∧
        V₂.shows (scan s₂ format frame).2.1 behind ahead ∧
        ∀ outcome, (scan s₁ format frame).1 = .ok outcome →
          outcome.consumed = behind.length ∧ outcome.failure = none := by
  have hstart : Together V₁ V₂ text (State.mk (.start s₁) (frame.note (·.count .scanCalls)))
      (State.mk (.start s₂) (frame.note (·.count .scanCalls))) :=
    ⟨rfl, [], text, rfl, .start h₁, .start h₂⟩
  have hrun := run_lockstep format _ _ hstart
  unfold scan
  generalize run format (State.mk (.start s₁) (frame.note (·.count .scanCalls))) = r₁ at hrun
  generalize run format (State.mk (.start s₂) (frame.note (·.count .scanCalls))) = r₂ at hrun
  cases hrun with
  | @ok e₁ e₂ result h =>
    obtain ⟨hframe, behind, ahead, htext, hat₁, hat₂⟩ := h
    simp only [hat₁.consumed, hat₂.consumed, hat₁.failure, hat₂.failure, hframe]
    refine ⟨trivial, trivial, behind, ahead, htext, hat₁.source, hat₂.source, ?_⟩
    intro outcome houtcome
    cases houtcome
    exact ⟨rfl, rfl⟩
  | @error e₁ e₂ e h =>
    obtain ⟨hframe, behind, ahead, htext, hat₁, hat₂⟩ := h
    simp only [hframe]
    exact ⟨trivial, trivial, behind, ahead, htext, hat₁.source, hat₂.source,
      fun outcome houtcome => nomatch houtcome⟩

/-- **Scanning a stream is scanning the text that is to be read from it.** Over an
open readable stream, whose transport delivers `rest` in whatever chunks, a scan
gives the result that it gives over the unread bytes followed by `rest`, and leaves
the same memory and arguments. The stream then holds exactly the bytes left of the
text, which is the text without a front, as long as the result says. -/
theorem scan_stream_eq_scan_text {T : Type} [Transport T] (s : Stream T) (rest : List Byte)
    (hopen : s.closed = false) (hreadable : s.flags.readable = true)
    (hrest : Transport.Delivers s.transport rest) (format : List Byte) (frame : Frame M) :
    (scan s format frame).1 = (scan (TextSource.mk (s.unread ++ rest)) format frame).1 ∧
      (scan s format frame).2.2 = (scan (TextSource.mk (s.unread ++ rest)) format frame).2.2 ∧
      (scan s format frame).2.1.Holds
        (scan (TextSource.mk (s.unread ++ rest)) format frame).2.1.remaining ∧
      ∃ taken, taken ++ (scan (TextSource.mk (s.unread ++ rest)) format frame).2.1.remaining =
          s.unread ++ rest ∧
        ∀ outcome, (scan s format frame).1 = .ok outcome →
          outcome.consumed = taken.length ∧ outcome.failure = none := by
  obtain ⟨hresult, hframe, behind, ahead, htext, hstream, hleft, hconsumed⟩ :=
    scan_together Stream.view TextSource.view format frame
      ⟨hopen, hreadable, rest, hrest, rfl⟩ (TextSource.shows_mk (s.unread ++ rest))
  have hremaining :
      (scan (TextSource.mk (s.unread ++ rest)) format frame).2.1.remaining = ahead := by rw [hleft]
  refine ⟨hresult, hframe, ?_, behind.reverse, ?_, ?_⟩
  · rw [hremaining]
    exact hstream
  · rw [hremaining]
    exact htext
  · intro outcome houtcome
    rw [List.length_reverse]
    exact hconsumed outcome houtcome

/-- Two bytes taken back, one read ahead, and a file that comes in chunks of two. -/
theorem scan_stream_in_chunks :
    let file : ScriptedFile :=
      ⟨ascii "x1234 five 0x", 2, ⟨some 2, none, none, none, false, false, false, ⟨.writeZero, none⟩⟩,
        0, 0⟩
    let s : Stream ScriptedFile :=
      ⟨file, .readOnly, false, true, ascii " -", ascii "1", false⟩
    let frame : Frame Arena :=
      ⟨.start .checked [.pointer 0x10000, .pointer 0x10008], (Arena.empty.allocate 32).2, .initial⟩
    let onStream := scan s (ascii "%3d%*[0-9] %s%i") frame
    let onText := scan (TextSource.mk (ascii " -1234 five 0x")) (ascii "%3d%*[0-9] %s%i") frame
    s.closed = false ∧ s.flags.readable = true ∧ Transport.Delivers file (ascii "234 five 0x") ∧
      onStream.1 = onText.1 ∧ onStream.2.2 = onText.2.2 ∧ onStream.2.1.Holds onText.2.1.remaining ∧
      ∃ taken, taken ++ onText.2.1.remaining = ascii " -1234 five 0x" ∧
        ∀ outcome, onStream.1 = .ok outcome →
          outcome.consumed = taken.length ∧ outcome.failure = none := by
  intro file s frame onStream onText
  have hfile : Transport.Delivers file (ascii "234 five 0x") :=
    ScriptedFile.delivers rfl (by decide) (by decide)
  exact ⟨rfl, rfl, hfile, scan_stream_eq_scan_text s _ rfl rfl hfile _ frame⟩

end Scan
end CheckedFormat
