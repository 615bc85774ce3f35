import CheckedFormat.Proofs.Destinations
import CheckedFormat.Proofs.Finding
import CheckedFormat.Proofs.FormatJoining
import CheckedFormat.Proofs.ScanRuns
import CheckedFormat.Proofs.StreamScan
/-! Scanning in pieces.

A format may be cut in two wherever its first part is a format. A scan of a text under the
whole then goes as the scan under the first part, and where that one completes, on as a
second scan of what is left, under the second part and with the arguments and the memory
that the first scan left (`scan_append`). The second scan counts its bytes and its fields
from nothing again, so only a directive that stores the count could tell the two apart. -/
namespace CheckedFormat

/-- A text in front of which some bytes were consumed before. -/
def TextSource.viewBehind (base : List Byte) : SourceView TextSource where
  shows s behind ahead := s = ⟨behind ++ base, ahead⟩
  next_end := by
    intro s behind h
    exact ⟨s, by rw [h]; rfl, h⟩
  next_byte := by
    intro s behind ahead b h
    exact ⟨_, by rw [h]; rfl, rfl⟩
  unread := by
    intro s behind ahead b h
    rw [h]
    rfl

open TextSource (viewBehind)

/-! ### Runs in the format -/

namespace Reader

/-- The place says all about a reader of a text. -/
theorem At.unique {base behind ahead : List Byte} {r r' : Reader TextSource}
    (h : r.At (viewBehind base) behind ahead) (h' : r'.At (viewBehind base) behind ahead) :
    r = r' := by
  obtain ⟨source, consumed, failure⟩ := r
  obtain ⟨source', consumed', failure'⟩ := r'
  obtain ⟨rfl, rfl, rfl⟩ := h
  obtain ⟨rfl, rfl, rfl⟩ := h'
  rfl

/-- Behind white space there is no more of it. -/
theorem skipSpace_again {base behind ahead : List Byte} {r : Reader TextSource}
    (h : r.At (viewBehind base) behind ahead) : r.skipSpace.2.skipSpace.2 = r.skipSpace.2 := by
  obtain ⟨-, hat⟩ := skipSpace_computes h
  obtain ⟨-, hagain⟩ := skipSpace_computes hat
  have hdrop : ahead.drop (TextReading.skipSpace ahead).2 = ahead.dropWhile Byte.isSpace :=
    calc ahead.drop (ahead.takeWhile Byte.isSpace).length
      _ = (ahead.takeWhile Byte.isSpace ++ ahead.dropWhile Byte.isSpace).drop
          (ahead.takeWhile Byte.isSpace).length := by rw [List.takeWhile_append_dropWhile]
      _ = ahead.dropWhile Byte.isSpace := List.drop_left
  have hnone : (TextReading.skipSpace (ahead.dropWhile Byte.isSpace)).2 = 0 := by
    have hrun : ([] ++ ahead.dropWhile Byte.isSpace).takeWhile Byte.isSpace = [] :=
      takeWhile_of_stopsAt (List.forall_mem_nil _) (stopsAt_dropWhile Byte.isSpace ahead)
    exact congrArg List.length hrun
  rw [hdrop] at hat hagain
  rw [hnone] at hagain
  exact hagain.unique hat

/-- Bytes that are matched are matched in two parts. -/
theorem expect_append {S : Type} [ByteSource S] (first second : List Byte) (r : Reader S) :
    expect (first ++ second) r =
      if (expect first r).1 = .complete then expect second (expect first r).2
      else expect first r := by
  induction first generalizing r with
  | nil => rfl
  | cons want rest ih =>
    rw [List.cons_append, expect, expect]
    generalize r.get = found
    obtain ⟨_ | b, r'⟩ := found
    · rfl
    · dsimp only
      by_cases hb : (b == want) = true
      · simp only [hb, if_true, ih]
      · simp [hb]

end Reader

/-- What two scans come to of which the second goes on where the first completed. -/
def ScanOutcome.andThen (o o' : ScanOutcome) : ScanOutcome :=
  ⟨o.assigned + o'.assigned, o.consumed + o'.consumed, o'.status, o'.failure⟩

namespace Scan
variable {M : Type} [Memory M] {base behind ahead : List Byte} {s t : State TextSource M}

omit [Memory M] in
/-- Reading a text moves the reader and nothing else. -/
theorem reading_of_at {α : Type} {f : Reader TextSource → α × Reader TextSource}
    {g : TextReading α} (hf : Reader.Computes (viewBehind base) f g)
    (hat : s.reader.At (viewBehind base) behind ahead) :
    reading f s = .ok (f s.reader).1 ⟨(f s.reader).2, s.frame⟩ := by
  obtain ⟨-, hlater⟩ := hf hat
  rw [reading_eq, afterReading, noteRead_of_no_failure _ hlater.failure]

theorem runFrom_congr {segment other : ScanSegment}
    (h : matchSegment segment s = matchSegment other t) (n : Nat) (rest : List ScanSegment) :
    runFrom n (segment :: rest) s = runFrom n (other :: rest) t := by
  rw [runFrom, runFrom]
  show EStateM.bind _ _ s = EStateM.bind _ _ t
  unfold EStateM.bind
  rw [h]

/-- White space that became one run matches as it matches apart. -/
theorem runFrom_space_twice (hat : s.reader.At (viewBehind base) behind ahead) (n : Nat)
    (rest : List ScanSegment) :
    runFrom n (.space :: rest) s = runFrom n (.space :: .space :: rest) s := by
  have hskips : ∀ {u : State TextSource M} {behind ahead : List Byte},
      u.reader.At (viewBehind base) behind ahead →
      matchSegment .space u = .ok .skipped ⟨u.reader.skipSpace.2, u.frame⟩ := fun hu =>
    bind_of_ok (reading_of_at Reader.skipSpace_computes hu)
  obtain ⟨-, hlater⟩ := Reader.skipSpace_computes hat
  rw [runFrom_of_goesOn (hskips hat) nofun n (.space :: rest)]
  refine runFrom_congr ?_ n rest
  rw [hskips hat, hskips hlater, Reader.skipSpace_again hat]

/-- A literal that became one matches as its parts match apart. -/
theorem runFrom_literal_append (hat : s.reader.At (viewBehind base) behind ahead) (n : Nat)
    (first second : List Byte) (rest : List ScanSegment) :
    runFrom n (.literal (first ++ second) :: rest) s =
      runFrom n (.literal first :: .literal second :: rest) s := by
  have hmatches : ∀ {u : State TextSource M} {behind ahead : List Byte} (bytes : List Byte),
      u.reader.At (viewBehind base) behind ahead → matchSegment (.literal bytes) u =
        .ok (ofMatch (u.reader.expect bytes).1) ⟨(u.reader.expect bytes).2, u.frame⟩ :=
    fun bytes hu => bind_of_ok (reading_of_at (Reader.expect_computes bytes) hu)
  obtain ⟨-, hlater⟩ := Reader.expect_computes first hat
  have hfirst := hmatches first hat
  have hwhole := hmatches (first ++ second) hat
  rw [Reader.expect_append] at hwhole
  cases hfound : (s.reader.expect first).1 with
  | complete =>
    rw [hfound] at hfirst
    rw [if_pos hfound] at hwhole
    rw [runFrom_of_goesOn hfirst nofun n (.literal second :: rest)]
    refine runFrom_congr ?_ n rest
    rw [hwhole, hmatches second hlater]
  | mismatch | atEnd =>
    rw [if_neg (by rw [hfound]; nofun), hfound] at hwhole
    rw [hfound] at hfirst
    rw [runFrom_of_stop hfirst n, runFrom_of_stop hwhole n]

/-- A run over a text leaves the reader at a place of it. -/
theorem at_of_runFrom {n : Nat} {segments : List ScanSegment} {result : Nat × ScanStatus}
    (hat : s.reader.At (viewBehind base) behind ahead) (h : runFrom n segments s = .ok result t) :
    ∃ behind' ahead', t.reader.At (viewBehind base) behind' ahead' := by
  have hsame : Together (viewBehind base) (viewBehind base) (behind.reverse ++ ahead) s s :=
    ⟨rfl, behind, ahead, rfl, hat, hat⟩
  have hlockstep :
      Lockstep (Together (M := M) (viewBehind base) (viewBehind base) (behind.reverse ++ ahead))
        (runFrom n segments) (runFrom n segments) :=
    parallel_together.paired.runFrom (fun _ _ _ => consumed_lockstep) n
  have halike := hlockstep s s hsame
  rw [h] at halike
  cases halike with
  | ok _ htogether =>
    obtain ⟨behind', ahead', _, hlater, _⟩ := htogether.place
    exact ⟨behind', ahead', hlater⟩

/-- Segments that are joined match as they match apart. -/
theorem runFrom_joined {segments more all : List ScanSegment}
    (h : Joined ScanSegment.Merged segments more all)
    (hat : s.reader.At (viewBehind base) behind ahead) (n : Nat) :
    runFrom n all s = runFrom n (segments ++ more) s := by
  cases h with
  | apart => rfl
  | @merged x y z hmerged front rest =>
    rw [List.append_assoc, List.singleton_append, runFrom_append, runFrom_append]
    cases hfront : runFrom n front s with
    | error e t => rfl
    | ok result t =>
      obtain ⟨k, status⟩ := result
      obtain ⟨behind', ahead', hlater⟩ := at_of_runFrom hat hfront
      cases status with
      | matchingFailure | inputFailure => rfl
      | complete =>
        cases hmerged with
        | space => exact runFrom_space_twice hlater k rest
        | literal run run' => exact runFrom_literal_append hlater k run run' rest

/-! ### A second scan -/

/-- A scan that started behind some bytes of a text, and one that took these bytes itself:
both stand at the same place, with the same arguments and the same memory. -/
structure Aligned (base taken : List Byte) (s₁ s₂ : State TextSource M) : Prop where
  frames : s₁.frame.Agree s₂.frame
  place : ∃ behind ahead, s₁.reader.At (viewBehind (taken ++ base)) behind ahead ∧
    s₂.reader.At (viewBehind base) (behind ++ taken) ahead

omit [Memory M] in
theorem parallel_aligned (base taken : List Byte) :
    Parallel (viewBehind (taken ++ base)) (viewBehind base) (Aligned (M := M) base taken) where
  reading h₁ h₂ := by
    intro s₁ s₂ h
    obtain ⟨hframes, behind, ahead, hat₁, hat₂⟩ := h
    obtain ⟨hresult₁, hplace₁⟩ := h₁ hat₁
    obtain ⟨hresult₂, hplace₂⟩ := h₂ hat₂
    rw [reading_of_at h₁ hat₁, reading_of_at h₂ hat₂, hresult₁, hresult₂]
    rw [← List.append_assoc] at hplace₂
    exact .ok _ ⟨hframes, _, _, hplace₁, hplace₂⟩
  fetchAddress := by
    intro s₁ s₂ h
    unfold fetchAddress Frame.fetch
    rw [h.frames.arguments]
    cases s₂.frame.arguments.next .pointer with
    | ok granted => exact .ok _ ⟨⟨rfl, h.frames.memory⟩, h.place⟩
    | error e => exact .error _ ⟨⟨rfl, h.frames.memory⟩, h.place⟩
  storing f := by
    intro s₁ s₂ h
    unfold storing
    rw [h.frames.memory]
    cases f s₂.frame.memory with
    | ok memory => exact .ok _ ⟨⟨h.frames.arguments, rfl⟩, h.place⟩
    | error e => exact .error _ h

omit [Memory M] in
/-- The one that took the bytes itself has counted them too. -/
theorem Aligned.reader {taken : List Byte} {s₁ s₂ : State TextSource M}
    (h : Aligned base taken s₁ s₂) :
    s₂.reader = { s₁.reader with consumed := taken.length + s₁.reader.consumed } := by
  obtain ⟨behind, ahead, hat₁, hat₂⟩ := h.place
  refine hat₂.unique ⟨?_, ?_, hat₁.failure⟩
  · show s₁.reader.source = ⟨behind ++ taken ++ base, ahead⟩
    rw [hat₁.source, List.append_assoc]
  · rw [hat₁.consumed, List.length_append, Nat.add_comm]

/-! ### Whole calls -/

/-- What a call gives for its run. -/
def conclude {S : Type} : EStateM.Result ScanError (State S M) (Nat × ScanStatus) →
    Except ScanError ScanOutcome × S × Frame M
  | .ok (assigned, status) s =>
    (.ok ⟨assigned, s.reader.consumed, status, s.reader.failure⟩, s.reader.source,
      s.frame.note (·.countMany .fieldsAssigned assigned))
  | .error e s => (.error e, s.reader.source, noteFailure e s.frame)

theorem scan_eq_conclude {format : List Byte} {segments : List ScanSegment}
    (h : ScanFormat.parse format = .ok segments) (source : TextSource) (frame : Frame M) :
    scan source format frame =
      conclude (runFrom 0 segments ⟨.start source, frame.note (·.count .scanCalls)⟩) := by
  unfold scan run
  rw [h]
  dsimp only
  generalize runFrom 0 segments (State.mk (.start source) (frame.note (·.count .scanCalls))) =
    result
  obtain ⟨⟨assigned, status⟩, s⟩ | ⟨e, s⟩ := result <;> rfl

/-- A format that is refused is refused before anything is read, taken or stored. -/
theorem exists_scan_of_refused {format : List Byte} {e : FormatError}
    (h : ScanFormat.parse format = .error e) (source : TextSource) (frame : Frame M) :
    ∃ left, scan source format frame = (.error (.format e), source, left) ∧
      left.arguments = frame.arguments ∧ left.memory = frame.memory := by
  have hscan : scan source format frame =
      (.error (.format e), source, noteFailure (.format e) (frame.note (·.count .scanCalls))) := by
    unfold scan run
    rw [h]
    rfl
  exact ⟨_, hscan, noteFailure_stores (.format e) (frame.note (·.count .scanCalls))⟩

section Pieces
variable {first second : List Byte} {segments more : List ScanSegment} {source : TextSource}
  {frame : Frame M}

/-- What comes behind a scan that completed is a scan of its own. -/
theorem conclude_onward (hcounts : ∀ segment ∈ more, segment.isCount = false) {taken : List Byte}
    (hat : t.reader.At (viewBehind base) taken ahead) (k : Nat) {middle : Frame M}
    (hmiddle : middle.Agree t.frame) :
    (conclude (runFrom k more t)).1 =
        (conclude (runFrom 0 more ⟨.start t.reader.source, middle⟩)).1.map
          (ScanOutcome.andThen ⟨k, t.reader.consumed, .complete, t.reader.failure⟩) ∧
      (conclude (runFrom k more t)).2.1 =
        (conclude (runFrom 0 more ⟨.start t.reader.source, middle⟩)).2.1 ∧
      (conclude (runFrom k more t)).2.2.Agree
        (conclude (runFrom 0 more ⟨.start t.reader.source, middle⟩)).2.2 := by
  have haligned : Aligned base taken ⟨.start t.reader.source, middle⟩ t :=
    ⟨hmiddle, [], ahead, .start hat.source, hat⟩
  have hletters : ∀ spec, .directive spec ∈ more → spec.conversion ≠ .letter .n := by
    intro spec hspec hconversion
    have hcount := hcounts _ hspec
    simp [ScanSegment.isCount, hconversion] at hcount
  have halike := (parallel_aligned base taken).paired.runFrom
    (fun spec hspec hconversion => absurd hconversion (hletters spec hspec)) 0 _ _ haligned
  have hadd : runFrom k more t = _ := congrFun (runFrom_add k 0 more) t
  generalize runFrom 0 more (State.mk (.start t.reader.source) middle) = fresh at halike ⊢
  generalize hrun : runFrom 0 more t = result at halike
  cases halike with
  | @ok s₁ s₂ counted h =>
    rw [bind_of_ok hrun] at hadd
    rw [hadd]
    simp only [conclude, pure, EStateM.pure, h.reader]
    exact ⟨by rw [hat.consumed]; rfl, trivial, h.frames.symm.arguments, h.frames.symm.memory⟩
  | @error s₁ s₂ e h =>
    rw [bind_of_error hrun] at hadd
    rw [hadd]
    have hleft := noteFailure_stores e s₁.frame
    have hleft' := noteFailure_stores e s₂.frame
    simp only [conclude, h.reader]
    exact ⟨rfl, trivial, hleft'.1.trans (h.frames.symm.arguments.trans hleft.1.symm),
      hleft'.2.trans (h.frames.symm.memory.trans hleft.2.symm)⟩

/-- A scan under two formats is a run under the first, and on under the second. -/
theorem scan_append_eq_onward (hfirst : ScanFormat.parse first = .ok segments)
    (hsecond : ScanFormat.parse second = .ok more) (source : TextSource) (frame : Frame M) :
    scan source (first ++ second) frame = conclude (onward more
      (runFrom 0 segments ⟨.start source, frame.note (·.count .scanCalls)⟩)) := by
  obtain ⟨all, hall, hjoined⟩ : ∃ all, ScanFormat.parse (first ++ second) = .ok all ∧ _ :=
    ScanGrammar.reads.parse_append ScanGrammar.joins hfirst hsecond
  have hat : (Reader.start source).At (viewBehind source.behind) [] source.remaining := .start rfl
  rw [scan_eq_conclude hall, runFrom_joined hjoined hat, runFrom_append]

end Pieces

/-- **Scanning in pieces is scanning at once.** Behind a format that is read, one that is
read too and has no count goes on where the first completes, as a scan of its own of what
the first left: fields and bytes are added up, and all else is as the second scan has it,
the status or the error, the rest of the text, the arguments and the memory. Where the
first does not complete, the scan under both is the scan under the first. A format that
is refused is refused behind the first one for the same cause, as much further on, and
nothing is read, taken or stored. -/
theorem scan_append {first second : List Byte} {segments : List ScanSegment}
    (hfirst : ScanFormat.parse first = .ok segments) (source : TextSource) (frame : Frame M) :
    (∀ more, ScanFormat.parse second = .ok more →
      (∀ segment ∈ more, segment.isCount = false) →
      (∀ o rest middle, scan source first frame = (.ok o, rest, middle) → o.status = .complete →
        (scan source (first ++ second) frame).1 = (scan rest second middle).1.map o.andThen ∧
          (scan source (first ++ second) frame).2.1 = (scan rest second middle).2.1 ∧
          (scan source (first ++ second) frame).2.2.Agree (scan rest second middle).2.2) ∧
      ((∀ o, (scan source first frame).1 = .ok o → o.status ≠ .complete) →
        scan source (first ++ second) frame = scan source first frame)) ∧
    ∀ e, ScanFormat.parse second = .error e →
      ∃ left, scan source (first ++ second) frame =
          (.error (.format ⟨first.length + e.offset, e.cause⟩), source, left) ∧
        left.arguments = frame.arguments ∧ left.memory = frame.memory := by
  refine ⟨fun more hsecond hcounts => ?_, fun e hsecond => exists_scan_of_refused
    (ScanGrammar.reads.parse_append_error hfirst hsecond) source frame⟩
  have hat : (Reader.start source).At (viewBehind source.behind) [] source.remaining := .start rfl
  rw [scan_append_eq_onward hfirst hsecond, scan_eq_conclude hfirst]
  cases hrun : runFrom 0 segments ⟨.start source, frame.note (·.count .scanCalls)⟩ with
  | error e t =>
    refine ⟨fun o rest middle h => ?_, fun _ => rfl⟩
    cases h
  | ok result t =>
    obtain ⟨k, status⟩ := result
    obtain ⟨taken, ahead, hlater⟩ := at_of_runFrom hat hrun
    constructor
    · intro o rest middle h hcomplete
      cases h
      obtain rfl : status = .complete := hcomplete
      rw [scan_eq_conclude hsecond]
      exact conclude_onward hcounts hlater k ⟨rfl, rfl⟩
    · intro hstops
      cases status with
      | complete => exact absurd rfl (hstops _ rfl)
      | matchingFailure | inputFailure => rfl

/-- A frame with places for two numbers. -/
def seamFrame : Frame Arena :=
  ⟨.start .checked [.pointer 0x10000, .pointer 0x10008], (Arena.empty.allocate 16).2, .initial⟩

/-- A text that goes on behind the seam, with a byte in front of it that was read before. -/
def seamText : TextSource := TextSource.split (ascii "z") (ascii "12 ab-34x")

/-- A literal that is cut in two: it is matched on, it is missed in its first part, and a
percent sign at its end is refused. -/
theorem scan_append_in_literal :
    ScanFormat.parse (ascii "%d a") =
      .ok [.directive ⟨false, none, .plain, .letter .d⟩, .space, .literal (ascii "a")] ∧
    (∃ rest middle, scan seamText (ascii "%d a") seamFrame =
        (.ok ⟨1, 4, .complete, none⟩, rest, middle) ∧
      (scan seamText (ascii "%d a" ++ ascii "b%d") seamFrame).1 =
        (scan rest (ascii "b%d") middle).1.map (ScanOutcome.andThen ⟨1, 4, .complete, none⟩)) ∧
    scan (TextSource.mk (ascii "12 xb")) (ascii "%d a" ++ ascii "b%d") seamFrame =
      scan (TextSource.mk (ascii "12 xb")) (ascii "%d a") seamFrame ∧
    ∃ left, scan (TextSource.mk (ascii "12 ab")) (ascii "%d a" ++ ascii "b%") seamFrame =
        (.error (.format ⟨5, .truncated⟩), TextSource.mk (ascii "12 ab"), left) ∧
      left.arguments = seamFrame.arguments ∧ left.memory = seamFrame.memory := by
  have hfirst : ScanFormat.parse (ascii "%d a") =
      .ok [.directive ⟨false, none, .plain, .letter .d⟩, .space, .literal (ascii "a")] :=
    ok_of_toOption (by decide +kernel)
  have hsecond : ScanFormat.parse (ascii "b%d") =
      .ok [.literal (ascii "b"), .directive ⟨false, none, .plain, .letter .d⟩] :=
    ok_of_toOption (by decide +kernel)
  have hrefused : ScanFormat.parse (ascii "b%") = .error ⟨1, .truncated⟩ :=
    error_of_no_value (by decide +kernel)
  have hcompletes : (scan seamText (ascii "%d a") seamFrame).1 = .ok ⟨1, 4, .complete, none⟩ :=
    ok_of_toOption (by decide +kernel)
  have hstops : (scan (TextSource.mk (ascii "12 xb")) (ascii "%d a") seamFrame).1 =
      .ok ⟨1, 3, .matchingFailure, none⟩ := ok_of_toOption (by decide +kernel)
  obtain ⟨hon, -⟩ := (scan_append hfirst seamText seamFrame).1 _ hsecond (by decide)
  obtain ⟨-, hstays⟩ :=
    (scan_append hfirst (TextSource.mk (ascii "12 xb")) seamFrame).1 _ hsecond (by decide)
  refine ⟨hfirst, ⟨_, _, Prod.ext hcompletes rfl, (hon _ _ _ (Prod.ext hcompletes rfl) rfl).1⟩,
    hstays fun o ho => ?_,
    (scan_append hfirst (TextSource.mk (ascii "12 ab")) seamFrame).2 _ hrefused⟩
  rw [hstops] at ho
  cases ho
  nofun

end Scan
end CheckedFormat
