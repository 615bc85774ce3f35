import CheckedFormat.Memory.Arena
import CheckedFormat.Proofs.Accounts
import CheckedFormat.Proofs.Demands
import CheckedFormat.Stream.Scripted
/-! Every fault is reported once.

What a formatted call reports is spread over its parts: a refused read of an argument is
reported by the list, a failed transfer by the stream, and everything else by the call
when it ends. Both engines keep account of it step by step, and the call adds nothing for
an error that was reported where it arose. So a call leaves in the journal what its result
says (`Print.Reported`, `Scan.Reported`), behind the read error that it met
(`Scan.failure?`), and nothing else. -/
namespace CheckedFormat

/-! ### Printing -/

namespace Print

variable {M : Type}

/-- Between two readings a printing call on a list of a level that ends so reported its
error, if it failed, and nothing else. -/
def Reported {α : Type} (level : CheckLevel) (t later : Telemetry) : Except PrintError α → Prop
  | .ok _ => t.Gains later [] 0 0
  | .error e => t.Gains later (e.faults t.level level) e.raises.toNat e.malformed

/-- Whether a call that ends so failed for its stream and raised the error indicator. -/
def raisesIndicator {α : Type} : Except PrintError α → Bool
  | .error e => e.raises
  | .ok _ => false

/-- A printing call reports everything but its arguments when it ends. -/
def accounting (M : Type) : Accounting PrintError (Frame M) where
  reports s t faults := s.Reports t faults 0
  refuses frame := frame.arguments.Refuses
  argument := .argument
  pending e := e.faultKind?.isSome = true
  refl := Frame.Reports.refl
  trans := Frame.Reports.trans
  refuses_of_reports := Frame.Reports.refuses

theorem fetch_tells (type : ArgumentType) : (accounting M).Tells (fetch type) := by
  intro s
  unfold fetch
  rcases s.fetch_reports type with ⟨bits, later, hfetch, hreports⟩ |
    ⟨cause, later, hfetch, hrefuses, hreports⟩
  · rw [hfetch]
    exact .ok hreports
  · rw [hfetch]
    exact .refused hrefuses hreports

variable [Memory M]

theorem readString_tells (address : Nat) (layout : Layout) :
    (accounting M).Tells (readString address layout) := by
  intro s
  unfold readString
  dsimp only
  generalize Memory.readString s.memory address _ = result
  cases result with
  | ok text => exact .ok (.refl s)
  | error e => exact .failed rfl (.refl s)

theorem storeCount_tells (address count size : Nat) :
    (accounting M).Tells (storeCount address count size) := by
  intro s
  unfold storeCount
  generalize Memory.writeInteger s.memory address _ size = result
  cases result with
  | ok memory => exact .ok ⟨rfl, .refl _⟩
  | error e => exact .failed rfl (.refl s)

theorem tells_rules : StepRules (M := M) fun f => (accounting M).Tells f where
  pure := Accounting.tells_pure
  bind := Accounting.tells_bind
  malformed _ := Accounting.tells_throw rfl
  overflow := Accounting.tells_throw rfl
  fetch := fetch_tells
  readString := readString_tells
  storeCount := storeCount_tells

omit [Memory M] in
/-- A call that failed reports at its end what was not reported yet. -/
theorem noteFailure_gains {e : PrintError} (h : e.faultKind?.isSome = true) (frame : Frame M) :
    frame.telemetry.Gains (noteFailure e frame).telemetry
      (e.faults frame.telemetry.level frame.arguments.level) e.raises.toNat e.malformed := by
  cases e with
  | format e =>
    exact (Telemetry.Gains.countMalformed frame.telemetry).trans
      ((frame.note (·.count .formatErrors)).record_gains _)
  | overflow => exact frame.record_gains _
  | memory e => exact frame.record_gains _
  | argument e => cases h
  | stream e => cases h

theorem render_told (text : List Byte) (frame : Frame M) :
    (accounting M).Told frame (render text (frame.note (·.count .printCalls))) := by
  have hstart : frame.Reports (frame.note (·.count .printCalls)) [] 0 :=
    ⟨rfl, .count _ (by decide) (by decide)⟩
  exact (tells_rules.render text _).behind hstart

/-- What a printing call reports is its error. -/
theorem format_reported (text : List Byte) (frame : Frame M) :
    Reported frame.arguments.level frame.telemetry (format text frame).2.telemetry
      (format text frame).1 := by
  have htold := render_told text frame
  unfold format
  generalize render text (frame.note (·.count .printCalls)) = result at htold
  cases htold with
  | ok hreports => exact hreports.telemetry.trans (.countMany _ _ (by decide) (by decide))
  | @refused cause t hrefuses hreports =>
    show frame.telemetry.Gains t.telemetry (frame.arguments.level.journaled cause.fault) 0 0
    rw [hrefuses.checked]
    exact hreports.telemetry
  | @failed e t hpending hreports =>
    have hnoted := noteFailure_gains hpending t
    rw [hreports.level_eq, hreports.telemetry.level] at hnoted
    have hgains := hreports.telemetry.trans hnoted
    rwa [Nat.zero_add, Nat.zero_add] at hgains

/-- A printing call only moves the arguments on, and does not report a list as ended that
is not. -/
theorem format_arguments (text : List Byte) (frame : Frame M) :
    (format text frame).2.arguments =
        { frame.arguments with cursor := (format text frame).2.arguments.cursor } ∧
      ((format text frame).1 = .error (.argument .useAfterEnd) → frame.arguments.ended = true) := by
  have htold := render_told text frame
  unfold format
  generalize render text (frame.note (·.count .printCalls)) = result at htold
  cases htold with
  | ok hreports => exact ⟨hreports.arguments, nofun⟩
  | @refused cause t hrefuses hreports =>
    refine ⟨hreports.arguments, fun h => hrefuses.ended ?_⟩
    cases h
    rfl
  | failed hpending hreports =>
    dsimp only
    rw [arguments_noteFailure]
    refine ⟨hreports.arguments, ?_⟩
    rintro ⟨⟩
    cases hpending

/-- Only the stream that the bytes are for fails as a stream. -/
theorem format_ne_stream (text : List Byte) (frame : Frame M) (e : StreamError) :
    (format text frame).1 ≠ .error (.stream e) := by
  have htold := render_told text frame
  unfold format
  generalize render text (frame.note (·.count .printCalls)) = result at htold
  intro h
  cases htold with
  | ok hreports => cases h
  | refused hrefuses hreports => cases h
  | failed hpending hreports =>
    cases h
    cases hpending

/-- Printing into a buffer reports what printing does. -/
theorem formatInto_reported (buffer text : List Byte) (frame : Frame M) :
    Reported frame.arguments.level frame.telemetry (formatInto buffer text frame).2.2.telemetry
      (formatInto buffer text frame).1 := by
  have hformat := format_reported text frame
  unfold formatInto
  generalize format text frame = result at hformat
  obtain ⟨output | e, left⟩ := result <;> exact hformat

end Print

/-! ### The error indicator -/

namespace Stream

variable {T : Type}

/-- What a transfer that ends so leaves of the error indicator. -/
def indicatorAfter {α : Type} (s : Stream T) : Except StreamError α → Bool
  | .ok _ => s.error
  | .error e => s.error || e.raises

theorem error_ungetByte (s : Stream T) (b : Byte) : (s.ungetByte b).2.error = s.error := by
  unfold ungetByte
  split
  · rfl
  · split <;> rfl

variable [Transport T]

theorem error_getByte (s : Stream T) : s.getByte.2.error = s.indicatorAfter s.getByte.1 := by
  unfold getByte
  split
  · exact (Bool.or_false _).symm
  · split
    · exact (Bool.or_true _).symm
    · split
      · rfl
      · split
        · rfl
        · split
          · rfl
          · rfl
          · exact (Bool.or_true _).symm

/-- Stepping back leaves the indicator to its caller; only a transport makes it fail. -/
theorem error_stepBack (s : Stream T) :
    s.stepBack.2.error = s.error ∧ ∀ e, s.stepBack.1 = .error e → e.raises = true := by
  unfold stepBack
  split
  · exact ⟨rfl, nofun⟩
  · split
    · exact ⟨rfl, nofun⟩
    · exact ⟨rfl, by rintro _ ⟨⟩; rfl⟩

theorem error_writePartial (s : Stream T) (bytes : List Byte) :
    (s.writePartial bytes).2.2.error =
      (s.error || (s.writePartial bytes).2.1.any StreamError.raises) := by
  unfold writePartial
  split
  · exact (Bool.or_false _).symm
  · split
    · exact (Bool.or_true _).symm
    · obtain ⟨herror, hraises⟩ := s.error_stepBack
      generalize s.stepBack = result at herror hraises
      obtain ⟨e | _, t⟩ := result
      · show true = (s.error || e.raises)
        rw [hraises e rfl, Bool.or_true]
      · dsimp only at herror ⊢
        split
        · exact herror.trans (Bool.or_false _).symm
        · exact (Bool.or_true _).symm

theorem error_write (s : Stream T) (bytes : List Byte) :
    (s.write bytes).2.error = s.indicatorAfter (s.write bytes).1 := by
  have hpartial := s.error_writePartial bytes
  unfold write
  generalize s.writePartial bytes = result at hpartial
  obtain ⟨n, failure | e, t⟩ := result
  · exact hpartial.trans (Bool.or_false _)
  · exact hpartial

end Stream

namespace Print

variable {T M : Type} [Transport T] [Memory M]

/-- Printing to a stream reports what printing does, or else the stream's failure, which
raises the error indicator. -/
theorem formatTo_reported (stream : Stream T) (text : List Byte) (frame : Frame M) :
    Reported frame.arguments.level frame.telemetry (formatTo stream text frame).2.2.telemetry
        (formatTo stream text frame).1 ∧
      (formatTo stream text frame).2.1.error =
        (stream.error || raisesIndicator (formatTo stream text frame).1) := by
  have hformat := format_reported text frame
  have hstream := format_ne_stream text frame
  unfold formatTo
  generalize format text frame = result at hformat hstream
  obtain ⟨e | output, left⟩ := result
  · refine ⟨hformat, ?_⟩
    cases e with
    | stream e => exact absurd rfl (hstream e)
    | _ => exact (Bool.or_false _).symm
  · have hwrite := stream.error_write output
    dsimp only
    generalize stream.write output = written at hwrite
    obtain ⟨e | n, rest⟩ := written
    · have hgains := hformat.trans (.noteStreamError left.telemetry e)
      rw [hformat.level, Nat.zero_add] at hgains
      exact ⟨hgains, hwrite⟩
    · exact ⟨hformat, hwrite.trans (Bool.or_false _).symm⟩

/-- Printing to a stream treats its arguments as printing does. -/
theorem formatTo_arguments (stream : Stream T) (text : List Byte) (frame : Frame M) :
    (formatTo stream text frame).2.2.arguments =
        { frame.arguments with cursor := (formatTo stream text frame).2.2.arguments.cursor } ∧
      ((formatTo stream text frame).1 = .error (.argument .useAfterEnd) →
        frame.arguments.ended = true) := by
  have hformat := format_arguments text frame
  unfold formatTo
  generalize format text frame = result at hformat
  obtain ⟨e | output, left⟩ := result
  · refine ⟨hformat.1, fun h => hformat.2 ?_⟩
    cases h
    rfl
  · dsimp only
    generalize stream.write output = written
    obtain ⟨e | n, rest⟩ := written
    · exact ⟨hformat.1, nofun⟩
    · exact ⟨hformat.1, nofun⟩

end Print

/-! ### Scanning -/

namespace Reader

variable {S : Type} [ByteSource S] {r u : Reader S} {e : StreamError}

theorem failure_get (h : r.failure = some e) : r.get = (none, r) := by
  unfold get
  rw [h]

/-- A read error stays. -/
theorem Moves.failure (hmoves : Moves r u) (h : r.failure = some e) : u.failure = some e := by
  induction hmoves with
  | refl => exact h
  | get _ ih => rwa [failure_get ih]
  | unget b _ ih => exact ih

end Reader

namespace Scan

variable {S M : Type}

/-- What a read error reports in a process of a level. -/
def readFaults (process : CheckLevel) : Option StreamError → List Fault
  | none => []
  | some e => e.faults process

/-- How often a read error raises the error indicator. -/
def timesRaised (failure : Option StreamError) : Nat := (failure.any StreamError.raises).toNat

/-- The read error that a reader has met since it was another. -/
def met (before later : Reader S) : Option StreamError :=
  if before.failure.isSome then none else later.failure

/-- Between two states of a scan the arguments only moved on, a read error stayed, and
these faults were reported behind the read error that was met. -/
structure Reports (s t : State S M) (faults : List Fault) : Prop where
  frame : s.frame.Reports t.frame
    (readFaults s.frame.telemetry.level (met s.reader t.reader) ++ faults)
    (timesRaised (met s.reader t.reader))
  stays : ∀ e, s.reader.failure = some e → t.reader.failure = some e

namespace Reports

variable {s t u : State S M} {faults : List Fault}

/-- Where the reader stays, the frame alone reports. -/
theorem of_frame (hreader : t.reader = s.reader) (hframe : s.frame.Reports t.frame faults 0) :
    Reports s t faults := by
  have hmet : met s.reader s.reader = none := by
    unfold met
    cases s.reader.failure <;> rfl
  refine ⟨?_, fun e h => hreader ▸ h⟩
  rw [hreader, hmet]
  exact hframe

theorem refl (s : State S M) : Reports s s [] := .of_frame rfl (.refl _)

theorem trans (h : Reports s u []) (h' : Reports u t faults) : Reports s t faults := by
  have hlevel := h.frame.telemetry.level
  have hmet : ∀ process, readFaults process (met s.reader t.reader) =
        readFaults process (met s.reader u.reader) ++ readFaults process (met u.reader t.reader) ∧
      timesRaised (met s.reader t.reader) =
        timesRaised (met s.reader u.reader) + timesRaised (met u.reader t.reader) := by
    have hu := h'.stays
    have hs := h.stays
    unfold met
    cases hsf : s.reader.failure with
    | some e => simp [hs e hsf, readFaults, timesRaised]
    | none =>
      cases huf : u.reader.failure with
      | some e => simp [hu e huf, readFaults, timesRaised]
      | none => simp [readFaults, timesRaised]
  refine ⟨?_, fun e he => h'.stays e (h.stays e he)⟩
  have hframe := h.frame.trans h'.frame
  obtain ⟨hfaults, hraised⟩ := hmet s.frame.telemetry.level
  rwa [List.append_nil, hlevel, ← List.append_assoc, ← hfaults, ← hraised] at hframe

theorem refuses {cause : ArgumentError} (h : Reports s t [])
    (hrefuses : t.frame.arguments.Refuses cause) : s.frame.arguments.Refuses cause :=
  h.frame.refuses hrefuses

end Reports

/-- Between two readings a scanning call on a list of a level that ends so reported the
read error that it met and its error, if it failed, and nothing else. -/
def Reported (level : CheckLevel) (failure : Option StreamError) (t later : Telemetry) :
    Except ScanError ScanOutcome → Prop
  | .ok outcome => outcome.failure = failure ∧
      t.Gains later (readFaults t.level failure) (timesRaised failure) 0
  | .error e => t.Gains later (readFaults t.level failure ++ e.faults level)
      (timesRaised failure) e.malformed

/-- A scanning call reports its format and its memory when it ends. -/
def accounting (S M : Type) : Accounting ScanError (State S M) where
  reports := Reports
  refuses s := s.frame.arguments.Refuses
  argument := .argument
  pending e := e.faultKind?.isSome = true
  refl := Reports.refl
  trans := Reports.trans
  refuses_of_reports := Reports.refuses

theorem fetchAddress_tells : (accounting S M).Tells fetchAddress := by
  intro s
  unfold fetchAddress
  rcases s.frame.fetch_reports .pointer with ⟨bits, later, hfetch, hreports⟩ |
    ⟨cause, later, hfetch, hrefuses, hreports⟩
  · rw [hfetch]
    exact .ok (.of_frame rfl hreports)
  · rw [hfetch]
    exact .refused hrefuses (.of_frame rfl hreports)

theorem storing_tells (f : M → Except MemoryError M) : (accounting S M).Tells (storing f) := by
  intro s
  unfold storing
  generalize f s.frame.memory = result
  cases result with
  | ok memory => exact .ok (.of_frame rfl ⟨rfl, .refl _⟩)
  | error e => exact .failed rfl (.refl s)

variable [ByteSource S]

/-- A read error is reported when it is met. -/
theorem reading_tells {α : Type} {f : Reader S → α × Reader S}
    (hf : ∀ r, Reader.Moves r (f r).2) : (accounting S M).Tells (reading f) := by
  intro s
  have hstays : ∀ e, s.reader.failure = some e → (f s.reader).2.failure = some e :=
    fun e => (hf s.reader).failure
  refine .ok ⟨?_, hstays⟩
  show s.frame.Reports (noteRead s.reader (f s.reader).2 s.frame) _ _
  unfold noteRead met
  cases hbefore : s.reader.failure with
  | some e => exact .refl _
  | none =>
    cases hlater : (f s.reader).2.failure with
    | none => exact .refl _
    | some e =>
      refine ⟨rfl, ?_⟩
      rw [List.append_nil]
      exact .noteStreamError _ e

theorem tells_rules : StepRules (S := S) (M := M) fun f => (accounting S M).Tells f where
  pure := Accounting.tells_pure
  bind := Accounting.tells_bind
  malformed _ := Accounting.tells_throw rfl
  reading := reading_tells
  consumed s := .ok (.refl s)
  fetchAddress := fetchAddress_tells
  storing := storing_tells

omit [ByteSource S] in
theorem arguments_noteFailure (e : ScanError) (frame : Frame M) :
    (noteFailure e frame).arguments = frame.arguments := by
  cases e <;> simp only [noteFailure, ScanError.faultKind?] <;> split <;> rfl

omit [ByteSource S] in
/-- A call that failed reports at its end what was not reported yet. -/
theorem noteFailure_gains {e : ScanError} (h : e.faultKind?.isSome = true) (frame : Frame M) :
    frame.telemetry.Gains (noteFailure e frame).telemetry (e.faults frame.arguments.level)
      0 e.malformed := by
  cases e with
  | format e =>
    exact (Telemetry.Gains.countMalformed frame.telemetry).trans
      ((frame.note (·.count .formatErrors)).record_gains _)
  | memory e => exact frame.record_gains _
  | argument e => cases h

variable [Memory M]

/-- How the steps of a scan end. -/
def ending (source : S) (text : List Byte) (frame : Frame M) :
    EStateM.Result ScanError (State S M) (Nat × ScanStatus) :=
  run text ⟨.start source, frame.note (·.count .scanCalls)⟩

/-- The read error that a scan met, whether it failed itself or not. -/
def failure? (source : S) (text : List Byte) (frame : Frame M) : Option StreamError :=
  (after (ending source text frame)).reader.failure

theorem ending_told (source : S) (text : List Byte) (frame : Frame M) :
    (accounting S M).Told ⟨.start source, frame⟩ (ending source text frame) := by
  have hstart : Reports (State.mk (.start source) frame)
      ⟨.start source, frame.note (·.count .scanCalls)⟩ [] :=
    .of_frame rfl ⟨rfl, .count _ (by decide) (by decide)⟩
  exact (tells_rules.run text _).behind hstart

/-- What a scanning call reports is the read error that it met and its own error. -/
theorem scan_reported (source : S) (text : List Byte) (frame : Frame M) :
    Reported frame.arguments.level (failure? source text frame) frame.telemetry
      (scan source text frame).2.2.telemetry (scan source text frame).1 := by
  have htold := ending_told source text frame
  unfold scan failure?
  rw [← ending]
  generalize ending source text frame = result at htold
  cases htold with
  | @ok a t hreports =>
    have hcounted : t.frame.telemetry.Gains
        (t.frame.telemetry.countMany .fieldsAssigned a.1) [] 0 0 :=
      .countMany _ _ (by decide) (by decide)
    have hgains := hreports.frame.telemetry.trans hcounted
    rw [List.append_nil, List.append_nil] at hgains
    exact ⟨rfl, hgains⟩
  | @refused cause t hrefuses hreports =>
    show frame.telemetry.Gains t.frame.telemetry
      (_ ++ frame.arguments.level.journaled cause.fault) _ 0
    rw [hrefuses.checked]
    exact hreports.frame.telemetry
  | @failed e t hpending hreports =>
    have hgains := hreports.frame.telemetry
    have hnoted := noteFailure_gains hpending t.frame
    rw [hreports.frame.level_eq] at hnoted
    have hall := hgains.trans hnoted
    rwa [List.append_nil, Nat.zero_add] at hall

/-- A scanning call only moves the arguments on, and does not report a list as ended that
is not. -/
theorem scan_arguments (source : S) (text : List Byte) (frame : Frame M) :
    (scan source text frame).2.2.arguments =
        { frame.arguments with cursor := (scan source text frame).2.2.arguments.cursor } ∧
      ((scan source text frame).1 = .error (.argument .useAfterEnd) →
        frame.arguments.ended = true) := by
  have htold := ending_told source text frame
  unfold scan
  rw [← ending]
  generalize ending source text frame = result at htold
  cases htold with
  | ok hreports => exact ⟨hreports.frame.arguments, nofun⟩
  | @refused cause t hrefuses hreports =>
    dsimp only
    rw [arguments_noteFailure]
    refine ⟨hreports.frame.arguments, fun h => hrefuses.ended ?_⟩
    cases h
    rfl
  | failed hpending hreports =>
    dsimp only
    rw [arguments_noteFailure]
    refine ⟨hreports.frame.arguments, ?_⟩
    rintro ⟨⟩
    cases hpending

omit [Memory M] in
/-- What every read keeps of the reader, every step keeps. -/
theorem keeps_rules {I : Reader S → Prop} (hmoves : ∀ {r u}, Reader.Moves r u → I r → I u) :
    StepRules (S := S) (M := M) fun f => ∀ s, I s.reader → I (after (f s)).reader where
  pure _ _ h := h
  malformed _ _ h := h
  bind := by
    intro α β f g hf hg s h
    have hfirst := hf s h
    show I (after (EStateM.bind f g s)).reader
    unfold EStateM.bind
    generalize f s = result at hfirst
    cases result with
    | ok a t => exact hg a t hfirst
    | error e t => exact hfirst
  reading hf s h := hmoves (hf s.reader) h
  consumed _ h := h
  fetchAddress := by
    intro s h
    unfold fetchAddress
    split <;> exact h
  storing := by
    intro f s h
    unfold storing
    split <;> exact h

end Scan

/-! ### Sources that fail -/

namespace Reader

/-- A text is read without errors. -/
theorem Moves.failure_of_text {r u : Reader TextSource} (hmoves : Moves r u)
    (h : r.failure = none) : u.failure = none := by
  induction hmoves with
  | refl => exact h
  | @get u _ ih =>
    obtain ⟨⟨behind, ahead⟩, consumed, failure⟩ := u
    cases ih
    cases ahead <;> rfl
  | unget b _ ih => exact ih

variable {T : Type} [Transport T]

/-- The error indicator of a stream follows the read error. -/
def Flagged (raised : Bool) (r : Reader (Stream T)) : Prop :=
  r.source.error = (raised || r.failure.any StreamError.raises)

theorem Moves.flagged {raised : Bool} {r u : Reader (Stream T)} (hmoves : Moves r u)
    (h : r.Flagged raised) : u.Flagged raised := by
  induction hmoves with
  | refl => exact h
  | @get u _ ih =>
    obtain ⟨source, consumed, failure | e⟩ := u
    · have hget := source.error_getByte
      have hraised : source.error = raised := ih.trans (Bool.or_false _)
      have hnext : ByteSource.next source = source.getByte := rfl
      unfold Reader.get
      dsimp only
      rw [hnext]
      generalize source.getByte = result at hget
      obtain ⟨e | _ | b, rest⟩ := result
      · rw [← hraised]
        exact hget
      · exact hget.trans ih
      · exact hget.trans ih
    · exact ih
  | unget b _ ih => exact (Stream.error_ungetByte _ b).trans ih

end Reader

/-! ### Calls -/

namespace Scan

variable {M : Type} [Memory M]

theorem failure?_text (source : TextSource) (text : List Byte) (frame : Frame M) :
    failure? source text frame = none :=
  (keeps_rules (I := fun r => r.failure = none) Reader.Moves.failure_of_text).run text _ rfl

variable {T : Type} [Transport T]

/-- Scanning a stream raises the error indicator where it reports a read error. -/
theorem error_scan (stream : Stream T) (text : List Byte) (frame : Frame M) :
    (scan stream text frame).2.1.error =
      (stream.error || (failure? stream text frame).any StreamError.raises) := by
  have hstart : (Reader.start stream).Flagged stream.error := (Bool.or_false _).symm
  have hflagged : (after (ending stream text frame)).reader.Flagged stream.error :=
    (keeps_rules Reader.Moves.flagged).run text _ hstart
  unfold scan
  rw [← ending, failure?]
  generalize ending stream text frame = result at hflagged
  cases result <;> exact hflagged

end Scan

/-- **Every fault is reported once**, by every call and on every list.
A call on a checked list that fails for an argument, its format, the memory or the length of
the output leaves one entry more in the journal, whose text is that of the error; on an
unchecked list it leaves none. A failing stream is counted once just where its error
indicator is raised, so a closed stream is not, and then it leaves one entry in a checked
process, whatever the level of the list. What ends well leaves nothing else. Malformed
formats are counted at either level. -/
theorem faults_reported_once {T M : Type} [Transport T] [Memory M] (text buffer input : List Byte)
    (source : TextSource) (stream : Stream T) (frame : Frame M) :
    let level := frame.arguments.level
    let t := frame.telemetry
    let printed := Print.format text frame
    let printedInto := Print.formatInto buffer text frame
    let printedTo := Print.formatTo stream text frame
    let scanned := Scan.scan source text frame
    let scannedString := Scan.scanString input text frame
    let scannedStream := Scan.scan stream text frame
    let failure := Scan.failure? stream text frame
    Print.Reported level t printed.2.telemetry printed.1 ∧
    Print.Reported level t printedInto.2.2.telemetry printedInto.1 ∧
    Print.Reported level t printedTo.2.2.telemetry printedTo.1 ∧
    printedTo.2.1.error = (stream.error || Print.raisesIndicator printedTo.1) ∧
    Scan.Reported level none t scanned.2.2.telemetry scanned.1 ∧
    Scan.Reported level none t scannedString.2.telemetry scannedString.1 ∧
    Scan.Reported level failure t scannedStream.2.2.telemetry scannedStream.1 ∧
    scannedStream.2.1.error = (stream.error || failure.any StreamError.raises) := by
  intro level t printed printedInto printedTo scanned scannedString scannedStream failure
  have hto := Print.formatTo_reported stream text frame
  have htext (source : TextSource) : Scan.Reported level none t
      (Scan.scan source text frame).2.2.telemetry (Scan.scan source text frame).1 := by
    have hscan := Scan.scan_reported source text frame
    rwa [Scan.failure?_text] at hscan
  exact ⟨Print.format_reported text frame, Print.formatInto_reported buffer text frame, hto.1,
    hto.2, htext source, htext _, Scan.scan_reported stream text frame,
    Scan.error_scan stream text frame⟩

/-- A word ends with a read that fails, and there is no place to store it: both are
reported, in this order. -/
example :
    let file : ScriptedFile :=
      ⟨ascii "ab", 0, ⟨none, none, some 1, none, false, false, false, ⟨.uncategorized, none⟩⟩, 0, 0⟩
    let frame : Frame Arena := ⟨.start .checked [.pointer 0], Arena.empty, .initial⟩
    (Scan.scan (Stream.wrap file .readOnly) (ascii "%s") frame).2.2.telemetry.journal.entries =
      [⟨1, .streamError, "stream", "transport failure: Uncategorized"⟩,
        ⟨2, .memoryError, "scanf", "null pointer dereference"⟩] := by
  decide +kernel

end CheckedFormat
