import CheckedFormat.Host.Formatted
import CheckedFormat.Proofs.FaultReports
import CheckedFormat.Proofs.HandleTable
/-! Calls of a program as data, and what each of them can reach.

A `Request` is a call with its arguments, and a run performs requests one after the other.
Most calls never see the argument lists of the program (`Call.Listless`): they do the same
whatever lists there are. Of the others most work on the one list behind the handle that
they are given, through an operation that only moves it on (`OnList.Orderly`). In the same
way an operation on a stream sees nothing of the tables of its session (`OnStream.Local`). -/
namespace CheckedFormat

/-! ### Faults other than uses after the end -/

/-- From one reading to a later one the process kept its level, and no use after the end
was journaled. -/
structure Telemetry.Quiet (t later : Telemetry) : Prop where
  level : later.level = t.level
  journal : ∃ faults, t.journal.Gains later.journal faults ∧
    ∀ fault ∈ faults, fault.kind ≠ .useAfterEnd

namespace Telemetry.Quiet

variable {t u v : Telemetry}

theorem refl (t : Telemetry) : t.Quiet t := ⟨rfl, [], .refl _, nofun⟩

theorem trans (h : t.Quiet u) (h' : u.Quiet v) : t.Quiet v := by
  obtain ⟨hlevel, faults, hgains, hfaults⟩ := h
  obtain ⟨hlevel', more, hgains', hmore⟩ := h'
  refine ⟨hlevel'.trans hlevel, faults ++ more, hgains.trans hgains', fun fault hmem => ?_⟩
  exact (List.mem_append.1 hmem).elim (hfaults fault) (hmore fault)

/-- What was gained without a use after the end. -/
theorem of_gains {faults : List Fault} {raised malformed : Nat}
    (h : t.Gains u faults raised malformed)
    (hkind : ∀ fault ∈ faults, fault.kind ≠ .useAfterEnd) : t.Quiet u :=
  ⟨h.level, faults, h.journal, hkind⟩

end Telemetry.Quiet

/-- What a list of a level lets into the journal is at most the fault. -/
theorem CheckLevel.eq_of_mem_journaled {level : CheckLevel} {fault other : Fault}
    (h : other ∈ level.journaled fault) : other = fault := by
  cases level with
  | checked => exact List.mem_singleton.1 h
  | unchecked => cases h

theorem ArgumentError.kind_ne {cause : ArgumentError} (h : cause ≠ .useAfterEnd) :
    cause.kind ≠ .useAfterEnd := by
  cases cause with
  | useAfterEnd => exact absurd rfl h
  | _ => nofun

theorem StreamError.kind_of_mem_faults {process : CheckLevel} {e : StreamError} {fault : Fault}
    (h : fault ∈ e.faults process) : fault.kind = .streamError := by
  unfold faults at h
  split at h
  · rw [CheckLevel.eq_of_mem_journaled h]
  · cases h

theorem Telemetry.Quiet.noteStreamError (t : Telemetry) (e : StreamError) :
    t.Quiet (t.noteStreamError e) :=
  .of_gains (.noteStreamError t e) fun _ hmem => by simp [StreamError.kind_of_mem_faults hmem]

/-- A printing call that does not fail for an ended list reports no use after the end. -/
theorem Print.Reported.quiet {α : Type} {level : CheckLevel} {t later : Telemetry}
    {result : Except PrintError α} (h : Print.Reported level t later result)
    (hended : result ≠ .error (.argument .useAfterEnd)) : t.Quiet later := by
  obtain ⟨e⟩ | ⟨a⟩ := result
  · refine .of_gains h fun fault hmem => ?_
    cases e with
    | stream e => simp [StreamError.kind_of_mem_faults hmem]
    | argument cause =>
      rw [CheckLevel.eq_of_mem_journaled hmem]
      exact ArgumentError.kind_ne fun heq => hended (heq ▸ rfl)
    | _ => simp [CheckLevel.eq_of_mem_journaled hmem]
  · exact .of_gains h nofun

/-- A scanning call that does not fail for an ended list reports no use after the end. -/
theorem Scan.Reported.quiet {level : CheckLevel} {failure : Option StreamError}
    {t later : Telemetry} {result : Except ScanError ScanOutcome}
    (h : Scan.Reported level failure t later result)
    (hended : result ≠ .error (.argument .useAfterEnd)) : t.Quiet later := by
  have hread : ∀ fault ∈ Scan.readFaults t.level failure, fault.kind ≠ .useAfterEnd := by
    intro fault hmem
    cases failure with
    | none => cases hmem
    | some e => simp [StreamError.kind_of_mem_faults hmem]
  obtain ⟨e⟩ | ⟨o⟩ := result
  · refine .of_gains h fun fault hmem => ?_
    rcases List.mem_append.1 hmem with hmem | hmem
    · exact hread fault hmem
    · cases e with
      | argument cause =>
        rw [CheckLevel.eq_of_mem_journaled hmem]
        exact ArgumentError.kind_ne fun heq => hended (heq ▸ rfl)
      | _ => simp [CheckLevel.eq_of_mem_journaled hmem]
  · exact .of_gains h.2 hread

namespace Host

variable {F D : Type} [FileSystem F D]

open Session (Text OnStream OnList)

/-! ### Requests -/

/-- A call of a program. -/
inductive Request (F : Type) where
  | vaStart (arguments : ArgumentArray)
  | vaArg (list : Nat) (type : ArgumentType)
  | vaCopy (list : Nat)
  | vaEnd (list : Nat)
  | fopen (path mode : Text)
  | fclose (stream : Nat)
  | fflush (stream : Nat)
  | fgetc (stream : Nat)
  | fputc (c : Int) (stream : Nat)
  | putchar (c : Int)
  | fputs (text : Text) (stream : Nat)
  | puts (text : Text)
  | fgets (buffer : Nat) (size : Int) (stream : Nat)
  | fread (buffer size count stream : Nat)
  | fwrite (bytes : Text) (size count stream : Nat)
  | fseek (stream : Nat) (offset whence : Int)
  | ftell (stream : Nat)
  | rewind (stream : Nat)
  | feof (stream : Nat)
  | ferror (stream : Nat)
  | clearerr (stream : Nat)
  | printf (format : Text) (arguments : ArgumentArray)
  | fprintf (stream : Nat) (format : Text) (arguments : ArgumentArray)
  | vfprintf (stream : Nat) (format : Text) (list : Nat)
  | sprintf (buffer : Nat) (format : Text) (arguments : ArgumentArray)
  | snprintf (buffer size : Nat) (format : Text) (arguments : ArgumentArray)
  | vsnprintf (buffer size : Nat) (format : Text) (list : Nat)
  | scanf (format : Text) (arguments : ArgumentArray)
  | fscanf (stream : Nat) (format : Text) (arguments : ArgumentArray)
  | vfscanf (stream : Nat) (format : Text) (list : Nat)
  | sscanf (input format : Text) (arguments : ArgumentArray)
  | clearErrno
  /-- Between calls a program works on its memory, and anybody on the files. -/
  | meanwhile (files : F) (memory : AddressSpace)

/-- What a call gives back. -/
inductive Reply where
  | nothing
  | handle (h : Nat)
  | bits (w : Word)
  | number (n : Int)
  | count (n : Nat)
  | address (a : Nat)
  | flag (b : Bool)
  deriving DecidableEq, Repr

/-- The call with another form of its result. -/
def Call.map {α β : Type} (f : α → β) (c : Call α F D) : Call β F D := fun s =>
  (f (c s).1, (c s).2)

/-- Other files and other memory, and all else as it is. -/
def Session.meanwhile (files : F) (memory : AddressSpace) : Call Unit F D := fun s =>
  ((), { s with files, memory })

open Session in
/-- Performs a call in a session. -/
def Request.perform : Request F → Call Reply F D
  | .vaStart arguments => .map .handle (Session.vaStart arguments)
  | .vaArg list type => .map .bits (Session.vaArg list type)
  | .vaCopy list => .map .handle (Session.vaCopy list)
  | .vaEnd list => .map (fun _ => .nothing) (Session.vaEnd list)
  | .fopen path mode => .map .handle (Session.fopen path mode)
  | .fclose stream => .map .number (Session.fclose stream)
  | .fflush stream => .map .number (Session.fflush stream)
  | .fgetc stream => .map .number (Session.fgetc stream)
  | .fputc c stream => .map .number (Session.fputc c stream)
  | .putchar c => .map .number (Session.putchar c)
  | .fputs text stream => .map .number (Session.fputs text stream)
  | .puts text => .map .number (Session.puts text)
  | .fgets buffer size stream => .map .address (Session.fgets buffer size stream)
  | .fread buffer size count stream => .map .count (Session.fread buffer size count stream)
  | .fwrite bytes size count stream => .map .count (Session.fwrite bytes size count stream)
  | .fseek stream offset whence => .map .number (Session.fseek stream offset whence)
  | .ftell stream => .map .number (Session.ftell stream)
  | .rewind stream => .map (fun _ => .nothing) (Session.rewind stream)
  | .feof stream => .map .flag (Session.feof stream)
  | .ferror stream => .map .flag (Session.ferror stream)
  | .clearerr stream => .map (fun _ => .nothing) (Session.clearerr stream)
  | .printf format arguments => .map .number (Session.printf format arguments)
  | .fprintf stream format arguments => .map .number (Session.fprintf stream format arguments)
  | .vfprintf stream format list => .map .number (Session.vfprintf stream format list)
  | .sprintf buffer format arguments => .map .number (Session.sprintf buffer format arguments)
  | .snprintf buffer size format arguments =>
    .map .number (Session.snprintf buffer size format arguments)
  | .vsnprintf buffer size format list =>
    .map .number (Session.vsnprintf buffer size format list)
  | .scanf format arguments => .map .number (Session.scanf format arguments)
  | .fscanf stream format arguments => .map .number (Session.fscanf stream format arguments)
  | .vfscanf stream format list => .map .number (Session.vfscanf stream format list)
  | .sscanf input format arguments => .map .number (Session.sscanf input format arguments)
  | .clearErrno => .map (fun _ => .nothing) Session.clearErrno
  | .meanwhile files memory => .map (fun _ => .nothing) (Session.meanwhile files memory)

/-- A call and what it gave. -/
structure Exchange (F : Type) where
  request : Request F
  answer : Reply

namespace Session

/-- What calls give, one after the other. -/
def history (s : Session F D) : List (Request F) → List (Exchange F)
  | [] => []
  | request :: rest => ⟨request, (request.perform s).1⟩ :: history (request.perform s).2 rest

/-- The session behind calls. -/
def behind (s : Session F D) (requests : List (Request F)) : Session F D :=
  requests.foldl (fun s request => (request.perform s).2) s

theorem behind_concat (s : Session F D) (requests : List (Request F)) (request : Request F) :
    s.behind (requests ++ [request]) = (request.perform (s.behind requests)).2 :=
  List.foldl_append

theorem history_concat (s : Session F D) (requests : List (Request F)) (request : Request F) :
    s.history (requests ++ [request]) =
      s.history requests ++ [⟨request, (request.perform (s.behind requests)).1⟩] := by
  induction requests generalizing s with
  | nil => rfl
  | cons first rest ih => exact congrArg _ (ih _)

end Session

/-! ### Operations on streams -/

namespace Session

section Streams

variable {α β : Type}

/-- An operation on a stream sees nothing of the tables of its session, and it leaves
them. -/
def OnStream.Local (f : OnStream α F D) : Prop :=
  ∀ (stream : Stream (OpenFile F D)) (s : Session F D) streams lists,
    f stream { s with streams, lists } =
      ((f stream s).1, (f stream s).2.1, { (f stream s).2.2 with streams, lists })

/-- An operation on a stream reports no use after the end. -/
def OnStream.Quiet (f : OnStream α F D) : Prop :=
  ∀ (stream : Stream (OpenFile F D)) (s : Session F D),
    s.telemetry.Quiet (f stream s).2.2.telemetry

omit [FileSystem F D]

theorem delivering_local (ok : α → β) (failed : β)
    (op : Stream (OpenFile F D) → Except StreamError α × Stream (OpenFile F D)) :
    (delivering ok failed op).Local := by
  intro stream s streams lists
  unfold delivering
  obtain ⟨e | a, rest⟩ := op stream <;> rfl

theorem delivering_quiet (ok : α → β) (failed : β)
    (op : Stream (OpenFile F D) → Except StreamError α × Stream (OpenFile F D)) :
    (delivering ok failed op).Quiet := by
  intro stream s
  unfold delivering
  obtain ⟨e | a, rest⟩ := op stream <;> exact .refl _

theorem transferring_local (ok : α → β) (failed : β)
    (op : Stream (OpenFile F D) → Except StreamError α × Stream (OpenFile F D)) :
    (transferring ok failed op).Local := by
  intro stream s streams lists
  unfold transferring
  obtain ⟨e | a, rest⟩ := op stream <;> rfl

theorem transferring_quiet (ok : α → β) (failed : β)
    (op : Stream (OpenFile F D) → Except StreamError α × Stream (OpenFile F D)) :
    (transferring ok failed op).Quiet := by
  intro stream s
  unfold transferring
  obtain ⟨e | a, rest⟩ := op stream
  · exact .noteStreamError _ e
  · exact .refl _

theorem afterTransfer_quiet (s : Session F D) (failure : Option StreamError) :
    s.telemetry.Quiet (s.afterTransfer failure).telemetry := by
  unfold afterTransfer
  cases failure with
  | none => exact .refl _
  | some e => exact .noteStreamError _ e

end Streams

/-! ### Reading, writing and moving as operations on streams -/

/-- Reading a line into a buffer. -/
def readingLine (buffer size : Nat) : OnStream Nat F D := fun stream s =>
  let (line, stream) := stream.getLine size
  let s := s.store buffer line.stored
  match line.length with
  | .ok (some _) => (buffer, stream, s)
  | .ok none => (null, stream, s)
  | .error e => (null, stream, { s with errno := e.errno }.note (·.noteStreamError e))

/-- Reading items into a buffer. -/
def readingItems (size buffer total : Nat) : OnStream Nat F D := fun stream s =>
  let (items, delivery, stream) := stream.readItems total size
  (items, stream, (s.store buffer delivery.bytes).afterTransfer delivery.failure)

/-- Writing items. -/
def writingItems (size : Nat) (bytes : List Byte) (total : Nat) : OnStream Nat F D :=
  fun stream s =>
    let (items, failure, stream) := stream.writeItems (bytes.take total) size
    (items, stream, s.afterTransfer failure)

/-- Telling the position. -/
def telling : OnStream Int F D := fun stream s =>
  match stream.tell with
  | (.ok offset, stream) =>
    if longMax < offset then (-1, stream, { s with errno := Errno.overflow })
    else (offset, stream, s)
  | (.error e, stream) => (-1, stream, { s with errno := e.errno })

/-- Going back to the start. -/
def rewinding : OnStream Unit F D := fun stream s =>
  match stream.rewind with
  | (none, stream) => ((), stream, s)
  | (some e, stream) => ((), stream, { s with errno := e.errno })

theorem readingLine_local (buffer size : Nat) :
    OnStream.Local (D := D) (readingLine buffer size) := by
  intro source s streams lists
  unfold readingLine
  generalize source.getLine size = result
  obtain ⟨⟨e | _ | n, stored⟩, rest⟩ := result <;> rfl

theorem readingLine_quiet (buffer size : Nat) :
    OnStream.Quiet (D := D) (readingLine buffer size) := by
  intro source s
  unfold readingLine
  generalize source.getLine size = result
  obtain ⟨⟨e | _ | n, stored⟩, rest⟩ := result
  · exact .noteStreamError _ e
  · exact .refl _
  · exact .refl _

theorem readingItems_local (size buffer total : Nat) :
    OnStream.Local (D := D) (readingItems size buffer total) := by
  intro source s streams lists
  unfold readingItems
  generalize source.readItems total size = result
  obtain ⟨items, ⟨bytes, failure⟩, rest⟩ := result
  cases failure <;> rfl

theorem readingItems_quiet (size buffer total : Nat) :
    OnStream.Quiet (D := D) (readingItems size buffer total) := fun source s =>
  afterTransfer_quiet (s.store buffer (source.readItems total size).2.1.bytes) _

theorem writingItems_local (size : Nat) (bytes : List Byte) (total : Nat) :
    OnStream.Local (D := D) (writingItems size bytes total) := by
  intro source s streams lists
  unfold writingItems
  generalize source.writeItems (bytes.take total) size = result
  obtain ⟨items, failure, rest⟩ := result
  cases failure <;> rfl

theorem writingItems_quiet (size : Nat) (bytes : List Byte) (total : Nat) :
    OnStream.Quiet (D := D) (writingItems size bytes total) := fun _ s => afterTransfer_quiet s _

theorem telling_local : OnStream.Local (D := D) telling := by
  intro source s streams lists
  unfold telling
  obtain ⟨e | offset, rest⟩ := source.tell
  · rfl
  · by_cases hlarge : longMax < offset <;> simp only [hlarge, if_true, if_false]

theorem telling_quiet : OnStream.Quiet (D := D) telling := by
  intro source s
  unfold telling
  obtain ⟨e | offset, rest⟩ := source.tell
  · exact .refl _
  · by_cases hlarge : longMax < offset <;> simp only [hlarge, if_true, if_false] <;> exact .refl _

theorem rewinding_local : OnStream.Local (D := D) rewinding := by
  intro source s streams lists
  unfold rewinding
  generalize source.rewind = result
  obtain ⟨_ | e, rest⟩ := result <;> rfl

theorem rewinding_quiet : OnStream.Quiet (D := D) rewinding := by
  intro source s
  unfold rewinding
  generalize source.rewind = result
  obtain ⟨_ | e, rest⟩ := result <;> exact .refl _

/-! ### Formatted calls as operations on streams -/

/-- Printing to a stream. -/
def printing (format : List Byte) (list : ArgumentList) : OnStream (Int × ArgumentList) F D :=
  fun stream s =>
    match Print.formatTo stream format (s.frame list) with
    | (.ok n, stream, frame) => (((n : Int), frame.arguments), stream, s.after frame)
    | (.error e, stream, frame) =>
      ((eof, frame.arguments), stream, { s.after frame with errno := e.errno })

/-- Scanning a stream. -/
def scanning (format : List Byte) (list : ArgumentList) : OnStream (Int × ArgumentList) F D :=
  fun stream s =>
    let (result, stream, frame) := Scan.scan stream format (s.frame list)
    let (value, s) := scanResult result (s.after frame)
    ((value, frame.arguments), stream, s)

variable {format : List Byte} {list : ArgumentList}

theorem printTo_eq (stream : Nat) (format : List Byte) (list : ArgumentList) (s : Session F D) :
    printTo stream format list s =
      ((withStream stream (eof, list) (printing format list) s).1.1,
        (withStream stream (eof, list) (printing format list) s).1.2,
        (withStream stream (eof, list) (printing format list) s).2) := rfl

theorem scanFrom_eq (stream : Nat) (format : List Byte) (list : ArgumentList) (s : Session F D) :
    scanFrom stream format list s =
      ((withStream stream (eof, list) (scanning format list) s).1.1,
        (withStream stream (eof, list) (scanning format list) s).1.2,
        (withStream stream (eof, list) (scanning format list) s).2) := rfl

theorem printing_local (format : List Byte) (list : ArgumentList) :
    OnStream.Local (D := D) (printing format list) := by
  intro stream s streams lists
  show (match Print.formatTo stream format (s.frame list) with
    | (.ok n, stream, frame) => _
    | (.error e, stream, frame) => _) = _
  unfold printing
  obtain ⟨e | n, rest, frame⟩ := Print.formatTo stream format (s.frame list) <;> rfl

theorem scanning_local (format : List Byte) (list : ArgumentList) :
    OnStream.Local (D := D) (scanning format list) := by
  intro stream s streams lists
  have hframe : ({ s with streams, lists } : Session F D).frame list = s.frame list := rfl
  unfold scanning
  rw [hframe]
  obtain ⟨e | o, rest, frame⟩ := Scan.scan stream format (s.frame list) <;> rfl

theorem printing_quiet (hopen : list.ended = false) :
    OnStream.Quiet (D := D) (printing format list) := by
  intro stream s
  have hreported := (Print.formatTo_reported stream format (s.frame list)).1
  have hended := (Print.formatTo_arguments stream format (s.frame list)).2
  have hquiet := hreported.quiet fun h => Bool.noConfusion (hopen.symm.trans (hended h))
  unfold printing
  generalize Print.formatTo stream format (s.frame list) = result at hquiet
  obtain ⟨e | n, rest, frame⟩ := result <;> exact hquiet

theorem scanning_quiet (hopen : list.ended = false) :
    OnStream.Quiet (D := D) (scanning format list) := by
  intro stream s
  have hreported := Scan.scan_reported stream format (s.frame list)
  have hended := (Scan.scan_arguments stream format (s.frame list)).2
  have hquiet := hreported.quiet fun h => Bool.noConfusion (hopen.symm.trans (hended h))
  unfold scanning
  generalize Scan.scan stream format (s.frame list) = result at hquiet
  obtain ⟨e | o, rest, frame⟩ := result <;> exact hquiet

/-- Printing to a stream only moves the arguments on. -/
theorem printing_moves (stream : Stream (OpenFile F D)) (s : Session F D) :
    (printing format list stream s).1.2 =
      { list with cursor := (printing format list stream s).1.2.cursor } := by
  have hmoves := (Print.formatTo_arguments stream format (s.frame list)).1
  unfold printing
  generalize Print.formatTo stream format (s.frame list) = result at hmoves
  obtain ⟨e | n, rest, frame⟩ := result <;> exact hmoves

theorem scanning_moves (stream : Stream (OpenFile F D)) (s : Session F D) :
    (scanning format list stream s).1.2 =
      { list with cursor := (scanning format list stream s).1.2.cursor } := by
  have hmoves := (Scan.scan_arguments stream format (s.frame list)).1
  unfold scanning
  generalize Scan.scan stream format (s.frame list) = result at hmoves
  obtain ⟨e | o, rest, frame⟩ := result <;> exact hmoves

/-! ### Calls on a stream -/

section OnAStream

variable {α β : Type} {s : Session F D} {handle : Nat} {failed : α} {f : OnStream α F D}

omit [FileSystem F D] in
/-- A dead handle: the call fails, and only the error number shows it. -/
theorem withStream_of_none (h : s.streams.find? handle = none) :
    withStream handle failed f s = (failed, { s with errno := Errno.badDescriptor }) := by
  unfold withStream
  rw [h]
  rfl

omit [FileSystem F D] in
theorem withStream_of_some {stream : Stream D}
    (h : s.streams.find? handle = some stream) :
    withStream handle failed f s =
      let result := f (stream.withTransport ⟨stream.transport, s.files⟩) s
      (result.1, { result.2.2 with
        files := result.2.1.transport.files
        streams := result.2.2.streams.update handle
          (result.2.1.withTransport result.2.1.transport.descriptor) }) := by
  unfold withStream
  rw [h]

omit [FileSystem F D] in
theorem OnStream.Local.streams_eq (hlocal : f.Local) (stream : Stream (OpenFile F D))
    (s : Session F D) : (f stream s).2.2.streams = s.streams :=
  congrArg (·.2.2.streams) (hlocal stream s s.streams s.lists)

omit [FileSystem F D] in
/-- A call on a stream sees nothing of the lists and leaves them. -/
theorem withStream_lists (hlocal : f.Local) (s : Session F D) (lists : Table ArgumentList) :
    withStream handle failed f { s with lists } =
      ((withStream handle failed f s).1, { (withStream handle failed f s).2 with lists }) := by
  have hsame : ({ s with lists } : Session F D).streams = s.streams := rfl
  cases hfind : s.streams.find? handle with
  | none => rw [withStream_of_none (hsame ▸ hfind), withStream_of_none hfind]
  | some stream =>
    have hapart := hlocal (stream.withTransport ⟨stream.transport, s.files⟩) s s.streams lists
    rw [withStream_of_some (hsame ▸ hfind), withStream_of_some hfind]
    dsimp only
    rw [hapart, hlocal.streams_eq]

omit [FileSystem F D] in
theorem withStream_quiet (hquiet : f.Quiet) (s : Session F D) :
    s.telemetry.Quiet (withStream handle failed f s).2.telemetry := by
  cases hfind : s.streams.find? handle with
  | none =>
    rw [withStream_of_none hfind]
    exact .refl _
  | some stream =>
    rw [withStream_of_some hfind]
    exact hquiet _ s

end OnAStream

/-! ### Operations on argument lists -/

/-- An operation on an argument list sees nothing of the table of lists and leaves it; it
only moves its list on, and does not report as ended a list that is not. -/
structure OnList.Orderly {α : Type} (f : OnList α F D) : Prop where
  apart : ∀ (list : ArgumentList) (s : Session F D) lists, f list { s with lists } =
    ((f list s).1, (f list s).2.1, { (f list s).2.2 with lists })
  moves : ∀ (list : ArgumentList) (s : Session F D),
    (f list s).2.1 = { list with cursor := (f list s).2.1.cursor }
  quiet : ∀ (list : ArgumentList) (s : Session F D), list.ended = false →
    s.telemetry.Quiet (f list s).2.2.telemetry

theorem printTo_orderly (stream : Nat) (format : List Byte) :
    OnList.Orderly (D := D) (printTo stream format) where
  apart list s lists := by
    rw [printTo_eq, printTo_eq, withStream_lists (printing_local format list)]
  moves list s := by
    rw [printTo_eq]
    cases hfind : s.streams.find? stream with
    | none => rw [withStream_of_none hfind]
    | some source =>
      rw [withStream_of_some hfind]
      exact printing_moves _ s
  quiet list s hopen := withStream_quiet (printing_quiet hopen) s

theorem scanFrom_orderly (stream : Nat) (format : List Byte) :
    OnList.Orderly (D := D) (scanFrom stream format) where
  apart list s lists := by
    rw [scanFrom_eq, scanFrom_eq, withStream_lists (scanning_local format list)]
  moves list s := by
    rw [scanFrom_eq]
    cases hfind : s.streams.find? stream with
    | none => rw [withStream_of_none hfind]
    | some source =>
      rw [withStream_of_some hfind]
      exact scanning_moves _ s
  quiet list s hopen := withStream_quiet (scanning_quiet hopen) s

section Memory
omit [FileSystem F D]

theorem printAt_orderly (address : Nat) (shown : List Byte → List Byte) (format : List Byte) :
    OnList.Orderly (F := F) (D := D) (printAt address shown format) where
  apart list s lists := by
    have hframe : ({ s with lists } : Session F D).frame list = s.frame list := rfl
    unfold printAt
    rw [hframe]
    obtain ⟨e | output, frame⟩ := Print.format format (s.frame list) <;> rfl
  moves list s := by
    have hmoves := (Print.format_arguments format (s.frame list)).1
    unfold printAt
    generalize Print.format format (s.frame list) = result at hmoves
    obtain ⟨e | output, frame⟩ := result <;> exact hmoves
  quiet list s hopen := by
    have hreported := Print.format_reported format (s.frame list)
    have hended := (Print.format_arguments format (s.frame list)).2
    have hquiet := hreported.quiet fun h => Bool.noConfusion (hopen.symm.trans (hended h))
    unfold printAt
    generalize Print.format format (s.frame list) = result at hquiet
    obtain ⟨e | output, frame⟩ := result <;> exact hquiet

theorem printInto_orderly (buffer size : Nat) (format : List Byte) :
    OnList.Orderly (F := F) (D := D) (printInto buffer size format) := by
  have hprint : OnList.Orderly (F := F) (D := D) _ :=
    printAt_orderly buffer (Print.truncated size) format
  refine ⟨fun list s lists => ?_, fun list s => ?_, fun list s hopen => ?_⟩
  all_goals
    unfold printInto
    split
  · rfl
  · exact hprint.apart list s lists
  · rfl
  · exact hprint.moves list s
  · exact .refl _
  · exact hprint.quiet list s hopen

theorem scanText_orderly (input format : List Byte) :
    OnList.Orderly (F := F) (D := D) (scanText input format) where
  apart list s lists := by
    have hframe : ({ s with lists } : Session F D).frame list = s.frame list := rfl
    unfold scanText
    rw [hframe]
    obtain ⟨e | o, frame⟩ := Scan.scanString input format (s.frame list) <;> rfl
  moves list s := by
    have hmoves := (Scan.scan_arguments (TextSource.mk (upToNul input)) format (s.frame list)).1
    unfold scanText Scan.scanString
    generalize Scan.scan (TextSource.mk (upToNul input)) format (s.frame list) = result at hmoves
    obtain ⟨e | o, rest, frame⟩ := result <;> exact hmoves
  quiet list s hopen := by
    have hreported := Scan.scan_reported (TextSource.mk (upToNul input)) format (s.frame list)
    have hended := (Scan.scan_arguments (TextSource.mk (upToNul input)) format (s.frame list)).2
    have hquiet := hreported.quiet fun h => Bool.noConfusion (hopen.symm.trans (hended h))
    unfold scanText Scan.scanString
    generalize Scan.scan (TextSource.mk (upToNul input)) format (s.frame list) = result at hquiet
    obtain ⟨e | o, rest, frame⟩ := result <;> exact hquiet

/-- Reading the next argument. -/
def nextArgument (type : ArgumentType) : OnList Word F D := fun arguments s =>
  let s := s.note (arguments.observe type)
  match arguments.next type with
  | .ok (bits, arguments) => (bits, arguments, s)
  | .error _ => (0, arguments, { s with errno := Errno.invalidArgument })

theorem nextArgument_orderly (type : ArgumentType) :
    OnList.Orderly (F := F) (D := D) (nextArgument type) where
  apart list s lists := by
    unfold nextArgument
    obtain ⟨e⟩ | ⟨bits, later⟩ := list.next type <;> rfl
  moves list s := by
    unfold nextArgument
    rcases list.next_cases type with ⟨e, hnext⟩ | hnext
    · rw [hnext]
    · rw [hnext]
      rfl
  quiet list s hopen := by
    have hobserve := list.observe_next type s.telemetry
    unfold nextArgument
    rcases hobserve with ⟨hnext, hgains⟩ | ⟨cause, hnext, hrefuses, hgains⟩
    · rw [hnext]
      exact .of_gains hgains nofun
    · rw [hnext]
      refine .of_gains hgains fun fault hmem => ?_
      rw [List.mem_singleton.1 hmem]
      exact ArgumentError.kind_ne fun heq =>
        Bool.noConfusion (hopen.symm.trans (hrefuses.ended heq))

end Memory

/-! ### Calls on a list -/

section OnAList

variable {α : Type} {s : Session F D} {list : Nat} {operation : String} {failed : α}
  {f : OnList α F D}

omit [FileSystem F D] in
theorem OnList.Orderly.lists_eq (hf : f.Orderly) (arguments : ArgumentList) (s : Session F D) :
    (f arguments s).2.2.lists = s.lists :=
  congrArg (·.2.2.lists) (hf.apart arguments s s.lists)

omit [FileSystem F D] in
/-- A live handle: the operation works on the list behind it. -/
theorem withList_of_some (hf : f.Orderly) {arguments : ArgumentList}
    (h : s.lists.find? list = some arguments) :
    withList list operation failed f s =
      ((f arguments s).1,
        { (f arguments s).2.2 with lists := s.lists.update list (f arguments s).2.1 }) := by
  unfold withList
  rw [h]
  dsimp only
  rw [hf.lists_eq]

omit [FileSystem F D] in
/-- A handle that is not live: the call fails, and reports the handle if it was issued. -/
theorem withList_of_none (h : s.lists.find? list = none) :
    withList list operation failed f s =
      (failed, { (if s.wasIssued list then noteStaleList list operation s else s) with
        errno := Errno.invalidArgument }) := by
  unfold withList
  rw [h]
  rfl

end OnAList

section OnArguments
omit [FileSystem F D]

variable {arguments : ArgumentArray} {f : List Byte → OnList Int F D}

/-- A well-formed array: the call works on a list over it. -/
theorem withArguments_of_some {slots : List Slot} (h : arguments.slots? = some slots)
    (format : List Byte) (s : Session F D) :
    withArguments (some format) arguments f s =
      ((f format (.start s.level slots) s).1, (f format (.start s.level slots) s).2.2) := by
  unfold withArguments ArgumentArray.list?
  rw [h]
  rfl

theorem withArguments_of_none (h : arguments.slots? = none) (format : Text) :
    withArguments format arguments f = fail Errno.invalidArgument eof := by
  unfold withArguments ArgumentArray.list?
  rw [h]
  cases format <;> rfl

end OnArguments
end Session

/-! ### Calls that do without lists -/

/-- A call sees nothing of the argument lists and leaves them, and it reports no use of one
after its end. -/
structure Call.Listless {α : Type} (c : Call α F D) : Prop where
  apart : ∀ (s : Session F D) lists, c { s with lists } = ((c s).1, { (c s).2 with lists })
  quiet : ∀ s : Session F D, s.telemetry.Quiet (c s).2.telemetry

namespace Call.Listless

open Session

variable {α β : Type} {c : Call α F D}

omit [FileSystem F D]

theorem lists_eq (hc : c.Listless) (s : Session F D) : (c s).2.lists = s.lists :=
  congrArg (·.2.lists) (hc.apart s s.lists)

theorem fail (errno : Errno) (a : α) :
    Call.Listless (F := F) (D := D) (Session.fail errno a) :=
  ⟨fun _ _ => rfl, fun _ => .refl _⟩

theorem withStream {handle : Nat} {failed : α} {f : OnStream α F D} (hlocal : f.Local)
    (hquiet : f.Quiet) : (Session.withStream handle failed f).Listless :=
  ⟨withStream_lists hlocal, withStream_quiet hquiet⟩

theorem transfer {handle : Nat} {failed : β} (ok : α → β)
    (op : Stream (OpenFile F D) → Except StreamError α × Stream (OpenFile F D)) :
    (Session.withStream handle failed (transferring ok failed op)).Listless :=
  .withStream (transferring_local ok failed op) (transferring_quiet ok failed op)

theorem delivery {handle : Nat} {failed : β} (ok : α → β)
    (op : Stream (OpenFile F D) → Except StreamError α × Stream (OpenFile F D)) :
    (Session.withStream handle failed (delivering ok failed op)).Listless :=
  .withStream (delivering_local ok failed op) (delivering_quiet ok failed op)

/-- The direct form of a formatted call works on a list of its own. -/
theorem withArguments (format : Text) (arguments : ArgumentArray)
    {f : List Byte → OnList Int F D} (hf : ∀ format, (f format).Orderly) :
    (Session.withArguments format arguments f).Listless := by
  cases format with
  | none => exact .fail _ _
  | some format =>
    cases hslots : arguments.slots? with
    | none =>
      rw [withArguments_of_none hslots]
      exact .fail _ _
    | some slots =>
      refine ⟨fun s lists => ?_, fun s => ?_⟩
      · have hlevel : ({ s with lists } : Session F D).level = s.level := rfl
        rw [withArguments_of_some hslots, withArguments_of_some hslots, hlevel, (hf format).apart]
      · rw [withArguments_of_some hslots]
        exact (hf format).quiet _ s rfl

/-- A block that cannot be transferred is refused before the stream is looked up. -/
theorem transferBlock {pointer : Option α} {size count handle : Nat}
    {f : α → Nat → OnStream Nat F D} (hlocal : ∀ a total, (f a total).Local)
    (hquiet : ∀ a total, (f a total).Quiet) :
    (Session.transferBlock pointer size count handle f).Listless := by
  unfold Session.transferBlock
  cases blockSize pointer size count with
  | error errno =>
    cases errno with
    | none => exact ⟨fun _ _ => rfl, fun _ => .refl _⟩
    | some errno => exact .fail _ _
  | ok block => exact .withStream (hlocal _ _) (hquiet _ _)

end Call.Listless

namespace Session

section Calls

omit [FileSystem F D] in
theorem clearErrno_listless :
    Call.Listless (F := F) (D := D) clearErrno := ⟨fun _ _ => rfl, fun _ => .refl _⟩

omit [FileSystem F D] in
theorem meanwhile_listless (files : F) (memory : AddressSpace) :
    Call.Listless (D := D) (meanwhile files memory) := ⟨fun _ _ => rfl, fun _ => .refl _⟩

theorem fopen_listless (path mode : Text) : Call.Listless (D := D) (fopen path mode) := by
  unfold fopen
  cases path with
  | none => exact .fail _ _
  | some path =>
    cases mode.bind OpenFlags.parse? with
    | none => exact .fail _ _
    | some flags =>
      refine ⟨fun s lists => ?_, fun s => ?_⟩
      all_goals
        dsimp only
        rcases FileSystem.openPath s.files path (.ofFlags flags) with ⟨e | descriptor, files⟩
      · rfl
      · rfl
      · exact .refl _
      · exact .refl _

theorem fclose_listless (stream : Nat) : Call.Listless (D := D) (fclose stream) := by
  have hclose : Call.Listless (F := F) (D := D)
      (withStream stream eof (delivering (fun _ => 0) eof Stream.close)) := .delivery _ _
  refine ⟨fun s lists => ?_, hclose.quiet⟩
  unfold fclose
  rw [hclose.apart]

theorem flushOne_listless (stream : Nat) : Call.Listless (D := D) (flushOne stream) := .transfer _ _

theorem flushEach_listless (streams : List Nat) : Call.Listless (D := D) (flushEach streams) := by
  induction streams with
  | nil => exact ⟨fun _ _ => rfl, fun _ => .refl _⟩
  | cons stream rest ih =>
    have hfirst : Call.Listless (D := D) (flushOne stream) := flushOne_listless stream
    refine ⟨fun s lists => ?_, fun s => (hfirst.quiet s).trans (ih.quiet _)⟩
    unfold flushEach
    rw [hfirst.apart]
    dsimp only
    rw [ih.apart]

theorem fflush_listless (stream : Nat) : Call.Listless (D := D) (fflush stream) := by
  refine ⟨fun s lists => ?_, fun s => ?_⟩
  all_goals
    unfold fflush
    split
  · exact (flushEach_listless _).apart s lists
  · exact (flushOne_listless _).apart s lists
  · exact (flushEach_listless _).quiet s
  · exact (flushOne_listless _).quiet s

theorem fgetc_listless (stream : Nat) : Call.Listless (D := D) (fgetc stream) := .transfer _ _

theorem fputc_listless (c : Int) (stream : Nat) : Call.Listless (D := D) (fputc c stream) := by
  unfold fputc
  exact .transfer _ _

theorem fputs_listless (text : Text) (stream : Nat) :
    Call.Listless (D := D) (fputs text stream) := by
  cases text with
  | none => exact .fail _ _
  | some text =>
    unfold fputs
    exact .transfer _ _

theorem puts_listless (text : Text) : Call.Listless (D := D) (puts text) := by
  cases text with
  | none => exact .fail _ _
  | some text =>
    unfold puts
    exact .transfer _ _

theorem fgets_listless (buffer : Nat) (size : Int) (stream : Nat) :
    Call.Listless (D := D) (fgets buffer size stream) := by
  unfold fgets
  split
  · exact .fail _ _
  · exact .withStream (readingLine_local buffer size.toNat) (readingLine_quiet buffer size.toNat)

theorem fread_listless (buffer size count stream : Nat) :
    Call.Listless (D := D) (fread buffer size count stream) :=
  .transferBlock (readingItems_local size) (readingItems_quiet size)

theorem fwrite_listless (bytes : Text) (size count stream : Nat) :
    Call.Listless (D := D) (fwrite bytes size count stream) :=
  .transferBlock (writingItems_local size) (writingItems_quiet size)

theorem fseek_listless (stream : Nat) (offset whence : Int) :
    Call.Listless (D := D) (fseek stream offset whence) := by
  unfold fseek
  cases seekTarget? offset whence with
  | none => exact .fail _ _
  | some target => exact .delivery _ _

theorem rewind_listless (stream : Nat) : Call.Listless (D := D) (rewind stream) :=
  .withStream rewinding_local rewinding_quiet

theorem ftell_listless (stream : Nat) : Call.Listless (D := D) (ftell stream) :=
  .withStream telling_local telling_quiet

omit [FileSystem F D] in
theorem feof_listless (stream : Nat) : Call.Listless (F := F) (D := D) (feof stream) :=
  .withStream (fun _ _ _ _ => rfl) fun _ _ => .refl _

omit [FileSystem F D] in
theorem ferror_listless (stream : Nat) : Call.Listless (F := F) (D := D) (ferror stream) :=
  .withStream (fun _ _ _ _ => rfl) fun _ _ => .refl _

omit [FileSystem F D] in
theorem clearerr_listless (stream : Nat) : Call.Listless (F := F) (D := D) (clearerr stream) :=
  .withStream (fun _ _ _ _ => rfl) fun _ _ => .refl _

theorem fprintf_listless (stream : Nat) (format : Text) (arguments : ArgumentArray) :
    Call.Listless (D := D) (fprintf stream format arguments) :=
  .withArguments _ _ fun format => printTo_orderly stream format

omit [FileSystem F D] in
theorem snprintf_listless (buffer size : Nat) (format : Text) (arguments : ArgumentArray) :
    Call.Listless (F := F) (D := D) (snprintf buffer size format arguments) :=
  .withArguments _ _ fun format => printInto_orderly buffer size format

theorem fscanf_listless (stream : Nat) (format : Text) (arguments : ArgumentArray) :
    Call.Listless (D := D) (fscanf stream format arguments) :=
  .withArguments _ _ fun format => scanFrom_orderly stream format

omit [FileSystem F D] in
theorem sprintf_listless (buffer : Nat) (format : Text) (arguments : ArgumentArray) :
    Call.Listless (F := F) (D := D) (sprintf buffer format arguments) := by
  unfold sprintf
  split
  · exact .fail _ _
  · exact .withArguments _ _ fun format => printAt_orderly _ _ format

omit [FileSystem F D] in
theorem sscanf_listless (input format : Text) (arguments : ArgumentArray) :
    Call.Listless (F := F) (D := D) (sscanf input format arguments) := by
  cases input with
  | none => exact .fail _ _
  | some input => exact .withArguments _ _ fun format => scanText_orderly input format

end Calls
end Session
end Host
end CheckedFormat
