import CheckedFormat.Proofs.ListHandles
/-! Handles of streams.

`streamRole` says of every call what it does with the streams of the program: it leaves
them, opens one, closes one, flushes all, or works on the one behind the handle that it
names (`Call.Reaches`), and then it is refused where this handle is dead.
`streams_never_confused` says what follows in every run of calls: a handle is issued once,
it is dead for good when its stream was closed, even where closing failed, and a call on a
dead handle does nothing but fail. -/
namespace CheckedFormat
namespace Host

variable {F D : Type} [FileSystem F D]

open Session (OnStream OnList Text null stdin stdout stderr firstStream eof)

/-! ### What calls do with streams -/

/-- The handle of the stream that a call works on. -/
def Request.stream? : Request F → Option Nat
  | .fclose stream | .fgetc stream | .fputc _ stream | .fputs _ stream | .fgets _ _ stream
  | .fread _ _ _ stream | .fwrite _ _ _ stream | .fseek stream _ _ | .ftell stream
  | .rewind stream | .feof stream | .ferror stream | .clearerr stream | .fprintf stream _ _
  | .vfprintf stream _ _ | .fscanf stream _ _ | .vfscanf stream _ _ => some stream
  | .fflush stream => if stream = null then none else some stream
  | .putchar _ | .puts _ | .printf _ _ => some stdout
  | .scanf _ _ => some stdin
  | _ => none

/-- What a call on a stream gives when it fails. -/
def Request.failure : Request F → Reply
  | .fread _ _ _ _ | .fwrite _ _ _ _ => .count 0
  | .feof _ | .ferror _ => .flag false
  | .fgets _ _ _ => .address null
  | .rewind _ | .clearerr _ => .nothing
  | _ => .number (-1)

/-- The array is one, or is empty, and the types of its arguments are known. -/
def ArgumentArray.Sound : ArgumentArray → Prop
  | .null count => count = 0
  | .at arguments => ∀ a ∈ arguments, (ArgumentType.ofTag? a.tag).isSome = true

omit [FileSystem F D] in
theorem ArgumentArray.Sound.exists_slots {arguments : ArgumentArray} (h : arguments.Sound) :
    ∃ slots, arguments.slots? = some slots := by
  cases arguments with
  | null count => exact ⟨[], if_pos h⟩
  | «at» arguments =>
    show ∃ slots, arguments.mapM RawArgument.slot? = some slots
    have hknown : ∀ a ∈ arguments, (ArgumentType.ofTag? a.tag).isSome = true := h
    clear h
    induction arguments with
    | nil => exact ⟨[], rfl⟩
    | cons a rest ih =>
      obtain ⟨hfirst, hrest⟩ := List.forall_mem_cons.1 hknown
      obtain ⟨slots, hslots⟩ := ih hrest
      obtain ⟨type, htype⟩ := Option.isSome_iff_exists.1 hfirst
      refine ⟨⟨type, a.bits⟩ :: slots, ?_⟩
      rw [List.mapM_cons, hslots, RawArgument.slot?, htype]
      rfl

/-- What a call is given besides its stream makes sense: no pointer is null, no size and no
count is zero or overflows, a seek counts from somewhere and not from the start backwards,
the types of arguments are known and a list is live. -/
def Request.Sound (s : Session F D) : Request F → Prop
  | .fputs text _ | .puts text => text.isSome = true
  | .fgets buffer size _ => buffer ≠ null ∧ 0 < size
  | .fread buffer size count _ =>
    buffer ≠ null ∧ 0 < size ∧ 0 < count ∧ size * count ≤ wordMax
  | .fwrite bytes size count _ =>
    bytes.isSome = true ∧ 0 < size ∧ 0 < count ∧ size * count ≤ wordMax
  | .fseek _ offset whence => whence = 0 ∧ 0 ≤ offset ∨ whence = 1 ∨ whence = 2
  | .printf format arguments | .fprintf _ format arguments | .scanf format arguments
  | .fscanf _ format arguments => format.isSome = true ∧ arguments.Sound
  | .vfprintf _ format list | .vfscanf _ format list =>
    format.isSome = true ∧ (s.lists.find? list).isSome = true
  | _ => True

/-- What a call did to the handles of streams. -/
def Exchange.streamTurn (e : Exchange F) : Table.Turn :=
  match e.request, e.answer with
  | .fopen _ _, .handle h => if h = null then .nothing else .issues h
  | .fclose h, _ => .ends h
  | _, _ => .nothing

/-! ### Calls on one stream -/

/-- A call on a dead handle fails and touches no stream, no file and no memory. Where what
else it is given makes sense, the only trace is the error number of a bad descriptor. -/
structure Call.Refuses {α : Type} (c : Call α F D) (handle : Nat) (failed : α)
    (sound : Session F D → Prop) : Prop where
  dead : ∀ s : Session F D, s.streams.find? handle = none →
    ∃ errno telemetry lists, c s = (failed, { s with errno, telemetry, lists })
  refused : ∀ s : Session F D, s.lists.Ordered → s.streams.find? handle = none → sound s →
    c s = (failed, { s with errno := Errno.badDescriptor })

/-- A call works on the stream behind one handle and is refused where it is dead. -/
structure Call.Reaches {α : Type} (c : Call α F D) (handle : Nat) (failed : α)
    (sound : Session F D → Prop) : Prop extends c.Refuses handle failed sound where
  updates : ∀ s : Session F D, (c s).2.streams = s.streams ∨
    ∃ stream, (c s).2.streams = s.streams.update handle stream

omit [FileSystem F D] in
theorem Call.Refuses.map {α β : Type} {c : Call α F D} {handle : Nat} {failed : α}
    {sound : Session F D → Prop} (g : α → β) (hc : c.Refuses handle failed sound) :
    (c.map g).Refuses handle (g failed) sound where
  dead s hdead := by
    obtain ⟨errno, telemetry, lists, heq⟩ := hc.dead s hdead
    refine ⟨errno, telemetry, lists, ?_⟩
    unfold Call.map
    rw [heq]
  refused s hs hdead hsound := by
    unfold Call.map
    rw [hc.refused s hs hdead hsound]

/-- The same of an operation on an argument list. -/
structure Session.OnList.Reaches (f : OnList Int F D) (handle : Nat) : Prop where
  updates : ∀ (list : ArgumentList) (s : Session F D), (f list s).2.2.streams = s.streams ∨
    ∃ stream, (f list s).2.2.streams = s.streams.update handle stream
  refused : ∀ (list : ArgumentList) (s : Session F D), s.streams.find? handle = none →
    f list s = (eof, list, { s with errno := Errno.badDescriptor })

namespace Call.Reaches

open Session

variable {α β : Type} {c : Call α F D} {handle : Nat} {failed : α}
  {sound : Session F D → Prop}

omit [FileSystem F D]

/-- A call is refused for what else it is given before it looks for the stream. -/
theorem fail (errno : Errno) (hsound : ∀ s, ¬sound s) :
    (Session.fail errno failed).Reaches handle failed sound where
  updates _ := .inl rfl
  dead _ _ := ⟨errno, _, _, rfl⟩
  refused s _ _ h := absurd h (hsound s)

theorem withStream {f : OnStream α F D} (hlocal : f.Local) :
    (Session.withStream handle failed f).Reaches handle failed sound where
  updates s := by
    cases hfind : s.streams.find? handle with
    | none =>
      rw [withStream_of_none hfind]
      exact .inl rfl
    | some stream =>
      rw [withStream_of_some hfind]
      dsimp only
      rw [hlocal.streams_eq]
      exact .inr ⟨_, rfl⟩
  dead _ hdead := ⟨_, _, _, withStream_of_none hdead⟩
  refused _ _ hdead _ := withStream_of_none hdead

theorem transfer (ok : α → β) (failed : β)
    (op : Stream (OpenFile F D) → Except StreamError α × Stream (OpenFile F D)) :
    (Session.withStream handle failed (transferring ok failed op)).Reaches handle failed sound :=
  .withStream (transferring_local ok failed op)

theorem delivery (ok : α → β) (failed : β)
    (op : Stream (OpenFile F D) → Except StreamError α × Stream (OpenFile F D)) :
    (Session.withStream handle failed (delivering ok failed op)).Reaches handle failed sound :=
  .withStream (delivering_local ok failed op)

theorem transferBlock {pointer : Option α} {size count : Nat} {f : α → Nat → OnStream Nat F D}
    (hlocal : ∀ a total, (f a total).Local)
    (hsound : ∀ s, sound s →
      pointer.isSome = true ∧ 0 < size ∧ 0 < count ∧ size * count ≤ wordMax) :
    (Session.transferBlock pointer size count handle f).Reaches handle 0 sound := by
  cases hblock : blockSize pointer size count with
  | ok block =>
    have hcall : Session.transferBlock pointer size count handle f =
        Session.withStream handle 0 (f block.1 block.2) := by
      unfold Session.transferBlock
      rw [hblock]
    rw [hcall]
    exact .withStream (hlocal _ _)
  | error errno =>
    have hunsound : ∀ s, ¬sound s := by
      intro s h
      obtain ⟨hpointer, hsize, hcount, hfits⟩ := hsound s h
      obtain ⟨a, rfl⟩ := Option.isSome_iff_exists.1 hpointer
      have hnonzero : ¬size * count = 0 := Nat.ne_of_gt (Nat.mul_pos hsize hcount)
      rw [blockSize, if_neg (Nat.not_lt.2 hfits), if_neg hnonzero] at hblock
      cases hblock
    cases errno with
    | none =>
      have hcall : Session.transferBlock pointer size count handle f = fun s => (0, s) := by
        unfold Session.transferBlock
        rw [hblock]
      rw [hcall]
      exact ⟨⟨fun _ _ => ⟨_, _, _, rfl⟩, fun s _ _ h => absurd h (hunsound s)⟩,
        fun _ => .inl rfl⟩
    | some errno =>
      have hcall : Session.transferBlock pointer size count handle f = Session.fail errno 0 := by
        unfold Session.transferBlock
        rw [hblock]
      rw [hcall]
      exact .fail errno hunsound

theorem withArguments {format : Text} {arguments : ArgumentArray} {f : List Byte → OnList Int F D}
    (hf : ∀ format, (f format).Reaches handle) :
    (Session.withArguments format arguments f).Reaches handle eof
      fun _ => format.isSome = true ∧ arguments.Sound := by
  cases format with
  | none => exact .fail _ fun s h => nomatch h.1
  | some format =>
    cases hslots : arguments.slots? with
    | none =>
      rw [withArguments_of_none hslots]
      refine .fail _ fun s h => ?_
      obtain ⟨slots, hsome⟩ := h.2.exists_slots
      exact nomatch hslots.symm.trans hsome
    | some slots =>
      refine ⟨⟨fun s hdead => ?_, fun s _ hdead _ => ?_⟩, fun s => ?_⟩
      · rw [withArguments_of_some hslots, (hf format).refused _ s hdead]
        exact ⟨_, _, _, rfl⟩
      · rw [withArguments_of_some hslots, (hf format).refused _ s hdead]
      · rw [withArguments_of_some hslots]
        exact (hf format).updates _ s

theorem withFormat {format : Text} {list : Nat} {operation : String}
    {f : List Byte → OnList Int F D}
    (horderly : ∀ format, (f format).Orderly) (hf : ∀ format, (f format).Reaches handle) :
    (Session.withFormat format list operation f).Reaches handle eof
      fun s => format.isSome = true ∧ (s.lists.find? list).isSome = true := by
  cases format with
  | none => exact .fail _ fun s h => nomatch h.1
  | some format =>
    have hcall : Session.withFormat (some format) list operation f =
        withList list operation eof (f format) := rfl
    rw [hcall]
    refine ⟨⟨fun s hdead => ?_, fun s hs hdead hsound => ?_⟩, fun s => ?_⟩
    · cases hfind : s.lists.find? list with
      | none =>
        rw [withList_of_none hfind]
        split <;> exact ⟨_, _, _, rfl⟩
      | some l =>
        rw [withList_of_some (horderly format) hfind, (hf format).refused l s hdead]
        exact ⟨_, _, _, rfl⟩
    · obtain ⟨l, hfind⟩ := Option.isSome_iff_exists.1 hsound.2
      rw [withList_of_some (horderly format) hfind, (hf format).refused l s hdead]
      dsimp only
      rw [Table.update_eq_self hs hfind]
    · cases hfind : s.lists.find? list with
      | none =>
        rw [withList_of_none hfind]
        dsimp only
        split <;> exact .inl rfl
      | some l =>
        rw [withList_of_some (horderly format) hfind]
        exact (hf format).updates l s

end Call.Reaches

namespace Session

omit [FileSystem F D] in
/-- A formatted call that does all it does on its stream. -/
theorem OnList.Reaches.throughStream {f : OnList Int F D} {stream : Nat}
    {op : ArgumentList → OnStream (Int × ArgumentList) F D} (hlocal : ∀ list, (op list).Local)
    (heq : ∀ list s, f list s =
      ((withStream stream (eof, list) (op list) s).1.1,
        (withStream stream (eof, list) (op list) s).1.2,
        (withStream stream (eof, list) (op list) s).2)) : f.Reaches stream where
  updates list s := by
    have hreaches : (withStream stream (eof, list) (op list)).Reaches stream (eof, list)
      fun _ => True := .withStream (hlocal list)
    rw [heq]
    exact hreaches.updates s
  refused list s hdead := by
    rw [heq, withStream_of_none hdead]

theorem printTo_reaches (stream : Nat) (format : List Byte) :
    OnList.Reaches (D := D) (printTo stream format) stream :=
  .throughStream (printing_local format) (printTo_eq stream format)

theorem scanFrom_reaches (stream : Nat) (format : List Byte) :
    OnList.Reaches (D := D) (scanFrom stream format) stream :=
  .throughStream (scanning_local format) (scanFrom_eq stream format)

end Session

/-! ### Calls without a stream -/

/-- A call leaves the streams as they are. -/
def Call.Streamless {α : Type} (c : Call α F D) : Prop :=
  ∀ s : Session F D, (c s).2.streams = s.streams

/-- The same of an operation on an argument list. -/
def Session.OnList.Streamless {α : Type} (f : OnList α F D) : Prop :=
  ∀ (list : ArgumentList) (s : Session F D), (f list s).2.2.streams = s.streams

namespace Call.Streamless

open Session

omit [FileSystem F D]

theorem withArguments (format : Text) (arguments : ArgumentArray)
    {f : List Byte → OnList Int F D} (hf : ∀ format, (f format).Streamless) :
    (Session.withArguments format arguments f).Streamless := by
  intro s
  cases hslots : arguments.slots? with
  | none =>
    rw [withArguments_of_none hslots]
    rfl
  | some slots =>
    cases format with
    | none => rfl
    | some format =>
      rw [withArguments_of_some hslots]
      exact hf format _ s

theorem withList {α : Type} (list : Nat) (operation : String) (failed : α) {f : OnList α F D}
    (hf : f.Streamless) : (Session.withList list operation failed f).Streamless := by
  intro s
  unfold Session.withList
  cases s.lists.find? list with
  | some l => exact hf l s
  | none =>
    dsimp only
    split <;> rfl

end Call.Streamless

namespace Session

section Streamless

omit [FileSystem F D]

theorem printAt_streamless (address : Nat) (shown : List Byte → List Byte) (format : List Byte) :
    OnList.Streamless (F := F) (D := D) (printAt address shown format) := by
  intro list s
  unfold printAt
  obtain ⟨e | output, frame⟩ := Print.format format (s.frame list) <;> rfl

theorem printInto_streamless (buffer size : Nat) (format : List Byte) :
    OnList.Streamless (F := F) (D := D) (printInto buffer size format) := by
  intro list s
  unfold printInto
  split
  · rfl
  · exact printAt_streamless buffer (Print.truncated size) format list s

theorem scanText_streamless (input format : List Byte) :
    OnList.Streamless (F := F) (D := D) (scanText input format) := by
  intro list s
  unfold scanText
  obtain ⟨e | o, frame⟩ := Scan.scanString input format (s.frame list) <;> rfl

theorem nextArgument_streamless (type : ArgumentType) :
    OnList.Streamless (F := F) (D := D) (nextArgument type) := by
  intro list s
  unfold nextArgument
  obtain ⟨e⟩ | ⟨bits, later⟩ := list.next type <;> rfl

theorem copyOf_streamless : OnList.Streamless (F := F) (D := D) copyOf := by
  intro list s
  unfold copyOf
  obtain ⟨e⟩ | ⟨copy⟩ := list.copy <;> rfl

theorem vaStart_streamless (arguments : ArgumentArray) :
    Call.Streamless (F := F) (D := D) (vaStart arguments) := by
  intro s
  unfold vaStart
  cases arguments.list? s.level <;> rfl

theorem vaCopy_streamless (list : Nat) :
    Call.Streamless (F := F) (D := D) (vaCopy list) := by
  intro s
  have hcopied := Call.Streamless.withList list "va_copy" none copyOf_streamless s
  unfold vaCopy
  generalize withList list "va_copy" none copyOf s = result at hcopied
  obtain ⟨_ | copy, rest⟩ := result <;> exact hcopied

theorem vaEnd_streamless (list : Nat) :
    Call.Streamless (F := F) (D := D) (vaEnd list) := by
  intro s
  unfold vaEnd
  cases s.lists.find? list with
  | some l => rfl
  | none =>
    dsimp only
    split <;> rfl

theorem sprintf_streamless (buffer : Nat) (format : Text) (arguments : ArgumentArray) :
    Call.Streamless (F := F) (D := D) (sprintf buffer format arguments) := by
  unfold sprintf
  split
  · exact fun _ => rfl
  · exact .withArguments _ _ fun format => printAt_streamless _ _ format

theorem sscanf_streamless (input format : Text) (arguments : ArgumentArray) :
    Call.Streamless (F := F) (D := D) (sscanf input format arguments) := by
  cases input with
  | none => exact fun _ => rfl
  | some input => exact .withArguments _ _ fun format => scanText_streamless input format

theorem vsnprintf_streamless (buffer size : Nat) (format : Text) (list : Nat) :
    Call.Streamless (F := F) (D := D) (vsnprintf buffer size format list) := by
  cases format with
  | none => exact fun _ => rfl
  | some format => exact .withList _ _ _ (printInto_streamless buffer size format)

end Streamless

/-! ### Opening, closing and flushing -/

/-- A path opens in a mode: the stream that it opens, and the files then. -/
def Opens (s : Session F D) (path mode : Text) (stream : Stream D) (files : F) : Prop :=
  ∃ text flags descriptor, path = some text ∧ mode.bind OpenFlags.parse? = some flags ∧
    FileSystem.openPath s.files text (.ofFlags flags) = (.ok descriptor, files) ∧
    stream = .wrap descriptor flags

/-- A path does not open in a mode, with the reason and the files then. -/
inductive OpensNot (s : Session F D) (path mode : Text) : Errno → F → Prop where
  /-- Without a path or a known mode the system is not asked. -/
  | invalid (h : path = none ∨ mode.bind OpenFlags.parse? = none) :
    OpensNot s path mode Errno.invalidArgument s.files
  /-- The system refuses, and the files are as it leaves them. -/
  | refused {text : List Byte} {flags : OpenFlags} {errno : Errno} {files : F}
    (hpath : path = some text) (hmode : mode.bind OpenFlags.parse? = some flags)
    (hopen : FileSystem.openPath (D := D) s.files text (.ofFlags flags) = (.error errno, files)) :
    OpensNot s path mode errno files

variable {s : Session F D} {path mode : Text}

theorem fopen_of_opens {stream : Stream D} {files : F} (h : s.Opens path mode stream files) :
    fopen path mode s = (s.streams.next,
      { s with files := files, streams := (s.streams.issue stream).2 }) := by
  obtain ⟨text, flags, descriptor, rfl, hmode, hopen, rfl⟩ := h
  unfold fopen
  rw [hmode]
  dsimp only
  rw [hopen]
  rfl

theorem fopen_of_opensNot {errno : Errno} {files : F} (h : s.OpensNot path mode errno files) :
    fopen path mode s = (null, { s with files, errno }) := by
  unfold fopen
  cases h with
  | invalid h =>
    rcases h with rfl | hmode
    · rfl
    · rw [hmode]
      cases path <;> rfl
  | refused hpath hmode hopen =>
    rw [hpath, hmode]
    dsimp only
    rw [hopen]
    rfl

theorem opens_or_opensNot (s : Session F D) (path mode : Text) :
    (∃ stream files, s.Opens path mode stream files) ∨
      ∃ errno files, s.OpensNot path mode errno files := by
  cases path with
  | none => exact .inr ⟨_, _, .invalid (.inl rfl)⟩
  | some text =>
    cases hmode : mode.bind OpenFlags.parse? with
    | none => exact .inr ⟨_, _, .invalid (.inr hmode)⟩
    | some flags =>
      rcases hopen : FileSystem.openPath (D := D) s.files text (.ofFlags flags) with
        ⟨errno | descriptor, files⟩
      · exact .inr ⟨errno, files, .refused rfl hmode hopen⟩
      · exact .inl ⟨_, files, text, flags, descriptor, rfl, hmode, hopen, rfl⟩

/-- Closing takes the stream away, whatever comes of it. -/
theorem fclose_streams (stream : Nat) (s : Session F D) :
    (fclose stream s).2.streams = s.streams.remove stream := by
  have hreaches : Call.Reaches (F := F) (D := D)
    (withStream stream eof (delivering (fun _ => 0) eof Stream.close)) stream eof fun _ => True :=
    .delivery _ _ _
  unfold fclose
  dsimp only
  rcases hreaches.updates s with hsame | ⟨_, hupdate⟩
  · rw [hsame]
  · rw [hupdate, Table.remove_update]

theorem fclose_of_dead {stream : Nat} (hdead : s.streams.find? stream = none) :
    fclose stream s = (eof, { s with errno := Errno.badDescriptor }) := by
  unfold fclose
  rw [withStream_of_none hdead]
  dsimp only
  rw [Table.remove_eq_self hdead]

/-- Flushing opens and closes no stream. -/
theorem flushEach_turned (streams : List Nat) (s : Session F D) :
    s.streams.Turned (flushEach streams s).2.streams .nothing := by
  induction streams generalizing s with
  | nil => exact .nothing rfl rfl
  | cons stream rest ih =>
    have hreaches : Call.Reaches (D := D) (flushOne stream) stream eof fun _ => True :=
      .transfer _ _ _
    have hrest := ih (flushOne stream s).2
    unfold flushEach
    dsimp only
    rcases hreaches.updates s with hsame | ⟨_, hupdate⟩
    · rwa [hsame] at hrest
    · rw [hupdate] at hrest
      exact (Table.turned_update _ _ _).nothing_trans hrest

end Session

/-! ### One call -/

open Session

theorem fputc_reaches (c : Int) (stream : Nat) {sound : Session F D → Prop} :
    (fputc c stream).Reaches stream eof sound := by
  unfold fputc
  exact .transfer _ _ _

/-- What a call does with the streams. -/
inductive StreamRole : Request F → Prop where
  | apart {request : Request F} (named : request.stream? = none)
      (turn : ∀ a, Exchange.streamTurn ⟨request, a⟩ = .nothing)
      (streamless : Call.Streamless (D := D) request.perform) : StreamRole request
  | opening (path mode : Text) : StreamRole (.fopen path mode)
  | closing (stream : Nat) : StreamRole (.fclose stream)
  | flushing : StreamRole (.fflush null)
  | work {request : Request F} {stream : Nat} {α : Type} {answer : α → Reply} {c : Call α F D}
      {failed : α} (named : request.stream? = some stream)
      (turn : ∀ a, Exchange.streamTurn ⟨request, a⟩ = .nothing)
      (perform : request.perform = .map answer c) (failure : request.failure = answer failed)
      (reaches : c.Reaches stream failed fun s => request.Sound s) : StreamRole request

theorem streamRole (request : Request F) : StreamRole (D := D) request := by
  cases request with
  | vaStart arguments => exact .apart rfl (fun _ => rfl) (vaStart_streamless arguments)
  | vaArg list type =>
    exact .apart rfl (fun _ => rfl) (.withList list "va_arg" 0 (nextArgument_streamless type))
  | vaCopy list => exact .apart rfl (fun _ => rfl) (vaCopy_streamless list)
  | vaEnd list => exact .apart rfl (fun _ => rfl) (vaEnd_streamless list)
  | fopen path mode => exact .opening path mode
  | fclose stream => exact .closing stream
  | fflush stream =>
    by_cases hnull : stream = null
    · exact hnull ▸ .flushing
    · have hcall : fflush (D := D) stream = flushOne stream := by
        funext s
        exact if_neg hnull
      refine .work (if_neg hnull) (fun _ => rfl) rfl rfl ?_
      rw [hcall]
      exact .transfer _ _ _
  | fgetc stream => exact .work rfl (fun _ => rfl) rfl rfl (.transfer _ _ _)
  | fputc c stream => exact .work rfl (fun _ => rfl) rfl rfl (fputc_reaches c stream)
  | putchar c => exact .work rfl (fun _ => rfl) rfl rfl (fputc_reaches c stdout)
  | fputs text stream =>
    refine .work rfl (fun _ => rfl) rfl rfl ?_
    unfold fputs
    cases text with
    | none => exact .fail _ fun _ h => nomatch h
    | some text => exact .transfer _ _ _
  | puts text =>
    refine .work rfl (fun _ => rfl) rfl rfl ?_
    unfold puts
    cases text with
    | none => exact .fail _ fun _ h => nomatch h
    | some text => exact .transfer _ _ _
  | fgets buffer size stream =>
    refine .work rfl (fun _ => rfl) rfl rfl ?_
    unfold fgets
    split
    · rename_i hrefused
      exact .fail _ fun _ h => hrefused.elim h.1 (Int.not_le.2 h.2)
    · exact .withStream (readingLine_local buffer size.toNat)
  | fread buffer size count stream =>
    refine .work rfl (fun _ => rfl) rfl rfl ?_
    refine .transferBlock (readingItems_local size) fun s h => ⟨?_, h.2⟩
    rw [if_neg h.1]
    rfl
  | fwrite bytes size count stream =>
    exact .work rfl (fun _ => rfl) rfl rfl (.transferBlock (writingItems_local size) fun _ h => h)
  | fseek stream offset whence =>
    refine .work rfl (fun _ => rfl) rfl rfl ?_
    unfold fseek
    cases htarget : seekTarget? offset whence with
    | none =>
      refine .fail _ fun _ h => ?_
      rcases h with ⟨rfl, hoffset⟩ | rfl | rfl
      · exact nomatch (if_neg (Int.not_lt.2 hoffset)).symm.trans htarget
      · cases htarget
      · cases htarget
    | some target => exact .delivery _ _ _
  | ftell stream => exact .work rfl (fun _ => rfl) rfl rfl (.withStream telling_local)
  | rewind stream =>
    have hperform : Request.perform (D := D) (.rewind stream) =
        .map (fun _ => .nothing) (Session.rewind stream) := rfl
    have hreaches : Call.Reaches (D := D) (Session.rewind stream) stream () fun _ => True :=
      .withStream rewinding_local
    exact .work rfl (fun _ => rfl) hperform rfl hreaches
  | feof stream => exact .work rfl (fun _ => rfl) rfl rfl (.withStream fun _ _ _ _ => rfl)
  | ferror stream => exact .work rfl (fun _ => rfl) rfl rfl (.withStream fun _ _ _ _ => rfl)
  | clearerr stream =>
    have hperform : Request.perform (D := D) (.clearerr stream) =
        .map (fun _ => .nothing) (Session.clearerr stream) := rfl
    have hreaches : Call.Reaches (F := F) (D := D) (Session.clearerr stream) stream ()
        fun _ => True :=
      .withStream fun _ _ _ _ => rfl
    exact .work rfl (fun _ => rfl) hperform rfl hreaches
  | printf format arguments =>
    exact .work rfl (fun _ => rfl) rfl rfl (.withArguments (printTo_reaches stdout))
  | fprintf stream format arguments =>
    exact .work rfl (fun _ => rfl) rfl rfl (.withArguments (printTo_reaches stream))
  | vfprintf stream format list =>
    exact .work rfl (fun _ => rfl)
      rfl rfl (.withFormat (printTo_orderly stream) (printTo_reaches stream))
  | sprintf buffer format arguments =>
    exact .apart rfl (fun _ => rfl) (sprintf_streamless buffer format arguments)
  | snprintf buffer size format arguments =>
    exact .apart rfl (fun _ => rfl)
      (.withArguments format arguments (printInto_streamless buffer size))
  | vsnprintf buffer size format list =>
    exact .apart rfl (fun _ => rfl) (vsnprintf_streamless buffer size format list)
  | scanf format arguments =>
    exact .work rfl (fun _ => rfl) rfl rfl (.withArguments (scanFrom_reaches stdin))
  | fscanf stream format arguments =>
    exact .work rfl (fun _ => rfl) rfl rfl (.withArguments (scanFrom_reaches stream))
  | vfscanf stream format list =>
    exact .work rfl (fun _ => rfl)
      rfl rfl (.withFormat (scanFrom_orderly stream) (scanFrom_reaches stream))
  | sscanf input format arguments =>
    exact .apart rfl (fun _ => rfl) (sscanf_streamless input format arguments)
  | clearErrno => exact .apart rfl (fun _ => rfl) fun _ => rfl
  | meanwhile files memory => exact .apart rfl (fun _ => rfl) fun _ => rfl

/-- What a call does to the streams that is made in a session: it leaves them alone, opens
one, closes one, flushes all, or works on one. -/
inductive StreamHandled (s : Session F D) (request : Request F) (answer : Reply)
    (later : Session F D) : Prop where
  | apart (turn : Exchange.streamTurn ⟨request, answer⟩ = .nothing)
      (streams : later.streams = s.streams)
  | opened {path mode : Text} {stream : Stream D}
      (requested : request = .fopen path mode) (answered : answer = .handle s.streams.next)
      (streams : later.streams = (s.streams.issue stream).2)
  | closed {handle : Nat} (requested : request = .fclose handle)
      (streams : later.streams = s.streams.remove handle)
  | flushed (requested : request = .fflush null)
      (turned : s.streams.Turned later.streams .nothing)
  | worked {handle : Nat} {stream : Stream D} (named : request.stream? = some handle)
      (turn : Exchange.streamTurn ⟨request, answer⟩ = .nothing)
      (streams : later.streams = s.streams.update handle stream)

theorem streamHandled (s : Session F D) (request : Request F) :
    StreamHandled s request (request.perform s).1 (request.perform s).2 := by
  cases streamRole (D := D) request with
  | apart named turn streamless => exact .apart (turn _) (streamless s)
  | opening path mode =>
    rcases s.opens_or_opensNot path mode with ⟨stream, files, hopens⟩ | ⟨errno, files, hnot⟩
    · have hopen := fopen_of_opens hopens
      have hanswer : (Request.perform (.fopen path mode) s).1 = .handle s.streams.next := by
        dsimp only [Request.perform, Call.map]
        rw [hopen]
      have hstreams : (Request.perform (.fopen path mode) s).2.streams =
          (s.streams.issue stream).2 := by
        dsimp only [Request.perform, Call.map]
        rw [hopen]
      exact .opened rfl hanswer hstreams
    · have hfail := fopen_of_opensNot hnot
      refine .apart ?_ ?_
      all_goals
        dsimp only [Request.perform, Call.map]
        rw [hfail]
      rfl
  | closing stream => exact .closed rfl (fclose_streams stream s)
  | flushing => exact .flushed rfl (flushEach_turned _ s)
  | work named turn perform failure reaches =>
    rw [perform]
    rcases reaches.updates s with hsame | ⟨stream, hupdate⟩
    · exact .apart (turn _) hsame
    · exact .worked named (turn _) hupdate

/-- Every call that names a dead handle is refused. -/
theorem request_refuses {request : Request F} {handle : Nat}
    (hnamed : request.stream? = some handle) :
    Call.Refuses (D := D) request.perform handle request.failure fun s => request.Sound s := by
  cases streamRole (D := D) request with
  | apart named =>
    rw [hnamed] at named
    cases named
  | opening path mode => cases hnamed
  | closing stream =>
    cases hnamed
    have hrefuses : Call.Refuses (D := D) (fclose handle) handle eof fun _ => True :=
      ⟨fun _ hdead => ⟨_, _, _, fclose_of_dead hdead⟩,
        fun _ _ hdead _ => fclose_of_dead hdead⟩
    exact hrefuses.map Reply.number
  | flushing => cases hnamed
  | work named turn perform failure reaches =>
    rw [hnamed] at named
    cases named
    rw [perform, failure]
    exact reaches.toRefuses.map _

namespace StreamHandled

variable {s : Session F D} {request : Request F} {answer : Reply} {later : Session F D} {h : Nat}

omit [FileSystem F D]

theorem turned (hnext : s.streams.next ≠ null)
    (hhandled : StreamHandled s request answer later) :
    s.streams.Turned later.streams (Exchange.streamTurn ⟨request, answer⟩) := by
  cases hhandled with
  | apart turn streams =>
    rw [turn, streams]
    exact .nothing rfl rfl
  | opened requested answered streams =>
    rw [requested, answered, streams, Exchange.streamTurn]
    dsimp only
    rw [if_neg hnext]
    exact Table.turned_issue _ _
  | closed requested streams =>
    rw [requested, streams]
    exact Table.turned_remove _ _
  | flushed requested turned =>
    rw [requested]
    exact turned
  | worked named turn streams =>
    rw [turn, streams]
    exact Table.turned_update _ _ _

/-- What a call leaves of a live stream that it does not name. -/
theorem find?_other (hs : s.streams.Ordered) (hhandled : StreamHandled s request answer later)
    (hlive : h ∈ s.streams.handles) (hother : request.stream? ≠ some h)
    (hflush : request ≠ .fflush null) : later.streams.find? h = s.streams.find? h := by
  have hold : h ≠ s.streams.next := Nat.ne_of_lt (hs.below h hlive)
  cases hhandled with
  | apart turn streams => rw [streams]
  | opened requested answered streams => rw [streams, Table.find?_issue hs, if_neg hold]
  | @closed handle requested streams =>
    have hne : h ≠ handle := fun heq => hother (by rw [requested, heq]; rfl)
    rw [streams, Table.find?_remove, if_neg hne]
  | flushed requested => exact absurd requested hflush
  | @worked handle _ named turn streams =>
    have hne : h ≠ handle := fun heq => hother (heq ▸ named)
    rw [streams, Table.find?_update, if_neg hne]

end StreamHandled

/-! ### Runs -/

/-- The handles of the standard streams. -/
def Session.standard : List Nat := [stdin, stdout, stderr]

/-- What calls did to the handles of streams. -/
def streamTurns (events : List (Exchange F)) : List Table.Turn := events.map Exchange.streamTurn

theorem streamsTracked (files : F) (input output errors : D) (level : CheckLevel)
    (requests : List (Request F)) :
    let s := start files input output errors level
    (s.behind requests).streams.Tracks standard firstStream (streamTurns (s.history requests)) := by
  intro s
  induction requests using List.reverseRecOn with
  | nil =>
    have hascending : standard.Pairwise (· < ·) := by decide
    have hbelow : ∀ h ∈ standard, h < firstStream := by decide
    have hordered : s.streams.Ordered := ⟨hascending, hbelow⟩
    exact Table.Tracks.start hordered
  | append_singleton requests request ih =>
    have hnext : (s.behind requests).streams.next ≠ null :=
      Nat.ne_of_gt (Nat.lt_of_lt_of_le (by decide : null < firstStream) ih.first_le)
    rw [behind_concat, history_concat, streamTurns, List.map_append]
    exact ih.concat ((streamHandled _ request).turned hnext)

/-- What a program can rely on that holds its streams by handles, behind the calls that it
made. -/
structure StreamsApart (events : List (Exchange F)) (s : Session F D) : Prop where
  /-- Handles are issued in ascending order, so none is issued twice. -/
  ascending : (Table.issued (streamTurns events)).Pairwise (· < ·)
  /-- None of them is null or the handle of a standard stream. -/
  distinct : ∀ h ∈ Table.issued (streamTurns events), h ≠ null ∧ h ∉ standard
  /-- A handle is live from its issue, or from the start, until its stream is closed. -/
  live_iff : ∀ h, (s.streams.find? h).isSome = true ↔
    h ∈ standard ∧ .ends h ∉ streamTurns events ∨ Table.LiveSince (streamTurns events) h
  /-- What opens gets a handle that was never issued before. -/
  opens : ∀ path mode stream files, s.Opens path mode stream files → ∃ h,
    Request.perform (.fopen path mode) s =
      (.handle h, { s with files := files, streams := (s.streams.issue stream).2 }) ∧
    (s.streams.issue stream).2.find? h = some stream ∧
    h ≠ null ∧ h ∉ standard ∧ h ∉ Table.issued (streamTurns events)
  /-- What does not open gets null and the reason, and no stream is opened. -/
  fails : ∀ path mode errno files, s.OpensNot path mode errno files →
    Request.perform (.fopen path mode) s = (.handle null, { s with files, errno })
  /-- Every path opens in a mode or does not. -/
  decides : ∀ path mode, (∃ stream files, s.Opens path mode stream files) ∨
    ∃ errno files, s.OpensNot path mode errno files
  /-- A call leaves every stream that it does not name, but for one that flushes all. -/
  others : ∀ (request : Request F) h stream, s.streams.find? h = some stream →
    request.stream? ≠ some h → request ≠ .fflush null →
    (request.perform s).2.streams.find? h = some stream
  /-- The handle of a stream is dead behind its closing, even where that failed. -/
  closes : ∀ h, (Request.perform (.fclose h) s).2.streams.find? h = none
  /-- A call on a dead handle fails, without touching files, streams or memory. -/
  dead : ∀ (request : Request F) h, request.stream? = some h → s.streams.find? h = none →
    (request.perform s).1 = request.failure ∧ (request.perform s).2.files = s.files ∧
    (request.perform s).2.streams = s.streams ∧ (request.perform s).2.memory = s.memory
  /-- Where what else it is given makes sense, all that it leaves is the error number of a
  bad descriptor. -/
  refused : ∀ (request : Request F) h, request.stream? = some h → s.streams.find? h = none →
    request.Sound s →
    request.perform s = (request.failure, { s with errno := Errno.badDescriptor })

/-- **Handles of streams are never confused**, in any run of calls of a program, in a
process of either check level, and whatever the system does: what it opens and refuses, and
what the open files do as transports. -/
theorem streams_never_confused (files : F) (input output errors : D) (level : CheckLevel)
    (requests : List (Request F)) :
    let s := start files input output errors level
    StreamsApart (s.history requests) (s.behind requests) := by
  intro s
  have hlists := (listsTracked s rfl requests).settled.ordered
  have htracks := streamsTracked files input output errors level requests
  change (s.behind requests).streams.Tracks standard firstStream
    (streamTurns (s.history requests)) at htracks
  generalize s.history requests = events at htracks
  generalize s.behind requests = now at hlists htracks
  have hdistinct (h : Nat) (hh : firstStream ≤ h) : h ≠ null ∧ h ∉ standard := by
    have hbelow : ∀ k ∈ null :: standard, k < firstStream := by decide
    have hne : h ∉ null :: standard := fun hmem => Nat.not_lt.2 hh (hbelow h hmem)
    rwa [List.mem_cons, not_or] at hne
  exact {
    ascending := htracks.ascending
    distinct := fun h hmem => hdistinct h ((htracks.mem_issued_iff h).1 hmem).1
    live_iff := fun h => by rw [Table.isSome_find?_iff, htracks.live_iff]
    opens := fun path mode stream files hopens => by
      have hnew : now.streams.next ∉ Table.issued (streamTurns events) :=
        fun hmem => Nat.lt_irrefl _ ((htracks.mem_issued_iff _).1 hmem).2
      refine ⟨now.streams.next, ?_, ?_, (hdistinct _ htracks.first_le).1,
        (hdistinct _ htracks.first_le).2, hnew⟩
      · dsimp only [Request.perform, Call.map]
        rw [fopen_of_opens hopens]
      · rw [Table.find?_issue htracks.ordered, if_pos rfl]
    fails := fun path mode errno files hnot => by
      dsimp only [Request.perform, Call.map]
      rw [fopen_of_opensNot hnot]
    decides := now.opens_or_opensNot
    others := fun request h stream hfind hother hflush => by
      rw [(streamHandled now request).find?_other htracks.ordered
        (Table.mem_handles_of_find? hfind) hother hflush, hfind]
    closes := fun h => by
      have hstreams : (Request.perform (.fclose h) now).2.streams = now.streams.remove h :=
        fclose_streams h now
      rw [hstreams, Table.find?_remove, if_pos rfl]
    dead := fun request h hnamed hdead => by
      obtain ⟨errno, telemetry, lists, heq⟩ := (request_refuses hnamed).dead now hdead
      rw [heq]
      exact ⟨rfl, rfl, rfl, rfl⟩
    refused := fun request h hnamed hdead hsound =>
      (request_refuses hnamed).refused now hlists hdead hsound }

end Host

open Host in
/-- A stream is closed, and its handle is used all the same. -/
example :
    let opened := Session.firstStream
    let calls := [.fopen (some (ascii "notes")) (some (ascii "r")), .fgetc opened, .fclose opened,
      .fgetc opened, .fopen (some (ascii "notes")) (some (ascii "r"))]
    let s : Session := .start ⟨[], [], [], [("notes", ascii "ab")], []⟩ (.start .input)
      (.start .output) (.start .errors)
    (s.history calls).map Exchange.answer =
      [.handle opened, .number 97, .number 0, .number (-1), .handle (opened + 1)] ∧
    (s.behind calls).errno = Errno.badDescriptor := by
  decide +kernel

end CheckedFormat
