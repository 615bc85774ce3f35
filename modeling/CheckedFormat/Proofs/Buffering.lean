import CheckedFormat.Proofs.PlainFile
/-! A stream over a file in memory behaves as a file without a buffer.

The transport of a stream runs ahead of the position that the stream's user sees: by
the bytes of the buffer, and by those pushed back in front of them. `Presents` says
how much, and that the buffer is what the store holds there. Each operation keeps
this and answers as the plain file does (`presents_of_operation`), so whole runs
agree (`stream_is_plain_file`). -/
namespace CheckedFormat
open SeekTarget (furthest)

/-! ### Reading a plain file -/

namespace PlainFile

@[simp] theorem past_zero (f : PlainFile) : f.past 0 false = f := by
  simp [past]

theorem past_past (f : PlainFile) (count : Nat) (short : Bool) :
    (f.past 1 false).past count short = f.past (count + 1) short := by
  simp [past, Nat.add_assoc, Nat.add_comm 1]

theorem ahead_past_one {f : PlainFile} {b : Byte} {rest : List Byte} (h : f.ahead = b :: rest) :
    (f.past 1 false).ahead = rest := by
  unfold ahead at h ⊢
  cases hpushed : f.pushed with
  | cons c pushed =>
    rw [hpushed] at h
    obtain ⟨rfl, rfl⟩ := List.cons.inj h
    simp [past, hpushed, Nat.add_assoc, Nat.add_comm 1]
  | nil =>
    rw [hpushed] at h
    have htail := congrArg List.tail h
    simpa [past, hpushed] using htail

theorem refused_of_closed {f : PlainFile} (h : f.closed = true) : f.refused = f := by
  cases f
  simp_all [refused]

/-! ### Writing over a store -/

theorem writeAt_eq_overwrite (data : List Byte) (offset : Nat) (bytes : List Byte) :
    writeAt data offset bytes = overwrite data offset bytes := by
  induction offset generalizing data with
  | zero => simp [writeAt, overwrite, overlay]
  | succ offset ih =>
    cases data with
    | nil => simp [writeAt, ih, overwrite, List.replicate_succ]
    | cons b data => simp [writeAt, ih, overwrite, Nat.add_right_comm]

theorem length_overwrite (data : List Byte) (offset : Nat) (bytes : List Byte) :
    (overwrite data offset bytes).length = max data.length (offset + bytes.length) := by
  simp only [overwrite, List.length_append, List.length_take, List.length_replicate,
    List.length_drop]
  omega

theorem le_length_overwrite (data : List Byte) (offset : Nat) (bytes : List Byte) :
    offset + bytes.length ≤ (overwrite data offset bytes).length := by
  rw [length_overwrite]
  exact Nat.le_max_right _ _

end PlainFile

namespace Stream

/-- Where the buffer of an open stream stands: it is what the store holds behind the
pushed bytes, and the transport stands at its end. -/
structure Placed (s : Stream MemoryFile) (f : PlainFile) : Prop where
  pushed : s.pushback = f.pushed
  buffer : s.buffer <+: f.data.drop (f.position + f.pushed.length)
  position : s.transport.position = f.position + s.unread.length
  bounded : s.transport.position ≤ furthest

/-- The stream shows its user this plain file. -/
structure Presents (s : Stream MemoryFile) (f : PlainFile) : Prop where
  data : s.transport.data = f.data
  append : s.transport.append = f.append
  readable : s.flags.readable = f.readable
  writable : s.flags.writable = f.writable
  eof : s.eof = f.eof
  error : s.error = f.error
  closed : s.closed = f.closed
  placed : f.closed = false → Placed s f

theorem Placed.ahead {s : Stream MemoryFile} {f : PlainFile} (h : Placed s f)
    (hdata : s.transport.data = f.data) :
    f.ahead = s.unread ++ s.transport.data.drop s.transport.position := by
  obtain ⟨rest, hrest⟩ := h.buffer
  have hposition := h.position
  unfold Stream.unread at hposition ⊢
  rw [List.length_append, h.pushed] at hposition
  have hbehind : f.data.drop s.transport.position = rest := by
    rw [hposition, ← Nat.add_assoc, ← List.drop_drop, ← hrest, List.drop_left]
  rw [hdata, hbehind, PlainFile.ahead, ← hrest, h.pushed, List.append_assoc]

/-! ### Reading -/

section Reading
variable {s : Stream MemoryFile} {f : PlainFile}

/-- A file that refuses to be read: a closed one does not change, an open one raises
the error indicator. -/
theorem getByte_refused {e : StreamError} (h : Presents s f) (hrefused : f.readRefusal? = some e) :
    ∃ t, s.getByte = (.error e, t) ∧ Presents t f.refused := by
  unfold PlainFile.readRefusal? at hrefused
  unfold getByte
  rw [h.closed, h.readable]
  cases hclosed : f.closed with
  | true =>
    rw [hclosed] at hrefused
    cases hrefused
    refine ⟨s, rfl, ?_⟩
    rw [PlainFile.refused_of_closed hclosed]
    exact h
  | false =>
    cases hreadable : f.readable with
    | true => simp [hclosed, hreadable] at hrefused
    | false =>
      simp only [hclosed, hreadable, Bool.false_eq_true, if_false] at hrefused
      cases hrefused
      refine ⟨s.raiseError, rfl, { h with error := ?_, placed := fun hopen => ?_ }⟩
      · simp [PlainFile.refused, hclosed, Stream.raiseError]
      · obtain ⟨hpushed, hbuffer, hposition, hbounded⟩ := h.placed hopen
        exact ⟨hpushed, hbuffer, hposition, hbounded⟩

theorem opened_of_readRefusal (hopen : f.readRefusal? = none) :
    f.closed = false ∧ f.readable = true := by
  unfold PlainFile.readRefusal? at hopen
  split at hopen
  · cases hopen
  · split at hopen
    · simp_all
    · cases hopen

theorem getByte_end (h : Presents s f) (hopen : f.readRefusal? = none) (hahead : f.ahead = []) :
    ∃ t, s.getByte = (.ok none, t) ∧ Presents t (f.past 0 true) := by
  obtain ⟨hclosed, hreadable⟩ := opened_of_readRefusal hopen
  have hplaced := h.placed hclosed
  rw [hplaced.ahead h.data, List.append_eq_nil_iff] at hahead
  obtain ⟨hunread, hbehind⟩ := hahead
  obtain ⟨hpushback, hbuffer⟩ := List.append_eq_nil_iff.1 hunread
  have hread : Transport.read s.transport bufferSize = (.ok [], s.transport) := by
    show (Except.ok ((s.transport.data.drop s.transport.position).take bufferSize), _) = _
    simp [MemoryFile.readUpTo, hbehind]
  refine ⟨{ s with eof := true }, ?_, { h with eof := ?_, placed := fun _ => ?_ }⟩
  · simp [getByte, h.closed, h.readable, hclosed, hreadable, hpushback, hbuffer, hread]
  · simp [PlainFile.past]
  · obtain ⟨hpushed, hbuffer, hposition, hbounded⟩ := hplaced
    exact ⟨hpushed, hbuffer, hposition, hbounded⟩

theorem eof_past (h : Presents s f) : s.eof = (f.past 1 false).eof := by
  simp [PlainFile.past, h.eof]

theorem getByte_pushed {b : Byte} {pushback : List Byte} (h : Presents s f)
    (hopen : f.readRefusal? = none) (hpushback : s.pushback = b :: pushback) :
    ∃ t, s.getByte = (.ok (some b), t) ∧ Presents t (f.past 1 false) := by
  obtain ⟨hclosed, hreadable⟩ := opened_of_readRefusal hopen
  have heof := eof_past h
  obtain ⟨hpushed, hprefix, hposition, hbounded⟩ := h.placed hclosed
  rw [unread, hpushback] at hposition
  rw [hpushback] at hpushed
  refine ⟨{ s with pushback }, ?_,
    { h with eof := heof, placed := fun _ => ⟨?_, ?_, ?_, hbounded⟩ }⟩
  · simp [getByte, h.closed, h.readable, hclosed, hreadable, hpushback]
  · simp [PlainFile.past, ← hpushed]
  · simpa [PlainFile.past, ← hpushed, Nat.add_assoc, Nat.add_comm 1] using hprefix
  · simp only [unread, PlainFile.past, List.length_append, List.length_cons,
      List.cons_append] at hposition ⊢
    omega

theorem getByte_buffered {b : Byte} {buffer : List Byte} (h : Presents s f)
    (hopen : f.readRefusal? = none) (hpushback : s.pushback = []) (hbuffer : s.buffer = b :: buffer) :
    ∃ t, s.getByte = (.ok (some b), t) ∧ Presents t (f.past 1 false) := by
  obtain ⟨hclosed, hreadable⟩ := opened_of_readRefusal hopen
  have heof := eof_past h
  obtain ⟨hpushed, hprefix, hposition, hbounded⟩ := h.placed hclosed
  rw [unread, hpushback, hbuffer] at hposition
  rw [hpushback] at hpushed
  refine ⟨{ s with buffer }, ?_,
    { h with eof := heof, placed := fun _ => ⟨?_, ?_, ?_, hbounded⟩ }⟩
  · simp [getByte, h.closed, h.readable, hclosed, hreadable, hpushback, hbuffer]
  · simp [PlainFile.past, ← hpushed, hpushback]
  · rw [hbuffer, ← hpushed] at hprefix
    obtain ⟨later, hlater⟩ := hprefix
    refine ⟨later, ?_⟩
    have htail := congrArg List.tail hlater
    simpa [PlainFile.past, ← hpushed] using htail
  · simp only [unread, PlainFile.past, hpushback, List.nil_append, List.length_cons]
      at hposition ⊢
    omega

/-- An empty buffer is filled from the store, which holds the next byte at the
position. -/
theorem getByte_refilled {b : Byte} {rest : List Byte} (h : Presents s f)
    (hfits : f.data.length ≤ furthest) (hopen : f.readRefusal? = none)
    (hpushback : s.pushback = []) (hbuffer : s.buffer = [])
    (hstore : s.transport.data.drop s.transport.position = b :: rest) :
    ∃ t, s.getByte = (.ok (some b), t) ∧ Presents t (f.past 1 false) := by
  obtain ⟨hclosed, hreadable⟩ := opened_of_readRefusal hopen
  have heof := eof_past h
  obtain ⟨hpushed, _, hposition, _⟩ := h.placed hclosed
  rw [unread, hpushback, hbuffer] at hposition
  replace hposition : s.transport.position = f.position := hposition
  rw [hpushback] at hpushed
  have hread : s.transport.readUpTo bufferSize = b :: rest.take (bufferSize - 1) := by
    rw [MemoryFile.readUpTo, hstore]
    rfl
  have hlength := congrArg List.length hstore
  rw [List.length_drop, List.length_cons, h.data] at hlength
  refine ⟨{ s with
    transport := { s.transport with
      position := s.transport.position + (rest.take (bufferSize - 1)).length + 1 }
    buffer := rest.take (bufferSize - 1) }, ?_,
    { h with eof := heof, placed := fun _ => ⟨?_, ?_, ?_, ?_⟩ }⟩
  · have hstep : Transport.read s.transport bufferSize =
        (.ok (s.transport.readUpTo bufferSize), { s.transport with
          position := s.transport.position + (s.transport.readUpTo bufferSize).length }) := rfl
    rw [hread] at hstep
    simp [getByte, h.closed, h.readable, hclosed, hreadable, hpushback, hbuffer, hstep,
      Nat.add_assoc]
  · simp [PlainFile.past, ← hpushed, hpushback]
  · have htail := congrArg List.tail hstore
    rw [h.data, hposition, List.tail_drop] at htail
    show rest.take (bufferSize - 1) <+: _
    simp only [PlainFile.past, ← hpushed, List.drop_nil, List.length_nil, Nat.add_zero]
    rw [htail]
    exact List.take_prefix _ _
  · simp only [unread, PlainFile.past, hpushback, List.nil_append]
    omega
  · show s.transport.position + (rest.take (bufferSize - 1)).length + 1 ≤ furthest
    rw [List.length_take]
    omega

/-- The next byte is the plain file's, whether it was pushed back, lies in the buffer
or is still in the store. -/
theorem getByte_next {b : Byte} {rest : List Byte} (h : Presents s f)
    (hfits : f.data.length ≤ furthest) (hopen : f.readRefusal? = none)
    (hahead : f.ahead = b :: rest) :
    ∃ t, s.getByte = (.ok (some b), t) ∧ Presents t (f.past 1 false) := by
  have hall := (h.placed (opened_of_readRefusal hopen).1).ahead h.data
  rw [hahead, unread] at hall
  cases hpushback : s.pushback with
  | cons c pushback =>
    rw [hpushback] at hall
    obtain ⟨rfl, _⟩ := List.cons.inj hall
    exact getByte_pushed h hopen hpushback
  | nil =>
    cases hbuffer : s.buffer with
    | cons c buffer =>
      rw [hpushback, hbuffer] at hall
      obtain ⟨rfl, _⟩ := List.cons.inj hall
      exact getByte_buffered h hopen hpushback hbuffer
    | nil =>
      rw [hpushback, hbuffer] at hall
      exact getByte_refilled h hfits hopen hpushback hbuffer hall.symm

theorem takeUntil_refused (last : Byte → Bool) {limit : Nat} {e : StreamError} (h : Presents s f)
    (hlimit : limit ≠ 0) (hrefused : f.readRefusal? = some e) :
    ∃ t, takeUntil last limit s = (⟨[], some e⟩, t) ∧ Presents t f.refused := by
  obtain ⟨t, hget, hpresents⟩ := getByte_refused h hrefused
  cases limit with
  | zero => exact absurd rfl hlimit
  | succ limit =>
    refine ⟨t, ?_, hpresents⟩
    rw [takeUntil, hget]

theorem takeUntil_opened (last : Byte → Bool) (limit : Nat) (h : Presents s f)
    (hfits : f.data.length ≤ furthest) (hopen : f.readRefusal? = none) :
    ∃ t, takeUntil last limit s = (⟨through last (f.ahead.take limit), none⟩, t) ∧
      Presents t (f.past (through last (f.ahead.take limit)).length
        ((through last (f.ahead.take limit)).length < limit &&
          !(through last (f.ahead.take limit)).any last)) := by
  induction limit generalizing s f with
  | zero => exact ⟨s, rfl, by simpa [through] using h⟩
  | succ limit ih =>
    cases hahead : f.ahead with
    | nil =>
      obtain ⟨t, hget, hpresents⟩ := getByte_end h hopen hahead
      refine ⟨t, by rw [takeUntil, hget]; rfl, ?_⟩
      simpa [through] using hpresents
    | cons b rest =>
      obtain ⟨t, hget, hpresents⟩ := getByte_next h hfits hopen hahead
      cases hlast : last b with
      | true =>
        refine ⟨t, ?_, ?_⟩
        · simp [takeUntil, hget, hlast, through]
        · simpa [through, hlast] using hpresents
      | false =>
        have hopen' : (f.past 1 false).readRefusal? = none := hopen
        obtain ⟨u, htake, hleft⟩ := ih hpresents hfits hopen'
        rw [PlainFile.ahead_past_one hahead] at htake hleft
        rw [PlainFile.past_past] at hleft
        refine ⟨u, ?_, ?_⟩
        · simp [takeUntil, hget, hlast, through, htake]
        · simpa [through, hlast] using hleft

/-- Reading delivers what the plain file delivers. -/
theorem presents_of_takeUntil (last : Byte → Bool) (limit : Nat) (h : Presents s f)
    (hfits : f.data.length ≤ furthest) :
    ∃ t, takeUntil last limit s = ((f.readThrough last limit).1, t) ∧
      Presents t (f.readThrough last limit).2 := by
  unfold PlainFile.readThrough
  split
  · rename_i hzero
    subst hzero
    exact ⟨s, rfl, h⟩
  · rename_i hlimit
    cases hrefused : f.readRefusal? with
    | some e => exact takeUntil_refused last h hlimit hrefused
    | none => exact takeUntil_opened last limit h hfits hrefused

end Reading

/-! ### Writing and moving -/

section Writing
variable {s : Stream MemoryFile} {f : PlainFile}

/-- Nothing is unread, and the transport stands where the plain file does. -/
theorem Placed.of_empty (hpushback : s.pushback = []) (hbuffer : s.buffer = [])
    (hpushed : f.pushed = []) (hposition : s.transport.position = f.position)
    (hbounded : f.position ≤ furthest) : Placed s f := by
  refine ⟨hpushback.trans hpushed.symm, ?_, ?_, hposition ▸ hbounded⟩
  · rw [hbuffer]
    exact List.nil_prefix
  · simp [unread, hpushback, hbuffer, hposition]

/-- Stepping back puts the transport where the plain file is. -/
theorem stepBack_of_placed (h : Placed s f) :
    s.stepBack = (.ok (),
      { s with transport := { s.transport with position := f.position } }.dropUnread) := by
  have hposition := h.position
  have hbounded := h.bounded
  unfold stepBack
  cases hunread : s.unread with
  | nil =>
    obtain ⟨hpushback, hbuffer⟩ := List.append_eq_nil_iff.1 hunread
    rw [hunread, List.length_nil, Nat.add_zero] at hposition
    have hsame : { s with transport := { s.transport with position := f.position } }.dropUnread =
        s := by
      obtain ⟨⟨data, position, append⟩, flags, eof, error, pushback, buffer, closed⟩ := s
      simp_all [dropUnread]
    rw [hsame]
    rfl
  | cons b rest =>
    rw [hunread, List.length_cons] at hposition
    have hresolve : (SeekTarget.current (-(rest.length + 1 : Nat))).resolve? s.transport.position
        s.transport.data.length = some f.position := by
      unfold SeekTarget.resolve?
      dsimp only
      rw [if_neg (by omega)]
      congr 1
      omega
    have hseek : Transport.seek s.transport (.current (-(rest.length + 1 : Nat))) =
        (.ok f.position, { s.transport with position := f.position }) := by
      show MemoryFile.seek s.transport _ = _
      rw [MemoryFile.seek, hresolve]
    rw [List.isEmpty_cons, if_neg (by simp), List.length_cons, hseek]

/-- A file in memory takes all bytes at once. -/
theorem send_eq (file : MemoryFile) (bytes : List Byte) :
    send file bytes = (bytes.length, none, if bytes.isEmpty then file else file.write bytes) := by
  cases bytes with
  | nil => rw [send]; rfl
  | cons b rest =>
    have hwrite : Transport.write file (b :: rest) =
        (.ok (rest.length + 1), file.write (b :: rest)) := rfl
    rw [send, hwrite]
    simp [send]

theorem presents_of_writePartial (bytes : List Byte) (h : Presents s f)
    (hafter : (f.writePartial bytes).2.2.data.length ≤ furthest) :
    ∃ t, s.writePartial bytes = ((f.writePartial bytes).1, (f.writePartial bytes).2.1, t) ∧
      Presents t (f.writePartial bytes).2.2 := by
  unfold writePartial
  unfold PlainFile.writePartial at hafter ⊢
  rw [h.closed, h.writable]
  cases hclosed : f.closed with
  | true => exact ⟨s, rfl, h⟩
  | false =>
    have hplaced := h.placed hclosed
    cases hwritable : f.writable with
    | false =>
      refine ⟨s.raiseError, rfl, { h with error := ?_, placed := fun _ => ?_ }⟩
      · simp [PlainFile.refused, hclosed, raiseError]
      · obtain ⟨hpushed, hbuffer, hposition, hbounded⟩ := hplaced
        exact ⟨hpushed, hbuffer, hposition, hbounded⟩
    | true =>
      rw [stepBack_of_placed hplaced, dropUnread]
      simp only [hclosed, hwritable, if_true, Bool.false_eq_true, if_false] at hafter ⊢
      rw [send_eq]
      refine ⟨_, rfl, ?_⟩
      cases bytes with
      | nil =>
        have hposition := hplaced.position
        have hbounded := hplaced.bounded
        exact { h with placed := fun _ => .of_empty rfl rfl rfl rfl (by
          show f.position ≤ furthest
          omega) }
      | cons b rest =>
        refine { h with data := ?_, placed := fun _ => .of_empty rfl rfl rfl ?_ ?_ }
        · simp [MemoryFile.write, PlainFile.store, PlainFile.writeAt_eq_overwrite, h.data, h.append]
        · simp [MemoryFile.write, PlainFile.store, h.data, h.append]
        · exact Nat.le_trans (PlainFile.le_length_overwrite _ _ _) hafter

/-- What the buffer puts the transport ahead is taken off a relative target. -/
theorem resolve_correct (target : SeekTarget) (h : Presents s f) (hplaced : Placed s f) :
    (s.correct target).resolve? s.transport.position s.transport.data.length =
      f.offset? target := by
  have hposition := hplaced.position
  rw [h.data]
  cases target with
  | current delta =>
    have hoffset : (s.transport.position : Int) + (delta - s.unread.length) = f.position + delta := by
      omega
    unfold correct SeekTarget.resolve? PlainFile.offset?
    dsimp only
    rw [hoffset]
  | _ => rfl

theorem offset_le {target : SeekTarget} {offset : Nat} (h : f.offset? target = some offset) :
    offset ≤ furthest := by
  unfold PlainFile.offset? at h
  cases target with
  | start _ | current _ | fromEnd _ =>
    dsimp only at h
    split at h
    · cases h
    · obtain rfl := Option.some.inj h
      exact Nat.min_le_right _ _

theorem presents_of_seek (target : SeekTarget) (h : Presents s f) :
    ∃ t, s.seek target = ((f.seek target).1, t) ∧ Presents t (f.seek target).2 := by
  unfold seek PlainFile.seek
  cases hclosed : f.closed with
  | true =>
    rw [if_pos (h.closed.trans hclosed), if_pos rfl]
    exact ⟨s, rfl, h⟩
  | false =>
    rw [if_neg (by simp [h.closed, hclosed]), if_neg Bool.false_ne_true]
    have hseek : Transport.seek s.transport (s.correct target) =
        MemoryFile.seek s.transport (s.correct target) := rfl
    rw [hseek, MemoryFile.seek, resolve_correct target h (h.placed hclosed)]
    cases htarget : f.offset? target with
    | none => exact ⟨s, rfl, h⟩
    | some offset =>
      exact ⟨_, rfl,
        { h with
          eof := rfl
          closed := h.closed.trans hclosed
          placed := fun _ => .of_empty rfl rfl rfl rfl (offset_le htarget) }⟩

theorem tell_eq (h : Presents s f) : s.tell = (f.tell.1, s) := by
  unfold tell PlainFile.tell
  cases hclosed : f.closed with
  | true =>
    rw [if_pos (h.closed.trans hclosed)]
    rfl
  | false =>
    rw [if_neg (by simp [h.closed, hclosed])]
    obtain ⟨_, _, hposition, hbounded⟩ := h.placed hclosed
    have hresolve : (SeekTarget.current 0).resolve? s.transport.position s.transport.data.length =
        some s.transport.position := by
      unfold SeekTarget.resolve?
      dsimp only
      rw [if_neg (by omega)]
      congr 1
      omega
    have hseek : Transport.seek s.transport (.current 0) = (.ok s.transport.position, s.transport) := by
      show MemoryFile.seek s.transport _ = _
      rw [MemoryFile.seek, hresolve]
    rw [hseek]
    simp [hposition]

/-- Both indicators lowered, on a stream and on its plain file. -/
theorem presents_of_clearIndicators (h : Presents s f) :
    Presents s.clearIndicators f.clearIndicators :=
  { h with
    eof := rfl
    error := rfl
    placed := fun hopen =>
      let ⟨hpushed, hbuffer, hposition, hbounded⟩ := h.placed hopen
      ⟨hpushed, hbuffer, hposition, hbounded⟩ }

theorem presents_of_raiseError (h : Presents s f) : Presents s.raiseError f.raiseError :=
  { h with
    error := rfl
    placed := fun hopen =>
      let ⟨hpushed, hbuffer, hposition, hbounded⟩ := h.placed hopen
      ⟨hpushed, hbuffer, hposition, hbounded⟩ }

theorem presents_of_rewind (h : Presents s f) :
    ∃ t, s.rewind = (f.rewind.1, t) ∧ Presents t f.rewind.2 := by
  obtain ⟨t, hseek, hpresents⟩ := presents_of_seek (.start 0) h
  unfold rewind
  rw [hseek]
  cases hclosed : f.closed with
  | true =>
    have hfile : f.seek (.start 0) = (.error .closed, f) := by simp [PlainFile.seek, hclosed]
    have hrewind : f.rewind = (some .closed, f.clearIndicators) := by
      simp [PlainFile.rewind, hclosed]
    rw [hfile] at hpresents ⊢
    rw [hrewind]
    exact ⟨_, rfl, presents_of_clearIndicators hpresents⟩
  | false =>
    have hfile : f.seek (.start 0) =
        (.ok 0, { f with position := 0, pushed := [], eof := false }) := by
      simp [PlainFile.seek, hclosed, PlainFile.offset?]
    have hrewind : f.rewind =
        (none, { f with position := 0, pushed := [], eof := false }.clearIndicators) := by
      simp [PlainFile.rewind, PlainFile.clearIndicators, hclosed]
    rw [hfile] at hpresents ⊢
    rw [hrewind]
    exact ⟨_, rfl, presents_of_clearIndicators hpresents⟩

theorem presents_of_close (h : Presents s f) :
    ∃ t, s.close = (f.close.1, t) ∧ Presents t f.close.2 := by
  unfold close PlainFile.close
  cases hclosed : f.closed with
  | true =>
    rw [if_pos (h.closed.trans hclosed), if_pos rfl]
    exact ⟨s, rfl, h⟩
  | false =>
    rw [if_neg (by simp [h.closed, hclosed]), if_neg Bool.false_ne_true]
    exact ⟨_, rfl, { h with closed := rfl, placed := fun hopen => nomatch hopen }⟩

/-- A byte pushed back stands in front of the buffer, and the position one before. -/
theorem presents_of_ungetByte (b : Byte) (h : Presents s f) (hposition : f.position ≠ 0) :
    ∃ t, s.ungetByte b = ((f.ungetByte b).1, t) ∧ Presents t (f.ungetByte b).2 := by
  unfold ungetByte PlainFile.ungetByte PlainFile.readRefusal?
  cases hclosed : f.closed with
  | true =>
    rw [if_pos (h.closed.trans hclosed)]
    exact ⟨s, rfl, h⟩
  | false =>
    rw [if_neg (by simp [h.closed, hclosed])]
    cases hreadable : f.readable with
    | false =>
      rw [if_pos (by simp [h.readable, hreadable])]
      exact ⟨s, rfl, h⟩
    | true =>
      rw [if_neg (by simp [h.readable, hreadable])]
      refine ⟨_, rfl, { h with
        readable := h.readable.trans hreadable
        eof := rfl
        closed := h.closed.trans hclosed
        placed := fun _ => ?_ }⟩
      obtain ⟨hpushed, hbuffer, hahead, hbounded⟩ := h.placed hclosed
      have hsum : f.position - 1 + (f.pushed.length + 1) = f.position + f.pushed.length := by
        omega
      refine ⟨?_, ?_, ?_, hbounded⟩
      · show b :: s.pushback = b :: f.pushed
        rw [hpushed]
      · show s.buffer <+: f.data.drop (f.position - 1 + (f.pushed.length + 1))
        rw [hsum]
        exact hbuffer
      · show s.transport.position = f.position - 1 + (b :: s.pushback ++ s.buffer).length
        simp only [unread, List.length_append, List.length_cons, List.cons_append] at hahead ⊢
        omega

end Writing

/-! ### Whole operations -/

theorem presents_inMemory (initial : List Byte) (flags : OpenFlags) :
    Presents (wrap ⟨if flags.truncate then [] else initial, 0, flags.append⟩ flags)
      (.opened initial flags) where
  data := rfl
  append := rfl
  readable := rfl
  writable := rfl
  eof := rfl
  error := rfl
  closed := rfl
  placed _ := .of_empty rfl rfl rfl rfl (Nat.zero_le _)

section Operations
variable {s : Stream MemoryFile} {f : PlainFile}

theorem presents_of_getByte (h : Presents s f) (hfits : f.data.length ≤ furthest) :
    ∃ t, s.getByte = (f.getByte.1, t) ∧ Presents t f.getByte.2 := by
  cases hrefused : f.readRefusal? with
  | some e =>
    have hfile : f.getByte = (.error e, f.refused) := by
      simp [PlainFile.getByte, PlainFile.read, PlainFile.readThrough, hrefused]
    rw [hfile]
    exact getByte_refused h hrefused
  | none =>
    cases hahead : f.ahead with
    | nil =>
      have hfile : f.getByte = (.ok none, f.past 0 true) := by
        simp [PlainFile.getByte, PlainFile.read, PlainFile.readThrough, hrefused, hahead]
      rw [hfile]
      exact getByte_end h hrefused hahead
    | cons b rest =>
      have hfile : f.getByte = (.ok (some b), f.past 1 false) := by
        simp [PlainFile.getByte, PlainFile.read, PlainFile.readThrough, hrefused, hahead]
      rw [hfile]
      exact getByte_next h hfits hrefused hahead

theorem presents_of_read (limit : Nat) (h : Presents s f) (hfits : f.data.length ≤ furthest) :
    ∃ t, s.read limit = ((f.read limit).1, t) ∧ Presents t (f.read limit).2 :=
  presents_of_takeUntil (fun _ => false) limit h hfits

theorem presents_of_readItems (length size : Nat) (h : Presents s f)
    (hfits : f.data.length ≤ furthest) :
    ∃ t, s.readItems length size = ((f.readItems length size).1, (f.readItems length size).2.1, t) ∧
      Presents t (f.readItems length size).2.2 := by
  obtain ⟨t, hread, hpresents⟩ := presents_of_read length h hfits
  unfold readItems PlainFile.readItems
  by_cases hsize : size = 0
  · rw [if_pos hsize, if_pos hsize]
    exact ⟨s, rfl, h⟩
  · rw [if_neg hsize, if_neg hsize, hread]
    exact ⟨t, rfl, hpresents⟩

/-- A file that refuses to be read delivers nothing. -/
theorem readThrough_failed {f : PlainFile} {last : Byte → Bool} {limit : Nat} {e : StreamError}
    (h : (f.readThrough last limit).1.failure = some e) :
    (f.readThrough last limit).1.bytes = [] := by
  unfold PlainFile.readThrough at h ⊢
  split
  · rfl
  · split
    · rfl
    · simp_all

theorem presents_of_getLine (capacity : Nat) (h : Presents s f)
    (hfits : f.data.length ≤ furthest) :
    ∃ t, s.getLine capacity = ((f.getLine capacity).1, t) ∧ Presents t (f.getLine capacity).2 := by
  unfold getLine PlainFile.getLine
  by_cases hzero : capacity = 0
  · rw [if_pos hzero, if_pos hzero]
    exact ⟨s, rfl, h⟩
  rw [if_neg hzero, if_neg hzero]
  by_cases hone : capacity = 1
  · subst hone
    rw [if_pos rfl]
    exact ⟨s, rfl, h⟩
  rw [if_neg hone]
  obtain ⟨t, hread, hpresents⟩ := presents_of_takeUntil (· == 10) (capacity - 1) h hfits
  rw [hread]
  refine ⟨t, ?_, ?_⟩
  · dsimp only
    cases hfailure : (f.readThrough (· == 10) (capacity - 1)).1.failure with
    | some e => rw [readThrough_failed hfailure]
    | none =>
      have hroom : 1 < capacity := by omega
      cases hbytes : (f.readThrough (· == 10) (capacity - 1)).1.bytes with
      | nil => simp [hroom]
      | cons b rest => simp
  · dsimp only
    split <;> exact hpresents

theorem presents_of_write (bytes : List Byte) (h : Presents s f)
    (hafter : (f.write bytes).2.data.length ≤ furthest) :
    ∃ t, s.write bytes = ((f.write bytes).1, t) ∧ Presents t (f.write bytes).2 := by
  have hpartial : (f.write bytes).2 = (f.writePartial bytes).2.2 := by
    unfold PlainFile.write
    split <;> simp_all
  rw [hpartial] at hafter ⊢
  obtain ⟨t, hwrite, hpresents⟩ := presents_of_writePartial bytes h hafter
  refine ⟨t, ?_, hpresents⟩
  unfold write PlainFile.write
  rw [hwrite]
  generalize f.writePartial bytes = result
  obtain ⟨n, failure, g⟩ := result
  cases failure with
  | none => rfl
  | some e => rfl

theorem presents_of_putByte (b : Byte) (h : Presents s f)
    (hafter : (f.putByte b).2.data.length ≤ furthest) :
    ∃ t, s.putByte b = ((f.putByte b).1, t) ∧ Presents t (f.putByte b).2 := by
  obtain ⟨t, hwrite, hpresents⟩ := presents_of_write [b] h hafter
  refine ⟨t, ?_, hpresents⟩
  unfold putByte
  rw [hwrite]
  rfl

theorem presents_of_writeItems (bytes : List Byte) (size : Nat) (h : Presents s f)
    (hafter : (f.writeItems bytes size).2.2.data.length ≤ furthest) :
    ∃ t, s.writeItems bytes size =
        ((f.writeItems bytes size).1, (f.writeItems bytes size).2.1, t) ∧
      Presents t (f.writeItems bytes size).2.2 := by
  unfold writeItems
  unfold PlainFile.writeItems at hafter ⊢
  by_cases hsize : size = 0
  · rw [if_pos hsize, if_pos hsize]
    exact ⟨s, rfl, h⟩
  · rw [if_neg hsize] at hafter ⊢
    obtain ⟨t, hwrite, hpresents⟩ := presents_of_writePartial bytes h hafter
    rw [if_neg hsize, hwrite]
    exact ⟨t, rfl, hpresents⟩

theorem flush_eq (h : Presents s f) : s.flush = (f.flush.1, s) := by
  unfold flush PlainFile.flush
  cases hclosed : f.closed with
  | true =>
    rw [if_pos (h.closed.trans hclosed)]
    rfl
  | false =>
    rw [if_neg (by simp [h.closed, hclosed])]
    rfl

end Operations

end Stream

/-! ### Runs -/

/-- What is asked of an operation: it leaves no store longer than the largest offset,
which no memory holds, and it pushes no byte back at the start of the file. -/
def Operation.Allowed (f : PlainFile) (op : Operation) : Prop :=
  (op.onFile f).2.data.length ≤ furthest ∧ (op.pushesBack → f.position ≠ 0)

/-- What is asked of a run of operations. -/
def PlainFile.AllowedRun : PlainFile → List Operation → Prop
  | f, [] => f.data.length ≤ furthest
  | f, op :: rest => f.data.length ≤ furthest ∧ op.Allowed f ∧ AllowedRun (op.onFile f).2 rest

instance (f : PlainFile) (op : Operation) : Decidable (op.Allowed f) :=
  inferInstanceAs (Decidable (_ ∧ _))

instance PlainFile.decidableAllowedRun : (f : PlainFile) → (ops : List Operation) →
    Decidable (f.AllowedRun ops)
  | _, [] => inferInstanceAs (Decidable (_ ≤ _))
  | f, op :: rest =>
    have := decidableAllowedRun (op.onFile f).2 rest
    inferInstanceAs (Decidable (_ ∧ _ ∧ _))

/-- One operation answers alike on a stream and on the plain file that it shows, and
leaves the stream showing what it leaves of the file. -/
theorem presents_of_operation {s : Stream MemoryFile} {f : PlainFile} (op : Operation)
    (h : s.Presents f) (hfits : f.data.length ≤ furthest) (hallowed : op.Allowed f) :
    ∃ t, op.onStream s = ((op.onFile f).1, t) ∧ t.Presents (op.onFile f).2 := by
  obtain ⟨hafter, hunget⟩ := hallowed
  cases op with
  | getByte =>
    obtain ⟨t, heq, hpresents⟩ := Stream.presents_of_getByte h hfits
    exact ⟨t, by rw [Operation.onStream, heq]; rfl, hpresents⟩
  | ungetByte b =>
    obtain ⟨t, heq, hpresents⟩ := Stream.presents_of_ungetByte b h (hunget rfl)
    exact ⟨t, by rw [Operation.onStream, heq]; rfl, hpresents⟩
  | read limit =>
    obtain ⟨t, heq, hpresents⟩ := Stream.presents_of_read limit h hfits
    exact ⟨t, by rw [Operation.onStream, heq]; rfl, hpresents⟩
  | getLine capacity =>
    obtain ⟨t, heq, hpresents⟩ := Stream.presents_of_getLine capacity h hfits
    exact ⟨t, by rw [Operation.onStream, heq]; rfl, hpresents⟩
  | readItems length size =>
    obtain ⟨t, heq, hpresents⟩ := Stream.presents_of_readItems length size h hfits
    exact ⟨t, by rw [Operation.onStream, heq]; rfl, hpresents⟩
  | write bytes | putText bytes =>
    obtain ⟨t, heq, hpresents⟩ := Stream.presents_of_write bytes h hafter
    exact ⟨t, by rw [Operation.onStream, heq]; rfl, hpresents⟩
  | writeItems bytes size =>
    obtain ⟨t, heq, hpresents⟩ := Stream.presents_of_writeItems bytes size h hafter
    exact ⟨t, by rw [Operation.onStream, heq]; rfl, hpresents⟩
  | putByte b =>
    obtain ⟨t, heq, hpresents⟩ := Stream.presents_of_putByte b h hafter
    exact ⟨t, by rw [Operation.onStream, heq]; rfl, hpresents⟩
  | flush => exact ⟨s, by rw [Operation.onStream, Stream.flush_eq h]; rfl, h⟩
  | seek target =>
    obtain ⟨t, heq, hpresents⟩ := Stream.presents_of_seek target h
    exact ⟨t, by rw [Operation.onStream, heq]; rfl, hpresents⟩
  | tell => exact ⟨s, by rw [Operation.onStream, Stream.tell_eq h]; rfl, h⟩
  | rewind =>
    obtain ⟨t, heq, hpresents⟩ := Stream.presents_of_rewind h
    exact ⟨t, by rw [Operation.onStream, heq]; rfl, hpresents⟩
  | clearIndicators => exact ⟨_, rfl, Stream.presents_of_clearIndicators h⟩
  | raiseError => exact ⟨_, rfl, Stream.presents_of_raiseError h⟩
  | close =>
    obtain ⟨t, heq, hpresents⟩ := Stream.presents_of_close h
    exact ⟨t, by rw [Operation.onStream, heq]; rfl, hpresents⟩

/-- A run reports alike on a stream and on the plain file that it shows. -/
theorem presents_of_run {s : Stream MemoryFile} {f : PlainFile} (ops : List Operation)
    (h : s.Presents f) (hallowed : f.AllowedRun ops) :
    (s.serve ops).1 = (f.serve ops).1 ∧ (s.serve ops).2.Presents (f.serve ops).2 := by
  induction ops generalizing s f with
  | nil => exact ⟨rfl, h⟩
  | cons op rest ih =>
    obtain ⟨hfits, hop, hrest⟩ := hallowed
    obtain ⟨t, heq, hpresents⟩ := presents_of_operation op h hfits hop
    obtain ⟨hreports, hleft⟩ := ih hpresents hrest
    unfold Stream.serve PlainFile.serve
    rw [heq]
    dsimp only
    rw [hreports, hpresents.eof, hpresents.error, hpresents.closed]
    exact ⟨rfl, hleft⟩

/-- Buffering is invisible. A stream over a file in memory, opened in any mode, serves
every run of operations as a file without a buffer does: with the same answers and
the same indicators after each of them, and the same store in the end. -/
theorem stream_is_plain_file (initial mode : List Byte) (flags : OpenFlags)
    (ops : List Operation) (hmode : OpenFlags.parse? mode = some flags)
    (hallowed : (PlainFile.opened initial flags).AllowedRun ops) :
    ∃ s, Stream.inMemory initial mode = .ok s ∧
      (s.serve ops).1 = ((PlainFile.opened initial flags).serve ops).1 ∧
      (s.serve ops).2.transport.data = ((PlainFile.opened initial flags).serve ops).2.data := by
  refine ⟨.wrap ⟨if flags.truncate then [] else initial, 0, flags.append⟩ flags, ?_, ?_⟩
  · unfold Stream.inMemory
    rw [hmode]
  · obtain ⟨hreports, hleft⟩ :=
      presents_of_run ops (Stream.presents_inMemory initial flags) hallowed
    exact ⟨hreports, hleft.data⟩

/-- A run that writes over bytes it has looked ahead at and pushed back. -/
theorem stream_is_plain_file_behind_look_ahead :
    let mode := ascii "w+"
    let flags : OpenFlags :=
      { OpenFlags.readWrite with truncate := true, create := true }
    let ops : List Operation :=
      [.write (ascii "one\ntwo"), .seek (.start 0), .getByte, .ungetByte 79, .getLine 8, .tell,
        .write (ascii "2"), .seek (.fromEnd (-2)), .read 9]
    OpenFlags.parse? mode = some flags ∧ (PlainFile.opened [] flags).AllowedRun ops ∧
      ∃ s, Stream.inMemory [] mode = .ok s ∧
        (s.serve ops).1 = ((PlainFile.opened [] flags).serve ops).1 ∧
        (s.serve ops).2.transport.data = ((PlainFile.opened [] flags).serve ops).2.data :=
  ⟨by decide, by decide, stream_is_plain_file [] _ _ _ (by decide) (by decide)⟩

end CheckedFormat
