import CheckedFormat.Proofs.Buffering
/-! Where the next operation of a stream takes place.

A stream works out its position in three places. `tell` takes the unread bytes off the
position of the transport, a relative seek takes them off its offset, and a write steps
back over them. The three agree while there is enough to take them off. Once more bytes
were pushed back than lie before the position, `tell` stops at the start, and the other
two ask the transport for a place before it and fail. So what an open stream tells is
where its next operation takes place exactly when its unread bytes reach back to the
start at most (`tells_iff`).

In every run the buffer is what the store holds before the position of the transport
(`Rests`), whatever was pushed back. That is why a stream shows a plain file as soon as
its unread bytes have room (`Rests.presents`). -/
namespace CheckedFormat
open SeekTarget (furthest)

namespace PlainFile
variable {f : PlainFile}

/-- What lies ahead of the position by an offset is that far from the start. -/
theorem offset?_current {delta : Int} (h : 0 ≤ f.position + delta) :
    f.offset? (.current delta) = f.offset? (.start (f.position + delta).toNat) := by
  unfold offset?
  dsimp only
  rw [Int.toNat_of_nonneg h]

theorem write_of_writable (bytes : List Byte) (hopen : f.closed = false)
    (hwritable : f.writable = true) : f.write bytes = (.ok bytes.length, f.store bytes) := by
  simp [write, writePartial, hopen, hwritable]

theorem data_store (bytes : List Byte) (happend : f.append = false) :
    (f.store bytes).data =
      if bytes.isEmpty then f.data else overwrite f.data f.position bytes := by
  cases bytes with
  | nil => rfl
  | cons b rest => simp [store, happend]

theorem position_store (bytes : List Byte) (happend : f.append = false) :
    (f.store bytes).position = f.position + bytes.length := by
  cases bytes with
  | nil => rfl
  | cons b rest => simp [store, happend]

theorem closed_store (bytes : List Byte) : (f.store bytes).closed = f.closed := by
  cases bytes with
  | nil => rfl
  | cons b rest => rfl

end PlainFile

theorem SeekTarget.resolve?_le {target : SeekTarget} {position size offset : Nat}
    (h : target.resolve? position size = some offset) : offset ≤ furthest := by
  unfold resolve? at h
  cases target with
  | start _ | current _ | fromEnd _ =>
    dsimp only at h
    split at h
    · cases h
    · obtain rfl := Option.some.inj h
      exact Nat.min_le_right _ _

namespace MemoryFile

/-- A seek moves to an offset in reach, or it fails and moves nothing. -/
theorem seek_cases (file : MemoryFile) (target : SeekTarget) :
    (∃ offset ≤ furthest,
        Transport.seek file target = (.ok offset, { file with position := offset })) ∨
      Transport.seek file target = (.error ⟨.invalidInput, none⟩, file) := by
  have hseek : Transport.seek file target = MemoryFile.seek file target := rfl
  rw [hseek, MemoryFile.seek]
  cases htarget : target.resolve? file.position file.data.length with
  | some offset => exact .inl ⟨offset, SeekTarget.resolve?_le htarget, rfl⟩
  | none => exact .inr rfl

theorem seek_before_start {file : MemoryFile} {delta : Int} (h : file.position + delta < 0) :
    Transport.seek file (.current delta) = (.error ⟨.invalidInput, none⟩, file) := by
  have hresolve : (SeekTarget.current delta).resolve? file.position file.data.length = none :=
    if_pos h
  show MemoryFile.seek file _ = _
  rw [MemoryFile.seek, hresolve]

/-- A file in reach is asked for its position by a seek that stays there. -/
theorem seek_in_place {file : MemoryFile} (h : file.position ≤ furthest) :
    Transport.seek file (.current 0) = (.ok file.position, file) := by
  have hresolve : (SeekTarget.current 0).resolve? file.position file.data.length =
      some file.position := by
    unfold SeekTarget.resolve?
    dsimp only
    rw [Int.add_zero, if_neg (by omega), Int.toNat_natCast, Nat.min_eq_left h]
  show MemoryFile.seek file _ = _
  rw [MemoryFile.seek, hresolve]

/-- A write leaves the store no shorter, and its end within the store. -/
theorem length_write (file : MemoryFile) (bytes : List Byte) :
    file.data.length ≤ (file.write bytes).data.length ∧
      (file.write bytes).position ≤ (file.write bytes).data.length := by
  unfold write
  dsimp only
  rw [PlainFile.writeAt_eq_overwrite, PlainFile.length_overwrite]
  exact ⟨Nat.le_max_left _ _, Nat.le_max_right _ _⟩

end MemoryFile

namespace Stream

/-! ### The buffer rests on the store -/

/-- The buffer is what the store holds before the position of the transport, which is
in reach. -/
structure Rests (s : Stream MemoryFile) : Prop where
  buffer : s.buffer <+: s.transport.data.drop (s.transport.position - s.buffer.length)
  fetched : s.buffer.length ≤ s.transport.position
  bounded : s.transport.position ≤ furthest
  append : s.transport.append = s.flags.append

namespace Rests
variable {s : Stream MemoryFile} {b : Byte} {rest : List Byte}

/-- One byte less of the buffer. -/
theorem tail (h : s.Rests) (hbuffer : s.buffer = b :: rest) :
    { s with buffer := rest }.Rests := by
  obtain ⟨hfront, hfetched, hbounded, happend⟩ := h
  rw [hbuffer] at hfront hfetched
  rw [List.length_cons] at hfront hfetched
  obtain ⟨later, hlater⟩ := hfront
  have hshorter : s.transport.position - rest.length =
      s.transport.position - (rest.length + 1) + 1 := by omega
  refine ⟨⟨later, ?_⟩, Nat.le_of_succ_le hfetched, hbounded, happend⟩
  show rest ++ later = s.transport.data.drop (s.transport.position - rest.length)
  rw [hshorter, ← List.tail_drop, ← hlater]
  rfl

/-- A buffer that was just filled, less the byte that was delivered from it. -/
theorem refilled (h : s.Rests) (hfits : s.transport.data.length ≤ furthest)
    (hread : s.transport.readUpTo bufferSize = b :: rest) :
    Rests { s with
      transport := { s.transport with position := s.transport.position + (b :: rest).length }
      buffer := rest } := by
  have hlength := congrArg List.length hread
  rw [MemoryFile.readUpTo, List.length_take, List.length_drop, List.length_cons] at hlength
  have hbehind : s.transport.position + (rest.length + 1) - rest.length =
      s.transport.position + 1 := by omega
  refine ⟨?_, ?_, ?_, h.append⟩
  · show rest <+: s.transport.data.drop (s.transport.position + (rest.length + 1) - rest.length)
    obtain ⟨later, hlater⟩ :=
      List.take_prefix bufferSize (s.transport.data.drop s.transport.position)
    rw [← MemoryFile.readUpTo, hread] at hlater
    rw [hbehind, ← List.tail_drop, ← hlater]
    exact List.prefix_append rest later
  · show rest.length ≤ s.transport.position + (rest.length + 1)
    omega
  · show s.transport.position + (rest.length + 1) ≤ furthest
    omega

end Rests

/-- What an operation does to a stream: the store does not shrink, and if it fits in
memory afterwards, the buffer rests on it as before. -/
structure LeadsTo (s t : Stream MemoryFile) : Prop where
  grows : s.transport.data.length ≤ t.transport.data.length
  rests : t.transport.data.length ≤ furthest → s.Rests → t.Rests

namespace LeadsTo
variable {s t u : Stream MemoryFile}

theorem refl (s : Stream MemoryFile) : s.LeadsTo s := ⟨Nat.le_refl _, fun _ h => h⟩

theorem trans (first : s.LeadsTo t) (rest : t.LeadsTo u) : s.LeadsTo u where
  grows := Nat.le_trans first.grows rest.grows
  rests hfits h := rest.rests hfits (first.rests (Nat.le_trans rest.grows hfits) h)

/-- Neither the pushed bytes nor the indicators matter. -/
theorem still (htransport : t.transport = s.transport) (hflags : t.flags = s.flags)
    (hbuffer : t.buffer = s.buffer) : s.LeadsTo t where
  grows := Nat.le_of_eq (by rw [htransport])
  rests _ h := by
    refine ⟨?_, ?_, ?_, ?_⟩
    · rw [htransport, hbuffer]
      exact h.buffer
    · rw [htransport, hbuffer]
      exact h.fetched
    · rw [htransport]
      exact h.bounded
    · rw [htransport, hflags]
      exact h.append

/-- An empty buffer rests anywhere. -/
theorem emptied (hgrows : s.transport.data.length ≤ t.transport.data.length)
    (hbounded : t.transport.data.length ≤ furthest → s.Rests → t.transport.position ≤ furthest)
    (happend : t.transport.append = s.transport.append) (hflags : t.flags = s.flags)
    (hbuffer : t.buffer = []) : s.LeadsTo t where
  grows := hgrows
  rests hfits h := by
    refine ⟨?_, ?_, hbounded hfits h, ?_⟩
    · rw [hbuffer]
      exact List.nil_prefix
    · rw [hbuffer]
      exact Nat.zero_le _
    · rw [happend, hflags, h.append]

end LeadsTo

section Operations
variable (s : Stream MemoryFile)

theorem getByte_leadsTo : s.LeadsTo s.getByte.2 := by
  by_cases hclosed : s.closed = true
  · simpa [getByte, hclosed] using .refl s
  by_cases hreadable : s.flags.readable = true
  · cases hpushback : s.pushback with
    | cons b rest =>
      simp only [getByte, hclosed, hreadable, hpushback]
      exact .still rfl rfl rfl
    | nil =>
      cases hbuffer : s.buffer with
      | cons b rest =>
        have hget : s.getByte = (.ok (some b), { s with buffer := rest }) := by
          simp [getByte, hclosed, hreadable, hpushback, hbuffer]
        rw [hget]
        exact ⟨Nat.le_refl _, fun _ h => h.tail hbuffer⟩
      | nil =>
        have hstep : Transport.read s.transport bufferSize =
            (.ok (s.transport.readUpTo bufferSize), { s.transport with
              position := s.transport.position + (s.transport.readUpTo bufferSize).length }) := rfl
        cases hread : s.transport.readUpTo bufferSize with
        | nil =>
          have hget : s.getByte = (.ok none, { s with eof := true }) := by
            rw [hread] at hstep
            simp [getByte, hclosed, hreadable, hpushback, hbuffer, hstep]
          rw [hget]
          exact .still rfl rfl rfl
        | cons b rest =>
          have hget : s.getByte = (.ok (some b), { s with
              transport := { s.transport with
                position := s.transport.position + (b :: rest).length }
              buffer := rest }) := by
            rw [hread] at hstep
            simp [getByte, hclosed, hreadable, hpushback, hbuffer, hstep]
          rw [hget]
          exact ⟨Nat.le_refl _, fun hfits h => h.refilled hfits hread⟩
  · simp only [getByte, hclosed, hreadable]
    exact .still rfl rfl rfl

theorem ungetByte_leadsTo (b : Byte) : s.LeadsTo (s.ungetByte b).2 := by
  unfold ungetByte
  split
  · exact .refl s
  · split
    · exact .refl s
    · exact .still rfl rfl rfl

theorem takeUntil_leadsTo (last : Byte → Bool) (limit : Nat) :
    s.LeadsTo (takeUntil last limit s).2 := by
  induction limit generalizing s with
  | zero => exact .refl s
  | succ limit ih =>
    have hfirst := s.getByte_leadsTo
    rcases hget : s.getByte with ⟨result, t⟩
    rw [hget] at hfirst
    rcases result with e | _ | b
    · simpa [takeUntil, hget] using hfirst
    · simpa [takeUntil, hget] using hfirst
    · by_cases hlast : last b = true
      · simpa [takeUntil, hget, hlast] using hfirst
      · simpa [takeUntil, hget, hlast] using hfirst.trans (ih t)

theorem getLine_leadsTo (capacity : Nat) : s.LeadsTo (s.getLine capacity).2 := by
  have hline := s.takeUntil_leadsTo (· == 10) (capacity - 1)
  unfold getLine
  split
  · exact .refl s
  · dsimp only
    split
    · exact hline
    · split <;> exact hline

theorem readItems_leadsTo (length size : Nat) : s.LeadsTo (s.readItems length size).2.2 := by
  unfold readItems
  split
  · exact .refl s
  · exact s.takeUntil_leadsTo _ length

theorem seek_leadsTo (target : SeekTarget) : s.LeadsTo (s.seek target).2 := by
  unfold seek
  split
  · exact .refl s
  · obtain ⟨offset, hbounded, hseek⟩ | hseek := s.transport.seek_cases (s.correct target)
    · rw [hseek]
      exact .emptied (Nat.le_refl _) (fun _ _ => hbounded) rfl rfl rfl
    · rw [hseek]
      exact .still rfl rfl rfl

theorem tell_of_bounded {s : Stream MemoryFile} (hopen : s.closed = false)
    (hbounded : s.transport.position ≤ furthest) :
    s.tell = (.ok (s.transport.position - s.unread.length), s) := by
  rw [tell, MemoryFile.seek_in_place hbounded, if_neg (by simp [hopen])]

theorem tell_leadsTo : s.LeadsTo s.tell.2 where
  grows := by
    unfold tell
    split
    · exact Nat.le_refl _
    · apply Nat.le_of_eq
      obtain ⟨offset, _, hseek⟩ | hseek := s.transport.seek_cases (.current 0)
      · rw [hseek]
      · rw [hseek]
  rests _ h := by
    cases hopen : s.closed with
    | true => simpa [tell, hopen] using h
    | false => simpa [tell_of_bounded hopen h.bounded] using h

theorem rewind_leadsTo : s.LeadsTo s.rewind.2 := by
  have hseek := s.seek_leadsTo (.start 0)
  unfold rewind
  rcases hresult : s.seek (.start 0) with ⟨offset | e, t⟩
  · rw [hresult] at hseek
    exact hseek.trans (.still rfl rfl rfl)
  · rw [hresult] at hseek
    exact hseek.trans (.still rfl rfl rfl)

/-- Stepping back empties the buffer or fails. -/
theorem stepBack_leadsTo : s.LeadsTo s.stepBack.2 ∧
    ∀ t, s.stepBack = (.ok (), t) → t.buffer = [] := by
  unfold stepBack
  split
  · rename_i hempty
    refine ⟨.refl s, fun t h => ?_⟩
    cases h
    exact (List.append_eq_nil_iff.1 (List.isEmpty_iff.1 hempty)).2
  · obtain ⟨offset, hbounded, hseek⟩ | hseek :=
      s.transport.seek_cases (.current (-s.unread.length))
    · rw [hseek]
      refine ⟨.emptied (Nat.le_refl _) (fun _ _ => hbounded) rfl rfl rfl, fun t h => ?_⟩
      cases h
      rfl
    · rw [hseek]
      refine ⟨.still rfl rfl rfl, fun t h => ?_⟩
      cases h

/-- Bytes are sent from an empty buffer. -/
theorem sent_leadsTo {s : Stream MemoryFile} (hbuffer : s.buffer = []) (bytes : List Byte) :
    s.LeadsTo { s with transport := (send s.transport bytes).2.2 } := by
  rw [send_eq]
  cases bytes with
  | nil => exact .still rfl rfl rfl
  | cons b rest =>
    obtain ⟨hgrows, hwithin⟩ := s.transport.length_write (b :: rest)
    exact .emptied hgrows (fun hfits _ => Nat.le_trans hwithin hfits) rfl rfl hbuffer

theorem writePartial_leadsTo (bytes : List Byte) : s.LeadsTo (s.writePartial bytes).2.2 := by
  unfold writePartial
  split
  · exact .refl s
  split
  · exact .still rfl rfl rfl
  obtain ⟨hback, hempty⟩ := s.stepBack_leadsTo
  rcases hstep : s.stepBack with ⟨e | done, t⟩
  · rw [hstep] at hback
    exact hback.trans (.still rfl rfl rfl)
  · rw [hstep] at hback
    have hsent := hback.trans (sent_leadsTo (hempty t hstep) bytes)
    rw [send_eq] at hsent
    simp only [send_eq]
    exact hsent

theorem write_leadsTo (bytes : List Byte) : s.LeadsTo (s.write bytes).2 := by
  have hpartial := s.writePartial_leadsTo bytes
  unfold write
  split <;> simp_all

theorem writeItems_leadsTo (bytes : List Byte) (size : Nat) :
    s.LeadsTo (s.writeItems bytes size).2.2 := by
  unfold writeItems
  split
  · exact .refl s
  · exact s.writePartial_leadsTo bytes

theorem flush_leadsTo : s.LeadsTo s.flush.2 := by
  unfold flush
  split
  · exact .refl s
  · exact .still rfl rfl rfl

theorem close_leadsTo : s.LeadsTo s.close.2 := by
  unfold close
  split
  · exact .refl s
  · exact .emptied (Nat.le_refl _) (fun _ h => h.bounded) rfl rfl rfl

end Operations

/-- Every operation leaves the buffer on the store. -/
theorem operation_leadsTo (s : Stream MemoryFile) (op : Operation) :
    s.LeadsTo (op.onStream s).2 := by
  cases op with
  | getByte => exact s.getByte_leadsTo
  | ungetByte b => exact s.ungetByte_leadsTo b
  | read limit => exact s.takeUntil_leadsTo _ limit
  | getLine capacity => exact s.getLine_leadsTo capacity
  | readItems length size => exact s.readItems_leadsTo length size
  | write bytes | putText bytes => exact s.write_leadsTo bytes
  | writeItems bytes size => exact s.writeItems_leadsTo bytes size
  | putByte b => exact s.write_leadsTo [b]
  | flush => exact s.flush_leadsTo
  | seek target => exact s.seek_leadsTo target
  | tell => exact s.tell_leadsTo
  | rewind => exact s.rewind_leadsTo
  | clearIndicators | raiseError => exact .still rfl rfl rfl
  | close => exact s.close_leadsTo

/-- Every run leaves the buffer on the store. -/
theorem serve_leadsTo (s : Stream MemoryFile) (ops : List Operation) :
    s.LeadsTo (s.serve ops).2 := by
  induction ops generalizing s with
  | nil => exact .refl s
  | cons op rest ih => exact (s.operation_leadsTo op).trans (ih _)

/-! ### Streams in a run -/

/-- A run of operations on a stream over a file in memory leaves this. -/
def Reachable (s : Stream MemoryFile) : Prop :=
  ∃ initial mode opened ops, inMemory initial mode = .ok opened ∧ (opened.serve ops).2 = s

theorem Reachable.rests {s : Stream MemoryFile} (h : s.Reachable)
    (hfits : s.transport.data.length ≤ furthest) : s.Rests := by
  obtain ⟨initial, mode, opened, ops, hopened, rfl⟩ := h
  refine (opened.serve_leadsTo ops).rests hfits ?_
  unfold inMemory at hopened
  split at hopened
  · cases hopened
  · cases hopened
    exact ⟨List.nil_prefix, Nat.le_refl _, Nat.zero_le _, rfl⟩

/-- The plain file that a stream shows while its unread bytes have room before the
position of the transport. -/
def shown (s : Stream MemoryFile) : PlainFile where
  data := s.transport.data
  position := s.transport.position - s.unread.length
  pushed := s.pushback
  readable := s.flags.readable
  writable := s.flags.writable
  append := s.transport.append
  eof := s.eof
  error := s.error
  closed := s.closed

theorem Rests.presents {s : Stream MemoryFile} (h : s.Rests)
    (hroom : s.unread.length ≤ s.transport.position) : s.Presents s.shown where
  data := rfl
  append := rfl
  readable := rfl
  writable := rfl
  eof := rfl
  error := rfl
  closed := rfl
  placed _ := by
    have hbehind : s.transport.position - s.unread.length + s.pushback.length =
        s.transport.position - s.buffer.length := by
      rw [unread, List.length_append] at hroom ⊢
      omega
    refine ⟨rfl, ?_, (Nat.sub_add_cancel hroom).symm, h.bounded⟩
    show s.buffer <+: s.transport.data.drop
      (s.transport.position - s.unread.length + s.pushback.length)
    rw [hbehind]
    exact h.buffer

/-! ### What `tell` is good for -/

/-- The next operation of a stream takes place at this offset. `tell` gives it. A
relative seek goes where an absolute one from there goes, with everything left alike, and
fails before the start. A write, unless it always goes to the end, puts its bytes over
the store there, and the stream then stands behind them. -/
structure Tells (s : Stream MemoryFile) (offset : Nat) : Prop where
  told : s.tell = (.ok offset, s)
  seek : ∀ delta : Int, 0 ≤ offset + delta →
    s.seek (.current delta) = s.seek (.start (offset + delta).toNat)
  seekBeforeStart : ∀ delta : Int, offset + delta < 0 →
    s.seek (.current delta) = (.error (.transport ⟨.invalidInput, none⟩), s)
  write : s.flags.writable = true → s.flags.append = false →
    ∀ bytes, offset + bytes.length ≤ furthest →
      ∃ t, s.write bytes = (.ok bytes.length, t) ∧
        t.transport.data = (if bytes.isEmpty then s.transport.data
          else PlainFile.overwrite s.transport.data offset bytes) ∧
        t.tell = (.ok (offset + bytes.length), t)

section Positions
variable {s : Stream MemoryFile}

/-- Targets that the transport finds at one place are one target. -/
theorem seek_eq_of_resolve {first second : SeekTarget}
    (h : (s.correct first).resolve? s.transport.position s.transport.data.length =
      (s.correct second).resolve? s.transport.position s.transport.data.length) :
    s.seek first = s.seek second := by
  have hseek : Transport.seek s.transport (s.correct first) =
      Transport.seek s.transport (s.correct second) := by
    show MemoryFile.seek _ _ = MemoryFile.seek _ _
    rw [MemoryFile.seek, MemoryFile.seek, h]
  unfold seek
  rw [hseek]

/-- A relative seek fails when the transport has less behind it than the unread bytes
and the way back from them. -/
theorem seek_before_start (hopen : s.closed = false) {delta : Int}
    (hbefore : s.transport.position + delta < s.unread.length) :
    s.seek (.current delta) = (.error (.transport ⟨.invalidInput, none⟩), s) := by
  have hseek : Transport.seek s.transport (.current (delta - s.unread.length)) =
      (.error ⟨.invalidInput, none⟩, s.transport) := MemoryFile.seek_before_start (by omega)
  rw [seek, correct, hseek, if_neg (by simp [hopen])]

/-- A write fails when the transport has less behind it than the unread bytes. It raises
the error indicator and leaves the store alone. -/
theorem write_before_start (hopen : s.closed = false) (hwritable : s.flags.writable = true)
    (hbefore : s.transport.position < s.unread.length) (bytes : List Byte) :
    s.write bytes = (.error (.transport ⟨.invalidInput, none⟩), s.raiseError) := by
  have hseek : Transport.seek s.transport (.current (-s.unread.length)) =
      (.error ⟨.invalidInput, none⟩, s.transport) := MemoryFile.seek_before_start (by omega)
  have hunread : s.unread.isEmpty = false := by
    rw [List.isEmpty_eq_false_iff_exists_mem]
    exact List.exists_mem_of_length_pos (by omega)
  have hback : s.stepBack = (.error (.transport ⟨.invalidInput, none⟩), s) := by
    rw [stepBack, hunread, hseek]
    rfl
  simp [write, writePartial, hopen, hwritable, hback]

theorem Rests.tells (h : s.Rests) (hopen : s.closed = false)
    (hfits : s.transport.data.length ≤ furthest)
    (hroom : s.unread.length ≤ s.transport.position) :
    s.Tells (s.transport.position - s.unread.length) where
  told := tell_of_bounded hopen h.bounded
  seek delta hstart := by
    have hpresents := h.presents hroom
    have hplaced := hpresents.placed hopen
    apply seek_eq_of_resolve
    rw [resolve_correct _ hpresents hplaced, resolve_correct _ hpresents hplaced]
    exact PlainFile.offset?_current hstart
  seekBeforeStart delta hbefore := seek_before_start hopen (by omega)
  write hwritable hplain bytes hbytes := by
    have happend : s.shown.append = false := h.append.trans hplain
    have hwrite := PlainFile.write_of_writable (f := s.shown) bytes hopen hwritable
    have hdata := PlainFile.data_store (f := s.shown) bytes happend
    have hafter : (s.shown.write bytes).2.data.length ≤ furthest := by
      rw [hwrite, hdata]
      split
      · exact hfits
      · rw [PlainFile.length_overwrite]
        exact Nat.max_le.2 ⟨hfits, hbytes⟩
    obtain ⟨t, hwritten, hshown⟩ := presents_of_write bytes (h.presents hroom) hafter
    rw [hwrite] at hwritten hshown
    refine ⟨t, hwritten, hshown.data.trans hdata, ?_⟩
    have hposition := PlainFile.position_store (f := s.shown) bytes happend
    have htell : (s.shown.store bytes).tell.1 = .ok (s.shown.store bytes).position := by
      rw [PlainFile.tell, if_neg]
      rw [PlainFile.closed_store]
      simp [shown, hopen]
    rw [tell_eq hshown, htell, hposition]
    rfl

theorem seek_start (hopen : s.closed = false) (offset : Nat) :
    (s.seek (.start offset)).1 = .ok (min offset furthest) := by
  have hseek : Transport.seek s.transport (.start offset) =
      (.ok (min offset furthest), { s.transport with position := min offset furthest }) := rfl
  rw [seek, correct, hseek, if_neg (by simp [hopen])]
  exact nofun

/-- Out of room, no offset is where the stream is: a seek that stays there fails, and one
to the offset itself does not. -/
theorem not_tells_of_lt (hopen : s.closed = false)
    (hbefore : s.transport.position < s.unread.length) : ¬∃ offset, s.Tells offset := by
  rintro ⟨offset, h⟩
  have hstay := h.seek 0 (by omega)
  rw [seek_before_start hopen (by omega)] at hstay
  have hstart := seek_start hopen (offset + 0 : Int).toNat
  rw [← hstay] at hstart
  cases hstart

/-- What an open stream tells is where its next operation takes place, whatever was put
to the stream before, exactly when the bytes that it holds unread, pushed back or read
ahead, do not reach before the start of the file. -/
theorem tells_iff (hreachable : s.Reachable) (hopen : s.closed = false)
    (hfits : s.transport.data.length ≤ furthest) :
    (∃ offset, s.Tells offset) ↔ s.unread.length ≤ s.transport.position := by
  constructor
  · intro htells
    exact Nat.le_of_not_lt fun hbefore => not_tells_of_lt hopen hbefore htells
  · intro hroom
    exact ⟨_, (hreachable.rests hfits).tells hopen hfits hroom⟩

/-- Three reads and a byte pushed back leave a stream behind two of its six bytes. -/
theorem tells_behind_pushed_byte :
    let s : Stream MemoryFile := ((wrap ⟨ascii "abcdef", 0, false⟩ .readWrite).serve
      [.getByte, .getByte, .getByte, .ungetByte 99]).2
    s.Reachable ∧ s.closed = false ∧ s.transport.data.length ≤ furthest ∧
      s.unread.length ≤ s.transport.position ∧ ∃ offset, s.Tells offset := by
  intro s
  have hreachable : s.Reachable := ⟨ascii "abcdef", ascii "r+", _, _, rfl, rfl⟩
  have hopen : s.closed = false := by decide
  have hfits : s.transport.data.length ≤ furthest := by decide
  have hroom : s.unread.length ≤ s.transport.position := by decide
  exact ⟨hreachable, hopen, hfits, hroom, (tells_iff hreachable hopen hfits).2 hroom⟩

/-- A byte pushed back at the start of a file: `tell` gives the start, and a seek there
succeeds, but a seek that stays in place fails, and so does a write. -/
theorem not_tells_behind_byte_pushed_at_start :
    let s : Stream MemoryFile :=
      ((wrap ⟨ascii "abc", 0, false⟩ .readWrite).serve [.ungetByte 120]).2
    s.Reachable ∧ s.closed = false ∧ s.transport.data.length ≤ furthest ∧
      s.tell.1 = .ok 0 ∧ (s.seek (.start 0)).1 = .ok 0 ∧
      (s.seek (.current 0)).1 = .error (.transport ⟨.invalidInput, none⟩) ∧
      (s.write (ascii "Z")).1 = .error (.transport ⟨.invalidInput, none⟩) ∧
      ¬∃ offset, s.Tells offset := by
  intro s
  have hreachable : s.Reachable := ⟨ascii "abc", ascii "r+", _, _, rfl, rfl⟩
  have hopen : s.closed = false := by decide
  have hbefore : s.transport.position < s.unread.length := by decide
  refine ⟨hreachable, hopen, by decide, rfl, rfl, rfl, ?_, not_tells_of_lt hopen hbefore⟩
  rw [write_before_start hopen rfl hbefore]

end Positions

end Stream
end CheckedFormat
