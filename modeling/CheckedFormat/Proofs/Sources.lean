import CheckedFormat.Scan.Source
import CheckedFormat.Stream.Scripted
/-! What a source of bytes still holds.

A source under way stands at a place in a text: some bytes were delivered, the rest
is to come. A `SourceView` says how a kind of source shows that place, and that
delivering a byte and taking one back move it by one. Texts have a view, and so has
every open readable stream whose transport delivers its bytes in chunks and then
nothing more (`Delivers`): the bytes to come are those taken back, then the buffer,
then what the transport delivers, wherever the chunks end. -/
namespace CheckedFormat

/-- How a source is seen as a place in a text. In `shows s behind ahead` the bytes
`behind` were delivered, the latest first, and `ahead` is still to come. -/
structure SourceView (S : Type) [ByteSource S] where
  shows : S → (behind ahead : List Byte) → Prop
  next_end : ∀ {s : S} {behind : List Byte}, shows s behind [] →
    ∃ s', ByteSource.next s = (.ok none, s') ∧ shows s' behind []
  next_byte : ∀ {s : S} {behind ahead : List Byte} {b : Byte}, shows s behind (b :: ahead) →
    ∃ s', ByteSource.next s = (.ok (some b), s') ∧ shows s' (b :: behind) ahead
  unread : ∀ {s : S} {behind ahead : List Byte} {b : Byte}, shows s (b :: behind) ahead →
    shows (ByteSource.unread s b) behind (b :: ahead)

/-! ### Texts -/

/-- A text shows the place that it keeps. -/
def TextSource.view : SourceView TextSource where
  shows s behind ahead := s = ⟨behind, ahead⟩
  next_end := by
    rintro s behind rfl
    exact ⟨_, rfl, rfl⟩
  next_byte := by
    rintro s behind ahead b rfl
    exact ⟨_, rfl, rfl⟩
  unread := by
    rintro s behind ahead b rfl
    rfl

theorem TextSource.shows_mk (text : List Byte) : view.shows (mk text) [] text := rfl

/-! ### Transports that deliver a text -/

namespace Transport

variable {T : Type} [Transport T]

/-- The transport after so many reads of a whole buffer. -/
def afterReads : Nat → T → T
  | 0, t => t
  | n + 1, t => afterReads n (read t Stream.bufferSize).2

/-- Reads find nothing, now and ever after. -/
def Exhausted (t : T) : Prop := ∀ n, (read (afterReads n t) Stream.bufferSize).1 = .ok []

/-- Reads deliver these bytes, in chunks of any size but zero, and nothing after
them. -/
inductive Delivers : T → List Byte → Prop where
  | nothing {t : T} : Exhausted t → Delivers t []
  | chunk {t t' : T} {bytes rest : List Byte} : read t Stream.bufferSize = (.ok bytes, t') →
    bytes ≠ [] → Delivers t' rest → Delivers t (bytes ++ rest)

theorem Exhausted.next {t : T} (h : Exhausted t) : Exhausted (read t Stream.bufferSize).2 :=
  fun n => h (n + 1)

theorem exhausted_of_delivers_nil {t : T} (h : Delivers t []) : Exhausted t := by
  generalize hbytes : ([] : List Byte) = bytes at h
  cases h with
  | nothing h => exact h
  | chunk _ hne _ => exact absurd (List.append_eq_nil_iff.1 hbytes.symm).1 hne

/-- What is to come starts with the next chunk. -/
theorem read_of_delivers_cons {t : T} {b : Byte} {bytes : List Byte} (h : Delivers t (b :: bytes)) :
    ∃ chunk rest t', read t Stream.bufferSize = (.ok (b :: chunk), t') ∧ Delivers t' rest ∧
      bytes = chunk ++ rest := by
  generalize hall : b :: bytes = all at h
  cases h with
  | nothing _ => cases hall
  | @chunk _ t' first rest hread hne hrest =>
    cases first with
    | nil => exact absurd rfl hne
    | cons c chunk =>
      obtain ⟨rfl, rfl⟩ := List.cons.inj hall
      exact ⟨chunk, rest, t', hread, hrest, rfl⟩

end Transport

/-! ### Streams -/

namespace Stream
open Transport (Delivers)

variable {T : Type} [Transport T]

/-- An open readable stream from which these bytes, and then nothing, are to be read. -/
def Holds (s : Stream T) (ahead : List Byte) : Prop :=
  s.closed = false ∧ s.flags.readable = true ∧
    ∃ rest, Delivers s.transport rest ∧ ahead = s.unread ++ rest

theorem getByte_of_holds_nil {s : Stream T} (h : s.Holds []) :
    ∃ s', s.getByte = (.ok none, s') ∧ s'.Holds [] := by
  obtain ⟨hopen, hreadable, rest, hrest, hall⟩ := h
  obtain ⟨hunread, rfl⟩ := List.append_eq_nil_iff.1 hall.symm
  obtain ⟨hpushback, hbuffer⟩ := List.append_eq_nil_iff.1 hunread
  have hend := Transport.exhausted_of_delivers_nil hrest
  have hread : Transport.read s.transport bufferSize =
      (.ok [], (Transport.read s.transport bufferSize).2) := Prod.ext (hend 0) rfl
  refine ⟨{ s with transport := (Transport.read s.transport bufferSize).2, eof := true }, ?_,
    hopen, hreadable, [], .nothing hend.next, ?_⟩
  · unfold getByte
    rw [hread]
    simp [hopen, hreadable, hpushback, hbuffer]
  · simp [unread, hpushback, hbuffer]

theorem getByte_of_holds_cons {s : Stream T} {b : Byte} {ahead : List Byte}
    (h : s.Holds (b :: ahead)) : ∃ s', s.getByte = (.ok (some b), s') ∧ s'.Holds ahead := by
  obtain ⟨hopen, hreadable, rest, hrest, hall⟩ := h
  cases hpushback : s.pushback with
  | cons c pushback =>
    rw [unread, hpushback] at hall
    obtain ⟨rfl, rfl⟩ := List.cons.inj hall
    exact ⟨{ s with pushback }, by simp [getByte, hopen, hreadable, hpushback],
      hopen, hreadable, rest, hrest, rfl⟩
  | nil =>
    cases hbuffer : s.buffer with
    | cons c buffer =>
      rw [unread, hpushback, hbuffer] at hall
      obtain ⟨rfl, rfl⟩ := List.cons.inj hall
      exact ⟨{ s with buffer }, by simp [getByte, hopen, hreadable, hpushback, hbuffer],
        hopen, hreadable, rest, hrest, by simp [unread, hpushback]⟩
    | nil =>
      rw [unread, hpushback, hbuffer] at hall
      replace hall : b :: ahead = rest := hall
      rw [← hall] at hrest
      obtain ⟨chunk, later, transport, hread, hlater, rfl⟩ := Transport.read_of_delivers_cons hrest
      exact ⟨{ s with transport, buffer := chunk },
        by simp [getByte, hopen, hreadable, hpushback, hbuffer, hread],
        hopen, hreadable, later, hlater, by simp [unread, hpushback]⟩

theorem ungetByte_of_holds {s : Stream T} (b : Byte) {ahead : List Byte} (h : s.Holds ahead) :
    (s.ungetByte b).2.Holds (b :: ahead) := by
  obtain ⟨hopen, hreadable, rest, hrest, rfl⟩ := h
  have hunget : (s.ungetByte b).2 = { s with pushback := b :: s.pushback, eof := false } := by
    simp [ungetByte, hopen, hreadable]
  rw [hunget]
  exact ⟨hopen, hreadable, rest, hrest, rfl⟩

/-- A stream shows what is to be read from it, whatever it has delivered. -/
def view : SourceView (Stream T) where
  shows s _ ahead := s.Holds ahead
  next_end h := getByte_of_holds_nil h
  next_byte h := getByte_of_holds_cons h
  unread h := ungetByte_of_holds _ h

end Stream

/-! ### Scripted files -/

namespace ScriptedFile
open Transport (Delivers Exhausted afterReads)

theorem read_of_no_failure {f : ScriptedFile} (h : f.script.readsUntilFailure = none) (limit : Nat) :
    Transport.read f limit = (.ok (f.readUpTo limit),
      { f with position := f.position + (f.readUpTo limit).length, reads := f.reads + 1 }) := by
  show ScriptedFile.read f limit = _
  simp [ScriptedFile.read, h]

theorem exhausted {f : ScriptedFile} (h : f.script.readsUntilFailure = none)
    (hend : f.data.drop f.position = []) : Exhausted f := by
  intro n
  induction n generalizing f with
  | zero => simp [afterReads, read_of_no_failure h, readUpTo, hend]
  | succ n ih =>
    rw [afterReads, read_of_no_failure h]
    exact ih h (by simp [readUpTo, hend])

/-- Whatever the size of its chunks, a script without read failures delivers the
file from its position on. -/
theorem delivers {f : ScriptedFile} {rest : List Byte} (h : f.script.readsUntilFailure = none)
    (hchunk : f.script.chunk ≠ some 0) (hrest : f.data.drop f.position = rest) :
    Delivers f rest := by
  have hpos : 0 < atMost f.script.chunk Stream.bufferSize := by
    cases hc : f.script.chunk with
    | none => simp [atMost, Stream.bufferSize]
    | some c =>
      have : c ≠ 0 := fun h0 => hchunk (by rw [hc, h0])
      simp only [atMost, Option.map_some, Option.getD_some, Stream.bufferSize]
      omega
  induction hn : rest.length using Nat.strongRecOn generalizing f rest with
  | ind n ih =>
    by_cases hnil : rest = []
    · subst hnil
      exact .nothing (exhausted h hrest)
    · have hread := read_of_no_failure h Stream.bufferSize
      have hsome : 0 < rest.length := List.length_pos_iff.2 hnil
      have hchunk' : f.readUpTo Stream.bufferSize =
          rest.take (atMost f.script.chunk Stream.bufferSize) := by rw [readUpTo, hrest]
      have hlength : 0 < (f.readUpTo Stream.bufferSize).length := by
        rw [hchunk', List.length_take]
        omega
      have hlater : f.data.drop (f.position + (f.readUpTo Stream.bufferSize).length) =
          rest.drop (atMost f.script.chunk Stream.bufferSize) := by
        rw [← List.drop_drop, hrest, hchunk', List.length_take]
        exact List.drop_eq_drop_min.symm
      rw [← List.take_append_drop (atMost f.script.chunk Stream.bufferSize) rest, ← hchunk']
      refine .chunk hread (List.length_pos_iff.1 hlength) (ih _ ?_ h hchunk hlater hpos rfl)
      rw [List.length_drop]
      omega

end ScriptedFile
end CheckedFormat
