import CheckedFormat.Proofs.PlainFile
import CheckedFormat.Proofs.Sources
/-! Texts read line by line.

Reading a line takes the bytes through the next newline, or as many as the buffer has
room for, or what is left. Where it finds nothing it leaves the buffer alone. So calls that
go on until one finds nothing cut the text into pieces, each in a buffer of its own, and no
byte is lost or given twice where one piece ends and the next begins, wherever the chunks of
the transport end (`lines_reassemble`). -/
namespace CheckedFormat

/-! ### The front of a text -/

section Fronts
variable (last : Byte → Bool) (text : List Byte)

theorem through_prefix : through last text <+: text := by
  induction text with
  | nil => exact List.prefix_rfl
  | cons b rest ih =>
    rw [through]
    split
    · exact ⟨rest, rfl⟩
    · exact (List.prefix_cons_inj b).2 ih

theorem through_eq_nil_iff : through last text = [] ↔ text = [] := by
  cases text <;> simp [through]

/-- Only the last byte of the front may be marked. -/
theorem unmarked_of_mem_dropLast {b : Byte} (h : b ∈ (through last text).dropLast) :
    last b = false := by
  induction text with
  | nil => cases h
  | cons c rest ih =>
    rw [through] at h
    cases hlast : last c with
    | true =>
      rw [hlast] at h
      cases h
    | false =>
      rw [hlast, if_neg Bool.false_ne_true] at h
      cases hrest : through last rest with
      | nil =>
        rw [hrest] at h
        cases h
      | cons d front =>
        rw [hrest, List.dropLast_cons_cons] at h
        rcases List.mem_cons.1 h with rfl | hmem
        · exact hlast
        · exact ih (hrest ▸ hmem)

/-- A front that does not end with a marked byte is the whole text. -/
theorem through_eq_self (h : ∀ b, (through last text).getLast? = some b → last b = false) :
    through last text = text := by
  induction text with
  | nil => rfl
  | cons c rest ih =>
    rw [through] at h ⊢
    cases hlast : last c with
    | true =>
      rw [hlast] at h
      exact absurd (h c rfl) (by rw [hlast]; exact Bool.noConfusion)
    | false =>
      rw [hlast, if_neg Bool.false_ne_true] at h
      rw [if_neg Bool.false_ne_true, ih]
      intro b hb
      refine h b ?_
      rw [List.getLast?_cons, hb]
      rfl

end Fronts

namespace Stream
variable {T : Type} [Transport T] {s t : Stream T}

/-! ### One line -/

/-- A stream that finds no byte raises the end indicator. -/
theorem eof_of_getByte_none (h : s.getByte = (.ok none, t)) : t.eof = true := by
  unfold getByte at h
  split at h
  · cases h
  · split at h
    · cases h
    · split at h
      · cases h
      · split at h
        · cases h
        · split at h <;> cases h
          rfl

/-- Reading stops behind the first byte that is marked, at the limit or at the end, and
leaves what is behind it to be read. -/
theorem takeUntil_of_holds (last : Byte → Bool) (limit : Nat) {ahead : List Byte}
    (h : s.Holds ahead) :
    ∃ t, takeUntil last limit s = (⟨through last (ahead.take limit), none⟩, t) ∧
      t.Holds (ahead.drop (through last (ahead.take limit)).length) := by
  induction limit generalizing s ahead with
  | zero => exact ⟨s, rfl, h⟩
  | succ limit ih =>
    cases ahead with
    | nil =>
      obtain ⟨t, hget, hholds⟩ := getByte_of_holds_nil h
      exact ⟨t, by rw [takeUntil, hget]; rfl, hholds⟩
    | cons b rest =>
      obtain ⟨t, hget, hholds⟩ := getByte_of_holds_cons h
      rw [List.take_succ_cons, through]
      cases hlast : last b with
      | true => exact ⟨t, by simp [takeUntil, hget, hlast], hholds⟩
      | false =>
        obtain ⟨u, htake, hleft⟩ := ih hholds
        exact ⟨u, by simp [takeUntil, hget, hlast, htake], hleft⟩

/-- Reads a line into a buffer. Gives its length, or none at the end, and the buffer as it
is then. -/
def gets (s : Stream T) (buffer : List Byte) :
    Except StreamError (Option Nat) × List Byte × Stream T :=
  let (line, s) := s.getLine buffer.length
  (line.length, overlay line.stored buffer, s)

/-- What a line of a text is that is read into a buffer of this size: some bytes, fewer than
the size, with a newline at most at the end. -/
structure IsLine (size : Nat) (line : List Byte) : Prop where
  some : line ≠ []
  fits : line.length ≤ size - 1
  newline : ∀ b ∈ line.dropLast, b ≠ 10

/-- With nothing to be read the buffer stays as it is, and the end indicator is raised. -/
theorem gets_of_holds_nil {buffer : List Byte} (h : s.Holds []) (hsize : 2 ≤ buffer.length) :
    ∃ t, s.gets buffer = (.ok none, buffer, t) ∧ t.eof = true := by
  obtain ⟨t, hget, -⟩ := getByte_of_holds_nil h
  obtain ⟨room, hroom⟩ : ∃ room, buffer.length = room + 2 := ⟨_, (Nat.sub_add_cancel hsize).symm⟩
  refine ⟨t, ?_, eof_of_getByte_none hget⟩
  simp [gets, getLine, hroom, takeUntil, hget, overlay]

/-- With something to be read the buffer gets a line of it and a zero byte; the line ends
before its newline and before the buffer is full only where the text ends. -/
theorem gets_of_holds {buffer ahead : List Byte} (h : s.Holds ahead) (hsome : ahead ≠ [])
    (hsize : 2 ≤ buffer.length) :
    ∃ line rest t, ahead = line ++ rest ∧
      s.gets buffer = (.ok (some line.length), line ++ 0 :: buffer.drop (line.length + 1), t) ∧
      t.Holds rest ∧ IsLine buffer.length line ∧
      (line.length < buffer.length - 1 → line.getLast? ≠ some 10 → rest = []) := by
  obtain ⟨t, htake, hholds⟩ := takeUntil_of_holds (· == 10) (buffer.length - 1) h
  generalize hline : through (· == 10) (ahead.take (buffer.length - 1)) = line at htake hholds
  have hprefix : line <+: ahead.take (buffer.length - 1) := hline ▸ through_prefix _ _
  have hnonempty : line ≠ [] := by
    rw [← hline, Ne, through_eq_nil_iff, List.take_eq_nil_iff]
    rintro (hzero | hnil)
    · omega
    · exact hsome hnil
  refine ⟨line, ahead.drop line.length, t, ?_, ?_, hholds, ⟨hnonempty, ?_, ?_⟩, ?_⟩
  · obtain ⟨rest, rfl⟩ := hprefix.trans (List.take_prefix _ _)
    rw [List.drop_left]
  · have hzero : buffer.length ≠ 0 := by omega
    simp [gets, getLine, hzero, htake, hnonempty, overlay]
  · exact Nat.le_trans hprefix.length_le (List.length_take_le _ _)
  · intro b hb
    rw [← hline] at hb
    simpa using unmarked_of_mem_dropLast _ _ hb
  · intro hshort hlast
    have hwhole : line = ahead.take (buffer.length - 1) := by
      rw [← hline]
      refine through_eq_self _ _ fun b hb => ?_
      rw [hline] at hb
      simpa using fun h10 : b = 10 => hlast (h10 ▸ hb)
    rw [hwhole, List.length_take] at hshort
    rw [List.drop_eq_nil_iff, hwhole, List.length_take]
    omega

/-! ### Line by line -/

/-- The stream when so many lines were read, each into a buffer of its own. -/
def afterLines (s : Stream T) (buffers : Nat → List Byte) : Nat → Stream T
  | 0 => s
  | n + 1 => afterLines (s.gets (buffers 0)).2.2 (fun i => buffers (i + 1)) n

/-- What the `n`th call gives, counted from zero. -/
def lineRead (s : Stream T) (buffers : Nat → List Byte) (n : Nat) :
    Except StreamError (Option Nat) × List Byte × Stream T :=
  (s.afterLines buffers n).gets (buffers n)

/-- Calls until one finds nothing give the text in these lines. -/
structure Reassembles (s : Stream T) (buffers : Nat → List Byte) (text : List Byte)
    (lines : List (List Byte)) : Prop where
  joined : lines.flatten = text
  isLine : ∀ (n : Nat) (h : n < lines.length), IsLine (buffers n).length lines[n]
  /-- A call gives the length of its line; the buffer starts with the line and a zero byte,
  and behind them it is what it was. -/
  given : ∀ (n : Nat) (h : n < lines.length), ∃ t, s.lineRead buffers n =
    (.ok (some lines[n].length),
      lines[n] ++ 0 :: (buffers n).drop (lines[n].length + 1), t)
  /-- A line that does not fill its buffer and has no newline is the last one. -/
  short : ∀ (n : Nat) (h : n < lines.length), lines[n].length < (buffers n).length - 1 →
    lines[n].getLast? ≠ some 10 → n + 1 = lines.length
  /-- The call behind the last line finds nothing and leaves its buffer alone. -/
  ended : ∃ t, s.lineRead buffers lines.length = (.ok none, buffers lines.length, t) ∧
    t.eof = true

/-- One line, and then the others. -/
theorem Reassembles.cons {buffers : Nat → List Byte} {line rest : List Byte}
    {lines : List (List Byte)}
    (hgets : s.gets (buffers 0) =
      (.ok (some line.length), line ++ 0 :: (buffers 0).drop (line.length + 1), t))
    (hline : IsLine (buffers 0).length line)
    (hshort : line.length < (buffers 0).length - 1 → line.getLast? ≠ some 10 → rest = [])
    (h : t.Reassembles (fun i => buffers (i + 1)) rest lines) :
    s.Reassembles buffers (line ++ rest) (line :: lines) := by
  have hlater (n : Nat) : s.lineRead buffers (n + 1) =
      t.lineRead (fun i => buffers (i + 1)) n := by
    simp only [lineRead, afterLines, hgets]
  refine ⟨congrArg (line ++ ·) h.joined, ?_, ?_, ?_, ?_⟩
  · rintro (_ | n) hn
    · exact hline
    · exact h.isLine n (Nat.lt_of_succ_lt_succ hn)
  · rintro (_ | n) hn
    · exact ⟨t, hgets⟩
    · rw [hlater]
      exact h.given n (Nat.lt_of_succ_lt_succ hn)
  · rintro (_ | n) hn hroom hlast
    · have hnone : lines.flatten = [] := h.joined.trans (hshort hroom hlast)
      cases lines with
      | nil => rfl
      | cons next _ =>
        exact absurd (List.append_eq_nil_iff.1 hnone).1 (h.isLine 0 (Nat.succ_pos _)).some
    · exact congrArg (· + 1) (h.short n (Nat.lt_of_succ_lt_succ hn) hroom hlast)
  · rw [List.length_cons, hlater]
    exact h.ended

/-- **Reading line by line gives the text back.** Whatever the transport's chunks and the
sizes of the buffers, the lines joined are the text that was to be read, each stands in its
buffer with a zero byte behind it, and the call that finds nothing more changes no byte. -/
theorem lines_reassemble {text : List Byte} (buffers : Nat → List Byte) (h : s.Holds text)
    (hsizes : ∀ n, 2 ≤ (buffers n).length) : ∃ lines, s.Reassembles buffers text lines := by
  induction hlength : text.length using Nat.strongRecOn generalizing s text buffers with
  | ind n ih =>
    by_cases hsome : text = []
    · subst hsome
      refine ⟨[], rfl, ?_, ?_, ?_, gets_of_holds_nil h (hsizes 0)⟩ <;> exact nofun
    · obtain ⟨line, rest, t, rfl, hgets, hholds, hline, hshort⟩ := gets_of_holds h hsome (hsizes 0)
      have hpositive := List.length_pos_iff.2 hline.some
      rw [List.length_append] at hlength
      obtain ⟨lines, hlines⟩ := ih rest.length (by omega) (fun i => buffers (i + 1)) hholds
        (fun i => hsizes (i + 1)) rfl
      exact ⟨line :: lines, .cons hgets hline hshort hlines⟩

/-- Chunks of two bytes behind one that was taken back, and buffers of four bytes and three
by turns: one line fits, one is cut, and the last has no newline. -/
theorem lines_of_small_chunks :
    let file : ScriptedFile := ⟨ascii "\nabcd\nz", 0,
      ⟨some 2, none, none, none, false, false, false, ⟨.named "Other", none⟩⟩, 0, 0⟩
    let s : Stream ScriptedFile := { wrap file .readOnly with pushback := ascii "x" }
    let buffers : Nat → List Byte := fun n => List.replicate (4 - n % 2) 255
    s.Holds (ascii "x\nabcd\nz") ∧ (∀ n, 2 ≤ (buffers n).length) ∧
      ∃ lines, s.Reassembles buffers (ascii "x\nabcd\nz") lines := by
  intro file s buffers
  have hholds : s.Holds (ascii "x\nabcd\nz") :=
    ⟨rfl, rfl, ascii "\nabcd\nz", ScriptedFile.delivers rfl (by decide) (by decide), by decide⟩
  have hsizes : ∀ n, 2 ≤ (buffers n).length := by
    intro n
    rw [List.length_replicate]
    omega
  exact ⟨hholds, hsizes, lines_reassemble buffers hholds hsizes⟩

end Stream
end CheckedFormat
