import CheckedFormat.Stream.Basic
/-! Sources of bytes for scanning.

A source delivers bytes one at a time and takes back the ones that were looked at
too far ahead, latest first. It holds finitely many: `size` shrinks with every
byte that it delivers. A text is a source, and so is a stream. -/
namespace CheckedFormat

class ByteSource (S : Type) where
  /-- The next byte, or none at the end. -/
  next : S → Except StreamError (Option Byte) × S
  /-- Takes back the byte that was delivered last. -/
  unread : S → Byte → S
  /-- A bound on the bytes still to come. -/
  size : S → Nat
  size_next : ∀ {s s' b}, next s = (.ok (some b), s') → size s' < size s

/-- A text as a source: a place in it, kept as the bytes on either side. -/
structure TextSource where
  split ::
  /-- The bytes consumed, the latest first. -/
  behind : List Byte
  /-- The bytes not yet consumed. -/
  remaining : List Byte
  deriving DecidableEq, Repr

namespace TextSource

/-- A text of which nothing is consumed. -/
def mk (text : List Byte) : TextSource := ⟨[], text⟩

def next : TextSource → Except StreamError (Option Byte) × TextSource
  | ⟨behind, []⟩ => (.ok none, ⟨behind, []⟩)
  | ⟨behind, b :: rest⟩ => (.ok (some b), ⟨b :: behind, rest⟩)

/-- One place back. The text itself says which byte stands there. -/
def stepBack : TextSource → TextSource
  | ⟨[], ahead⟩ => ⟨[], ahead⟩
  | ⟨b :: behind, ahead⟩ => ⟨behind, b :: ahead⟩

instance : ByteSource TextSource where
  next := next
  unread s _ := s.stepBack
  size s := s.remaining.length
  size_next {s s' b} h := by
    rcases s with ⟨behind, _ | ⟨c, rest⟩⟩
    · simp [next] at h
    · simp only [next, Prod.mk.injEq] at h
      rw [← h.2]
      simp

end TextSource

namespace Stream

variable {T : Type} [Transport T]

theorem available_getByte {s s' : Stream T} {b : Byte}
    (h : s.getByte = (.ok (some b), s')) : s'.available < s.available := by
  unfold getByte at h
  split at h
  · simp at h
  · split at h
    · simp at h
    · split at h
      · rename_i hp
        simp only [Prod.mk.injEq] at h
        rw [← h.2]
        simp only [available, unread, hp, List.length_append, List.length_cons]
        omega
      · rename_i hp
        split at h
        · rename_i hb
          simp only [Prod.mk.injEq] at h
          rw [← h.2]
          simp [available, unread, hp, hb]
        · rename_i hb
          split at h
          · simp at h
          · rename_i hr
            have hr := Transport.pending_read hr
            simp only [Prod.mk.injEq] at h
            rw [← h.2]
            simp only [available, unread, hp, hb, List.length_append, List.length_nil,
              List.length_cons] at *
            omega
          · simp at h

instance : ByteSource (Stream T) where
  next := getByte
  unread s b := (s.ungetByte b).2
  size := available
  size_next := available_getByte

end Stream
end CheckedFormat
