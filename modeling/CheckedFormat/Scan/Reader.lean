import CheckedFormat.Scan.Source
/-! Reading fields from a source.

A reader counts the bytes it has consumed, less the ones it gave back, and stops
for good at the first read error. Fields come in two kinds: runs of bytes of a
class (`Reader.takeWhile`), and tokens, which a recogniser accepts byte by byte
(`Reader.token`). A token is the longest accepted run within the field width; what
was looked at beyond it is given back, latest first, by a recursion or at the end of
a loop (`TokenPoint`). -/
namespace CheckedFormat

structure Reader (S : Type) where
  source : S
  /-- Bytes obtained and not given back. -/
  consumed : Nat
  /-- The read error that ended the input. -/
  failure : Option StreamError

namespace Reader

variable {S : Type}

/-- A reader at the start of what a source holds. -/
def start (source : S) : Reader S := ⟨source, 0, none⟩

variable [ByteSource S]

/-- The next byte; none at the end of the input and ever after a read error. -/
def get (r : Reader S) : Option Byte × Reader S :=
  match r.failure with
  | some _ => (none, r)
  | none =>
    match ByteSource.next r.source with
    | (.ok (some b), source) => (some b, { r with source, consumed := r.consumed + 1 })
    | (.ok none, source) => (none, { r with source })
    | (.error e, source) => (none, { r with source, failure := some e })

/-- Gives a byte back. -/
def unget (r : Reader S) (b : Byte) : Reader S :=
  { r with source := ByteSource.unread r.source b, consumed := r.consumed - 1 }

def size (r : Reader S) : Nat := ByteSource.size r.source

theorem size_get {r r' : Reader S} {b : Byte} (h : r.get = (some b, r')) : r'.size < r.size := by
  unfold get at h
  split at h
  · simp at h
  · split at h
    · rename_i hn
      simp only [Prod.mk.injEq, Option.some.injEq] at h
      rw [← h.2]
      exact ByteSource.size_next hn
    · simp at h
    · simp at h

/-! ### Runs -/

/-- Skips white space. False when the input ends first. -/
def skipSpace (r : Reader S) : Bool × Reader S :=
  match _h : r.get with
  | (none, r') => (false, r')
  | (some b, r') => if b.isSpace then skipSpace r' else (true, r'.unget b)
  termination_by r.size
  decreasing_by exact size_get _h

/-- A run of bytes, and whether it ended with the input. -/
structure Run where
  bytes : List Byte
  atEnd : Bool
  deriving DecidableEq, Repr

/-- One byte less of a field width. -/
def lessOne (width : Option Nat) : Option Nat := width.map (· - 1)

/-- Takes bytes of a class, at most as many as the width. -/
def takeWhile (keep : Byte → Bool) (width : Option Nat) (r : Reader S) : Run × Reader S :=
  if width = some 0 then (⟨[], false⟩, r)
  else
    match _h : r.get with
    | (none, r') => (⟨[], true⟩, r')
    | (some b, r') =>
      if keep b then
        let (run, r'') := takeWhile keep (lessOne width) r'
        (⟨b :: run.bytes, run.atEnd⟩, r'')
      else (⟨[], false⟩, r'.unget b)
  termination_by r.size
  decreasing_by exact size_get _h

/-- How matching bytes one by one ended. -/
inductive Match where
  | complete
  /-- Another byte stands there. -/
  | mismatch
  | atEnd
  deriving DecidableEq, Repr

/-- Matches the same bytes. A byte that differs is given back. -/
def expect : List Byte → Reader S → Match × Reader S
  | [], r => (.complete, r)
  | want :: rest, r =>
    match r.get with
    | (none, r) => (.atEnd, r)
    | (some b, r) => if b == want then expect rest r else (.mismatch, r.unget b)

end Reader

/-! ### Tokens -/

/-- Recognises tokens of a language byte by byte. -/
structure Recogniser (σ : Type) where
  start : σ
  /-- The state after one more byte, unless no token goes on like that. -/
  step : σ → Byte → Option σ
  /-- Whether the bytes so far are a token. -/
  accepts : σ → Bool

namespace Recogniser

variable {σ : Type}

/-- The state after some bytes. -/
def run (l : Recogniser σ) (state : σ) : List Byte → Option σ
  | [] => some state
  | b :: rest => (l.step state b).bind fun next => run l next rest

/-- Whether the bytes are a token. -/
def recognises (l : Recogniser σ) (token : List Byte) : Bool :=
  ((l.run l.start token).map l.accepts).getD false

/-- The empty token, where it is one. -/
def here (l : Recogniser σ) (state : σ) : Option (List Byte) :=
  if l.accepts state then some [] else none

end Recogniser

namespace Reader

variable {S : Type} [ByteSource S] {σ : Type}

/-- The longest token that goes on from a state, within the width. -/
def tokenFrom (l : Recogniser σ) (state : σ) (width : Option Nat) (r : Reader S) :
    Option (List Byte) × Reader S :=
  if width = some 0 then (l.here state, r)
  else
    match _h : r.get with
    | (none, r') => (l.here state, r')
    | (some b, r') =>
      match l.step state b with
      | none => (l.here state, r'.unget b)
      | some next =>
        match tokenFrom l next (lessOne width) r' with
        | (some rest, r'') => (some (b :: rest), r'')
        | (none, r'') => (l.here state, r''.unget b)
  termination_by r.size
  decreasing_by exact size_get _h

/-- Takes the longest token within the width. Without one, nothing is taken. -/
def token (l : Recogniser σ) (width : Option Nat) (r : Reader S) :
    Option (List Byte) × Reader S :=
  tokenFrom l l.start width r

end Reader

/-! ### Tokens by a loop

The same token is taken by a loop over a buffer. A `TokenPoint` is where the loop stands: the
bytes looked at, what is left of the width, and the length of the longest token among them. In
the end all bytes behind that length are given back at once (`TokenPoint.outcome`). -/

/-- The bytes looked at, and how many more the field width allows. -/
structure TokenBuffer where
  bytes : List Byte
  room : Option Nat

namespace TokenBuffer

variable {S : Type} [ByteSource S]

/-- Looks at one more byte, if the width and the input allow it. -/
def advance (t : TokenBuffer) (r : Reader S) : Option Byte × TokenBuffer × Reader S :=
  if t.room = some 0 then (none, t, r)
  else
    match r.get with
    | (none, r) => (none, t, r)
    | (some b, r) => (some b, ⟨t.bytes ++ [b], Reader.lessOne t.room⟩, r)

/-- How many bytes stand in front of the current one. -/
def here (t : TokenBuffer) (current : Option Byte) : Nat :=
  t.bytes.length - current.toList.length

/-- Takes bytes off the end and gives them back, one by one, until so many are left. -/
def settle (keep : Nat) (bytes : List Byte) (r : Reader S) : List Byte × Reader S :=
  if h : keep < bytes.length then
    settle keep bytes.dropLast (r.unget (bytes.getLast (List.ne_nil_of_length_pos (by omega))))
  else (bytes, r)
  termination_by bytes.length
  decreasing_by
    rw [List.length_dropLast]
    omega

end TokenBuffer

/-- Settles the bytes on the longest token, of which the length is zero where there is none. -/
def Reader.close {S : Type} [ByteSource S] (accepted : Nat) (bytes : List Byte)
    (r : Reader S) : Option (List Byte) × Reader S :=
  (if accepted = 0 then none else some (TokenBuffer.settle accepted bytes r).1,
    (TokenBuffer.settle accepted bytes r).2)

/-- Where the loop for a token stands. -/
structure TokenPoint (σ S : Type) where
  /-- The state behind the bytes in front of the current one. -/
  state : σ
  /-- The byte that was looked at last and not yet taken, unless the width or the input ended. -/
  current : Option Byte
  buffer : TokenBuffer
  /-- The length of the longest token so far, zero where there is none. -/
  accepted : Nat
  reader : Reader S

namespace TokenPoint

variable {σ S : Type} [ByteSource S]

/-- Comes to a state. The next byte is looked at, and what stands in front of it may be a
token. -/
def enter (l : Recogniser σ) (state : σ) (accepted : Nat) (t : TokenBuffer) (r : Reader S) :
    TokenPoint σ S :=
  let (current, buffer, reader) := t.advance r
  ⟨state, current, buffer, if l.accepts state then buffer.here current else accepted, reader⟩

/-- The loop goes on while the current byte does. -/
def next? (l : Recogniser σ) (p : TokenPoint σ S) : Option (TokenPoint σ S) :=
  (p.current.bind (l.step p.state)).map fun state => enter l state p.accepted p.buffer p.reader

/-- Settles the buffer on the longest token. -/
def outcome (p : TokenPoint σ S) : Option (List Byte) × Reader S :=
  p.reader.close p.accepted p.buffer.bytes

end TokenPoint
end CheckedFormat
