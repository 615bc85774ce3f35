import CheckedFormat.Stream.Basic
/-! Files without a buffer.

A `PlainFile` is a store of bytes with one position in it. Reads and writes happen at
the position at once; nothing is read ahead. A pushed byte moves the position back by
one and stands for the byte there until it is read again, or until a write or a seek
discards it. Operations of streams, with what they answer and the indicators that
they leave, are data here, so that a run of them can be put to a stream and to a
plain file alike. -/
namespace CheckedFormat

/-- A file in memory without read-ahead. -/
structure PlainFile where
  data : List Byte
  /-- The offset of the next byte that is read or written. -/
  position : Nat
  /-- The bytes pushed back, the next one first. -/
  pushed : List Byte
  readable : Bool
  writable : Bool
  /-- Every write goes to the end. -/
  append : Bool
  eof : Bool
  error : Bool
  closed : Bool

/-- The front of a text up to the first byte that `last` marks, which is included. -/
def through (last : Byte → Bool) : List Byte → List Byte
  | [] => []
  | b :: rest => b :: if last b then [] else through last rest

@[simp] theorem through_false (bytes : List Byte) : through (fun _ => false) bytes = bytes := by
  induction bytes with
  | nil => rfl
  | cons b rest ih => simp [through, ih]

namespace PlainFile

/-- A file just opened. -/
def opened (initial : List Byte) (flags : OpenFlags) : PlainFile where
  data := if flags.truncate then [] else initial
  position := 0
  pushed := []
  readable := flags.readable
  writable := flags.writable
  append := flags.append
  eof := false
  error := false
  closed := false

/-- What reads deliver from here on. -/
def ahead (f : PlainFile) : List Byte := f.pushed ++ f.data.drop (f.position + f.pushed.length)

/-- The file behind the next bytes. The end indicator is raised where there were fewer
than asked for. -/
def past (f : PlainFile) (count : Nat) (short : Bool) : PlainFile :=
  { f with position := f.position + count, pushed := f.pushed.drop count, eof := f.eof || short }

/-- Why the file cannot be read, if it cannot. -/
def readRefusal? (f : PlainFile) : Option StreamError :=
  if f.closed then some .closed else if f.readable then none else some .notReadable

/-- The file after a transfer that it refused: a closed file does not change. -/
def refused (f : PlainFile) : PlainFile := { f with error := f.error || !f.closed }

/-- Reads up to a number of bytes, or through the first that `last` marks. To read no
bytes is never refused. -/
def readThrough (f : PlainFile) (last : Byte → Bool) (limit : Nat) :
    Stream.Delivery × PlainFile :=
  if limit = 0 then (⟨[], none⟩, f)
  else
    match f.readRefusal? with
    | some e => (⟨[], some e⟩, f.refused)
    | none =>
      let bytes := through last (f.ahead.take limit)
      (⟨bytes, none⟩, f.past bytes.length (bytes.length < limit && !bytes.any last))

def read (f : PlainFile) (limit : Nat) : Stream.Delivery × PlainFile :=
  f.readThrough (fun _ => false) limit

def getByte (f : PlainFile) : Except StreamError (Option Byte) × PlainFile :=
  let (delivery, f) := f.read 1
  match delivery.failure with
  | some e => (.error e, f)
  | none => (.ok delivery.bytes.head?, f)

/-- Pushes a byte back. A file that cannot be read refuses it, without an indicator. -/
def ungetByte (f : PlainFile) (b : Byte) : Except StreamError Unit × PlainFile :=
  match f.readRefusal? with
  | some e => (.error e, f)
  | none => (.ok (), { f with position := f.position - 1, pushed := b :: f.pushed, eof := false })

def readItems (f : PlainFile) (length size : Nat) : Nat × Stream.Delivery × PlainFile :=
  if size = 0 then (0, ⟨[], none⟩, f)
  else
    let (delivery, f) := f.read length
    (delivery.bytes.length / size, delivery, f)

/-- Reads a line into a buffer. A buffer of one byte has room for the empty line
only. -/
def getLine (f : PlainFile) (capacity : Nat) : Stream.LineRead × PlainFile :=
  if capacity = 0 then (⟨.ok none, []⟩, f)
  else if capacity = 1 then (⟨.ok (some 0), [0]⟩, f)
  else
    let (line, f) := f.readThrough (· == 10) (capacity - 1)
    match line.failure, line.bytes with
    | some e, _ => (⟨.error e, []⟩, f)
    | none, [] => (⟨.ok none, []⟩, f)
    | none, bytes => (⟨.ok (some bytes.length), bytes ++ [0]⟩, f)

/-- A store with bytes put over it at an offset; a gap before them is filled with
zeros. -/
def overwrite (data : List Byte) (offset : Nat) (bytes : List Byte) : List Byte :=
  data.take offset ++ List.replicate (offset - data.length) 0 ++ bytes ++
    data.drop (offset + bytes.length)

/-- The file with bytes written. No bytes only discard the pushed ones. -/
def store (f : PlainFile) (bytes : List Byte) : PlainFile :=
  let offset := if f.append then f.data.length else f.position
  if bytes.isEmpty then { f with pushed := [] }
  else
    { f with
      data := overwrite f.data offset bytes
      position := offset + bytes.length
      pushed := [] }

/-- Writes bytes and counts them. -/
def writePartial (f : PlainFile) (bytes : List Byte) : Nat × Option StreamError × PlainFile :=
  if f.closed then (0, some .closed, f)
  else if f.writable then (bytes.length, none, f.store bytes)
  else (0, some .notWritable, f.refused)

def write (f : PlainFile) (bytes : List Byte) : Except StreamError Nat × PlainFile :=
  match f.writePartial bytes with
  | (n, none, f) => (.ok n, f)
  | (_, some e, f) => (.error e, f)

def writeItems (f : PlainFile) (bytes : List Byte) (size : Nat) :
    Nat × Option StreamError × PlainFile :=
  if size = 0 then (0, none, f)
  else
    let (n, failure, f) := f.writePartial bytes
    (n / size, failure, f)

def putByte (f : PlainFile) (b : Byte) : Except StreamError Unit × PlainFile :=
  let (result, f) := f.write [b]
  (result.map fun _ => (), f)

/-- There is nothing to flush. -/
def flush (f : PlainFile) : Except StreamError Unit × PlainFile :=
  (if f.closed then .error .closed else .ok (), f)

/-- The offset that a target names. None lies before the start, and the largest stands
for all beyond it. -/
def offset? (f : PlainFile) (target : SeekTarget) : Option Nat :=
  let offset : Int :=
    match target with
    | .start offset => offset
    | .current delta => f.position + delta
    | .fromEnd delta => f.data.length + delta
  if offset < 0 then none else some (min offset.toNat SeekTarget.furthest)

/-- Moves to an offset, discards what was pushed back and lowers the end indicator. -/
def seek (f : PlainFile) (target : SeekTarget) : Except StreamError Nat × PlainFile :=
  if f.closed then (.error .closed, f)
  else
    match f.offset? target with
    | some offset => (.ok offset, { f with position := offset, pushed := [], eof := false })
    | none => (.error (.transport ⟨.invalidInput, none⟩), f)

def tell (f : PlainFile) : Except StreamError Nat × PlainFile :=
  (if f.closed then .error .closed else .ok f.position, f)

def clearIndicators (f : PlainFile) : PlainFile := { f with eof := false, error := false }

def raiseError (f : PlainFile) : PlainFile := { f with error := true }

/-- Moves to the start, if the file is open, and lowers both indicators. -/
def rewind (f : PlainFile) : Option StreamError × PlainFile :=
  if f.closed then (some .closed, f.clearIndicators)
  else (none, { f with position := 0, pushed := [] }.clearIndicators)

def close (f : PlainFile) : Except StreamError Unit × PlainFile :=
  if f.closed then (.error .closed, f) else (.ok (), { f with pushed := [], closed := true })

end PlainFile

/-! ### Operations as data -/

/-- What can be asked of a stream. -/
inductive Operation where
  | getByte
  | ungetByte (b : Byte)
  | read (limit : Nat)
  | getLine (capacity : Nat)
  | readItems (length size : Nat)
  | write (bytes : List Byte)
  | writeItems (bytes : List Byte) (size : Nat)
  | putByte (b : Byte)
  | putText (bytes : List Byte)
  | flush
  | seek (target : SeekTarget)
  | tell
  | rewind
  | clearIndicators
  | raiseError
  | close
  deriving DecidableEq, Repr

/-- What an operation gives back. -/
inductive Answer where
  | byte (result : Except StreamError (Option Byte))
  | done (result : Except StreamError Unit)
  | number (result : Except StreamError Nat)
  | bytes (delivery : Stream.Delivery)
  | items (count : Nat) (delivery : Stream.Delivery)
  | line (line : Stream.LineRead)
  | sent (count : Nat) (failure : Option StreamError)
  | rewound (failure : Option StreamError)
  | silence

/-- An answer, and the indicators that the operation left. -/
structure Report where
  answer : Answer
  eof : Bool
  error : Bool
  closed : Bool

namespace Operation

/-- The operation on a stream. -/
def onStream {T : Type} [Transport T] (s : Stream T) : Operation → Answer × Stream T
  | getByte => s.getByte.map .byte id
  | ungetByte b => (s.ungetByte b).map .done id
  | read limit => (s.read limit).map .bytes id
  | getLine capacity => (s.getLine capacity).map .line id
  | readItems length size =>
    let (count, delivery, s) := s.readItems length size
    (.items count delivery, s)
  | write bytes | putText bytes => (s.write bytes).map .number id
  | writeItems bytes size =>
    let (count, failure, s) := s.writeItems bytes size
    (.sent count failure, s)
  | putByte b => (s.putByte b).map .done id
  | flush => s.flush.map .done id
  | seek target => (s.seek target).map .number id
  | tell => s.tell.map .number id
  | rewind => s.rewind.map .rewound id
  | clearIndicators => (.silence, s.clearIndicators)
  | raiseError => (.silence, s.raiseError)
  | close => s.close.map .done id

/-- The operation on a plain file. -/
def onFile (f : PlainFile) : Operation → Answer × PlainFile
  | getByte => f.getByte.map .byte id
  | ungetByte b => (f.ungetByte b).map .done id
  | read limit => (f.read limit).map .bytes id
  | getLine capacity => (f.getLine capacity).map .line id
  | readItems length size =>
    let (count, delivery, f) := f.readItems length size
    (.items count delivery, f)
  | write bytes | putText bytes => (f.write bytes).map .number id
  | writeItems bytes size =>
    let (count, failure, f) := f.writeItems bytes size
    (.sent count failure, f)
  | putByte b => (f.putByte b).map .done id
  | flush => f.flush.map .done id
  | seek target => (f.seek target).map .number id
  | tell => f.tell.map .number id
  | rewind => f.rewind.map .rewound id
  | clearIndicators => (.silence, f.clearIndicators)
  | raiseError => (.silence, f.raiseError)
  | close => f.close.map .done id

end Operation

/-- The operation pushes a byte back. -/
def Operation.pushesBack : Operation → Bool
  | ungetByte _ => true
  | _ => false

/-- Puts operations to a stream in turn. Gives their reports and the stream they
leave. -/
def Stream.serve {T : Type} [Transport T] : Stream T → List Operation → List Report × Stream T
  | s, [] => ([], s)
  | s, op :: rest =>
    let (answer, s) := op.onStream s
    let (reports, left) := serve s rest
    (⟨answer, s.eof, s.error, s.closed⟩ :: reports, left)

/-- Puts operations to a plain file in turn. -/
def PlainFile.serve : PlainFile → List Operation → List Report × PlainFile
  | f, [] => ([], f)
  | f, op :: rest =>
    let (answer, f) := op.onFile f
    let (reports, left) := serve f rest
    (⟨answer, f.eof, f.error, f.closed⟩ :: reports, left)

end CheckedFormat
