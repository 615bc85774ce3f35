import CheckedFormat.Host.FileSystem
import CheckedFormat.Keyed
import CheckedFormat.Path
import CheckedFormat.Text.Utf8
/-! The file system that programs are run on.

There is one directory with files in it, what lies above it, and the three standard
files. A descriptor is a position in a file; any number of them may be at work on
one file. Nothing about calls rests on this system: it is the one under which a
program runs that is given its files as a table. -/
namespace CheckedFormat
namespace Host

/-- Where names are looked up. -/
inductive Place where
  /-- In the directory. -/
  | inside
  /-- Above the directory, however far. -/
  | above
  deriving DecidableEq, Repr

/-- What a descriptor is opened on. -/
inductive Node where
  | input
  | output
  | errors
  /-- A file with a name. -/
  | entry (place : Place) (name : String)
  | directory
  deriving DecidableEq, Repr

/-- The contents of all files. -/
structure Files where
  input : List Byte
  output : List Byte
  errors : List Byte
  /-- The files in the directory. -/
  entries : Keyed (List Byte)
  /-- The files above the directory. -/
  outside : Keyed (List Byte)
  deriving DecidableEq, Repr

namespace Files

/-- The files that names in a place mean. -/
def named (files : Files) : Place → Keyed (List Byte)
  | .inside => files.entries
  | .above => files.outside

/-- Whether a place has a file of a name. -/
def has (files : Files) (place : Place) (name : String) : Bool :=
  (files.named place).any (·.1 == name)

def contents (files : Files) : Node → List Byte
  | .input => files.input
  | .output => files.output
  | .errors => files.errors
  | .entry place name => (((files.named place).find? (·.1 == name)).map (·.2)).getD []
  | .directory => []

/-- The files with new contents of one. -/
def replace (files : Files) (node : Node) (contents : List Byte) : Files :=
  match node with
  | .input => { files with input := contents }
  | .output => { files with output := contents }
  | .errors => { files with errors := contents }
  | .entry .inside name => { files with entries := files.entries.insert name contents }
  | .entry .above name => { files with outside := files.outside.insert name contents }
  | .directory => files

end Files

/-! ### Descriptors -/

/-- An open file, apart from its contents. -/
structure Descriptor where
  node : Node
  position : Nat
  /-- Every write goes to the end. -/
  append : Bool
  writable : Bool
  /-- Whether the file has positions; a pipe has none. -/
  seekable : Bool
  deriving DecidableEq, Repr

namespace Descriptor

/-- A descriptor at the start of a file. -/
def start (node : Node) : Descriptor := ⟨node, 0, false, true, true⟩

end Descriptor

/-! ### Transfers -/

/-- A descriptor at work on the files of the directory. -/
abbrev PlacedFile := OpenFile Files Descriptor

namespace PlacedFile

def contents (f : PlacedFile) : List Byte := f.files.contents f.descriptor.node

def moveTo (f : PlacedFile) (position : Nat) : PlacedFile :=
  { f with descriptor := { f.descriptor with position } }

def upcoming (f : PlacedFile) (limit : Nat) : List Byte :=
  (f.contents.drop f.descriptor.position).take limit

def read (f : PlacedFile) (limit : Nat) : Except TransportFailure (List Byte) × PlacedFile :=
  if f.descriptor.node = .directory then (.error ⟨.isDirectory, some Errno.isDirectory⟩, f)
  else (.ok (f.upcoming limit), f.moveTo (f.descriptor.position + (f.upcoming limit).length))

def write (f : PlacedFile) (bytes : List Byte) : Except TransportFailure Nat × PlacedFile :=
  if !f.descriptor.writable then (.error ⟨.uncategorized, some Errno.badDescriptor⟩, f)
  else
    let position := if f.descriptor.append then f.contents.length else f.descriptor.position
    let files := f.files.replace f.descriptor.node (writeAt f.contents position bytes)
    (.ok bytes.length, moveTo { f with files } (position + bytes.length))

/-- The offset of a target, if it is one that a file can have. -/
def offset? (f : PlacedFile) (target : SeekTarget) : Option Nat :=
  let offset : Int :=
    match target with
    | .start offset => offset
    | .current delta => f.descriptor.position + delta
    | .fromEnd delta => f.contents.length + delta
  if offset < 0 ∨ (SeekTarget.furthest : Int) < offset then none else some offset.toNat

def seek (f : PlacedFile) (target : SeekTarget) : Except TransportFailure Nat × PlacedFile :=
  if !f.descriptor.seekable then (.error ⟨.notSeekable, some Errno.illegalSeek⟩, f)
  else
    match f.offset? target with
    | some offset => (.ok offset, f.moveTo offset)
    | none => (.error ⟨.invalidInput, some Errno.invalidArgument⟩, f)

instance : Transport PlacedFile where
  read := read
  write := write
  seek := seek
  flush f := (.ok (), f)
  close f := (.ok (), f)
  pending f := f.contents.length - f.descriptor.position
  pending_read {f f' limit bytes} h := by
    unfold read at h
    split at h
    · cases h
    · cases h
      simp only [upcoming, moveTo, contents, List.length_take, List.length_drop]
      omega

end PlacedFile

/-! ### Opening

A path is a text as far as its first zero, and is walked name by name. A name of one dot
stays where it is, one of two dots leads above the directory, and any other on the way would
have to be a directory, which no file is. A path that ends in dots, or before its first name,
is a directory, and a directory opens for reading only. -/

namespace Files

/-- Why no path leads on through a name. -/
def obstacle (files : Files) (place : Place) (name : String) : Errno :=
  if Path.longestName < name.utf8ByteSize then Errno.nameTooLong
  else if files.has place name then Errno.notDirectory
  else Errno.noEntry

/-- Where a path is behind a name on the way. -/
def enter (files : Files) (place : Place) (name : String) : Except Errno Place :=
  if name = "." then .ok place
  else if name = ".." then .ok .above
  else .error (files.obstacle place name)

/-- Opens a directory, by dots or by its own name. A name that has to be new is
refused for the dots, which are there. -/
def openDirectory (files : Files) (request : OpenRequest) (dots : Bool) :
    Except Errno (Descriptor × Files) :=
  if dots && request.create && request.exclusive then .error Errno.alreadyExists
  else if request.create || request.access ≠ .readOnly then .error Errno.isDirectory
  else .ok (.start .directory, files)

/-- Opens a file by its name. A new file is empty, and so is a truncated one. -/
def openEntry (files : Files) (request : OpenRequest) (place : Place) (name : String) :
    Except Errno (Descriptor × Files) :=
  let node := Node.entry place name
  let descriptor := { Descriptor.start node with append := request.append }
  if Path.longestName < name.utf8ByteSize then .error Errno.nameTooLong
  else if files.has place name then
    if request.create && request.exclusive then .error Errno.alreadyExists
    else if request.truncate then .ok (descriptor, files.replace node [])
    else .ok (descriptor, files)
  else if request.create then .ok (descriptor, files.replace node [])
  else .error Errno.noEntry

/-- Opens a path as requested. -/
def openText (files : Files) (text : String) (request : OpenRequest) :
    Except Errno (Descriptor × Files) := do
  if !Path.fits text then .error Errno.nameTooLong
  let path := Path.ofText text
  let place ← path.names.dropLast.foldlM files.enter .inside
  match path.names.getLast? with
  | none => files.openDirectory request false
  | some name =>
    if Path.isDots name then files.openDirectory request true
    else if !path.trailing then files.openEntry request place name
    else if request.create then .error Errno.isDirectory
    else .error (files.obstacle place name)

/-- Opens the path that bytes spell. All names are texts, so bytes that spell none are
no path to a file. -/
def openPath (files : Files) (path : List Byte) (request : OpenRequest) :
    Except Errno Descriptor × Files :=
  match Utf8.decode? (upToNul path) with
  | none => (.error Errno.noEntry, files)
  | some text =>
    match files.openText text request with
    | .ok (descriptor, files) => (.ok descriptor, files)
    | .error e => (.error e, files)

end Files

instance : FileSystem Files Descriptor where
  openPath := Files.openPath

end Host
end CheckedFormat
