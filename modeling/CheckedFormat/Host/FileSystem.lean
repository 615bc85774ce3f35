import CheckedFormat.Stream.Mode
import CheckedFormat.Stream.Transport
/-! The operating system behind a program.

A program asks the system to open paths, and what it gets are descriptors, over which
streams run. The system is a parameter (`FileSystem`). It has all files in one state, so
what is done through a descriptor may change what others see, and it opens a path or
refuses it for reasons of its own. It sees the path and the request, and never the
streams of the program. -/
namespace CheckedFormat
namespace Host

/-- What a descriptor is for. -/
inductive Access where
  | readOnly
  | writeOnly
  | readWrite
  deriving DecidableEq, Repr

/-- What the system is asked for with a path. -/
structure OpenRequest where
  access : Access
  /-- The file is made when it is missing. -/
  create : Bool
  /-- The file is emptied. -/
  truncate : Bool
  /-- Every write goes to the end. -/
  append : Bool
  /-- A file that is to be made must not exist yet. -/
  exclusive : Bool
  /-- The descriptor is not passed on to other programs. -/
  closeOnExec : Bool
  /-- What is allowed on a file that is made. -/
  permissions : Nat
  deriving DecidableEq, Repr

/-- What a stream asks for. -/
def OpenRequest.ofFlags (flags : OpenFlags) : OpenRequest where
  access :=
    match flags.readable, flags.writable with
    | true, true => .readWrite
    | false, true => .writeOnly
    | _, false => .readOnly
  create := flags.create
  truncate := flags.truncate
  append := flags.append
  exclusive := flags.exclusive
  closeOnExec := true
  permissions := 0o666

/-- A descriptor at work on the files. -/
structure OpenFile (F D : Type) where
  descriptor : D
  files : F
  deriving DecidableEq, Repr

/-- A system whose files are in a state `F` and whose descriptors are of the type `D`. A
descriptor together with the files is a transport. -/
class FileSystem (F : outParam Type) (D : Type) extends Transport (OpenFile F D) where
  /-- Opens a path, or says why not. -/
  openPath : F → (path : List Byte) → OpenRequest → Except Errno D × F

end Host
end CheckedFormat
