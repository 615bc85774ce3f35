import CheckedFormat.Host.Stdio
import CheckedFormat.Host.Variadic
import CheckedFormat.Print.Render
import CheckedFormat.Scan.Engine
/-! Printing and scanning calls of a program.

Each family has a direct form, which takes the arguments themselves, and a list
form, which takes the handle of a list. Both do the same with the list once they
have it. A call that fails gives minus one and sets the error number. -/
namespace CheckedFormat
namespace Host
namespace Session

variable {F D : Type} [FileSystem F D]

/-! ### Arguments -/

/-- An operation of a formatted call on its argument list. -/
abbrev OnList (α : Type) (F : Type := Files) (D : Type := Descriptor) :=
  ArgumentList → Session F D → α × ArgumentList × Session F D

/-- The direct form: opens a list over the arguments for the call alone. -/
def withArguments (format : Text) (arguments : ArgumentArray) (f : List Byte → OnList Int F D) :
    Call Int F D := fun s =>
  match format, arguments.list? s.level with
  | some format, some list =>
    let (result, _, s) := f format list s
    (result, s)
  | _, _ => fail Errno.invalidArgument eof s

/-- The list form: uses the list behind a handle. -/
def withFormat (format : Text) (list : Nat) (operation : String) (f : List Byte → OnList Int F D) :
    Call Int F D := fun s =>
  match format with
  | none => fail Errno.invalidArgument eof s
  | some format => withList list operation eof (f format) s

/-! ### Printing -/

/-- Prints to the stream behind a handle. -/
def printTo (stream : Nat) (format : List Byte) : OnList Int F D := fun list s =>
  let ((result, list), s) := withStream stream (eof, list) (fun stream s =>
    match Print.formatTo stream format (s.frame list) with
    | (.ok n, stream, frame) => (((n : Int), frame.arguments), stream, s.after frame)
    | (.error e, stream, frame) =>
      ((eof, frame.arguments), stream, { s.after frame with errno := e.errno })) s
  (result, list, s)

/-- Prints into the memory at an address what `shown` gives of the output. -/
def printAt (address : Nat) (shown : List Byte → List Byte) (format : List Byte) : OnList Int F D :=
  fun list s =>
    match Print.format format (s.frame list) with
    | (.ok output, frame) =>
      (output.length, frame.arguments, (s.after frame).store address (shown output))
    | (.error e, frame) => (eof, frame.arguments, { s.after frame with errno := e.errno })

/-- Prints into a buffer of a size; only one without room may be null. -/
def printInto (buffer size : Nat) (format : List Byte) : OnList Int F D := fun list s =>
  if buffer = null ∧ 0 < size then (eof, list, { s with errno := Errno.invalidArgument })
  else printAt buffer (Print.truncated size) format list s

def fprintf (stream : Nat) (format : Text) (arguments : ArgumentArray) : Call Int F D :=
  withArguments format arguments (printTo stream)

def printf (format : Text) (arguments : ArgumentArray) : Call Int F D :=
  fprintf stdout format arguments

def vfprintf (stream : Nat) (format : Text) (list : Nat) : Call Int F D :=
  withFormat format list "vfprintf" (printTo stream)

/-- Prints into a buffer that is promised to be large enough. -/
def sprintf (buffer : Nat) (format : Text) (arguments : ArgumentArray) : Call Int F D :=
  if buffer = null then fail Errno.invalidArgument eof
  else withArguments format arguments (printAt buffer (· ++ [0]))

def snprintf (buffer size : Nat) (format : Text) (arguments : ArgumentArray) : Call Int F D :=
  withArguments format arguments (printInto buffer size)

def vsnprintf (buffer size : Nat) (format : Text) (list : Nat) : Call Int F D :=
  withFormat format list "vsnprintf" (printInto buffer size)

/-! ### Scanning -/

/-- The result of a scanning call. A read error sets the error number even when some
fields were stored. -/
def scanResult (result : Except ScanError ScanOutcome) (s : Session F D) :
    Int × Session F D :=
  match result with
  | .ok o => (o.value, { s with errno := (o.failure.map (·.errno)).getD s.errno })
  | .error e => (eof, { s with errno := e.errno })

/-- Scans the stream behind a handle. -/
def scanFrom (stream : Nat) (format : List Byte) : OnList Int F D := fun list s =>
  let ((result, list), s) := withStream stream (eof, list) (fun stream s =>
    let (result, stream, frame) := Scan.scan stream format (s.frame list)
    let (value, s) := scanResult result (s.after frame)
    ((value, frame.arguments), stream, s)) s
  (result, list, s)

/-- Scans a text. -/
def scanText (input format : List Byte) : OnList Int F D := fun list s =>
  let (result, frame) := Scan.scanString input format (s.frame list)
  let (value, s) := scanResult result (s.after frame)
  (value, frame.arguments, s)

def fscanf (stream : Nat) (format : Text) (arguments : ArgumentArray) : Call Int F D :=
  withArguments format arguments (scanFrom stream)

def scanf (format : Text) (arguments : ArgumentArray) : Call Int F D :=
  fscanf stdin format arguments

def vfscanf (stream : Nat) (format : Text) (list : Nat) : Call Int F D :=
  withFormat format list "vfscanf" (scanFrom stream)

def sscanf (input format : Text) (arguments : ArgumentArray) : Call Int F D :=
  match input with
  | none => fail Errno.invalidArgument eof
  | some input => withArguments format arguments (scanText input)

end Session
end Host
end CheckedFormat
