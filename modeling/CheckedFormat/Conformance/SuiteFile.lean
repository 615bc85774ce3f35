import CheckedFormat.Conformance.Case
import CheckedFormat.Digest.Sha256
import CheckedFormat.Path
/-! Suites in the files of a directory.

Every file whose name ends in `.json`, with something before it, is a suite; they
are loaded in the order of their names. -/
namespace CheckedFormat
namespace Conformance

/-- A file of a directory. -/
structure NamedFile where
  name : String
  data : List Byte
  deriving DecidableEq, Repr

/-- A suite with where it came from. -/
structure SuiteFile where
  /-- The path of the file from the directory. -/
  path : String
  /-- The digest of the file. -/
  sha256 : String
  suite : Suite
  deriving DecidableEq, Repr

/-- Why suites cannot be loaded. -/
inductive LoadError where
  /-- The path cannot be read. -/
  | unreadable (path : String)
  /-- The file holds no suite. -/
  | malformed (path : String)
  /-- The directory holds no file of the kind. -/
  | noSuites (directory : String)
  deriving DecidableEq, Repr

/-- The message about a directory without suites. -/
def noSuitesMessage (directory : String) : String :=
  s!"no fixture JSON files found in {directory}"

/-- Whether a file name ends in `.json` behind at least one other character. -/
def isSuiteName (name : String) : Bool :=
  match name.toList.reverse with
  | 'n' :: 'o' :: 's' :: 'j' :: '.' :: _ :: _ => true
  | _ => false

/-- The path of an entry of a folder. A folder without a path is where paths start. -/
def entryPath (folder entry : String) : String :=
  if folder.isEmpty || folder.toList.getLast? == some '/' then folder ++ entry
  else folder ++ "/" ++ entry

/-- Loads the suite of a file in a folder, whose path starts at the directory. -/
def SuiteFile.load (directory folder : String) (file : NamedFile) :
    Except LoadError SuiteFile :=
  let path := entryPath folder file.name
  match Suite.parse? file.data with
  | some suite => .ok ⟨path, Sha256.hexDigest file.data, suite⟩
  | none => .error (.malformed (entryPath directory path))

/-- Loads every suite of a folder. -/
def loadFolder (directory folder : String) (files : List NamedFile) :
    Except LoadError (List SuiteFile) :=
  (files.mergeSort fun a b => a.name ≤ b.name).mapM (SuiteFile.load directory folder)

/-- Loads every suite of a directory. -/
def loadSuites (directory : String) (files : List NamedFile) : Except LoadError (List SuiteFile) :=
  let suites := files.filter (isSuiteName ·.name)
  if suites.isEmpty then .error (.noSuites directory) else loadFolder directory "" suites

/-- Whether a path starts at the root of all directories. -/
def isAbsolute (path : String) : Bool := path.toList.head? == some '/'

/-- Loads every suite of an entry of a directory. The directory holds files only, so
nothing but dots leads to a directory again: one to the same, two above it, where no
suites are. -/
def loadEntry (directory entry : String) (files : List NamedFile) :
    Except LoadError (List SuiteFile) :=
  let path := if isAbsolute entry then entry else entryPath directory entry
  let names := (Path.ofText entry).names
  let suites := files.filter (isSuiteName ·.name)
  if !Path.fits entry || !names.all Path.isDots then .error (.unreadable path)
  else if isAbsolute entry || names.contains ".." || suites.isEmpty then .error (.noSuites path)
  else loadFolder directory entry suites

end Conformance
end CheckedFormat
