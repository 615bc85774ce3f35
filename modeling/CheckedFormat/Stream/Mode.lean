import CheckedFormat.Byte
/-! How a stream is opened.

A mode is a letter and then any number of modifiers in any order, repeated ones
included. Everything else is no mode. -/
namespace CheckedFormat

/-- What a stream may do, and how its file is opened. -/
structure OpenFlags where
  readable : Bool
  writable : Bool
  /-- Every write goes to the end. -/
  append : Bool
  /-- The file is emptied. -/
  truncate : Bool
  /-- The file is made when it is missing. -/
  create : Bool
  binary : Bool
  /-- The file must not exist yet. -/
  exclusive : Bool
  deriving DecidableEq, Repr

namespace OpenFlags

def readOnly : OpenFlags := ⟨true, false, false, false, false, false, false⟩

def writeOnly : OpenFlags := ⟨false, true, false, false, false, false, false⟩

def readWrite : OpenFlags := ⟨true, true, false, false, false, false, false⟩

/-- The flags of the letter that a mode starts with. -/
def ofLetter? (letter : Byte) : Option OpenFlags :=
  match letter.toChar with
  | 'r' => some readOnly
  | 'w' => some { writeOnly with truncate := true, create := true }
  | 'a' => some { writeOnly with append := true, create := true }
  | _ => none

/-- Adds what a modifier says. -/
def modify? (flags : OpenFlags) (modifier : Byte) : Option OpenFlags :=
  match modifier.toChar with
  | '+' => some { flags with readable := true, writable := true }
  | 'b' => some { flags with binary := true }
  | 'x' => some { flags with exclusive := true }
  | _ => none

/-- Reads a mode. -/
def parse? : List Byte → Option OpenFlags
  | [] => none
  | letter :: modifiers => do modifiers.foldlM modify? (← ofLetter? letter)

end OpenFlags
end CheckedFormat
