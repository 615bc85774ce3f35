/-! Paths to files.

A path is a text of names with slashes between them. It leads from a directory: a name
of one dot stays where it is, one of two dots leads above, and any other leads to an
entry. -/
namespace CheckedFormat

/-- A path from a directory. -/
structure Path where
  /-- The names on the way and at the end. -/
  names : List String
  /-- Whether the path ends as that of a directory. -/
  trailing : Bool
  deriving DecidableEq, Repr

namespace Path

/-- Reads a path, whose names stand between slashes. -/
def ofText (text : String) : Path :=
  let parts := (text.toList.splitOn '/').map String.ofList
  { names := parts.filter (· ≠ "")
    trailing := parts.getLast? == some "" }

/-- Whether a name leads to a directory wherever it stands. -/
def isDots (name : String) : Bool := name == "." || name == ".."

/-- The longest path, in bytes: what the path of the directory leaves free. -/
def longest : Nat := 4064

/-- The longest name that a file can have, in bytes. -/
def longestName : Nat := 255

/-- Whether a path is short enough to lead anywhere. -/
def fits (text : String) : Bool := text.utf8ByteSize ≤ longest

end Path
end CheckedFormat
