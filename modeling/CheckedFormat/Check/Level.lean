/-! How strictly the argument rules of a variadic call are enforced.

A checked list refuses every misuse and reports it; an unchecked one behaves as
a native call would and only counts what it saw. -/
namespace CheckedFormat

inductive CheckLevel where
  /-- Misuse is refused and reported. -/
  | checked
  /-- Misuse is counted and let through. -/
  | unchecked
  deriving DecidableEq, Repr, Inhabited

namespace CheckLevel

/-- The level's name in results and logs. -/
def name : CheckLevel → String
  | checked => "checked"
  | unchecked => "unchecked"

/-- Whether faults found at this level are refused and journaled. -/
def reportsFaults : CheckLevel → Bool
  | checked => true
  | unchecked => false

/-- Reads a level from its name or one of its synonyms, in any ASCII case. A
word that names no level means the strict one. -/
def ofText (text : String) : CheckLevel :=
  match text.map Char.toLower with
  | "unchecked" | "off" | "native" | "release" => unchecked
  | _ => checked

end CheckLevel
end CheckedFormat
