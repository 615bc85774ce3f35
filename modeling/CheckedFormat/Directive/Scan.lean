import CheckedFormat.Directive.ByteSet
/-! Formats for scanning.

A format is a sequence of runs of white space, runs of other ordinary bytes, and
directives. A directive is an optional star, a width, a length modifier and a
letter or a byte set; `%%` stands alone. `parse` reads a format from left to right
and either reads all of it or names the first percent sign whose directive is
malformed. -/
namespace CheckedFormat

/-- What a scanning directive matches. -/
inductive ScanConversion where
  | letter (conversion : Conversion)
  | set (members : ByteSet)
  deriving DecidableEq, Repr

/-- A directive for scanning. -/
structure ScanSpec where
  /-- Match the field and store nothing. -/
  suppress : Bool
  /-- The longest field to match; a width of zero is no width. -/
  width : Option Nat
  length : LengthModifier
  conversion : ScanConversion
  deriving DecidableEq, Repr

/-- A part of a format for scanning. -/
inductive ScanSegment where
  /-- Matches any amount of white space, also none. -/
  | space
  /-- Matches the same bytes. -/
  | literal (bytes : List Byte)
  /-- Skips white space and matches a percent sign. -/
  | percent
  | directive (spec : ScanSpec)
  deriving DecidableEq, Repr

namespace ScanSegment

def setOpener : Byte := '['.toUInt8

/-- Takes the star that suppresses assignment. -/
def takeStar : List Byte → Bool × List Byte
  | 42 :: rest => (true, rest)
  | text => (false, text)

/-- Takes a width. Digits that say zero, like none at all, leave it out. -/
def takeWidth (text : List Byte) : Option Nat × List Byte :=
  let (digits, rest) := takeDigits text
  ((some (saturatingDecimal digits)).filter (· != 0), rest)

/-- Takes the letter of a directive, or a whole byte set. -/
def takeConversion : List Byte → Except Malformed (ScanConversion × List Byte)
  | [] => .error .truncated
  | letter :: rest =>
    if letter == setOpener then
      match ByteSet.take rest with
      | none => .error .unterminatedSet
      | some (members, rest) => .ok (.set members, rest)
    else
      match Conversion.ofLetter? letter with
      | none => .error (.unknownConversion letter)
      | some conversion => .ok (.letter conversion, rest)

/-- Whether the length modifier makes sense for the conversion; a byte set takes
none. -/
def checkLength (length : LengthModifier) : ScanConversion → Except Malformed Unit
  | .letter conversion =>
    if length.scannable conversion then .ok () else .error (.badLength length conversion.letter)
  | .set _ => if length == .plain then .ok () else .error (.badLength length setOpener)

/-- Reads a directive other than `%%`. -/
def parseDirective (text : List Byte) : Except Malformed (ScanSegment × List Byte) := do
  let (suppress, text) := takeStar text
  let (width, text) := takeWidth text
  let (length, text) := LengthModifier.take text
  let (conversion, rest) ← takeConversion text
  checkLength length conversion
  return (directive ⟨suppress, width, length, conversion⟩, rest)

/-- Reads the directive whose percent sign stands right before the text. -/
def parse (text : List Byte) : Except Malformed (ScanSegment × List Byte) :=
  match text with
  | [] => parseDirective []
  | b :: rest => if b == opener then .ok (percent, rest) else parseDirective (b :: rest)

theorem length_lt_of_takeConversion {text rest : List Byte} {conversion : ScanConversion}
    (h : takeConversion text = .ok (conversion, rest)) : rest.length < text.length := by
  unfold takeConversion at h
  split at h
  · cases h
  · split at h
    · split at h
      · cases h
      · rename_i hs
        have := ByteSet.length_lt_of_take hs
        cases h
        simp only [List.length_cons]
        omega
    · split at h
      · cases h
      · cases h; simp

theorem length_takeStar_le (text : List Byte) : (takeStar text).2.length ≤ text.length := by
  unfold takeStar; split <;> simp

theorem length_lt_of_parseDirective {text rest : List Byte} {segment : ScanSegment}
    (h : parseDirective text = .ok (segment, rest)) : rest.length < text.length := by
  have h₁ := length_takeStar_le text
  have h₂ := length_dropWhile_le Byte.isDigit (takeStar text).2
  have h₃ := LengthModifier.length_take_le (takeWidth (takeStar text).2).2
  simp only [parseDirective, bind, Except.bind] at h
  split at h
  · cases h
  · rename_i v hv
    have h₄ := length_lt_of_takeConversion hv
    split at h
    · cases h
    · cases h
      simp only [takeWidth, takeDigits] at h₃ h₄ h₂
      omega

/-- A directive takes at least its letter. -/
theorem length_lt_of_parse {text rest : List Byte} {segment : ScanSegment}
    (h : parse text = .ok (segment, rest)) : rest.length < text.length := by
  unfold parse at h
  split at h
  · exact length_lt_of_parseDirective h
  · split at h
    · cases h; simp
    · exact length_lt_of_parseDirective h

end ScanSegment

namespace ScanFormat

/-- An ordinary byte: neither white space nor a percent sign. -/
def isOrdinary (b : Byte) : Bool := !b.isSpace && b != opener

/-- Reads what is left of a format of `size` bytes. -/
def parseRest (size : Nat) (text : List Byte) : Except FormatError (List ScanSegment) :=
  match text with
  | [] => .ok []
  | b :: after =>
    if b.isSpace then do
      have := length_dropWhile_le Byte.isSpace after
      let segments ← parseRest size (after.dropWhile Byte.isSpace)
      return .space :: segments
    else if b == opener then
      match h : ScanSegment.parse after with
      | .error cause => .error ⟨size - text.length, cause⟩
      | .ok (segment, rest) => do
        have := ScanSegment.length_lt_of_parse h
        let segments ← parseRest size rest
        return segment :: segments
    else do
      have := length_dropWhile_le isOrdinary after
      let run := after.takeWhile isOrdinary
      let segments ← parseRest size (after.dropWhile isOrdinary)
      return .literal (b :: run) :: segments
  termination_by text.length
  decreasing_by all_goals simp_wf; omega

/-- Splits a format into its segments, or names the first malformed directive. -/
def parse (text : List Byte) : Except FormatError (List ScanSegment) := parseRest text.length text

end ScanFormat
end CheckedFormat
