import CheckedFormat.Directive.Basic
/-! Formats for printing.

A format is a sequence of literal runs and directives. `parse` reads it from
left to right and either reads all of it or names the first percent sign whose
directive is malformed. A directive is flags, a width, a precision, a length
modifier and a letter, each but the last optional; `%%` may carry any of them and
ignores them. -/
namespace CheckedFormat

/-- The flags of a directive. -/
structure Flags where
  /-- `-`: pad on the right. -/
  left : Bool
  /-- `+`: write a sign in front of a number that is not negative. -/
  plus : Bool
  /-- A blank in front of a number that is not negative. -/
  blank : Bool
  /-- `#`: the alternative form. -/
  alternative : Bool
  /-- `0`: pad with zeros. -/
  zero : Bool
  deriving DecidableEq, Repr, Inhabited

namespace Flags

def none : Flags := ⟨false, false, false, false, false⟩

/-- The flag characters, in the order in which flags are listed. -/
def characters : List Byte := ascii "-+ #0"

def isFlag (b : Byte) : Bool := characters.contains b

/-- The flags whose characters are among the bytes. -/
def ofBytes (bytes : List Byte) : Flags where
  left := bytes.contains '-'.toUInt8
  plus := bytes.contains '+'.toUInt8
  blank := bytes.contains ' '.toUInt8
  alternative := bytes.contains '#'.toUInt8
  zero := bytes.contains '0'.toUInt8

/-- `+` overrides a blank, and `-` overrides `0`. -/
def settle (f : Flags) : Flags :=
  { f with blank := f.blank && !f.plus, zero := f.zero && !f.left }

/-- The characters of the flags that are set. -/
def spelling (f : Flags) : String :=
  (if f.left then "-" else "") ++ (if f.plus then "+" else "") ++ (if f.blank then " " else "") ++
    (if f.alternative then "#" else "") ++ (if f.zero then "0" else "")

def take (text : List Byte) : Flags × List Byte :=
  ((ofBytes (text.takeWhile isFlag)).settle, text.dropWhile isFlag)

theorem length_take_le (text : List Byte) : (take text).2.length ≤ text.length :=
  length_dropWhile_le isFlag text

end Flags

/-- A width or a precision: left out, written in the format, or to be taken from
the arguments. -/
inductive Quantity where
  | absent
  | given (n : Nat)
  | fromArgument
  deriving DecidableEq, Repr, Inhabited

namespace Quantity

/-- The number that stands, or `default` where none does. -/
def getD (default : Nat) : Quantity → Nat
  | given n => n
  | _ => default

/-- Takes a width: a star, digits, or nothing. -/
def takeWidth : List Byte → Quantity × List Byte
  | 42 :: rest => (fromArgument, rest)
  | text =>
    match takeDigits text with
    | ([], rest) => (absent, rest)
    | (digits, rest) => (given (saturatingDecimal digits), rest)

/-- Takes a precision: a point and then a star or digits, of which there may be
none. -/
def takePrecision : List Byte → Quantity × List Byte
  | 46 :: 42 :: rest => (fromArgument, rest)
  | 46 :: text =>
    let (digits, rest) := takeDigits text
    (given (saturatingDecimal digits), rest)
  | text => (absent, text)

theorem length_takeWidth_le (text : List Byte) : (takeWidth text).2.length ≤ text.length := by
  unfold takeWidth
  split
  · simp
  · have h := length_dropWhile_le Byte.isDigit text
    split <;> simp_all [takeDigits]

theorem length_takePrecision_le (text : List Byte) :
    (takePrecision text).2.length ≤ text.length := by
  unfold takePrecision
  split
  · simp; omega
  · rename_i text _
    have h := length_dropWhile_le Byte.isDigit text
    simp [takeDigits]; omega
  · simp

end Quantity

/-- How a field is laid out. -/
structure Layout where
  flags : Flags
  width : Quantity
  precision : Quantity
  deriving DecidableEq, Repr, Inhabited

/-- A directive for printing. -/
structure PrintSpec where
  layout : Layout
  length : LengthModifier
  conversion : Conversion
  deriving DecidableEq, Repr

/-- A part of a format for printing. -/
inductive PrintSegment where
  /-- Bytes to write as they are. -/
  | literal (bytes : List Byte)
  /-- A percent sign. -/
  | percent
  | directive (spec : PrintSpec)
  deriving DecidableEq, Repr

namespace PrintSegment

/-- Reads the directive whose percent sign stands right before the text. -/
def parse (text : List Byte) : Except Malformed (PrintSegment × List Byte) :=
  let (flags, text) := Flags.take text
  let (width, text) := Quantity.takeWidth text
  let (precision, text) := Quantity.takePrecision text
  let (length, text) := LengthModifier.take text
  match text with
  | [] => .error .truncated
  | letter :: rest =>
    if letter == opener then .ok (percent, rest)
    else
      match (Conversion.ofLetter? letter).filter (·.isPrintable) with
      | none => .error (.unknownConversion letter)
      | some conversion =>
        if length.printable conversion then
          .ok (directive ⟨⟨flags, width, precision⟩, length, conversion⟩, rest)
        else .error (.badLength length letter)

/-- A directive takes at least its letter. -/
theorem length_lt_of_parse {text rest : List Byte} {segment : PrintSegment}
    (h : parse text = .ok (segment, rest)) : rest.length < text.length := by
  have h₁ := Flags.length_take_le text
  have h₂ := Quantity.length_takeWidth_le (Flags.take text).2
  have h₃ := Quantity.length_takePrecision_le (Quantity.takeWidth (Flags.take text).2).2
  have h₄ := LengthModifier.length_take_le
    (Quantity.takePrecision (Quantity.takeWidth (Flags.take text).2).2).2
  simp only [parse] at h
  split at h
  · cases h
  · rename_i letter after hs
    have hlen : after.length < text.length := by
      rw [hs] at h₄
      simp only [List.length_cons] at h₄
      omega
    split at h
    · cases h; exact hlen
    · split at h
      · cases h
      · split at h
        · cases h; exact hlen
        · cases h

end PrintSegment

namespace PrintFormat

/-- Reads what is left of a format of `size` bytes. -/
def parseRest (size : Nat) (text : List Byte) : Except FormatError (List PrintSegment) :=
  match text with
  | [] => .ok []
  | b :: after =>
    if b == opener then
      match h : PrintSegment.parse after with
      | .error cause => .error ⟨size - text.length, cause⟩
      | .ok (segment, rest) => do
        have := PrintSegment.length_lt_of_parse h
        let segments ← parseRest size rest
        return segment :: segments
    else do
      let run := after.takeWhile (· != opener)
      have := length_dropWhile_le (· != opener) after
      let segments ← parseRest size (after.dropWhile (· != opener))
      return .literal (b :: run) :: segments
  termination_by text.length
  decreasing_by all_goals simp_wf; omega

/-- Splits a format into its segments, or names the first malformed directive. -/
def parse (text : List Byte) : Except FormatError (List PrintSegment) := parseRest text.length text

end PrintFormat
end CheckedFormat
