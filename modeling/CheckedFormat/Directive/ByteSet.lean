import CheckedFormat.Directive.Basic
/-! The byte sets of scanning directives.

A set is written between brackets as single bytes and ranges, after a caret when
it means the bytes that are not listed. A closing bracket in the first place is a
member; a dash makes a range only between two bytes in order, so it is a member
at either end. -/
namespace CheckedFormat

/-- A range of bytes, both ends included. -/
structure ByteRange where
  low : Byte
  high : Byte
  deriving DecidableEq, Repr

namespace ByteRange

def single (b : Byte) : ByteRange := ⟨b, b⟩

def contains (r : ByteRange) (b : Byte) : Bool := r.low ≤ b && b ≤ r.high

end ByteRange

/-- The listed bytes, or all others when `negated`. -/
structure ByteSet where
  negated : Bool
  ranges : List ByteRange
  deriving DecidableEq, Repr

namespace ByteSet

def contains (s : ByteSet) (b : Byte) : Bool := s.ranges.any (·.contains b) != s.negated

/-- The listed ranges up to the closing bracket, and the text after it. There is
none when the bracket never comes. -/
def takeRanges : List Byte → Option (List ByteRange × List Byte)
  | [] => none
  | 93 :: rest => some ([], rest)
  | low :: 45 :: high :: rest =>
    if high != 93 && low ≤ high then
      (takeRanges rest).map fun (ranges, rest) => (⟨low, high⟩ :: ranges, rest)
    else
      (takeRanges (45 :: high :: rest)).map fun (ranges, rest) =>
        (.single low :: ranges, rest)
  | b :: rest => (takeRanges rest).map fun (ranges, rest) => (.single b :: ranges, rest)
  termination_by text => text.length

/-- Takes a leading caret. -/
def takeCaret : List Byte → Bool × List Byte
  | 94 :: rest => (true, rest)
  | text => (false, text)

/-- Takes a leading closing bracket, which is a member there. -/
def takeBracket : List Byte → List ByteRange × List Byte
  | 93 :: rest => ([.single 93], rest)
  | text => ([], text)

/-- Reads the set whose opening bracket stands right before the text. -/
def take (text : List Byte) : Option (ByteSet × List Byte) :=
  let (negated, text) := takeCaret text
  let (first, text) := takeBracket text
  (takeRanges text).map fun (ranges, rest) => (⟨negated, first ++ ranges⟩, rest)

/-- The closing bracket at least is taken. -/
theorem length_lt_of_takeRanges {text rest : List Byte} {ranges : List ByteRange}
    (h : takeRanges text = some (ranges, rest)) : rest.length < text.length := by
  fun_induction takeRanges text generalizing ranges rest with
  | case1 => cases h
  | case2 => cases h; simp
  | case3 low high after _ _ ih =>
    obtain ⟨⟨_, _⟩, hr, he⟩ := Option.map_eq_some_iff.1 h
    have := ih hr
    cases he
    simp only [List.length_cons]
    omega
  | case4 low high after _ _ ih =>
    obtain ⟨⟨_, _⟩, hr, he⟩ := Option.map_eq_some_iff.1 h
    have := ih hr
    cases he
    simp only [List.length_cons] at *
    omega
  | case5 b after _ _ ih =>
    obtain ⟨⟨_, _⟩, hr, he⟩ := Option.map_eq_some_iff.1 h
    have := ih hr
    cases he
    simp only [List.length_cons]
    omega

theorem length_takeCaret_le (text : List Byte) : (takeCaret text).2.length ≤ text.length := by
  unfold takeCaret; split <;> simp

theorem length_takeBracket_le (text : List Byte) :
    (takeBracket text).2.length ≤ text.length := by
  unfold takeBracket; split <;> simp

theorem length_lt_of_take {text rest : List Byte} {s : ByteSet}
    (h : take text = some (s, rest)) : rest.length < text.length := by
  simp only [take, Option.map_eq_some_iff] at h
  obtain ⟨⟨ranges, after⟩, hr, he⟩ := h
  have h₁ := length_takeCaret_le text
  have h₂ := length_takeBracket_le (takeCaret text).2
  have h₃ := length_lt_of_takeRanges hr
  cases he
  simp only at *
  omega

/-- Every byte, in ascending order. -/
def allBytes : List Byte := (List.range 256).map Nat.toUInt8

/-- Puts a byte in front of ranges that lie above it, joining it to the first
one where they touch. -/
def consRange (b : Byte) : List ByteRange → List ByteRange
  | [] => [.single b]
  | r :: rest => if b.toNat + 1 = r.low.toNat then ⟨b, r.high⟩ :: rest else .single b :: r :: rest

/-- The members as maximal ascending ranges. -/
def maximalRanges (s : ByteSet) : List ByteRange :=
  (allBytes.filter s.contains).foldr consRange []

end ByteSet
end CheckedFormat
