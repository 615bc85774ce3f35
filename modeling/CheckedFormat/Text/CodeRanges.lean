/-! Sets of characters, as ranges of their numbers.

The ranges of a set ascend, so a search ends at the first one that starts beyond the
character. -/
namespace CheckedFormat

/-- Ranges of numbers, with both of their ends. -/
abbrev CodeRanges := List (Nat × Nat)

namespace CodeRanges

/-- Whether a number lies in one of the ranges. -/
def contains : CodeRanges → Nat → Bool
  | [], _ => false
  | (low, high) :: rest, n => low ≤ n && (n ≤ high || contains rest n)

end CodeRanges
end CheckedFormat
