/-! Rounding exact quotients to whole numbers.

Every number text in this library starts from an exact quotient of natural
numbers; this is the one place where a digit is chosen. -/
namespace CheckedFormat

/-- The whole number nearest to `n / d`; of two that are equally near, the even
one. -/
def roundHalfEven (n d : Nat) : Nat :=
  let q := n / d
  let r := n % d
  if 2 * r < d then q
  else if d < 2 * r then q + 1
  else q + q % 2

/-- The rounded quotient is within half a unit of the exact one. -/
theorem roundHalfEven_near (n d : Nat) (h : 0 < d) :
    2 * n ≤ 2 * (roundHalfEven n d * d) + d ∧ 2 * (roundHalfEven n d * d) ≤ 2 * n + d := by
  have hn := Nat.div_add_mod n d
  have hr := Nat.mod_lt n h
  have hq : (n / d) * d = d * (n / d) := Nat.mul_comm _ _
  have hs : (n / d + 1) * d = d * (n / d) + d := by rw [Nat.add_mul, hq, Nat.one_mul]
  simp only [roundHalfEven]
  split
  · omega
  · split
    · omega
    · rcases Nat.mod_two_eq_zero_or_one (n / d) with h2 | h2
      · rw [h2, Nat.add_zero]; omega
      · rw [h2]; omega

/-- A quotient of natural numbers; the divisor is never zero where one is used. -/
structure Ratio where
  num : Nat
  den : Nat
  deriving DecidableEq, Repr

namespace Ratio

/-- The ratio times a power of a base. -/
def scale (r : Ratio) (base : Nat) (exponent : Int) : Ratio :=
  if 0 ≤ exponent then ⟨r.num * Nat.pow base exponent.toNat, r.den⟩
  else ⟨r.num, r.den * Nat.pow base (-exponent).toNat⟩

def round (r : Ratio) : Nat := roundHalfEven r.num r.den

/-- The whole number `n` times a power of two. -/
def ofBinary (n : Nat) (exponent : Int) : Ratio := scale ⟨n, 1⟩ 2 exponent

end Ratio
end CheckedFormat
