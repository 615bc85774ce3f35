import CheckedFormat.Number.Decimal
import CheckedFormat.Number.Float
import Mathlib.Algebra.Order.Field.Power
import Mathlib.Data.Int.Log
import Mathlib.Data.Nat.Digits.Defs
import Mathlib.Data.Rat.Floor
import Mathlib.Tactic.Linarith
import Mathlib.Tactic.Positivity
import Mathlib.Tactic.Ring
/-! Ratios as rational numbers.

A ratio stands for a rational number (`value`), scaling multiplies it by a power of the
base and rounding stays within one half of it. The exponents that are found by counting
digits are the logarithms of the number (`floorLog10_eq`, `floorLog2_eq`). -/
namespace CheckedFormat
namespace Ratio

/-- The number that a ratio stands for. -/
def value (r : Ratio) : ℚ := r.num / r.den

theorem value_scale (r : Ratio) (base : Nat) (exponent : Int) :
    (r.scale base exponent).value = r.value * (base : ℚ) ^ exponent := by
  unfold scale value
  by_cases h : 0 ≤ exponent
  · obtain ⟨n, rfl⟩ := Int.eq_ofNat_of_zero_le h
    simp only [if_pos h, Nat.pow_eq, Int.toNat_natCast, zpow_natCast]
    push_cast
    ring
  · obtain ⟨n, hn⟩ := Int.eq_ofNat_of_zero_le (a := -exponent) (by omega)
    obtain rfl : exponent = -n := by omega
    simp only [if_neg h, Nat.pow_eq, neg_neg, Int.toNat_natCast, zpow_neg, zpow_natCast]
    push_cast
    rw [← div_div, div_eq_mul_inv _ ((base : ℚ) ^ n)]

theorem den_scale_pos {r : Ratio} {base : Nat} (hr : 0 < r.den) (hbase : 0 < base)
    (exponent : Int) : 0 < (r.scale base exponent).den := by
  unfold scale
  split
  · exact hr
  · exact Nat.mul_pos hr (Nat.pow_pos hbase)

theorem value_ofBinary (n : Nat) (exponent : Int) :
    (ofBinary n exponent).value = n * 2 ^ exponent := by
  rw [ofBinary, value_scale]
  simp [value]

theorem den_ofBinary_pos (n : Nat) (exponent : Int) : 0 < (ofBinary n exponent).den :=
  den_scale_pos Nat.one_pos (by decide) exponent

theorem value_pos {r : Ratio} (hnum : r.num ≠ 0) (hden : 0 < r.den) : 0 < r.value := by
  have hpos : 0 < r.num := Nat.pos_of_ne_zero hnum
  unfold value
  positivity

theorem num_eq_zero_iff {r : Ratio} (hden : 0 < r.den) : r.num = 0 ↔ r.value = 0 := by
  have hne : (r.den : ℚ) ≠ 0 := by positivity
  simp [value, hne]

/-- Comparing numerator and denominator compares with one. -/
theorem den_le_num_iff {r : Ratio} (hden : 0 < r.den) : r.den ≤ r.num ↔ 1 ≤ r.value := by
  have hpos : (0 : ℚ) < r.den := by positivity
  rw [value, one_le_div hpos, Nat.cast_le]

/-! ### Rounding -/

section Rounding
variable {r : Ratio} {n : Nat}

theorem abs_round_sub_le (hden : 0 < r.den) : |(r.round : ℚ) - r.value| ≤ 1 / 2 := by
  obtain ⟨hlow, hhigh⟩ := roundHalfEven_near r.num r.den hden
  have hpos : (0 : ℚ) < r.den := by positivity
  have hvalue : r.value * r.den = r.num := div_mul_cancel₀ _ hpos.ne'
  have hlow' : 2 * (r.num : ℚ) ≤ 2 * (r.round * r.den) + r.den := by exact_mod_cast hlow
  have hhigh' : 2 * (r.round * r.den : ℚ) ≤ 2 * r.num + r.den := by exact_mod_cast hhigh
  rw [← hvalue] at hlow' hhigh'
  have hleft : (r.value - r.round - 1 / 2) * r.den ≤ 0 := by linarith
  have hright : (r.round - r.value - 1 / 2) * r.den ≤ 0 := by linarith
  rw [abs_le]
  constructor
  · linarith [nonpos_of_mul_nonpos_left hleft hpos]
  · linarith [nonpos_of_mul_nonpos_left hright hpos]

/-- A number less than one half away from a whole one is rounded to it. -/
theorem round_eq_of_near (hden : 0 < r.den) (h : |r.value - n| < 1 / 2) : r.round = n := by
  have hround := abs_round_sub_le hden
  have hclose : |(r.round : ℚ) - n| < 1 := by
    calc |(r.round : ℚ) - n| ≤ |(r.round : ℚ) - r.value| + |r.value - n| := abs_sub_le _ _ _
      _ < 1 := by linarith
  have hint : |(r.round : ℤ) - n| < 1 := by exact_mod_cast hclose
  rw [Int.abs_lt_one_iff] at hint
  omega

/-- Half way between two whole numbers the even one is taken. -/
theorem even_round_of_middle (hden : 0 < r.den) (h : |(r.round : ℚ) - r.value| = 1 / 2) :
    r.round % 2 = 0 := by
  have hpos : (0 : ℚ) < r.den := by positivity
  have hvalue : r.value * r.den = r.num := div_mul_cancel₀ _ hpos.ne'
  have hmiddle : 2 * (r.round * r.den) = 2 * r.num + r.den ∨
      2 * (r.round * r.den) + r.den = 2 * r.num := by
    rcases (abs_eq (by norm_num)).1 h with h | h
    · exact .inl (by exact_mod_cast (by rw [← hvalue, sub_eq_iff_eq_add.1 h]; ring :
        (2 * (r.round * r.den) : ℚ) = 2 * r.num + r.den))
    · exact .inr (by exact_mod_cast (by rw [← hvalue, sub_eq_iff_eq_add.1 h]; ring :
        (2 * (r.round * r.den) + r.den : ℚ) = 2 * r.num))
  have hsplit := Nat.div_add_mod r.num r.den
  have hmod := Nat.mod_lt r.num hden
  unfold round roundHalfEven at hmiddle ⊢
  dsimp only at hmiddle ⊢
  rw [Nat.mul_comm] at hsplit
  split at hmiddle
  · omega
  · split at hmiddle
    · rw [Nat.add_mul] at hmiddle
      omega
    · rename_i hlow hhigh
      rw [if_neg hlow, if_neg hhigh]
      omega

/-- Rounding does not cross a whole number. -/
theorem round_le (hden : 0 < r.den) (h : r.value ≤ n) : r.round ≤ n := by
  have hround := (abs_le.1 (abs_round_sub_le hden)).2
  by_contra hlt
  have hstep : (n : ℚ) + 1 ≤ r.round := by exact_mod_cast Nat.lt_of_not_le hlt
  linarith

theorem le_round (hden : 0 < r.den) (h : n ≤ r.value) : n ≤ r.round := by
  have hround := (abs_le.1 (abs_round_sub_le hden)).1
  by_contra hlt
  have hstep : (r.round : ℚ) + 1 ≤ n := by exact_mod_cast Nat.lt_of_not_le hlt
  linarith

end Rounding

/-! ### Logarithms -/

section Logarithms
variable {r : Ratio}

/-- The logarithms of numerator and denominator give that of the quotient up to one. -/
theorem log_value_cases {base : Nat} (hbase : 1 < base) (hnum : r.num ≠ 0) (hden : 0 < r.den) :
    Int.log base r.value = Nat.log base r.num - Nat.log base r.den ∨
      Int.log base r.value = Nat.log base r.num - Nat.log base r.den - 1 := by
  have hpos := value_pos hnum hden
  have hb : (0 : ℚ) < base := by positivity
  have hb1 : (base : ℚ) ≠ 0 := hb.ne'
  have hd : (0 : ℚ) < r.den := by positivity
  have hnumLow : (base : ℚ) ^ Nat.log base r.num ≤ r.num := by
    exact_mod_cast Nat.pow_log_le_self base hnum
  have hnumHigh : (r.num : ℚ) < base ^ (Nat.log base r.num + 1) := by
    exact_mod_cast Nat.lt_pow_succ_log_self hbase r.num
  have hdenLow : (base : ℚ) ^ Nat.log base r.den ≤ r.den := by
    exact_mod_cast Nat.pow_log_le_self base hden.ne'
  have hdenHigh : (r.den : ℚ) < base ^ (Nat.log base r.den + 1) := by
    exact_mod_cast Nat.lt_pow_succ_log_self hbase r.den
  have hlow : Nat.log base r.num - Nat.log base r.den - 1 ≤ Int.log base r.value := by
    rw [← Int.zpow_le_iff_le_log hbase hpos, value, le_div_iff₀ hd]
    calc (base : ℚ) ^ ((Nat.log base r.num : ℤ) - Nat.log base r.den - 1) * r.den
        ≤ (base : ℚ) ^ ((Nat.log base r.num : ℤ) - Nat.log base r.den - 1) *
            base ^ (Nat.log base r.den + 1) := by gcongr
      _ = (base : ℚ) ^ Nat.log base r.num := by
        rw [← zpow_natCast, ← zpow_natCast, ← zpow_add₀ hb1]
        congr 1
        push_cast
        ring
      _ ≤ r.num := hnumLow
  have hhigh : Int.log base r.value < Nat.log base r.num - Nat.log base r.den + 1 := by
    rw [← Int.lt_zpow_iff_log_lt hbase hpos, value, div_lt_iff₀ hd]
    calc (r.num : ℚ) < base ^ (Nat.log base r.num + 1) := hnumHigh
      _ = (base : ℚ) ^ ((Nat.log base r.num : ℤ) - Nat.log base r.den + 1) *
            base ^ Nat.log base r.den := by
        rw [← zpow_natCast, ← zpow_natCast, ← zpow_add₀ hb1]
        congr 1
        push_cast
        ring
      _ ≤ (base : ℚ) ^ ((Nat.log base r.num : ℤ) - Nat.log base r.den + 1) * r.den := by gcongr
  omega

/-- Which of the two it is shows when the number is scaled to about one. -/
theorem log_value_eq {base : Nat} (hbase : 1 < base) (hnum : r.num ≠ 0) (hden : 0 < r.den)
    {k : Int} (hk : k = Nat.log base r.num - Nat.log base r.den) :
    (if (r.scale base (-k)).den ≤ (r.scale base (-k)).num then k else k - 1) =
      Int.log base r.value := by
  have hpos := value_pos hnum hden
  have hb : (0 : ℚ) < base := by positivity
  have hscaled : (r.scale base (-k)).den ≤ (r.scale base (-k)).num ↔ k ≤ Int.log base r.value := by
    rw [den_le_num_iff (den_scale_pos hden (by omega) _), value_scale, zpow_neg,
      ← div_eq_mul_inv, one_le_div (zpow_pos hb k), Int.zpow_le_iff_le_log hbase hpos]
  have hcases := log_value_cases hbase hnum hden
  rw [← hk] at hcases
  split <;> omega

/-- A numeral has one digit more than the logarithm says. -/
theorem length_toDigits {base n : Nat} (hbase : 1 < base) (hn : n ≠ 0) :
    (Nat.toDigits base n).length = Nat.log base n + 1 := by
  have hcount : ∀ k, 0 < k → ((Nat.toDigits base n).length ≤ k ↔ Nat.log base n < k) := fun k hk => by
    rw [Nat.length_toDigits_le_iff hbase hk, Nat.log_lt_iff_lt_pow hbase hn]
  have hpos : 0 < (Nat.toDigits base n).length := Nat.length_toDigits_pos
  have hle := (hcount _ hpos).1 (Nat.le_refl _)
  have hge := (hcount (Nat.log base n + 1) (by omega)).2 (by omega)
  omega

theorem floorLog10_eq (hnum : r.num ≠ 0) (hden : 0 < r.den) :
    r.floorLog10 = Int.log 10 r.value := by
  refine log_value_eq (by decide) hnum hden ?_
  rw [length_toDigits (by decide) hnum, length_toDigits (by decide) hden.ne']
  push_cast
  ring

end Logarithms

/-! ### Significant digits -/

/-- The number that the significant digits say. -/
def written (r : Ratio) (places : Nat) : ℚ :=
  (r.significant places).1 * 10 ^ ((r.significant places).2 - places)

/-- What significant digits are: not more than `places` behind the first, rounded once at
the last place, near to the number. Rounding up to a further digit moves the exponent. -/
structure IsSignificant (r : Ratio) (places digits : Nat) (exponent : Int) : Prop where
  lt : digits < 10 ^ (places + 1)
  rounded : (r.scale 10 (places - exponent)).round = digits
  near : |digits * 10 ^ (exponent - places) - r.value| * (2 * 10 ^ places) ≤ r.value
  exponent_cases : r.num ≠ 0 → exponent = Int.log 10 r.value ∨ exponent = Int.log 10 r.value + 1

section Significant
variable {r : Ratio} {places digits : Nat} {exponent : Int}

theorem ten_zpow_pos (e : Int) : (0 : ℚ) < 10 ^ e := zpow_pos (by norm_num) e

theorem zpow_ten_add (d e : Int) : (10 : ℚ) ^ d * 10 ^ e = 10 ^ (d + e) :=
  (zpow_add₀ (by norm_num) d e).symm

/-- Digits that say what rounding at the place of the logarithm says are near. -/
theorem near_of_rounded (hnum : r.num ≠ 0) (hden : 0 < r.den)
    (h : (digits : ℚ) * 10 ^ (exponent - Int.log 10 r.value) =
      (r.scale 10 (places - Int.log 10 r.value)).round) :
    |digits * 10 ^ (exponent - places) - r.value| * (2 * 10 ^ places) ≤ r.value := by
  have hround := abs_round_sub_le (den_scale_pos hden (by decide : 0 < 10)
    (places - Int.log 10 r.value))
  rw [← h, value_scale] at hround
  have hlow := Int.zpow_log_le_self (b := 10) (by decide) (value_pos hnum hden)
  push_cast at hround hlow
  generalize Int.log 10 r.value = log at hround hlow
  have hscale : digits * 10 ^ (exponent - places) - r.value =
      (digits * 10 ^ (exponent - log) - r.value * 10 ^ (places - log)) * 10 ^ (log - places) := by
    rw [sub_mul, mul_assoc, mul_assoc, zpow_ten_add, zpow_ten_add]
    simp
  rw [hscale, abs_mul, abs_of_pos (ten_zpow_pos _)]
  calc |digits * (10 : ℚ) ^ (exponent - log) - r.value * 10 ^ (places - log)| *
        10 ^ (log - places) * (2 * 10 ^ places)
      ≤ 1 / 2 * 10 ^ (log - places) * (2 * 10 ^ places) := by gcongr
    _ = 10 ^ (log - places) * 10 ^ (places : ℤ) := by rw [zpow_natCast]; ring
    _ = 10 ^ log := by rw [zpow_ten_add, sub_add_cancel]
    _ ≤ r.value := hlow

/-- At the place of the logarithm there is at most one digit too many. -/
theorem round_le_ten_pow (hden : 0 < r.den) :
    (r.scale 10 (places - Int.log 10 r.value)).round ≤ 10 ^ (places + 1) := by
  have hhigh := Int.lt_zpow_succ_log_self (b := 10) (by decide) r.value
  refine round_le (den_scale_pos hden (by decide) _) ?_
  rw [value_scale]
  push_cast at hhigh ⊢
  generalize Int.log 10 r.value = log at hhigh
  calc r.value * 10 ^ (places - log) ≤ 10 ^ (log + 1) * 10 ^ (places - log) := by gcongr
    _ = 10 ^ ((places + 1 : Nat) : ℤ) := by
      rw [zpow_ten_add]
      congr 1
      push_cast
      ring
    _ = 10 ^ (places + 1) := zpow_natCast _ _

/-- A carry into a further digit is a carry at the place before as well. -/
theorem round_of_carry (hden : 0 < r.den) {k : Int}
    (h : (r.scale 10 k).round = 10 ^ (places + 1)) : (r.scale 10 (k - 1)).round = 10 ^ places := by
  have hround := abs_round_sub_le (den_scale_pos hden (by decide : 0 < 10) k)
  refine round_eq_of_near (den_scale_pos hden (by decide) _) ?_
  have htenth : r.value * (10 : ℚ) ^ (k - 1) = r.value * 10 ^ k / 10 := by
    rw [zpow_sub_one₀ (by norm_num), ← mul_assoc, div_eq_mul_inv]
  rw [h, value_scale, abs_le] at hround
  rw [value_scale, abs_lt]
  push_cast at hround ⊢
  rw [pow_succ] at hround
  rw [htenth]
  constructor <;> linarith

theorem significant_eq (hnum : r.num ≠ 0) (hden : 0 < r.den) (places : Nat) :
    r.significant places =
      if (r.scale 10 (places - Int.log 10 r.value)).round = 10 ^ (places + 1) then
        (10 ^ places, Int.log 10 r.value + 1)
      else ((r.scale 10 (places - Int.log 10 r.value)).round, Int.log 10 r.value) := by
  rw [significant, if_neg hnum, floorLog10_eq hnum hden]
  rfl

theorem isSignificant (hden : 0 < r.den) (places : Nat) :
    r.IsSignificant places (r.significant places).1 (r.significant places).2 := by
  by_cases hnum : r.num = 0
  · have hvalue : r.value = 0 := (num_eq_zero_iff hden).1 hnum
    rw [show r.significant places = (0, 0) from if_pos hnum]
    refine ⟨by positivity, ?_, by simp [hvalue], fun h => absurd hnum h⟩
    refine round_eq_of_near (den_scale_pos hden (by decide) _) ?_
    simp [value_scale, hvalue]
  · rw [significant_eq hnum hden]
    by_cases hcarry : (r.scale 10 (places - Int.log 10 r.value)).round = 10 ^ (places + 1)
    · rw [if_pos hcarry]
      refine ⟨Nat.pow_lt_pow_right (by decide) (Nat.lt_succ_self places), ?_,
        near_of_rounded hnum hden ?_, fun _ => .inr rfl⟩
      · rw [← sub_sub]
        exact round_of_carry hden hcarry
      · rw [hcarry]
        push_cast
        simp [pow_succ]
    · rw [if_neg hcarry]
      have hlt := lt_of_le_of_ne (round_le_ten_pow hden) hcarry
      exact ⟨hlt, rfl, near_of_rounded hnum hden (by simp), fun _ => .inl rfl⟩

/-- A number that is not zero has no fewer significant digits than are asked for. -/
theorem ten_pow_le_significant (hnum : r.num ≠ 0) (hden : 0 < r.den) (places : Nat) :
    10 ^ places ≤ (r.significant places).1 := by
  rw [significant_eq hnum hden]
  split
  · exact le_rfl
  · refine le_round (den_scale_pos hden (by decide) _) ?_
    have hlow := Int.zpow_log_le_self (b := 10) (by decide) (value_pos hnum hden)
    rw [value_scale]
    push_cast at hlow ⊢
    generalize Int.log 10 r.value = log at hlow
    calc (10 : ℚ) ^ places = 10 ^ log * 10 ^ ((places : ℤ) - log) := by
          rw [zpow_ten_add, add_sub_cancel, zpow_natCast]
      _ ≤ r.value * 10 ^ ((places : ℤ) - log) := by gcongr

/-- Digits behind the seventeenth, or any other, only bring the written number nearer. -/
theorem written_near (hden : 0 < r.den) {least : Nat} (h : least ≤ places) :
    |r.written places - r.value| * (2 * 10 ^ least) ≤ r.value := by
  have hnear := (r.isSignificant hden places).near
  have hpow : (10 : ℚ) ^ least ≤ 10 ^ places := pow_le_pow_right₀ (by norm_num) h
  calc |r.written places - r.value| * (2 * 10 ^ least)
      ≤ |r.written places - r.value| * (2 * 10 ^ places) := by gcongr
    _ ≤ r.value := hnear

end Significant
end Ratio

theorem FloatFormat.floorLog2_eq {r : Ratio} (hnum : r.num ≠ 0) (hden : 0 < r.den) :
    floorLog2 r = Int.log 2 r.value := by
  refine Ratio.log_value_eq (by decide) hnum hden ?_
  rw [Nat.log2_eq_log_two, Nat.log2_eq_log_two]

end CheckedFormat
