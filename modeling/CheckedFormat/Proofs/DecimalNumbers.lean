import CheckedFormat.Proofs.DoubleScale
import CheckedFormat.Proofs.GeneralStyle
import CheckedFormat.Proofs.NumberParts
/-! Decimal numbers as doubles.

A decimal number is rounded once to a double (`decimalValue_roundsTo`): the powers of ten
beyond which it is taken for zero or infinity lie far outside the scale of the doubles. The
written exponent is taken until it is at its bound, which shows in numbers only that have tens
of thousands of digits besides (`Parts.IsCounted`); every other number is rounded as it is
written (`number_roundsTo`). -/
namespace CheckedFormat
namespace FloatToken
open FloatFormat

/-! ### Exponents -/

/-- The exponent is taken whole, or it is at its bound and was written larger still. -/
theorem decimalExponent_cases {digits : List Byte} (h : ∀ b ∈ digits, b.isDigit) :
    decimalExponent digits = digitsValue 10 digits ∨
      exponentBound ≤ decimalExponent digits ∧ 10 * exponentBound ≤ digitsValue 10 digits := by
  induction digits using List.reverseRecOn with
  | nil => exact .inl rfl
  | append_singleton digits b ih =>
    have hb : b.isDigit := h b (by simp)
    have hread : decimalExponent (digits ++ [b]) = if decimalExponent digits < exponentBound then
        decimalExponent digits * 10 + (b.toNat - 48) else decimalExponent digits := by
      rw [decimalExponent, List.foldl_append]
      rfl
    have hwritten : digitsValue 10 (digits ++ [b]) =
        digitsValue 10 digits * 10 + (b.toNat - 48) := by
      simp [digitsValue, Byte.digit?_of_isDigit hb]
    rw [hread, hwritten]
    rcases ih fun c hc => h c (List.mem_append_left _ hc) with heq | ⟨hread, hwritten⟩
    · rw [heq]
      split
      · exact .inl rfl
      · right
        omega
    · rw [if_neg (not_lt.2 hread)]
      right
      omega

namespace Parts

/-- The power of ten that is taken from the exponent. -/
def readPower (p : Parts) : Int :=
  if p.exponentNegative then -(decimalExponent p.exponent : Int) else decimalExponent p.exponent

/-- The number with the exponent that is taken. -/
def read (p : Parts) : ℚ :=
  digitsValue 10 (p.whole ++ p.fraction) * 10 ^ (p.readPower - p.fraction.length)

theorem read_nonneg (p : Parts) : 0 ≤ p.read :=
  mul_nonneg (Nat.cast_nonneg _) (Ratio.ten_zpow_pos _).le

theorem number_nonneg (p : Parts) : 0 ≤ p.number :=
  mul_nonneg (Nat.cast_nonneg _) (Ratio.ten_zpow_pos _).le

/-- The exponent is not held, or the number has too few digits for that to show. -/
def IsCounted (p : Parts) : Prop :=
  digitsValue 10 p.exponent < 655360 ∨ p.whole.length + p.fraction.length ≤ 65000

end Parts

/-! ### Rounding -/

section Values
variable {p : Parts} {v : ℚ} {count : Nat}

theorem decimalBound_eq : decimalBound = 400 := rfl

/-- Numbers below the bound are rounded to zero. -/
theorem eq_zero_of_small (h : binary64.RoundsTo v count)
    (hsmall : v ≤ (10 : ℚ) ^ (-decimalBound)) : count = 0 := by
  have hbound : v < binary64.halfway 0 := by
    calc v ≤ (10 : ℚ) ^ (-decimalBound) := hsmall
      _ = (10 ^ decimalBound)⁻¹ := zpow_neg _ _
      _ ≤ (2 ^ (3 * decimalBound))⁻¹ :=
        inv_anti₀ (two_zpow_pos _) (two_zpow_le_ten_zpow (by decide))
      _ = 2 ^ (-(3 * decimalBound)) := (zpow_neg _ _).symm
      _ < 2 ^ (-1075 : ℤ) := zpow_lt_zpow_right₀ (by norm_num) (by decide)
      _ = binary64.halfway 0 := halfway_zero.symm
  exact Nat.le_zero.1 ((h 0).2 (.inl hbound))

/-- Numbers above the bound are infinite. -/
theorem infinite_of_large (h : binary64.RoundsTo v count)
    (hlarge : (10 : ℚ) ^ decimalBound ≤ v) : binary64.infinityBits ≤ count := by
  refine (roundsTo_number _).mono h ?_
  calc binary64.number binary64.infinityBits = 2 ^ (1024 : ℤ) := number_infinity
    _ ≤ 2 ^ (3 * decimalBound) := zpow_le_zpow_right₀ (by norm_num) (by decide)
    _ ≤ 10 ^ decimalBound := two_zpow_le_ten_zpow (by decide)
    _ ≤ v := hlarge

section Digits
variable {digits size : Nat} {power : Int}

/-- A decimal is below the power of ten above its first digit. -/
theorem digits_le_top (hhigh : digits < 10 ^ size) :
    (digits : ℚ) * 10 ^ power ≤ 10 ^ (size + power : ℤ) := by
  have hcast : (digits : ℚ) ≤ 10 ^ (size : ℤ) := by
    rw [zpow_natCast]
    exact_mod_cast hhigh.le
  rw [zpow_add₀ (by norm_num)]
  exact mul_le_mul_of_nonneg_right hcast (Ratio.ten_zpow_pos power).le

/-- A decimal is not below the power of ten at its first digit. -/
theorem top_le_digits (hlow : 10 ^ size ≤ 10 * digits) :
    (10 : ℚ) ^ (size + power - 1 : ℤ) ≤ digits * 10 ^ power := by
  have hcast : (10 : ℚ) ^ (size : ℤ) ≤ 10 * digits := by
    rw [zpow_natCast]
    exact_mod_cast hlow
  have hscaled := mul_le_mul_of_nonneg_right hcast (Ratio.ten_zpow_pos power).le
  rw [← zpow_add₀ (by norm_num)] at hscaled
  rw [zpow_sub_one₀ (by norm_num)]
  linarith

/-- Both shortcuts give what the number is rounded to anyway. -/
theorem nearestDecimal_roundsTo (hlow : digits ≠ 0 → 10 ^ size ≤ 10 * digits)
    (hhigh : digits < 10 ^ size) : ∃ count, binary64.RoundsTo (digits * 10 ^ power) count ∧
      nearestDecimal digits size power = min count binary64.infinityBits := by
  obtain ⟨count, hcount⟩ := exists_roundsTo fractions_binary64_even
    (mul_nonneg (Nat.cast_nonneg digits) (Ratio.ten_zpow_pos power).le)
  refine ⟨count, hcount, ?_⟩
  unfold nearestDecimal
  by_cases hzero : digits = 0
  · rw [hzero, Nat.cast_zero, zero_mul] at hcount
    rw [if_pos (.inl hzero), eq_zero_of_small hcount (Ratio.ten_zpow_pos _).le, Nat.zero_min]
  by_cases hsmall : (size : ℤ) + power < -decimalBound
  · have hle : (digits : ℚ) * 10 ^ power ≤ 10 ^ (-decimalBound) :=
      (digits_le_top hhigh).trans (zpow_le_zpow_right₀ (by norm_num) hsmall.le)
    rw [if_pos (.inr hsmall), eq_zero_of_small hcount hle, Nat.zero_min]
  rw [if_neg (not_or.2 ⟨hzero, hsmall⟩)]
  by_cases hlarge : decimalBound < size + power
  · have hle : (10 : ℚ) ^ decimalBound ≤ digits * 10 ^ power :=
      (zpow_le_zpow_right₀ (by norm_num) (by omega)).trans (top_le_digits (hlow hzero))
    rw [if_pos hlarge, Nat.min_eq_right (infinite_of_large hcount hle)]
  · obtain ⟨rounded, hrounded, hnearest⟩ := nearest_roundsTo (r := Ratio.scale ⟨digits, 1⟩ 10 power)
      fractions_binary64_even (Ratio.den_scale_pos Nat.one_pos (by decide) _)
    have hvalue : (Ratio.scale ⟨digits, 1⟩ 10 power).value = digits * 10 ^ power := by
      rw [Ratio.value_scale]
      simp [Ratio.value]
    rw [hvalue] at hrounded
    rw [if_neg hlarge, hnearest, hrounded.unique hcount]

end Digits

/-- A decimal number is rounded once, with the exponent that is taken. -/
theorem decimalValue_roundsTo (h : ∀ b ∈ p.whole ++ p.fraction, b.isDigit) :
    ∃ count, binary64.RoundsTo p.read count ∧ decimalValue p = min count binary64.infinityBits := by
  obtain ⟨hlow, hhigh⟩ := size_dropWhile h
  have hdigits : digitsValue 10 ((p.whole ++ p.fraction).dropWhile (· == 48)) =
      digitsValue 10 (p.whole ++ p.fraction) := digitsValue_dropWhile _
  have hrounded : ∃ count, binary64.RoundsTo
      (digitsValue 10 ((p.whole ++ p.fraction).dropWhile (· == 48)) *
        10 ^ (p.readPower - p.fraction.length)) count ∧
      decimalValue p = min count binary64.infinityBits := nearestDecimal_roundsTo hlow hhigh
  rwa [hdigits] at hrounded

/-- A number of few digits is far outside the scale of the doubles where its exponent is at
the bound. -/
theorem large_of_power (hsome : digitsValue 10 (p.whole ++ p.fraction) ≠ 0)
    (hshort : p.whole.length + p.fraction.length ≤ 65000) {power : Int} (h : 65536 ≤ power) :
    (10 : ℚ) ^ decimalBound ≤
      digitsValue 10 (p.whole ++ p.fraction) * 10 ^ (power - p.fraction.length) := by
  have hone : (1 : ℚ) ≤ digitsValue 10 (p.whole ++ p.fraction) := by
    exact_mod_cast Nat.one_le_iff_ne_zero.2 hsome
  calc (10 : ℚ) ^ decimalBound ≤ 10 ^ (power - p.fraction.length) :=
        zpow_le_zpow_right₀ (by norm_num) (by rw [decimalBound_eq]; omega)
    _ ≤ digitsValue 10 (p.whole ++ p.fraction) * 10 ^ (power - p.fraction.length) :=
      le_mul_of_one_le_left (Ratio.ten_zpow_pos _).le hone

theorem small_of_power (hdigits : ∀ b ∈ p.whole ++ p.fraction, b.isDigit)
    (hshort : p.whole.length + p.fraction.length ≤ 65000) {power : Int} (h : power ≤ -65536) :
    digitsValue 10 (p.whole ++ p.fraction) * (10 : ℚ) ^ (power - p.fraction.length) ≤
      10 ^ (-decimalBound) := by
  have hlength : (p.whole ++ p.fraction).length ≤ 65000 := by rwa [List.length_append]
  have hlt := (foldl_digits_within hdigits 0).2
  rw [Nat.zero_add, Nat.one_mul] at hlt
  exact (digits_le_top hlt).trans
    (zpow_le_zpow_right₀ (by norm_num) (by rw [decimalBound_eq]; omega))

/-- Where the exponent counts, the number that was written is rounded to the same. -/
theorem number_roundsTo (hdigits : ∀ b ∈ p.whole ++ p.fraction, b.isDigit)
    (hexponent : ∀ b ∈ p.exponent, b.isDigit) (hcounted : p.IsCounted) :
    ∃ count, binary64.RoundsTo p.number count ∧
      decimalValue p = min count binary64.infinityBits := by
  obtain ⟨count, hcount, hvalue⟩ := decimalValue_roundsTo hdigits
  rcases decimalExponent_cases hexponent with hsame | ⟨hread, hwritten⟩
  · have hnumber : p.read = p.number := by
      unfold Parts.read Parts.number Parts.readPower Parts.power
      rw [hsame]
    exact ⟨count, hnumber ▸ hcount, hvalue⟩
  have hbound : exponentBound = 65536 := rfl
  have hshort := hcounted.resolve_left (by omega)
  obtain ⟨other, hother⟩ := exists_roundsTo fractions_binary64_even p.number_nonneg
  refine ⟨other, hother, hvalue.trans ?_⟩
  by_cases hzero : digitsValue 10 (p.whole ++ p.fraction) = 0
  · rw [Parts.read, hzero, Nat.cast_zero, zero_mul] at hcount
    rw [Parts.number, hzero, Nat.cast_zero, zero_mul] at hother
    rw [hcount.unique hother]
  cases hnegative : p.exponentNegative with
  | false =>
    have hreadPower : 65536 ≤ p.readPower := by
      rw [Parts.readPower, hnegative, if_neg Bool.false_ne_true]
      omega
    have hpower : 65536 ≤ p.power := by
      rw [Parts.power, hnegative, if_neg Bool.false_ne_true]
      omega
    have hcut := infinite_of_large hcount (large_of_power hzero hshort hreadPower)
    have hcut' := infinite_of_large hother (large_of_power hzero hshort hpower)
    rw [Nat.min_eq_right hcut, Nat.min_eq_right hcut']
  | true =>
    have hreadPower : p.readPower ≤ -65536 := by
      rw [Parts.readPower, hnegative, if_pos rfl]
      omega
    have hpower : p.power ≤ -65536 := by
      rw [Parts.power, hnegative, if_pos rfl]
      omega
    rw [eq_zero_of_small hcount (small_of_power hdigits hshort hreadPower),
      eq_zero_of_small hother (small_of_power hdigits hshort hpower)]

end Values
end FloatToken
end CheckedFormat
