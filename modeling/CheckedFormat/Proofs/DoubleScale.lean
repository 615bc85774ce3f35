import CheckedFormat.Proofs.FloatScale
/-! The scales of doubles and floats.

Both have their ends where their formats put them. The numbers half way between two floats are
doubles (`exists_number_eq_halfway`), so the double that a number is rounded to lies on the
same side of them as the number, or on one of them. Narrowing a double is rounding its number
once on the scale of the floats (`toSingle_withSign`). -/
namespace CheckedFormat
namespace FloatFormat

/-! ### The scale of the doubles -/

theorem fractions_binary64 : binary64.fractions = 2 ^ 52 := rfl

theorem fractions_binary64_even : binary64.fractions % 2 = 0 := rfl

theorem leastExponent_binary64 : binary64.leastExponent = -1074 := by decide

theorem number_binade_binary64 (e : Nat) :
    binary64.number (e * binary64.fractions + binary64.fractions) = 2 ^ ((e : ℤ) - 1022) := by
  rw [number_binade, leastExponent_binary64]
  congr 1
  show ((52 : ℕ) : ℤ) + (-1074 + e) = e - 1022
  omega

theorem number_infinity : binary64.number binary64.infinityBits = 2 ^ (1024 : ℤ) := by
  rw [show binary64.infinityBits = 2046 * binary64.fractions + binary64.fractions from rfl,
    number_binade_binary64]
  rfl

theorem halfway_zero : binary64.halfway 0 = 2 ^ (-1075 : ℤ) := by
  have hpos := binary64.fractions_pos
  have h : binary64.halfway (0 * binary64.fractions + 0) =
      ((0 : ℕ) + 1 / 2) * 2 ^ (binary64.leastExponent + (0 : ℕ)) :=
    halfway_eq (.inl rfl) (by omega)
  rw [Nat.zero_mul, leastExponent_binary64] at h
  rw [h, show (-1075 : ℤ) = -1074 + (0 : ℕ) - 1 by rfl, zpow_sub_one₀ two_ne_zero,
    Nat.cast_zero, zero_add, one_div, mul_comm]

/-- The number from which on every number is infinite. -/
theorem halfway_last :
    binary64.halfway (binary64.infinityBits - 1) = 2 ^ (1024 : ℤ) - 2 ^ (970 : ℤ) := by
  have h : binary64.halfway (2045 * binary64.fractions + (2 * binary64.fractions - 1)) =
      ((2 * binary64.fractions - 1 : ℕ) + 1 / 2) * 2 ^ (binary64.leastExponent + (2045 : ℕ)) :=
    halfway_eq (.inr (by decide)) (by decide)
  have hsteps : ((2 * binary64.fractions - 1 : ℕ) : ℚ) + 1 / 2 = 2 ^ (53 : ℤ) - 2 ^ (-1 : ℤ) := by
    rw [show 2 * binary64.fractions - 1 = 2 ^ 53 - 1 from rfl]
    norm_num
  rw [hsteps, leastExponent_binary64, sub_mul, ← zpow_add₀ two_ne_zero,
    ← zpow_add₀ two_ne_zero] at h
  exact h

/-! ### The scale of the floats -/

theorem fractions_binary32_even : binary32.fractions % 2 = 0 := rfl

theorem leastExponent_binary32 : binary32.leastExponent = -149 := by decide

theorem number_infinity_binary32 : binary32.number binary32.infinityBits = 2 ^ (128 : ℤ) := by
  rw [show binary32.infinityBits = 254 * binary32.fractions + binary32.fractions from rfl,
    number_binade, leastExponent_binary32]
  rfl

/-- The number half way between two floats, or at the end of their scale, is a double. -/
theorem exists_number_eq_halfway {count : Nat} (h : count < binary32.infinityBits) :
    ∃ double < binary64.infinityBits, binary64.number double = binary32.halfway count := by
  obtain ⟨e, steps, hcount, hlow, hhigh, -⟩ := exists_binade (f := binary32) count
  have hfractions : binary32.fractions = 2 ^ 23 := rfl
  have hshort : 2 * steps + 1 < 2 * binary64.fractions := by
    rw [fractions_binary64]
    omega
  obtain ⟨double, hdouble⟩ := exists_number (f := binary64) (e := e - 150) hshort
    (by rw [leastExponent_binary64]; omega)
  have hhalfway : binary64.number double = binary32.halfway count := by
    rw [hdouble, hcount, halfway_eq hlow hhigh, leastExponent_binary32,
      show (-149 : ℤ) + e = e - 150 + 1 by ring, zpow_add_one₀ two_ne_zero]
    push_cast
    ring
  refine ⟨double, ?_, hhalfway⟩
  rw [← number_strictMono.lt_iff_lt (f := binary64.number), hhalfway]
  calc binary32.halfway count < binary32.number (count + 1) := halfway_lt_number count
    _ ≤ binary32.number binary32.infinityBits := number_strictMono.monotone h
    _ = 2 ^ (128 : ℤ) := number_infinity_binary32
    _ ≤ 2 ^ (1024 : ℤ) := zpow_le_zpow_right₀ (by norm_num) (by decide)
    _ = binary64.number binary64.infinityBits := number_infinity.symm

/-- The number of a double is rounded on the scale of the floats, and an infinite double
becomes an infinite float. -/
theorem toSingle_withSign {double : Nat} (h : double ≤ binary64.infinityBits) (negative : Bool) :
    ∃ count, binary32.RoundsTo (binary64.number double) count ∧
      toSingle (binary64.withSign negative double) =
        binary32.withSign negative (min count binary32.infinityBits) := by
  rcases h.lt_or_eq with hfinite | rfl
  · obtain ⟨significand, exponent, hdecode, hmagnitude⟩ := exists_decode hfinite negative
    obtain ⟨count, hcount, hnearest⟩ := nearest_roundsTo (r := .ofBinary significand exponent)
      fractions_binary32_even (Ratio.den_ofBinary_pos _ _)
    rw [Ratio.value_ofBinary, ← hmagnitude.number_eq] at hcount
    refine ⟨count, hcount, ?_⟩
    unfold toSingle
    rw [hdecode, ← hnearest]
  · obtain ⟨count, hcount⟩ := exists_roundsTo (f := binary32) fractions_binary32_even
      (number_nonneg (f := binary64) binary64.infinityBits)
    have hle : binary32.number binary32.infinityBits ≤ binary64.number binary64.infinityBits := by
      rw [number_infinity_binary32, number_infinity]
      exact zpow_le_zpow_right₀ (by norm_num) (by decide)
    refine ⟨count, hcount, ?_⟩
    unfold toSingle
    rw [decode_infinity, Nat.min_eq_right ((roundsTo_number _).mono hcount hle)]

end FloatFormat
end CheckedFormat
