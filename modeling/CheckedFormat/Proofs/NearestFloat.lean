import CheckedFormat.Proofs.Ratios
import CheckedFormat.Scan.FloatToken
import Mathlib.Tactic.GCongr
/-! Rounding near a float.

A finite float is a significand times a power of two, and its bits count the floats below
it (`IsMagnitude`). A number that is nearer to it than one part in four times the floats of
a binade rounds to it (`nearest_of_near`): that is half the distance to the next float,
also at the low end of a binade, where the next one below is twice as near. -/
namespace CheckedFormat

theorem two_zpow_pos (e : Int) : (0 : ℚ) < 2 ^ e := zpow_pos (by norm_num) e

namespace FloatFormat

/-- The bits of a magnitude count the floats up to `significand * 2 ^ exponent`. -/
structure IsMagnitude (f : FloatFormat) (bits significand : Nat) (exponent : Int) : Prop where
  bits_eq : bits = (exponent - f.leastExponent).toNat * f.fractions + significand
  least_le : f.leastExponent ≤ exponent
  lt : significand < 2 * f.fractions
  /-- Only at the least exponent is a significand short. -/
  normal : f.leastExponent < exponent → f.fractions ≤ significand
  finite : bits < f.infinityBits

theorem fractions_pos (f : FloatFormat) : 0 < f.fractions := Nat.pow_pos (by decide)

theorem isMagnitude_of_decode {f : FloatFormat} {bits significand : Nat} {negative : Bool}
    {exponent : Int} (h : f.decode bits = .finite negative significand exponent) :
    f.isNegative bits = negative ∧ f.IsMagnitude (f.magnitude bits) significand exponent := by
  have hpos := f.fractions_pos
  have hsplit := Nat.div_add_mod (f.magnitude bits) f.fractions
  have hfraction := Nat.mod_lt (f.magnitude bits) hpos
  have htop : f.magnitude bits / f.fractions ≤ f.topField := by
    have hlt : f.magnitude bits < f.signWeight := Nat.mod_lt _ (Nat.pow_pos (by decide))
    have hweight : f.signWeight = f.fractions * 2 ^ f.exponentBits := Nat.pow_add ..
    rw [hweight] at hlt
    exact Nat.le_sub_one_of_lt (Nat.div_lt_of_lt_mul hlt)
  unfold decode at h
  dsimp only at h
  split at h
  · split at h <;> cases h
  · rename_i hfield
    have hfinite : f.magnitude bits < f.infinityBits :=
      (Nat.div_lt_iff_lt_mul hpos).1 (lt_of_le_of_ne htop hfield)
    split at h
    · rename_i hzero
      cases h
      rw [hzero, Nat.mul_zero, Nat.zero_add] at hsplit
      exact ⟨rfl, by simp [hsplit], le_rfl, by omega, fun h => absurd h (lt_irrefl _), hfinite⟩
    · rename_i hnonzero
      cases h
      generalize f.magnitude bits / f.fractions = field at *
      refine ⟨rfl, ?_, by omega, by omega, fun _ => by omega, hfinite⟩
      have hcount : (f.leastExponent + (field - 1 : Nat) - f.leastExponent).toNat = field - 1 := by
        omega
      obtain ⟨n, rfl⟩ := Nat.exists_eq_succ_of_ne_zero hnonzero
      rw [Nat.mul_succ, Nat.mul_comm] at hsplit
      rw [hcount, Nat.succ_sub_one]
      omega

/-! ### Rounding to a float -/

section Nearest
variable {f : FloatFormat} {r : Ratio} {bits significand steps : Nat} {exponent : Int}

theorem nearest_of_steps (hnum : r.num ≠ 0) (hden : 0 < r.den)
    (hexponent : max (Int.log 2 r.value - f.fractionBits) f.leastExponent = exponent)
    (hsteps : |r.value * 2 ^ (-exponent) - steps| < 1 / 2) :
    f.nearest r =
      min ((exponent - f.leastExponent).toNat * f.fractions + steps) f.infinityBits := by
  have hround : (r.scale 2 (-exponent)).round = steps := by
    refine Ratio.round_eq_of_near (Ratio.den_scale_pos hden (by decide) _) ?_
    rwa [Ratio.value_scale]
  rw [nearest, if_neg hnum, floorLog2_eq hnum hden]
  dsimp only
  rw [hexponent, hround]

/-- Where a number lies in its binade says its logarithm. -/
theorem log_eq_of_scaled {y t : ℚ} {k e : Int} (hy : y = t * 2 ^ e) (hlow : 2 ^ k ≤ t)
    (hhigh : t < 2 ^ (k + 1)) : Int.log 2 y = k + e := by
  have hpos : 0 < y := by
    rw [hy]
    exact mul_pos (lt_of_lt_of_le (two_zpow_pos k) hlow) (two_zpow_pos e)
  have hge : k + e ≤ Int.log 2 y := by
    rw [← Int.zpow_le_iff_le_log (by decide) hpos, hy, Nat.cast_ofNat, zpow_add₀ two_ne_zero]
    gcongr
  have hlt : Int.log 2 y < k + 1 + e := by
    rw [← Int.lt_zpow_iff_log_lt (by decide) hpos, hy, Nat.cast_ofNat, zpow_add₀ two_ne_zero (k + 1)]
    gcongr
  omega

/-- Where the binade of the float holds the number, the steps are its significand. -/
theorem nearest_of_scaled (h : f.IsMagnitude bits significand exponent) (hnum : r.num ≠ 0)
    (hden : 0 < r.den) {t : ℚ} (ht : r.value = t * 2 ^ exponent)
    (hnear : |t - significand| < 1 / 2)
    (hbinade : f.fractions ≤ t ∨ exponent = f.leastExponent) : f.nearest r = bits := by
  have hleast := h.least_le
  have hfractions : (f.fractions : ℚ) = 2 ^ (f.fractionBits : ℤ) := by
    simp [fractions]
  have hhigh : t < 2 ^ ((f.fractionBits : ℤ) + 1) := by
    have hlt : (significand : ℚ) + 1 ≤ 2 * f.fractions := by exact_mod_cast h.lt
    rw [zpow_add_one₀ two_ne_zero, ← hfractions]
    linarith [(abs_lt.1 hnear).2]
  have hexponent : max (Int.log 2 r.value - f.fractionBits) f.leastExponent = exponent := by
    rcases hbinade with hlow | hexponent
    · rw [hfractions] at hlow
      rw [log_eq_of_scaled ht hlow hhigh]
      omega
    · have hlog : Int.log 2 r.value < f.fractionBits + 1 + exponent := by
        rw [← Int.lt_zpow_iff_log_lt (by decide) (Ratio.value_pos hnum hden), ht, Nat.cast_ofNat,
          zpow_add₀ two_ne_zero]
        gcongr
      omega
  have hsteps : |r.value * 2 ^ (-exponent) - significand| < 1 / 2 := by
    rwa [ht, mul_assoc, ← zpow_add₀ two_ne_zero, add_neg_cancel, zpow_zero, mul_one]
  rw [nearest_of_steps hnum hden hexponent hsteps, ← h.bits_eq, Nat.min_eq_left h.finite.le]

/-- Below the lowest float of a binade the steps are those of the binade before, whose
count runs on into this one. -/
theorem nearest_of_below (h : f.IsMagnitude bits f.fractions exponent)
    (hleast : f.leastExponent < exponent) (hnum : r.num ≠ 0) (hden : 0 < r.den) {t : ℚ}
    (ht : r.value = t * 2 ^ exponent) (hlow : f.fractions - 1 / 4 < t) (hhigh : t < f.fractions) :
    f.nearest r = bits := by
  have hfractions : (f.fractions : ℚ) = 2 ^ (f.fractionBits : ℤ) := by
    simp [fractions]
  have hone : (1 : ℚ) ≤ f.fractions := by exact_mod_cast f.fractions_pos
  have hhalf : (2 : ℚ) ^ ((f.fractionBits : ℤ) - 1) ≤ t := by
    rw [zpow_sub_one₀ two_ne_zero, ← hfractions]
    linarith
  have hlog : Int.log 2 r.value = f.fractionBits - 1 + exponent :=
    log_eq_of_scaled ht hhalf (by rwa [sub_add_cancel, ← hfractions])
  have hexponent : max (Int.log 2 r.value - f.fractionBits) f.leastExponent = exponent - 1 := by
    omega
  have hdouble : r.value * 2 ^ (-(exponent - 1)) = 2 * t := by
    rw [ht, mul_assoc, ← zpow_add₀ two_ne_zero, neg_sub, add_sub_cancel, zpow_one, mul_comm]
  have hsteps : |r.value * 2 ^ (-(exponent - 1)) - (2 * f.fractions : Nat)| < 1 / 2 := by
    rw [hdouble, abs_lt]
    push_cast
    constructor <;> linarith
  have hcount : (exponent - f.leastExponent).toNat =
      (exponent - 1 - f.leastExponent).toNat + 1 := by omega
  have hbits : bits = (exponent - 1 - f.leastExponent).toNat * f.fractions + 2 * f.fractions := by
    rw [h.bits_eq, hcount]
    ring
  rw [nearest_of_steps hnum hden hexponent hsteps, ← hbits, Nat.min_eq_left h.finite.le]

/-- A number near to a float rounds to it. -/
theorem nearest_of_near (h : f.IsMagnitude bits significand exponent) (hden : 0 < r.den)
    (hnear : |r.value - significand * 2 ^ exponent| * (4 * f.fractions) <
      significand * 2 ^ exponent) : f.nearest r = bits := by
  obtain ⟨t, ht⟩ : ∃ t, r.value = t * 2 ^ exponent :=
    ⟨r.value / 2 ^ exponent, (div_mul_cancel₀ _ (two_zpow_pos exponent).ne').symm⟩
  have hone : (1 : ℚ) ≤ f.fractions := by exact_mod_cast f.fractions_pos
  have hlt : (significand : ℚ) + 1 ≤ 2 * f.fractions := by exact_mod_cast h.lt
  have hscaled : |t - significand| * (4 * f.fractions) < significand := by
    rw [ht, ← sub_mul, abs_mul, abs_of_pos (two_zpow_pos exponent), mul_right_comm] at hnear
    exact lt_of_mul_lt_mul_right hnear (two_zpow_pos exponent).le
  have hnear' : |t - significand| < 1 / 2 := by
    by_contra hfar
    rw [not_lt] at hfar
    have hprod := mul_le_mul_of_nonneg_right hfar (by positivity : 0 ≤ 4 * (f.fractions : ℚ))
    linarith
  have hpos : 0 < t := by
    have hless := mul_le_mul_of_nonneg_left (by linarith : (1 : ℚ) ≤ 4 * f.fractions)
      (abs_nonneg (t - significand))
    rw [mul_one] at hless
    linarith [neg_abs_le (t - significand)]
  have hnum : r.num ≠ 0 := by
    rw [Ne, Ratio.num_eq_zero_iff hden, ht]
    exact (mul_pos hpos (two_zpow_pos exponent)).ne'
  by_cases hbinade : f.fractions ≤ t ∨ exponent = f.leastExponent
  · exact nearest_of_scaled h hnum hden ht hnear' hbinade
  · rw [not_or, not_le] at hbinade
    have hleast := lt_of_le_of_ne h.least_le (Ne.symm hbinade.2)
    -- Only the lowest float of its binade has nearer numbers below the binade.
    have hlowest : significand = f.fractions := by
      by_contra hne
      have hmore : (f.fractions : ℚ) + 1 ≤ significand := by
        exact_mod_cast lt_of_le_of_ne (h.normal hleast) (Ne.symm hne)
      linarith [(abs_lt.1 hnear').1]
    subst hlowest
    refine nearest_of_below h hleast hnum hden ht ?_ hbinade.1
    nlinarith [neg_abs_le (t - f.fractions)]

end Nearest
end FloatFormat

/-! ### Decimals near a double -/

namespace FloatToken
open FloatFormat

variable {bits significand : Nat} {exponent : Int}

theorem two_zpow_le_ten_zpow {k : Int} (hk : 0 ≤ k) : (2 : ℚ) ^ (3 * k) ≤ 10 ^ k := by
  obtain ⟨n, rfl⟩ := Int.eq_ofNat_of_zero_le hk
  rw [zpow_mul, zpow_natCast, zpow_natCast]
  exact pow_le_pow_left₀ (by norm_num) (by norm_num) n

/-- The doubles but zero lie far within the powers of ten that a decimal is held to. -/
theorem double_within (h : binary64.IsMagnitude bits significand exponent)
    (hsome : significand ≠ 0) :
    (10 : ℚ) ^ (-decimalBound) < significand * 2 ^ exponent / 2 ∧
      2 * (significand * 2 ^ exponent) < (10 : ℚ) ^ decimalBound := by
  have hleast : binary64.leastExponent = -1074 := by decide
  have hfractions : binary64.fractions = 2 ^ 52 := rfl
  have hinfinity : binary64.infinityBits = 2047 * 2 ^ 52 := by decide
  have hlow := h.least_le
  have hlt : (significand : ℚ) < 2 ^ (53 : ℤ) := by exact_mod_cast h.lt
  have hexponent : exponent ≤ 972 := by
    have hbits := h.bits_eq
    have hfinite := h.finite
    rw [hleast, hfractions] at hbits
    omega
  have hone : (1 : ℚ) ≤ significand := by exact_mod_cast Nat.one_le_iff_ne_zero.2 hsome
  have hbound : (2 : ℚ) ^ (3 * decimalBound) ≤ 10 ^ decimalBound := two_zpow_le_ten_zpow (by decide)
  have hvalue : decimalBound = 400 := rfl
  constructor
  · calc (10 : ℚ) ^ (-decimalBound) = (10 ^ decimalBound)⁻¹ := zpow_neg _ _
      _ ≤ (2 ^ (3 * decimalBound))⁻¹ := inv_anti₀ (two_zpow_pos _) hbound
      _ = 2 ^ (-(3 * decimalBound)) := (zpow_neg _ _).symm
      _ < 2 ^ (exponent - 1) := zpow_lt_zpow_right₀ (by norm_num) (by omega)
      _ = 2 ^ exponent / 2 := by rw [zpow_sub_one₀ two_ne_zero, div_eq_mul_inv]
      _ ≤ significand * 2 ^ exponent / 2 := by
        gcongr
        exact le_mul_of_one_le_left (two_zpow_pos _).le hone
  · calc 2 * (significand * (2 : ℚ) ^ exponent) < 2 * (2 ^ (53 : ℤ) * 2 ^ exponent) := by gcongr
      _ = 2 ^ (1 + (53 + exponent)) := by
        rw [zpow_add₀ two_ne_zero, zpow_add₀ two_ne_zero, zpow_one]
      _ ≤ 2 ^ (3 * decimalBound) := zpow_le_zpow_right₀ (by norm_num) (by omega)
      _ ≤ 10 ^ decimalBound := hbound

/-- The decimal exponents of doubles have three digits at most. -/
theorem natAbs_significant_lt (h : binary64.IsMagnitude bits significand exponent) (places : Nat) :
    ((Ratio.ofBinary significand exponent).significant places).2.natAbs < 1000 := by
  have hden := Ratio.den_ofBinary_pos significand exponent
  have hvalue := Ratio.value_ofBinary significand exponent
  by_cases hnum : (Ratio.ofBinary significand exponent).num = 0
  · rw [show (Ratio.ofBinary significand exponent).significant places = (0, 0) from if_pos hnum]
    decide
  · have hpos := Ratio.value_pos hnum hden
    have hsome : significand ≠ 0 := by
      rintro rfl
      rw [hvalue, Nat.cast_zero, zero_mul] at hpos
      exact lt_irrefl 0 hpos
    obtain ⟨hsmall, hlarge⟩ := double_within h hsome
    rw [← hvalue] at hsmall hlarge
    have hlow : -decimalBound ≤ Int.log 10 (Ratio.ofBinary significand exponent).value := by
      rw [← Int.zpow_le_iff_le_log (by decide) hpos, Nat.cast_ofNat]
      linarith
    have hhigh : Int.log 10 (Ratio.ofBinary significand exponent).value < decimalBound := by
      rw [← Int.lt_zpow_iff_log_lt (by decide) hpos, Nat.cast_ofNat]
      linarith
    have hcases := ((Ratio.ofBinary significand exponent).isSignificant hden places).exponent_cases hnum
    have hbound : decimalBound = 400 := rfl
    omega

/-- The powers of ten around a decimal that is about a double. -/
theorem top_within (h : binary64.IsMagnitude bits significand exponent) (hsome : significand ≠ 0)
    {digits size : Nat} {power : Int} (hlow : 10 ^ size ≤ 10 * digits) (hhigh : digits < 10 ^ size)
    (hnear : |(digits * 10 ^ power - significand * 2 ^ exponent : ℚ)| * 2 ≤
      significand * 2 ^ exponent) :
    -decimalBound < size + power ∧ size + power ≤ decimalBound := by
  obtain ⟨hsmall, hlarge⟩ := double_within h hsome
  obtain ⟨hbelow, habove⟩ := abs_le.1 (le_div_iff₀ (by norm_num : (0 : ℚ) < 2) |>.2 hnear)
  have hten := Ratio.ten_zpow_pos power
  have hsize : (10 : ℚ) ^ ((size : ℤ) + power) = 10 ^ size * 10 ^ power := by
    rw [zpow_add₀ (by norm_num), zpow_natCast]
  have hlow' : (10 : ℚ) ^ size ≤ 10 * digits := by exact_mod_cast hlow
  have hhigh' : (digits : ℚ) < 10 ^ size := by exact_mod_cast hhigh
  have hfirst : (10 : ℚ) ^ (-decimalBound) < 10 ^ ((size : ℤ) + power) := by
    calc (10 : ℚ) ^ (-decimalBound) < significand * 2 ^ exponent / 2 := hsmall
      _ ≤ digits * 10 ^ power := by linarith
      _ < 10 ^ size * 10 ^ power := by gcongr
      _ = 10 ^ ((size : ℤ) + power) := hsize.symm
  have hlast : (10 : ℚ) ^ ((size : ℤ) + power) < 10 ^ (decimalBound + 1) := by
    calc (10 : ℚ) ^ ((size : ℤ) + power) = 10 ^ size * 10 ^ power := hsize
      _ ≤ 10 * digits * 10 ^ power := by gcongr
      _ < 10 * 10 ^ decimalBound := by linarith
      _ = 10 ^ (decimalBound + 1) := by rw [zpow_add_one₀ (by norm_num), mul_comm]
  have hpowers := (zpow_lt_zpow_iff_right₀ (by norm_num : (1 : ℚ) < 10)).1 hfirst
  have hpowers' := (zpow_lt_zpow_iff_right₀ (by norm_num : (1 : ℚ) < 10)).1 hlast
  omega

/-- A decimal that agrees with a double to seventeen digits reads back as the double. -/
theorem nearestDecimal_of_near (h : binary64.IsMagnitude bits significand exponent)
    {digits size : Nat} {power : Int} (hlow : digits ≠ 0 → 10 ^ size ≤ 10 * digits)
    (hhigh : digits < 10 ^ size)
    (hnear : |(digits * 10 ^ power - significand * 2 ^ exponent : ℚ)| * (2 * 10 ^ 16) ≤
      significand * 2 ^ exponent) : nearestDecimal digits size power = bits := by
  have hfractions : binary64.fractions = 2 ^ 52 := rfl
  have hdistance := abs_nonneg (digits * 10 ^ power - significand * 2 ^ exponent : ℚ)
  by_cases hsome : significand = 0
  · subst hsome
    rw [Nat.cast_zero, zero_mul, sub_zero] at hnear hdistance
    have hzero : (digits * 10 ^ power : ℚ) = 0 := abs_eq_zero.1 (by linarith)
    have hdigits : digits = 0 := by
      exact_mod_cast (mul_eq_zero.1 hzero).resolve_right (Ratio.ten_zpow_pos power).ne'
    have hexponent : ¬ binary64.leastExponent < exponent := fun hlt => by
      have hnormal := h.normal hlt
      rw [hfractions] at hnormal
      omega
    have hbits := h.bits_eq
    have hle := h.least_le
    rw [show exponent - binary64.leastExponent = 0 by omega] at hbits
    rw [nearestDecimal, if_pos (.inl hdigits), hbits]
    rfl
  · have hpos : (0 : ℚ) < significand * 2 ^ exponent :=
      mul_pos (by exact_mod_cast Nat.pos_of_ne_zero hsome) (two_zpow_pos exponent)
    have hdigits : digits ≠ 0 := by
      rintro rfl
      rw [Nat.cast_zero, zero_mul, zero_sub, abs_neg, abs_of_pos hpos] at hnear
      linarith
    obtain ⟨hbelow, habove⟩ := top_within h hsome (hlow hdigits) hhigh (by linarith)
    have hscale : (Ratio.scale ⟨digits, 1⟩ 10 power).value = digits * 10 ^ power := by
      rw [Ratio.value_scale]
      simp [Ratio.value]
    have hnearest : binary64.nearest (Ratio.scale ⟨digits, 1⟩ 10 power) = bits := by
      refine nearest_of_near h (Ratio.den_scale_pos Nat.one_pos (by decide) _) ?_
      rw [hscale, hfractions]
      -- `4 * 2 ^ 52` is less than `2 * 10 ^ 16`.
      push_cast
      linarith
    rw [nearestDecimal, if_neg (by omega), if_neg (by omega), hnearest]

end FloatToken
end CheckedFormat
