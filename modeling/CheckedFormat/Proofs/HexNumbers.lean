import CheckedFormat.Memory.Arena
import CheckedFormat.Proofs.DoubleScale
import CheckedFormat.Proofs.LeadingDigits
/-! Hexadecimal numbers as doubles.

The leading digits of a hexadecimal number are rounded to a double and then multiplied by a
power of two, which is a double itself while it is neither too large nor too small. There the
product is what the digits taken round to at once (`hexValue_within`), since a significand
that is rounded at all is far above the lowest binades. So a hexadecimal token is stored as
the double nearest to it exactly where nothing is lost on the way that rounding can see
(`FloatToken.Parts.HexKept`, `Scan.hex_tokens_nearest_iff`). -/
namespace CheckedFormat
namespace FloatFormat

/-! ### Products of doubles -/

section Products
open FloatToken (powerOfTwo product)
variable {a b v count : Nat} {t : Int}

theorem powerOfTwo_within (hlow : -1024 < t) (hhigh : t < 1024) :
    powerOfTwo t < binary64.infinityBits ∧ binary64.number (powerOfTwo t) = 2 ^ t := by
  obtain ⟨count, hcount⟩ := exists_number (f := binary64) (n := 1) (e := t) (by decide)
    (by rw [leastExponent_binary64]; omega)
  rw [Nat.cast_one, one_mul] at hcount
  have hfinite : count < binary64.infinityBits := by
    rw [← number_strictMono.lt_iff_lt (f := binary64.number), hcount, number_infinity]
    exact zpow_lt_zpow_right₀ (by norm_num) hhigh
  obtain ⟨rounded, hrounded, hnearest⟩ := nearest_roundsTo (r := .ofBinary 1 t)
    fractions_binary64_even (Ratio.den_ofBinary_pos 1 t)
  rw [Ratio.value_ofBinary, Nat.cast_one, one_mul, ← hcount] at hrounded
  obtain rfl := hrounded.unique (roundsTo_number count)
  have hpower : powerOfTwo t = rounded := by
    rw [powerOfTwo, if_neg (by omega), hnearest, Nat.min_eq_left hfinite.le]
  rw [hpower]
  exact ⟨hfinite, hcount⟩

theorem powerOfTwo_large (h : 1024 ≤ t) : powerOfTwo t = binary64.infinityBits := by
  obtain ⟨rounded, hrounded, hnearest⟩ := nearest_roundsTo (r := .ofBinary 1 t)
    fractions_binary64_even (Ratio.den_ofBinary_pos 1 t)
  have hle : binary64.number binary64.infinityBits ≤ (Ratio.ofBinary 1 t).value := by
    rw [number_infinity, Ratio.value_ofBinary, Nat.cast_one, one_mul]
    exact zpow_le_zpow_right₀ (by norm_num) h
  rw [powerOfTwo, if_neg (by omega), hnearest]
  exact Nat.min_eq_right ((roundsTo_number _).mono hrounded hle)

/-- The product of finite doubles is rounded once. -/
theorem product_finite (ha : a < binary64.infinityBits) (hb : b < binary64.infinityBits) :
    ∃ count, binary64.RoundsTo (binary64.number a * binary64.number b) count ∧
      product a b = min count binary64.infinityBits := by
  obtain ⟨x, hx, hxden, hxvalue⟩ := exists_ratio ha
  obtain ⟨y, hy, hyden, hyvalue⟩ := exists_ratio hb
  obtain ⟨count, hcount, hnearest⟩ := nearest_roundsTo (r := ⟨x.num * y.num, x.den * y.den⟩)
    fractions_binary64_even (Nat.mul_pos hxden hyden)
  have hvalue : Ratio.value ⟨x.num * y.num, x.den * y.den⟩ = x.value * y.value := by
    unfold Ratio.value
    push_cast
    exact (div_mul_div_comm _ _ _ _).symm
  rw [hvalue, hxvalue, hyvalue] at hcount
  refine ⟨count, hcount, ?_⟩
  unfold product
  dsimp only
  rw [hx, hy]
  exact hnearest

theorem product_zero (ha : a < binary64.infinityBits) : product a 0 = 0 := by
  obtain ⟨count, hcount, hproduct⟩ := product_finite ha (b := 0) (by decide)
  rw [number_zero, mul_zero, ← number_zero (f := binary64)] at hcount
  rw [hproduct, hcount.unique (roundsTo_number 0), Nat.zero_min]

theorem product_infinity (a : Nat) : product a binary64.infinityBits =
    if a = 0 then binary64.withSign true binary64.quietNan else binary64.infinityBits := by
  have hinfinity : binary64.infinityBits ≠ 0 := by decide
  unfold product
  dsimp only
  rw [ratio?_infinity]
  cases binary64.ratio? a <;> simp only [hinfinity, or_false]

/-- A word is rounded to a finite double. -/
theorem nearest_word (hv : v < 2 ^ 63) :
    binary64.nearest ⟨v, 1⟩ < binary64.infinityBits ∧
      binary64.RoundsTo v (binary64.nearest ⟨v, 1⟩) := by
  obtain ⟨count, hcount, hnearest⟩ := nearest_roundsTo (r := ⟨v, 1⟩) fractions_binary64_even
    Nat.one_pos
  have hvalue : Ratio.value ⟨v, 1⟩ = v := div_one _
  rw [hvalue] at hcount
  have hle : (v : ℚ) ≤ binary64.number (1085 * binary64.fractions + binary64.fractions) := by
    rw [number_binade_binary64, show ((1085 : ℕ) : ℤ) - 1022 = (63 : ℕ) from rfl, zpow_natCast]
    exact_mod_cast hv.le
  have hfinite : count < binary64.infinityBits :=
    (hcount.mono (roundsTo_number _) hle).trans_lt (by decide)
  rw [hnearest, Nat.min_eq_left hfinite.le]
  exact ⟨hfinite, hcount⟩

/-- A word that is rounded and then multiplied by a power of two gives what the word times
that power is rounded to: a word that is too long for a significand leads far above the
lowest binades. -/
theorem exists_roundsTo_mul (h : binary64.RoundsTo v count) (hlow : -1024 < t) :
    ∃ other, binary64.RoundsTo (v * 2 ^ t) other ∧
      binary64.RoundsTo (binary64.number count * 2 ^ t) other := by
  rcases Nat.lt_or_ge v (2 ^ 53) with hshort | hlong
  · obtain ⟨exact, hexact⟩ := exists_number (f := binary64) (n := v) (e := 0) hshort (by decide)
    rw [zpow_zero, mul_one] at hexact
    obtain rfl := h.unique (hexact ▸ roundsTo_number exact)
    obtain ⟨other, hother⟩ := exists_roundsTo fractions_binary64_even
      (mul_nonneg (Nat.cast_nonneg v) (two_zpow_pos t).le)
    exact ⟨other, hother, hexact ▸ hother⟩
  · have hle : binary64.number (1075 * binary64.fractions + binary64.fractions) ≤ v := by
      rw [number_binade_binary64, show ((1075 : ℕ) : ℤ) - 1022 = (53 : ℕ) from rfl, zpow_natCast]
      exact_mod_cast hlong
    have hcount := (roundsTo_number _).mono h hle
    rw [fractions_binary64] at hcount
    obtain ⟨other, hother⟩ := Int.eq_ofNat_of_zero_le
      (by rw [fractions_binary64]; push_cast; omega : 0 ≤ (count : ℤ) + t * binary64.fractions)
    have habove : binary64.fractions < other := by
      rw [fractions_binary64] at hother ⊢
      push_cast at hother
      omega
    have hbelow : binary64.fractions < count := by
      rw [fractions_binary64]
      omega
    refine ⟨other, h.shift fractions_binary64_even hbelow habove hother.symm, ?_⟩
    rw [← number_shift hbelow.le habove.le hother.symm]
    exact roundsTo_number other

/-- Below a long word and the next one lie the same half ways, so what stands behind the
word does not show, unless the word is half way itself. -/
theorem RoundsTo.eq_of_truncated {x : ℚ} {other : Nat} (h : binary64.RoundsTo (v * 2 ^ t) count)
    (h' : binary64.RoundsTo x other) (hle : v * 2 ^ t ≤ x) (hlt : x < (v + 1 : ℕ) * 2 ^ t)
    (hlong : 2 ^ 59 ≤ v) (htie : ∀ n, n % 2 = 0 → (v * 2 ^ t : ℚ) ≠ binary64.halfway n) :
    count = other := by
  refine Nat.le_antisymm (h.mono h' hle) ((h' count).2 ?_)
  by_contra habove
  have hbelow : v * 2 ^ t < binary64.halfway count :=
    h.within.resolve_right fun hmiddle => htie count hmiddle.2 hmiddle.1
  have hover := halfway_le_of_not_roundsWithin habove
  obtain ⟨e, steps, rfl, hlow, hhigh, -⟩ := exists_binade (f := binary64) count
  rw [halfway_eq hlow hhigh, leastExponent_binary64] at hbelow hover
  have hunit := two_zpow_pos t
  have hpower : t < e - 1075 := by
    have hsteps : (steps : ℚ) + 1 / 2 < 2 ^ (53 : ℤ) := by
      have hcast : (steps : ℚ) + 1 ≤ 2 ^ (53 : ℤ) := by exact_mod_cast hhigh
      linarith
    have hfirst : (2 : ℚ) ^ (59 : ℤ) ≤ v := by exact_mod_cast hlong
    have hpowers : (2 : ℚ) ^ (59 + t) < 2 ^ (53 + (-1074 + e) : ℤ) := by
      calc (2 : ℚ) ^ (59 + t) = 2 ^ (59 : ℤ) * 2 ^ t := zpow_add₀ two_ne_zero _ _
        _ ≤ v * 2 ^ t := mul_le_mul_of_nonneg_right hfirst hunit.le
        _ < (steps + 1 / 2) * 2 ^ (-1074 + (e : ℤ)) := hbelow
        _ < 2 ^ (53 : ℤ) * 2 ^ (-1074 + (e : ℤ)) := mul_lt_mul_of_pos_right hsteps (two_zpow_pos _)
        _ = 2 ^ (53 + (-1074 + e) : ℤ) := (zpow_add₀ two_ne_zero _ _).symm
    have := (zpow_lt_zpow_iff_right₀ (by norm_num)).1 hpowers
    omega
  -- So the half way is a whole number of the word's units.
  obtain ⟨k, hk⟩ := Int.eq_ofNat_of_zero_le (by omega : 0 ≤ e - 1075 - t)
  have hwhole : ((steps : ℚ) + 1 / 2) * 2 ^ (-1074 + (e : ℤ)) =
      ((2 * steps + 1) * 2 ^ k : ℕ) * 2 ^ t := by
    rw [show -1074 + (e : ℤ) = k + t + 1 by omega, zpow_add_one₀ two_ne_zero,
      zpow_add₀ two_ne_zero, zpow_natCast]
    push_cast
    ring
  rw [hwhole] at hbelow hover
  have hmore : v < (2 * steps + 1) * 2 ^ k := by
    exact_mod_cast lt_of_mul_lt_mul_right hbelow hunit.le
  have hless : (2 * steps + 1) * 2 ^ k < v + 1 := by
    exact_mod_cast lt_of_mul_lt_mul_right (hover.trans_lt hlt) hunit.le
  omega

end Products
end FloatFormat

namespace FloatToken
open FloatFormat

/-! ### What is stored -/

/-- The number was taken whole, or its exponent was and the digits that were taken are not
half way between two doubles, above an even one. -/
def Parts.IsWhole (p : Parts) : Prop :=
  p.hexNumber = p.taken ∨ digitsValue 10 p.exponent ≤ 100000 ∧
    ∀ count, count % 2 = 0 → p.taken ≠ binary64.halfway count

/-- What a hexadecimal number lost on the way to a double does not show: it is rounded to
zero where its power of two is taken for zero; it is infinite, and so is what was taken of it;
or its power of two is a double and it was taken whole. -/
inductive Parts.HexKept (p : Parts) : Prop where
  | small (hshift : p.shift ≤ -1024) (h : p.hexNumber ≤ 2 ^ (-1075 : ℤ))
  | large (hshift : -1024 < p.shift) (h : 2 ^ (1024 : ℤ) - 2 ^ (970 : ℤ) ≤ p.hexNumber)
      (htaken : 2 ^ (1024 : ℤ) - 2 ^ (970 : ℤ) ≤ p.taken)
  | within (hlow : -1024 < p.shift) (hhigh : p.shift < 1024) (h : p.IsWhole)

section Values
variable {p : Parts}

theorem hexValue_eq (p : Parts) : hexValue p =
    product (binary64.nearest ⟨p.leading.value, 1⟩) (powerOfTwo p.shift) := rfl

theorem infinityBits_pos : 0 < binary64.infinityBits := by decide

theorem hexValue_small (h : p.shift ≤ -1024) : hexValue p = 0 := by
  rw [hexValue_eq, powerOfTwo, if_pos h, product_zero (nearest_word p.leading_lt).1]

/-- An infinite power of two makes every number infinite but zero, which it makes a NaN. -/
theorem hexValue_large (h : 1024 ≤ p.shift) : hexValue p =
    if p.leading.value = 0 then binary64.withSign true binary64.quietNan
    else binary64.infinityBits := by
  rw [hexValue_eq, powerOfTwo_large h, product_infinity]
  refine if_congr ⟨fun hzero => ?_, fun hzero => by rw [hzero]; rfl⟩ rfl rfl
  by_contra hne
  have hone : binary64.number (1022 * binary64.fractions + binary64.fractions) ≤
      p.leading.value := by
    rw [number_binade_binary64, show ((1022 : ℕ) : ℤ) - 1022 = 0 from rfl, zpow_zero]
    exact_mod_cast Nat.one_le_iff_ne_zero.2 hne
  have hle := (roundsTo_number _).mono (nearest_word p.leading_lt).2 hone
  rw [hzero] at hle
  exact absurd hle (by decide)

theorem hexValue_within (hlow : -1024 < p.shift) (hhigh : p.shift < 1024) :
    ∃ count, binary64.RoundsTo p.taken count ∧ hexValue p = min count binary64.infinityBits := by
  obtain ⟨hfinite, hword⟩ := nearest_word p.leading_lt
  obtain ⟨hpower, hnumber⟩ := powerOfTwo_within hlow hhigh
  obtain ⟨count, hcount, hproduct⟩ := product_finite hfinite hpower
  obtain ⟨other, hother, hrounded⟩ := exists_roundsTo_mul hword hlow
  rw [hnumber] at hcount
  obtain rfl := hcount.unique hrounded
  exact ⟨count, hother, hproduct⟩

/-- Numbers that are rounded alike are near to each other, so the exponent was not held. -/
theorem held_eq_power_of_roundsTo (hlow : -1024 < p.shift) {count : Nat}
    (hnumber : binary64.RoundsTo p.hexNumber count) (htaken : binary64.RoundsTo p.taken count)
    (hsome : p.leading.value ≠ 0) : p.held = p.power := by
  by_contra hheld
  -- What was taken is above the lowest counts, which are far from each other.
  have hcount : 16 ≤ count := by
    refine (roundsTo_number 16).mono htaken ?_
    have h : binary64.number (0 * binary64.fractions + 16) =
        (16 : ℕ) * 2 ^ (binary64.leastExponent + (0 : ℕ)) :=
      FloatFormat.number_eq (.inl rfl) (by decide)
    rw [leastExponent_binary64, show ((16 : ℕ) : ℚ) = 2 ^ (4 : ℤ) by norm_num,
      ← zpow_add₀ two_ne_zero] at h
    calc binary64.number 16 = 2 ^ (-1070 : ℤ) := h
      _ ≤ 2 ^ p.shift := zpow_le_zpow_right₀ (by norm_num) (by omega)
      _ ≤ p.taken := p.two_zpow_le_taken hsome
  obtain ⟨below, rfl⟩ := Nat.exists_eq_succ_of_ne_zero (by omega : count ≠ 0)
  have hnear := hnumber.lt_of_roundsTo htaken (by decide) (by omega)
  have hnear' := htaken.lt_of_roundsTo hnumber (by decide) (by omega)
  rcases p.far_of_held hheld with hfar | hfar <;> linarith

/-- Where both are rounded to the same finite double, nothing that shows was lost. -/
theorem whole_of_roundsTo (hexponent : ∀ b ∈ p.exponent, b.isDigit) (hlow : -1024 < p.shift)
    {count : Nat} (hnumber : binary64.RoundsTo p.hexNumber count)
    (htaken : binary64.RoundsTo p.taken count) : p.IsWhole := by
  by_cases hsame : p.hexNumber = p.taken
  · exact .inl hsame
  have hsome : p.leading.value ≠ 0 := by
    intro hzero
    rcases p.eq_taken_or_full with heq | hfull
    · rw [p.taken_of_zero hzero, mul_eq_zero] at heq
      exact hsame ((heq.resolve_right (two_zpow_pos _).ne').trans (p.taken_of_zero hzero).symm)
    · rw [hzero] at hfull
      exact absurd hfull (by decide)
  have hheld := held_eq_power_of_roundsTo hlow hnumber htaken hsome
  have hle := p.taken_le
  rw [hheld, sub_self, zpow_zero, mul_one] at hle
  refine .inr ⟨(Parts.held_eq_power_iff hexponent).1 hheld, fun n heven htie => ?_⟩
  have hbelow : count ≤ n := (htaken n).2 (.inr ⟨htie, heven⟩)
  have habove : ¬ binary64.RoundsWithin p.hexNumber n :=
    not_roundsWithin_iff.2 (.inl (htie ▸ lt_of_le_of_ne hle (Ne.symm hsame)))
  exact habove ((hnumber n).1 hbelow)

/-- Where nothing that shows was lost, both are rounded to the same double. -/
theorem eq_of_whole (hexponent : ∀ b ∈ p.exponent, b.isDigit) {count other : Nat}
    (hnumber : binary64.RoundsTo p.hexNumber other) (htaken : binary64.RoundsTo p.taken count)
    (h : p.IsWhole) : count = other := by
  rcases h with hsame | ⟨hexponent', htie⟩
  · rw [hsame] at hnumber
    exact htaken.unique hnumber
  · have hheld := (Parts.held_eq_power_iff hexponent).2 hexponent'
    have hle := p.taken_le
    have hlt := p.lt_taken
    have hfull := p.eq_taken_or_full
    rw [hheld, sub_self, zpow_zero, mul_one] at hle hlt hfull
    rcases hfull with hsame | hlong
    · rw [hsame] at hnumber
      exact htaken.unique hnumber
    · exact htaken.eq_of_truncated hnumber hle hlt hlong htie

/-! ### The three ranges of the power -/

theorem hexKept_of_small (h : p.shift ≤ -1024) :
    p.HexKept ↔ p.hexNumber ≤ 2 ^ (-1075 : ℤ) := by
  refine ⟨fun hkept => ?_, .small h⟩
  cases hkept with
  | small _ hsmall => exact hsmall
  | large hlow _ _ => omega
  | within hlow _ _ => omega

theorem hexKept_of_large (h : 1024 ≤ p.shift) :
    p.HexKept ↔ 2 ^ (1024 : ℤ) - 2 ^ (970 : ℤ) ≤ p.hexNumber ∧
      2 ^ (1024 : ℤ) - 2 ^ (970 : ℤ) ≤ p.taken := by
  refine ⟨fun hkept => ?_, fun ⟨hnumber, htaken⟩ => .large (by omega) hnumber htaken⟩
  cases hkept with
  | small hsmall _ => omega
  | large _ hnumber htaken => exact ⟨hnumber, htaken⟩
  | within _ hhigh _ => omega

theorem hexKept_of_within (hlow : -1024 < p.shift) (hhigh : p.shift < 1024) :
    p.HexKept ↔ (2 ^ (1024 : ℤ) - 2 ^ (970 : ℤ) ≤ p.hexNumber ∧
      2 ^ (1024 : ℤ) - 2 ^ (970 : ℤ) ≤ p.taken) ∨ p.IsWhole := by
  constructor
  · intro hkept
    cases hkept with
    | small hsmall _ => omega
    | large _ hnumber htaken => exact .inl ⟨hnumber, htaken⟩
    | within _ _ hwhole => exact .inr hwhole
  · rintro (⟨hnumber, htaken⟩ | hwhole)
    · exact .large hlow hnumber htaken
    · exact .within hlow hhigh hwhole

/-- Infinity is nearest from half way between the largest double and the next number on. -/
theorem isNearest_infinity_binary64_iff {v : ℚ} (hv : 0 ≤ v) :
    binary64.IsNearest v binary64.infinityBits ↔ 2 ^ (1024 : ℤ) - 2 ^ (970 : ℤ) ≤ v := by
  rw [isNearest_infinity_iff fractions_binary64_even infinityBits_pos hv, halfway_last]

theorem isNearest_iff_of_small (h : p.shift ≤ -1024) :
    binary64.IsNearest p.hexNumber (hexValue p) ↔ p.HexKept := by
  rw [hexValue_small h, hexKept_of_small h, isNearest_zero_iff fractions_binary64_even
    infinityBits_pos p.hexNumber_nonneg, halfway_zero]

theorem isNearest_iff_of_large (h : 1024 ≤ p.shift) :
    binary64.IsNearest p.hexNumber (hexValue p) ↔ p.HexKept := by
  rw [hexValue_large h, hexKept_of_large h]
  split
  · rename_i hzero
    have hoverflow : (2 : ℚ) ^ (970 : ℤ) < 2 ^ (1024 : ℤ) :=
      zpow_lt_zpow_right₀ (by norm_num) (by decide)
    rw [p.taken_of_zero hzero, sub_nonpos]
    exact iff_of_false (fun hnan => absurd hnan.le (by decide)) fun h => hoverflow.not_ge h.2
  · rename_i hsome
    have htaken : 2 ^ (1024 : ℤ) - 2 ^ (970 : ℤ) ≤ p.taken := by
      calc (2 : ℚ) ^ (1024 : ℤ) - 2 ^ (970 : ℤ) ≤ 2 ^ (1024 : ℤ) :=
            sub_le_self _ (two_zpow_pos _).le
        _ ≤ 2 ^ p.shift := zpow_le_zpow_right₀ (by norm_num) h
        _ ≤ p.taken := p.two_zpow_le_taken hsome
    rw [isNearest_infinity_binary64_iff p.hexNumber_nonneg, and_iff_left htaken]

theorem isNearest_iff_of_within (hexponent : ∀ b ∈ p.exponent, b.isDigit) (hlow : -1024 < p.shift)
    (hhigh : p.shift < 1024) : binary64.IsNearest p.hexNumber (hexValue p) ↔ p.HexKept := by
  obtain ⟨count, hcount, hvalue⟩ := hexValue_within hlow hhigh
  obtain ⟨other, hother⟩ := exists_roundsTo fractions_binary64_even p.hexNumber_nonneg
  have hnumber := isNearest_infinity_binary64_iff p.hexNumber_nonneg
  have htaken := isNearest_infinity_binary64_iff p.taken_nonneg
  rw [hother.isNearest_iff] at hnumber
  rw [hcount.isNearest_iff] at htaken
  rw [hvalue, hother.isNearest_iff, hexKept_of_within hlow hhigh, ← hnumber, ← htaken]
  constructor
  · intro hsame
    by_cases hcut : binary64.infinityBits ≤ count
    · left
      omega
    · obtain rfl : count = other := by omega
      exact .inr (whole_of_roundsTo hexponent hlow hother hcount)
  · rintro (⟨hcut, hcut'⟩ | hwhole)
    · exact hcut'.symm.trans hcut
    · rw [eq_of_whole hexponent hother hcount hwhole]

/-- A hexadecimal number gives the nearest double just where nothing that shows was lost. -/
theorem isNearest_hexValue_iff (hexponent : ∀ b ∈ p.exponent, b.isDigit) :
    binary64.IsNearest p.hexNumber (hexValue p) ↔ p.HexKept := by
  rcases le_or_gt p.shift (-1024) with hsmall | hlow
  · exact isNearest_iff_of_small hsmall
  · rcases lt_or_ge p.shift 1024 with hhigh | hlarge
    · exact isNearest_iff_of_within hexponent hlow hhigh
    · exact isNearest_iff_of_large hlarge

theorem hexValue_lt (p : Parts) : hexValue p < 2 ^ 64 := by
  rcases le_or_gt p.shift (-1024) with hsmall | hlow
  · rw [hexValue_small hsmall]
    decide
  rcases lt_or_ge p.shift 1024 with hhigh | hlarge
  · obtain ⟨count, -, hvalue⟩ := hexValue_within hlow hhigh
    rw [hvalue]
    exact (Nat.min_le_right _ _).trans_lt (by decide)
  · rw [hexValue_large hlarge]
    split <;> decide

theorem value_hex {sign text : List Byte} {negative : Bool} {mark : Byte}
    (hsign : SpellsSign sign negative) (hmark : mark = 120 ∨ mark = 88) (h : Spells .hex text p) :
    (value (sign ++ 48 :: mark :: text)).toNat = signed negative (hexValue p) := by
  have hfirst : ∀ b, (48 :: mark :: text).head? = some b → b.isSign = false := by
    rintro b ⟨⟩
    rfl
  rw [value_signed hsign hfirst, magnitude_hex hmark, h.parts_eq, BitVec.toNat_ofNat,
    Nat.mod_eq_of_lt (signed_lt (hexValue_lt p))]

end Values
end FloatToken

namespace Scan
open FloatToken (Parts Spells SpellsSign)
open FloatFormat (binary64)

variable {S M : Type} [ByteSource S] [Memory M]

/-- What a floating-point directive stores as a double for a hexadecimal token, in eight bytes
where the next argument points, is the double nearest to the number with its sign, if and
only if nothing that shows was lost. -/
theorem hex_tokens_nearest_iff {letter : Conversion} {spec : ScanSpec} {s : State S M}
    {sign text : List Byte} {negative : Bool} {mark : Byte} (hletter : letter ∈ floatLetters)
    (hspec : spec.conversion = .letter letter)
    (hlength : spec.length = .long ∨ spec.length = .longDouble) (hsign : SpellsSign sign negative)
    (hmark : mark = 120 ∨ mark = 88) (hfinds : FindsToken spec s (sign ++ 48 :: mark :: text)) :
    ∃ (p : Parts) (bits : Word) (t : State S M), Spells .hex text p ∧ SameStores s t ∧
      Deposits spec.suppress [littleEndian 8 bits.toNat] t (convert spec s) ∧
      ((∃ magnitude, binary64.IsNearest p.hexNumber magnitude ∧
        bits.toNat = binary64.withSign negative magnitude) ↔ p.HexKept) := by
  obtain ⟨p, hspells⟩ :=
    FloatToken.isNumeral_iff.1 (FloatToken.isNumeral_of_isFloat hsign hmark hfinds.isFloat)
  obtain ⟨t, hsame, hdeposits⟩ := exists_deposits hletter hspec hfinds
  have hbytes (bits : Word) : floatBytes spec.length bits = littleEndian 8 bits.toNat := by
    rcases hlength with hlength | hlength <;> rw [hlength] <;> rfl
  refine ⟨p, FloatToken.value (sign ++ 48 :: mark :: text), t, hspells, hsame, ?_, ?_⟩
  · rwa [hbytes] at hdeposits
  · rw [FloatToken.value_hex hsign hmark hspells,
      FloatToken.isNearest_signed_iff (FloatToken.hexValue_lt p),
      FloatToken.isNearest_hexValue_iff hspells.isDigit_exponent]

/-- Minus three, behind a space, is stored where the pointer leads. -/
theorem hex_token_behind_space_nearest :
    let spec : ScanSpec := ⟨false, none, .long, .letter .f⟩
    let frame : Frame Arena :=
      ⟨.start .checked [.pointer 0x10000], (Arena.empty.allocate 8).2, .initial⟩
    let s : State TextSource Arena := ⟨.start (TextSource.mk (ascii " -0x1.8p1")), frame⟩
    FindsToken spec s ([45] ++ 48 :: 120 :: ascii "1.8p1") ∧
      ∃ (bits : Word) (t : State TextSource Arena) (magnitude : Nat),
        convert spec s = .ok .assigned t ∧
        t.frame.memory.Holds 0x10000 (littleEndian 8 bits.toNat) ∧
        t.frame.arguments = frame.arguments.advance ∧
        binary64.IsNearest 3 magnitude ∧ bits.toNat = binary64.withSign true magnitude := by
  intro spec frame s
  have hfinds : FindsToken spec s ([45] ++ 48 :: 120 :: ascii "1.8p1") :=
    ⟨by decide +kernel, by decide +kernel⟩
  have hletter : Conversion.f ∈ floatLetters := by decide
  obtain ⟨p, bits, t, hspells, ⟨harguments, hmemory⟩, hdeposits, hnearest⟩ :=
    hex_tokens_nearest_iff hletter rfl (.inl rfl) .minus (.inl rfl) hfinds
  have hoffers : t.frame.arguments.Offers [⟨.pointer, 0x10000⟩] :=
    harguments ▸ ArgumentList.offers_start .checked [.pointer 0x10000]
  have hin : t.frame.memory.InBounds 0x10000 [littleEndian 8 bits.toNat].flatten.length := by
    rw [hmemory, List.flatten_singleton, length_littleEndian]
    exact ⟨by decide, by decide, by decide⟩
  obtain ⟨later, hassigned, hholds, -⟩ := hdeposits.exists_assigned hoffers hin
  rw [List.flatten_singleton] at hholds
  have hparts : FloatToken.parts .hex (ascii "1.8p1") =
      ⟨ascii "1", ascii "8", false, ascii "1"⟩ := by decide +kernel
  obtain rfl := hspells.parts_eq.symm.trans hparts
  have hwritten : digitsValue 16 (ascii "1" ++ ascii "8") = 24 := by decide +kernel
  have hpower : Parts.power ⟨ascii "1", ascii "8", false, ascii "1"⟩ = 1 := by decide +kernel
  have hleading : (Parts.leading ⟨ascii "1", ascii "8", false, ascii "1"⟩).value = 24 := by
    decide +kernel
  have hshift : Parts.shift ⟨ascii "1", ascii "8", false, ascii "1"⟩ = -3 := by decide +kernel
  have hnumber : Parts.hexNumber ⟨ascii "1", ascii "8", false, ascii "1"⟩ = 24 * 2 ^ (-3 : ℤ) := by
    rw [Parts.hexNumber, hwritten, hpower]
    rfl
  have htaken : Parts.taken ⟨ascii "1", ascii "8", false, ascii "1"⟩ = 24 * 2 ^ (-3 : ℤ) := by
    rw [Parts.taken, hleading, hshift]
    rfl
  obtain ⟨magnitude, hmagnitude, hbits⟩ := hnearest.2
    (.within (by rw [hshift]; decide) (by rw [hshift]; decide) (.inl (hnumber.trans htaken.symm)))
  rw [hnumber, show (24 : ℚ) * 2 ^ (-3 : ℤ) = 3 by norm_num] at hmagnitude
  exact ⟨hfinds, bits, _, magnitude, hassigned, hholds,
    congrArg ArgumentList.advance harguments, hmagnitude, hbits⟩

/-- Zero times a power of two that is infinite: what is stored is a NaN, and no sign makes
it the double nearest to zero. -/
theorem zero_with_large_exponent_is_nan :
    let text := ascii "0p1024"
    let p : Parts := ⟨ascii "0", [], false, ascii "1024"⟩
    let frame : Frame Arena :=
      ⟨.start .checked [.pointer 0x10000], (Arena.empty.allocate 8).2, .initial⟩
    let result := scan (TextSource.mk (48 :: 120 :: text)) (ascii "%lf") frame
    Spells .hex text p ∧ p.hexNumber = 0 ∧ binary64.IsNearest 0 0 ∧
      result.1 = .ok ⟨1, 8, .complete, none⟩ ∧
      ∀ negative magnitude, binary64.IsNearest p.hexNumber magnitude →
        result.2.2.memory.bytes ≠ littleEndian 8 (binary64.withSign negative magnitude) := by
  intro text p frame result
  have hspells : Spells .hex text p := by
    refine ⟨by decide +kernel, by decide, [], ascii "p1024", by decide +kernel, .absent, ?_⟩
    exact .plain (.inl rfl) ⟨by decide, by decide +kernel⟩
  have hzero : p.hexNumber = 0 := by
    have hdigits : digitsValue 16 (ascii "0" ++ []) = 0 := by decide +kernel
    rw [Parts.hexNumber, hdigits, Nat.cast_zero, zero_mul]
  have hnearest : binary64.IsNearest 0 0 :=
    (FloatFormat.number_zero (f := binary64) ▸ FloatFormat.roundsTo_number 0).isNearest
  refine ⟨hspells, hzero, hnearest, ok_of_toOption (by decide +kernel), ?_⟩
  intro negative magnitude h
  rw [hzero] at h
  obtain rfl := h.unique hnearest
  cases negative <;> decide +kernel

end Scan
end CheckedFormat
