import CheckedFormat.Proofs.GeneralStyle
import CheckedFormat.Proofs.NumberParts
/-! The leading digits of hexadecimal numbers.

The digits of a hexadecimal number are taken from the front until no further one fits a word
(`IsLeading`), those behind count by their place alone, and the written exponent is held at a
bound. With its exponent as held a number lies between what was taken and the next number of
as many digits (`Parts.taken_le`, `Parts.lt_taken`); where the exponent was not held that is
the number itself, and where it was, the number is far from what was taken
(`Parts.far_of_held`). -/
namespace CheckedFormat
namespace FloatToken

/-! ### Taking digits -/

/-- What was taken of digits, so many of them behind the point: all but the last ones,
which do not fit. -/
structure IsLeading (digits : List Byte) (places dropped : Nat) (l : Leading) : Prop where
  value_eq : l.value = digitsValue 16 digits / 16 ^ dropped
  exponent_eq : l.exponent = 4 * dropped - 4 * places
  full : dropped = 0 ∨ leadingBound ≤ l.value
  lt : l.value < 2 ^ 63

section Taking
variable {digits : List Byte} {places dropped : Nat} {l : Leading}

theorem digit_lt (b : Byte) : (b.digit? 16).getD 0 < 16 := by
  cases hdigit : b.digit? 16 with
  | none => decide
  | some d => exact of_decide_eq_true (Option.filter_eq_some_iff.1 hdigit).2

/-- One more digit is taken, or dropped. -/
theorem IsLeading.push (h : IsLeading digits places dropped l) (behindPoint : Bool) (b : Byte) :
    ∃ dropped, IsLeading (digits ++ [b]) (places + if behindPoint then 1 else 0) dropped
      (l.push behindPoint b) := by
  have hbound : leadingBound = 2 ^ 59 := rfl
  have hexponent := h.exponent_eq
  have hdigit := digit_lt b
  unfold Leading.push
  by_cases hfits : l.value < leadingBound
  · obtain rfl : dropped = 0 := h.full.resolve_right (by omega)
    rw [if_pos hfits]
    refine ⟨0, ?_, ?_, .inl rfl, ?_⟩
    · have hvalue := h.value_eq
      rw [Nat.pow_zero, Nat.div_one] at hvalue ⊢
      rw [digitsValue_append_digit, ← hvalue]
    · cases behindPoint
      · exact hexponent
      · show l.exponent - 4 = _
        rw [hexponent, if_pos rfl]
        push_cast
        ring
    · show l.value * 16 + _ < 2 ^ 63
      omega
  · have hvalue : l.value = digitsValue 16 (digits ++ [b]) / 16 ^ (dropped + 1) := by
      have hquotient : (digitsValue 16 digits * 16 + (b.digit? 16).getD 0) / 16 =
          digitsValue 16 digits := by omega
      rw [digitsValue_append_digit, Nat.pow_succ', ← Nat.div_div_eq_div_mul, hquotient, h.value_eq]
    rw [if_neg hfits]
    cases behindPoint
    · refine ⟨dropped + 1, hvalue, ?_, .inr (not_lt.1 hfits), h.lt⟩
      show l.exponent + 4 = _
      rw [hexponent, if_neg Bool.false_ne_true]
      push_cast
      ring
    · refine ⟨dropped + 1, hvalue, ?_, .inr (not_lt.1 hfits), h.lt⟩
      show l.exponent = _
      rw [hexponent, if_pos rfl]
      push_cast
      ring

theorem IsLeading.foldl (h : IsLeading digits places dropped l) (behindPoint : Bool)
    (rest : List Byte) :
    ∃ dropped, IsLeading (digits ++ rest) (places + if behindPoint then rest.length else 0) dropped
      (rest.foldl (Leading.push behindPoint) l) := by
  induction rest generalizing digits places dropped l with
  | nil =>
    refine ⟨dropped, ?_⟩
    rw [List.append_nil, List.length_nil, ite_self]
    exact h
  | cons b rest ih =>
    obtain ⟨_, hpush⟩ := h.push behindPoint b
    obtain ⟨dropped, hrest⟩ := ih hpush
    have hplaces : (places + if behindPoint then 1 else 0) +
        (if behindPoint then rest.length else 0) =
          places + if behindPoint then (b :: rest).length else 0 := by
      cases behindPoint
      · rfl
      · show places + 1 + rest.length = places + (rest.length + 1)
        omega
    rw [List.append_assoc, hplaces] at hrest
    exact ⟨dropped, hrest⟩

end Taking

/-- The held exponent is the written one, up to its bound. -/
theorem boundedExponent_eq {digits : List Byte} (h : ∀ b ∈ digits, b.isDigit) :
    boundedExponent digits = min (digitsValue 10 digits) 100000 := by
  have hfold : ∀ n, digits.foldl (fun n b => min (n * 10 + (b.toNat - 48)) 100000)
      (min n 100000) =
        min (digits.foldl (fun n b => n * 10 + (b.digit? 10).getD 0) n) 100000 := by
    induction digits with
    | nil => exact fun n => rfl
    | cons b digits ih =>
      obtain ⟨hb, hdigits⟩ := List.forall_mem_cons.1 h
      intro n
      have hstep : min (min n 100000 * 10 + (b.toNat - 48)) 100000 =
          min (n * 10 + (b.toNat - 48)) 100000 := by omega
      rw [List.foldl_cons, List.foldl_cons, Byte.digit?_of_isDigit hb, Option.getD_some, hstep]
      exact ih hdigits _
  exact hfold 0

/-! ### Numbers -/

namespace Parts

/-- The number that the parts of a hexadecimal number say. -/
def hexNumber (p : Parts) : ℚ :=
  digitsValue 16 (p.whole ++ p.fraction) * 2 ^ (p.power - 4 * p.fraction.length)

/-- The leading digits. -/
def leading (p : Parts) : Leading :=
  p.fraction.foldl (Leading.push true) (p.whole.foldl (Leading.push false) ⟨0, 0⟩)

/-- The power of two that the exponent is held to. -/
def held (p : Parts) : Int :=
  if p.exponentNegative then -(boundedExponent p.exponent : Int) else boundedExponent p.exponent

/-- The power of two that the leading digits are multiplied by. -/
def shift (p : Parts) : Int := p.leading.exponent + p.held

/-- The number that was taken: the leading digits and the exponent as held. -/
def taken (p : Parts) : ℚ := p.leading.value * 2 ^ p.shift

section Numbers
variable (p : Parts)

theorem exists_isLeading :
    ∃ dropped, IsLeading (p.whole ++ p.fraction) p.fraction.length dropped p.leading := by
  have hstart : IsLeading [] 0 0 ⟨0, 0⟩ := ⟨rfl, rfl, .inl rfl, by decide⟩
  obtain ⟨_, hwhole⟩ := hstart.foldl false p.whole
  obtain ⟨dropped, hall⟩ := hwhole.foldl true p.fraction
  refine ⟨dropped, ?_⟩
  rwa [List.nil_append, if_neg Bool.false_ne_true, if_pos rfl, Nat.add_zero, Nat.zero_add] at hall

theorem leading_lt : p.leading.value < 2 ^ 63 := by
  obtain ⟨_, h⟩ := p.exists_isLeading
  exact h.lt

theorem hexNumber_nonneg : 0 ≤ p.hexNumber :=
  mul_nonneg (Nat.cast_nonneg _) (two_zpow_pos _).le

theorem taken_nonneg : 0 ≤ p.taken := mul_nonneg (Nat.cast_nonneg _) (two_zpow_pos _).le

theorem taken_of_zero (h : p.leading.value = 0) : p.taken = 0 := by
  rw [taken, h, Nat.cast_zero, zero_mul]

theorem two_zpow_le_taken (h : p.leading.value ≠ 0) : 2 ^ p.shift ≤ p.taken := by
  have hone : (1 : ℚ) ≤ p.leading.value := by exact_mod_cast Nat.one_le_iff_ne_zero.2 h
  exact le_mul_of_one_le_left (two_zpow_pos _).le hone

/-- With the exponent as held, the digits and what was taken of them differ by the dropped
ones alone. -/
theorem exists_dropped : ∃ dropped, ∃ unit : ℚ, 0 < unit ∧
    p.hexNumber * 2 ^ (p.held - p.power) = digitsValue 16 (p.whole ++ p.fraction) * unit ∧
    (2 : ℚ) ^ p.shift = (16 ^ dropped : ℕ) * unit ∧
    p.leading.value = digitsValue 16 (p.whole ++ p.fraction) / 16 ^ dropped ∧
    (dropped = 0 ∨ leadingBound ≤ p.leading.value) := by
  obtain ⟨dropped, h⟩ := p.exists_isLeading
  refine ⟨dropped, 2 ^ (p.held - 4 * p.fraction.length), two_zpow_pos _, ?_, ?_, h.value_eq, h.full⟩
  · unfold hexNumber
    rw [mul_assoc, ← zpow_add₀ two_ne_zero]
    congr 2
    ring
  · have hsixteen : ((16 ^ dropped : ℕ) : ℚ) = 2 ^ (4 * (dropped : ℤ)) := by
      rw [zpow_mul, zpow_natCast]
      norm_num
    rw [shift, h.exponent_eq, hsixteen, ← zpow_add₀ two_ne_zero]
    congr 1
    ring

theorem taken_le : p.taken ≤ p.hexNumber * 2 ^ (p.held - p.power) := by
  obtain ⟨dropped, unit, hunit, hnumber, hshift, hvalue, -⟩ := p.exists_dropped
  have hle : p.leading.value * 16 ^ dropped ≤ digitsValue 16 (p.whole ++ p.fraction) :=
    hvalue ▸ Nat.div_mul_le_self _ _
  rw [taken, hnumber, hshift, ← mul_assoc]
  refine mul_le_mul_of_nonneg_right ?_ hunit.le
  exact_mod_cast hle

theorem lt_taken :
    p.hexNumber * 2 ^ (p.held - p.power) < (p.leading.value + 1 : ℕ) * 2 ^ p.shift := by
  obtain ⟨dropped, unit, hunit, hnumber, hshift, hvalue, -⟩ := p.exists_dropped
  have hlt : digitsValue 16 (p.whole ++ p.fraction) < (p.leading.value + 1) * 16 ^ dropped := by
    rw [← Nat.div_lt_iff_lt_mul (Nat.pow_pos (by decide)), ← hvalue]
    exact Nat.lt_succ_self _
  rw [hnumber, hshift, ← mul_assoc]
  refine mul_lt_mul_of_pos_right ?_ hunit
  exact_mod_cast hlt

/-- All digits were taken, or as many as fit. -/
theorem eq_taken_or_full :
    p.hexNumber * 2 ^ (p.held - p.power) = p.taken ∨ leadingBound ≤ p.leading.value := by
  obtain ⟨dropped, unit, -, hnumber, hshift, hvalue, rfl | hfull⟩ := p.exists_dropped
  · left
    rw [Nat.pow_zero, Nat.cast_one, one_mul] at hshift
    rw [Nat.pow_zero, Nat.div_one] at hvalue
    rw [taken, hnumber, hshift, hvalue]
  · exact .inr hfull

/-- Where the exponent is not the written one, the number is far from what was taken. -/
theorem far_of_held (h : p.held ≠ p.power) :
    3 * p.taken ≤ 2 * p.hexNumber ∨ 3 * p.hexNumber ≤ 2 * p.taken := by
  have hnumber := p.hexNumber_nonneg
  have htaken := p.taken_nonneg
  have hle := p.taken_le
  rcases lt_or_gt_of_ne h with hlt | hgt
  · -- The number is twice as large as with the exponent as held, or larger.
    left
    have hhalf : (2 : ℚ) ^ (p.held - p.power) ≤ 2 ^ (-1 : ℤ) :=
      zpow_le_zpow_right₀ (by norm_num) (by omega)
    have hscaled := mul_le_mul_of_nonneg_left hhalf hnumber
    rw [zpow_neg_one] at hscaled
    linarith
  · right
    have htwice : (2 : ℚ) ^ (1 : ℤ) ≤ 2 ^ (p.held - p.power) :=
      zpow_le_zpow_right₀ (by norm_num) (by omega)
    have hscaled := mul_le_mul_of_nonneg_left htwice hnumber
    rw [zpow_one] at hscaled
    rcases p.eq_taken_or_full with heq | hfull
    · linarith
    · -- The dropped digits count less than a third of those that were taken.
      have hthree : 3 * (2 : ℚ) ^ p.shift ≤ p.taken := by
        have hcast : (3 : ℚ) ≤ p.leading.value := by
          exact_mod_cast (by decide : 3 ≤ leadingBound).trans hfull
        exact mul_le_mul_of_nonneg_right hcast (two_zpow_pos _).le
      have hlt := p.lt_taken
      push_cast at hlt
      rw [add_mul, one_mul] at hlt
      change _ < p.taken + _ at hlt
      linarith

end Numbers

theorem held_eq_power_iff {p : Parts} (h : ∀ b ∈ p.exponent, b.isDigit) :
    p.held = p.power ↔ digitsValue 10 p.exponent ≤ 100000 := by
  unfold held power
  rw [boundedExponent_eq h]
  split <;> omega

end Parts
end FloatToken
end CheckedFormat
