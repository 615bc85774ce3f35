import CheckedFormat.Proofs.NearestFloat
/-! The scale of the floats of a format.

The bits of a magnitude count the floats below it, and the count may go on beyond the
largest float: every count stands for a number (`number`), in steps that double from one
binade to the next. Rounding goes to the nearest number of this scale, and at the number
half way between two of them to the even count (`RoundsTo`); a format only cuts the scale
off at infinity. What `nearest` gives is the count that the number rounds to, cut off there
(`nearest_roundsTo`), and that is the nearest float in the sense of `IsNearest`, which
speaks of distances alone. -/
namespace CheckedFormat
namespace FloatFormat

variable (f : FloatFormat)

/-- The binade of a count, from the lowest one, which the smallest floats share. -/
def binade (count : Nat) : Nat := count / f.fractions - 1

/-- The step from a count to the next. -/
def spacing (count : Nat) : ℚ := 2 ^ (f.leastExponent + f.binade count)

/-- The number that a count stands for, on a scale without end. -/
def number (count : Nat) : ℚ := ((count - f.binade count * f.fractions : ℕ) : ℚ) * f.spacing count

/-- The number half way from a count to the next. -/
def halfway (count : Nat) : ℚ := (f.number count + f.number (count + 1)) / 2

/-- The bits are those of the nearest float: no other is nearer, and where another one is
equally near these are even. Infinity counts as the number that would come next. -/
structure IsNearest (v : ℚ) (bits : Nat) : Prop where
  le : bits ≤ f.infinityBits
  nearest : ∀ other ≤ f.infinityBits, |v - f.number bits| ≤ |v - f.number other|
  even : ∀ other ≤ f.infinityBits, other ≠ bits →
    |v - f.number other| = |v - f.number bits| → bits % 2 = 0

/-- The number is rounded to the count or to one below it. -/
def RoundsWithin (v : ℚ) (count : Nat) : Prop :=
  v < f.halfway count ∨ v = f.halfway count ∧ count % 2 = 0

/-- The number is rounded to the count, on the scale without end. -/
def RoundsTo (v : ℚ) (count : Nat) : Prop := ∀ other, count ≤ other ↔ f.RoundsWithin v other

variable {f}

/-! ### Numbers on the scale -/

theorem spacing_pos (count : Nat) : 0 < f.spacing count := two_zpow_pos _

/-- A count within a binade, the next one's first included, says its number. -/
theorem number_eq {e steps : Nat} (hlow : e = 0 ∨ f.fractions ≤ steps)
    (hhigh : steps ≤ 2 * f.fractions) :
    f.number (e * f.fractions + steps) = steps * 2 ^ (f.leastExponent + e) := by
  have hpos := f.fractions_pos
  have hdiv : (e * f.fractions + steps) / f.fractions = e + steps / f.fractions := by
    rw [Nat.add_comm, Nat.add_mul_div_right _ _ hpos, Nat.add_comm]
  unfold number spacing binade
  rcases Nat.lt_or_ge steps (2 * f.fractions) with hlt | hge
  · have hbinade : (e * f.fractions + steps) / f.fractions - 1 = e := by
      have hsteps : steps / f.fractions < 2 := (Nat.div_lt_iff_lt_mul hpos).2 hlt
      rcases hlow with rfl | hlow
      · omega
      · have := Nat.div_pos hlow hpos
        omega
    rw [hbinade, Nat.add_sub_cancel_left]
  · obtain rfl : steps = 2 * f.fractions := Nat.le_antisymm hhigh hge
    have hbinade : (e * f.fractions + 2 * f.fractions) / f.fractions - 1 = e + 1 := by
      rw [hdiv, Nat.mul_div_cancel _ hpos]
      omega
    have hcount : e * f.fractions + 2 * f.fractions - (e + 1) * f.fractions = f.fractions := by
      rw [Nat.add_mul, Nat.one_mul]
      omega
    rw [hbinade, hcount]
    push_cast
    rw [← add_assoc, zpow_add_one₀ two_ne_zero]
    ring

/-- Every count lies in a binade. -/
theorem exists_binade (count : Nat) :
    ∃ e steps, count = e * f.fractions + steps ∧ (e = 0 ∨ f.fractions ≤ steps) ∧
      steps < 2 * f.fractions ∧ f.binade count = e := by
  have hpos := f.fractions_pos
  have hsplit := Nat.div_add_mod count f.fractions
  have hmod := Nat.mod_lt count hpos
  unfold binade
  rw [Nat.mul_comm] at hsplit
  generalize count / f.fractions = q at hsplit
  cases q with
  | zero => exact ⟨0, count % f.fractions, by omega, .inl rfl, by omega, rfl⟩
  | succ q =>
    rw [Nat.succ_mul] at hsplit
    exact ⟨q, f.fractions + count % f.fractions, by omega, .inr (by omega), by omega, rfl⟩

theorem number_succ (count : Nat) : f.number (count + 1) = f.number count + f.spacing count := by
  obtain ⟨e, steps, rfl, hlow, hlt, hbinade⟩ := exists_binade (f := f) count
  rw [spacing, hbinade, add_assoc, number_eq hlow hlt.le, number_eq (by omega) hlt]
  push_cast
  ring

/-- A step is at most twice as long as the one before. -/
theorem spacing_succ_le (count : Nat) : f.spacing (count + 1) ≤ 2 * f.spacing count := by
  have hbinade : f.binade (count + 1) ≤ f.binade count + 1 := by
    have hstep : (count + 1) / f.fractions ≤ count / f.fractions + 1 := by
      rw [← Nat.add_div_right _ f.fractions_pos]
      exact Nat.div_le_div_right (Nat.add_le_add_left f.fractions_pos count)
    unfold binade
    omega
  unfold spacing
  rw [mul_comm, ← zpow_add_one₀ two_ne_zero]
  exact zpow_le_zpow_right₀ (by norm_num) (by omega)

theorem number_lt_succ (count : Nat) : f.number count < f.number (count + 1) := by
  rw [number_succ]
  exact lt_add_of_pos_right _ (spacing_pos count)

theorem number_strictMono : StrictMono f.number := strictMono_nat_of_lt_succ number_lt_succ

theorem number_zero : f.number 0 = 0 := by
  simp [number]

theorem number_nonneg (count : Nat) : 0 ≤ f.number count := by
  unfold number
  exact mul_nonneg (Nat.cast_nonneg _) (spacing_pos count).le

theorem number_lt_halfway (count : Nat) : f.number count < f.halfway count := by
  have := number_lt_succ (f := f) count
  unfold halfway
  linarith

theorem halfway_lt_number (count : Nat) : f.halfway count < f.number (count + 1) := by
  have := number_lt_succ (f := f) count
  unfold halfway
  linarith

theorem halfway_strictMono : StrictMono f.halfway :=
  strictMono_nat_of_lt_succ fun count =>
    (halfway_lt_number count).trans (number_lt_halfway (count + 1))

theorem halfway_eq {e steps : Nat} (hlow : e = 0 ∨ f.fractions ≤ steps)
    (hhigh : steps < 2 * f.fractions) :
    f.halfway (e * f.fractions + steps) = (steps + 1 / 2) * 2 ^ (f.leastExponent + e) := by
  rw [halfway, add_assoc, number_eq hlow hhigh.le, number_eq (by omega) hhigh]
  push_cast
  ring

/-- The first number of a binade. -/
theorem number_binade (e : Nat) : f.number (e * f.fractions + f.fractions) =
    2 ^ (f.fractionBits + (f.leastExponent + e) : ℤ) := by
  have hpos := f.fractions_pos
  have hfractions : (f.fractions : ℚ) = 2 ^ (f.fractionBits : ℤ) := by simp [fractions]
  rw [number_eq (.inr le_rfl) (by omega), hfractions, ← zpow_add₀ two_ne_zero]

/-- Every short significand at a power of two that is not too small is on the scale. -/
theorem exists_number {n : Nat} {e : Int} (hn : n < 2 * f.fractions) (he : f.leastExponent ≤ e) :
    ∃ count, f.number count = n * 2 ^ e := by
  obtain ⟨k, hk⟩ := Int.eq_ofNat_of_zero_le (Int.sub_nonneg_of_le he)
  induction k generalizing n e with
  | zero =>
    refine ⟨0 * f.fractions + n, ?_⟩
    rw [number_eq (.inl rfl) hn.le]
    congr 2
    omega
  | succ k ih =>
    rcases Nat.lt_or_ge n f.fractions with hlt | hge
    · -- A power of two less and a significand twice as large.
      obtain ⟨count, hcount⟩ := ih (n := 2 * n) (e := e - 1) (by omega) (by omega) (by omega)
      refine ⟨count, hcount.trans ?_⟩
      rw [zpow_sub_one₀ two_ne_zero]
      push_cast
      ring
    · refine ⟨(k + 1) * f.fractions + n, ?_⟩
      rw [number_eq (.inr hge) hn.le]
      congr 2
      omega

/-! ### Rounding on the scale -/

section Rounding
variable {v w : ℚ} {count other : Nat}

theorem RoundsWithin.mono (h : f.RoundsWithin v count) (hle : count ≤ other) :
    f.RoundsWithin v other := by
  rcases hle.eq_or_lt with rfl | hlt
  · exact h
  · have hstep := halfway_strictMono (f := f) hlt
    rcases h with h | ⟨h, -⟩
    · exact .inl (h.trans hstep)
    · exact .inl (h ▸ hstep)

theorem RoundsWithin.antitone (h : f.RoundsWithin w count) (hle : v ≤ w) :
    f.RoundsWithin v count := by
  rcases hle.eq_or_lt with rfl | hlt
  · exact h
  · rcases h with h | ⟨h, -⟩
    · exact .inl (hlt.trans h)
    · exact .inl (h ▸ hlt)

theorem RoundsWithin.le (h : f.RoundsWithin v count) : v ≤ f.halfway count := by
  rcases h with h | ⟨h, -⟩
  · exact h.le
  · exact h.le

/-- What is not rounded within a count is rounded above it. -/
theorem not_roundsWithin_iff : ¬ f.RoundsWithin v count ↔
    f.halfway count < v ∨ v = f.halfway count ∧ count % 2 = 1 := by
  unfold RoundsWithin
  rcases lt_trichotomy v (f.halfway count) with h | h | h
  · simp [h, h.not_gt, h.ne]
  · simp [h]
  · simp [h, h.not_gt, h.ne']

theorem halfway_le_of_not_roundsWithin (h : ¬ f.RoundsWithin v count) : f.halfway count ≤ v :=
  (not_roundsWithin_iff.1 h).elim le_of_lt fun h => h.1.ge

theorem RoundsTo.within (h : f.RoundsTo v count) : f.RoundsWithin v count := (h count).1 le_rfl

theorem RoundsTo.above (h : f.RoundsTo v (count + 1)) : ¬ f.RoundsWithin v count := fun hwithin =>
  absurd ((h count).2 hwithin) (Nat.not_succ_le_self count)

/-- It is enough to look at the two half ways around a count. -/
theorem roundsTo_iff : f.RoundsTo v count ↔
    f.RoundsWithin v count ∧ ∀ below, count = below + 1 → ¬ f.RoundsWithin v below := by
  constructor
  · intro h
    exact ⟨h.within, fun below hbelow => RoundsTo.above (hbelow ▸ h)⟩
  · rintro ⟨hwithin, habove⟩ other
    refine ⟨hwithin.mono, fun hother => ?_⟩
    by_contra hlt
    obtain ⟨below, rfl⟩ := Nat.exists_eq_succ_of_ne_zero (by omega : count ≠ 0)
    exact habove below rfl (hother.mono (by omega))

theorem RoundsTo.unique (h : f.RoundsTo v count) (h' : f.RoundsTo v other) : count = other :=
  Nat.le_antisymm ((h other).2 h'.within) ((h' count).2 h.within)

theorem RoundsTo.mono (h : f.RoundsTo v count) (h' : f.RoundsTo w other) (hle : v ≤ w) :
    count ≤ other := (h other).2 (h'.within.antitone hle)

/-- A number of the scale is rounded to itself. -/
theorem roundsTo_number (count : Nat) : f.RoundsTo (f.number count) count := by
  refine roundsTo_iff.2 ⟨.inl (number_lt_halfway count), fun below hbelow => ?_⟩
  subst hbelow
  exact not_roundsWithin_iff.2 (.inl (halfway_lt_number below))

end Rounding

/-! ### The nearest float -/

section Nearest
variable {v a b : ℚ} {count bits other : Nat}

/-- Below the middle of two numbers the lower one is nearer. -/
theorem abs_sub_le_of_le_middle (hlt : a < b) (hv : v ≤ (a + b) / 2) : |v - a| ≤ |v - b| := by
  rw [abs_of_nonpos (by linarith : v - b ≤ 0), abs_le]
  constructor <;> linarith

theorem abs_sub_le_of_middle_le (hlt : a < b) (hv : (a + b) / 2 ≤ v) : |v - b| ≤ |v - a| := by
  rw [abs_of_nonneg (by linarith : 0 ≤ v - a), abs_le]
  constructor <;> linarith

/-- Only the middle of two numbers is equally near to both. -/
theorem eq_middle_of_abs_eq (hlt : a < b) (h : |v - a| = |v - b|) : v = (a + b) / 2 := by
  rcases abs_eq_abs.1 h with h | h <;> linarith

/-- No float below the count is nearer, and if one is equally near the count is even. -/
theorem RoundsTo.nearer_than_below (h : f.RoundsTo v count) (hbits : bits ≤ count)
    (hother : other < bits) : |v - f.number bits| ≤ |v - f.number other| ∧
      (|v - f.number other| = |v - f.number bits| → bits % 2 = 0) := by
  obtain ⟨below, rfl⟩ := Nat.exists_eq_succ_of_ne_zero (by omega : bits ≠ 0)
  have habove : ¬ f.RoundsWithin v below := fun hwithin =>
    absurd ((h below).2 hwithin) (by omega)
  have hle : f.number other ≤ f.number below :=
    number_strictMono.monotone (Nat.le_of_lt_succ hother)
  have hnumber := number_strictMono (f := f) hother
  have hhalf := halfway_le_of_not_roundsWithin habove
  rw [Nat.succ_eq_add_one] at hnumber ⊢
  unfold halfway at hhalf
  refine ⟨abs_sub_le_of_middle_le hnumber (by linarith), fun heq => ?_⟩
  have hmiddle := eq_middle_of_abs_eq hnumber heq
  rcases not_roundsWithin_iff.1 habove with h | ⟨-, hodd⟩
  · unfold halfway at h
    linarith
  · omega

/-- No float above the count is nearer, and if one is equally near the count is even. -/
theorem RoundsTo.nearer_than_above (h : f.RoundsTo v count) (hother : count < other) :
    |v - f.number count| ≤ |v - f.number other| ∧
      (|v - f.number other| = |v - f.number count| → count % 2 = 0) := by
  have hle : f.number (count + 1) ≤ f.number other := number_strictMono.monotone hother
  have hnumber := number_strictMono (f := f) hother
  have hhalf := h.within.le
  unfold halfway at hhalf
  refine ⟨abs_sub_le_of_le_middle hnumber (by linarith), fun heq => ?_⟩
  have hmiddle := eq_middle_of_abs_eq hnumber heq.symm
  rcases h.within with h | ⟨-, heven⟩
  · unfold halfway at h
    linarith
  · exact heven

/-- The count that a number rounds to, cut off at infinity, is that of the nearest float. -/
theorem RoundsTo.isNearest (h : f.RoundsTo v count) :
    f.IsNearest v (min count f.infinityBits) := by
  have hpair : ∀ other ≤ f.infinityBits, other ≠ min count f.infinityBits →
      |v - f.number (min count f.infinityBits)| ≤ |v - f.number other| ∧
        (|v - f.number other| = |v - f.number (min count f.infinityBits)| →
          min count f.infinityBits % 2 = 0) := by
    intro other hother hne
    rcases lt_or_gt_of_ne hne with hlt | hgt
    · exact h.nearer_than_below (Nat.min_le_left _ _) hlt
    · -- The count is not cut off, for the other one is at most infinity.
      have hcount : min count f.infinityBits = count := by omega
      rw [hcount] at hgt ⊢
      exact h.nearer_than_above hgt
  refine ⟨Nat.min_le_right _ _, fun other hother => ?_, fun other hother hne => ?_⟩
  · by_cases hne : other = min count f.infinityBits
    · rw [hne]
    · exact (hpair other hother hne).1
  · exact (hpair other hother hne).2

/-- There is one nearest float. -/
theorem IsNearest.unique (h : f.IsNearest v bits) (h' : f.IsNearest v other) : bits = other := by
  by_contra hne
  wlog hlt : bits < other generalizing bits other
  · exact this h' h (Ne.symm hne) (by omega)
  have heq : |v - f.number other| = |v - f.number bits| :=
    le_antisymm (h'.nearest _ h.le) (h.nearest _ h'.le)
  have hmiddle := eq_middle_of_abs_eq (number_strictMono (f := f) hlt) heq.symm
  have heven := h.even _ h'.le (Ne.symm hne) heq
  have heven' := h'.even _ h.le hne heq.symm
  -- Between two even counts is an odd one, which would be nearer than both.
  have hlow := number_strictMono (f := f) (Nat.lt_succ_self bits)
  have hhigh := number_strictMono (f := f) (by omega : bits + 1 < other)
  have hnear := h.nearest (bits + 1) (by have := h'.le; omega)
  rw [hmiddle, abs_of_pos (by linarith), le_abs] at hnear
  rcases hnear with hnear | hnear <;> linarith

theorem RoundsTo.isNearest_iff (h : f.RoundsTo v count) :
    f.IsNearest v bits ↔ bits = min count f.infinityBits :=
  ⟨fun hbits => hbits.unique h.isNearest, fun hbits => hbits ▸ h.isNearest⟩

end Nearest

/-! ### What is computed -/

section Computed
variable {r : Ratio}

/-- A number of the binade so many steps long, and the whole number that these are rounded
to. -/
structure IsRounded (f : FloatFormat) (v t : ℚ) (e steps : Nat) : Prop where
  value_eq : v = t * 2 ^ (f.leastExponent + e)
  low : e = 0 ∨ f.fractions ≤ t
  high : t < 2 * f.fractions
  near : |steps - t| ≤ 1 / 2
  even : |steps - t| = 1 / 2 → steps % 2 = 0

section Steps
variable {v t : ℚ} {e steps rest : Nat}

theorem IsRounded.steps_le (h : f.IsRounded v t e steps) : steps ≤ 2 * f.fractions := by
  have hnear := abs_le.1 h.near
  have hhigh := h.high
  have hlt : (steps : ℚ) < (2 * f.fractions : ℕ) + 1 := by push_cast; linarith
  exact Nat.lt_succ_iff.1 (by exact_mod_cast hlt)

theorem IsRounded.le_steps (h : f.IsRounded v t e steps) : e = 0 ∨ f.fractions ≤ steps := by
  have hnear := abs_le.1 h.near
  refine h.low.imp_right fun hlow => ?_
  have hlt : (f.fractions : ℚ) < steps + 1 := by linarith
  exact Nat.lt_succ_iff.1 (by exact_mod_cast hlt)

theorem even_count (hf : f.fractions % 2 = 0) : (e * f.fractions) % 2 = 0 := by
  rw [Nat.mul_mod, hf, Nat.mul_zero, Nat.zero_mod]

theorem IsRounded.within (h : f.IsRounded v t e steps) (hf : f.fractions % 2 = 0) :
    f.RoundsWithin v (e * f.fractions + steps) := by
  have hunit := two_zpow_pos (f.leastExponent + e)
  rcases h.steps_le.eq_or_lt with hsteps | hsteps
  · -- The lowest count of the next binade.
    left
    have hhigh := h.high
    calc v = t * 2 ^ (f.leastExponent + e) := h.value_eq
      _ < (2 * f.fractions : ℕ) * 2 ^ (f.leastExponent + e) := by push_cast; gcongr
      _ = f.number (e * f.fractions + steps) := by rw [number_eq h.le_steps hsteps.le, hsteps]
      _ < f.halfway (e * f.fractions + steps) := number_lt_halfway _
  · unfold RoundsWithin
    rw [halfway_eq h.le_steps hsteps, h.value_eq]
    have hbelow := (abs_le.1 h.near).1
    rcases (by linarith : t ≤ steps + 1 / 2).eq_or_lt with ht | ht
    · have hmiddle : |steps - t| = 1 / 2 := by
        rw [ht, sub_add_cancel_left, abs_neg, abs_of_pos (by norm_num)]
      have heven := h.even hmiddle
      have hparity := even_count (e := e) hf
      exact .inr ⟨by rw [ht], by omega⟩
    · exact .inl (by gcongr)

theorem IsRounded.above (h : f.IsRounded v t e (rest + 1)) (hf : f.fractions % 2 = 0) :
    ¬ f.RoundsWithin v (e * f.fractions + rest) := by
  have hunit := two_zpow_pos (f.leastExponent + e)
  have hsteps := h.steps_le
  rw [not_roundsWithin_iff, h.value_eq]
  by_cases hrest : e = 0 ∨ f.fractions ≤ rest
  · rw [halfway_eq hrest (by omega)]
    have hnear := (abs_le.1 h.near).2
    have heven := h.even
    push_cast at hnear heven
    rcases (by linarith : (rest : ℚ) + 1 / 2 ≤ t).eq_or_lt with ht | ht
    · have hmiddle : |(rest : ℚ) + 1 - t| = 1 / 2 := by
        rw [← ht, add_sub_add_left_eq_sub, abs_of_pos (by norm_num)]
        norm_num
      have heven := heven hmiddle
      have hparity := even_count (e := e) hf
      exact .inr ⟨by rw [ht], by omega⟩
    · exact .inl (by gcongr)
  · -- The highest count of the binade before, whose steps are half as long.
    rw [not_or, not_le] at hrest
    obtain ⟨k, rfl⟩ := Nat.exists_eq_succ_of_ne_zero hrest.1
    have hlowest : f.fractions = rest + 1 := by
      have := h.le_steps.resolve_left hrest.1
      omega
    have hcount : (k + 1) * f.fractions + rest = k * f.fractions + (2 * f.fractions - 1) := by
      rw [Nat.add_mul]
      omega
    have hcast : ((2 * f.fractions - 1 : ℕ) : ℚ) = 2 * f.fractions - 1 := by
      rw [Nat.cast_sub (by omega)]
      push_cast
      rfl
    have hexponent : (2 : ℚ) ^ (f.leastExponent + (k + 1 : ℕ)) =
        2 ^ (f.leastExponent + k) * 2 := by
      push_cast
      rw [← add_assoc, zpow_add_one₀ two_ne_zero]
    have hfirst := h.low.resolve_left hrest.1
    left
    rw [Nat.succ_eq_add_one, hcount, halfway_eq (by omega) (by omega), hcast, hexponent]
    have hunit' := two_zpow_pos (f.leastExponent + k)
    calc (2 * f.fractions - 1 + 1 / 2) * (2 : ℚ) ^ (f.leastExponent + k)
        < 2 * f.fractions * 2 ^ (f.leastExponent + k) := by gcongr; linarith
      _ ≤ 2 * t * 2 ^ (f.leastExponent + k) := by gcongr
      _ = t * (2 ^ (f.leastExponent + k) * 2) := by ring

/-- Whole steps within a binade round a number on the scale. -/
theorem IsRounded.roundsTo (h : f.IsRounded v t e steps) (hf : f.fractions % 2 = 0) :
    f.RoundsTo v (e * f.fractions + steps) := by
  refine roundsTo_iff.2 ⟨h.within hf, fun below hcount => ?_⟩
  have hsome : steps ≠ 0 := by
    rintro rfl
    have hpos := f.fractions_pos
    rcases h.le_steps with rfl | hsteps <;> omega
  obtain ⟨rest, rfl⟩ := Nat.exists_eq_succ_of_ne_zero hsome
  obtain rfl : below = e * f.fractions + rest := by omega
  exact h.above hf

end Steps

/-- The steps that are computed are those of the binade that holds the number, or of the
lowest one. -/
theorem exists_isRounded (hnum : r.num ≠ 0) (hden : 0 < r.den) :
    ∃ (t : ℚ) (e steps : Nat), f.IsRounded r.value t e steps ∧
      f.nearest r = min (e * f.fractions + steps) f.infinityBits := by
  have hlow := Int.zpow_log_le_self (b := 2) (by decide) (Ratio.value_pos hnum hden)
  have hhigh := Int.lt_zpow_succ_log_self (b := 2) (by decide) r.value
  push_cast at hlow hhigh
  have hfractions : (f.fractions : ℚ) = 2 ^ (f.fractionBits : ℤ) := by simp [fractions]
  generalize hlog : Int.log 2 r.value = log at hlow hhigh
  generalize hexponent : max (log - f.fractionBits) f.leastExponent = exponent
  obtain ⟨e, he⟩ := Int.eq_ofNat_of_zero_le (by omega : 0 ≤ exponent - f.leastExponent)
  obtain rfl : exponent = f.leastExponent + e := by omega
  have hscaled : 0 < (r.scale 2 (-(f.leastExponent + e))).den :=
    Ratio.den_scale_pos hden (by decide) _
  have hvalue : (r.scale 2 (-(f.leastExponent + e))).value =
      r.value * 2 ^ (-(f.leastExponent + e)) := by
    rw [Ratio.value_scale]
    rfl
  refine ⟨_, e, (r.scale 2 (-(f.leastExponent + e))).round, ⟨?_, ?_, ?_,
    Ratio.abs_round_sub_le hscaled, Ratio.even_round_of_middle hscaled⟩, ?_⟩
  · rw [hvalue, mul_assoc, ← zpow_add₀ two_ne_zero, neg_add_cancel, zpow_zero, mul_one]
  · refine (eq_or_ne e 0).imp_right fun he0 => ?_
    have hlog : log = f.leastExponent + e + f.fractionBits := by omega
    rw [hvalue, hfractions]
    calc (2 : ℚ) ^ (f.fractionBits : ℤ)
        = 2 ^ log * 2 ^ (-(f.leastExponent + e)) := by
          rw [← zpow_add₀ two_ne_zero, hlog]
          congr 1
          ring
      _ ≤ r.value * 2 ^ (-(f.leastExponent + e)) := by gcongr
  · rw [hvalue, hfractions]
    calc r.value * (2 : ℚ) ^ (-(f.leastExponent + e))
        < 2 ^ (log + 1) * 2 ^ (-(f.leastExponent + e)) := by gcongr
      _ = 2 ^ (log + 1 - (f.leastExponent + e)) := by
        rw [← zpow_add₀ two_ne_zero]
        congr 1
      _ ≤ 2 ^ ((f.fractionBits : ℤ) + 1) := zpow_le_zpow_right₀ (by norm_num) (by omega)
      _ = 2 * 2 ^ (f.fractionBits : ℤ) := by rw [zpow_add_one₀ two_ne_zero, mul_comm]
  · rw [nearest, if_neg hnum, floorLog2_eq hnum hden, hlog]
    dsimp only
    rw [hexponent, show (f.leastExponent + e - f.leastExponent).toNat = e by omega]

/-- The count that a quotient rounds to, cut off at infinity, is what is computed. -/
theorem nearest_roundsTo (hf : f.fractions % 2 = 0) (hden : 0 < r.den) :
    ∃ count, f.RoundsTo r.value count ∧ f.nearest r = min count f.infinityBits := by
  by_cases hnum : r.num = 0
  · refine ⟨0, ?_, by rw [nearest, if_pos hnum, Nat.zero_min]⟩
    rw [(Ratio.num_eq_zero_iff hden).1 hnum, ← number_zero (f := f)]
    exact roundsTo_number 0
  · obtain ⟨t, e, steps, hrounded, hnearest⟩ := exists_isRounded (f := f) hnum hden
    exact ⟨_, hrounded.roundsTo hf, hnearest⟩

theorem exists_roundsTo (hf : f.fractions % 2 = 0) {v : ℚ} (hv : 0 ≤ v) :
    ∃ count, f.RoundsTo v count := by
  have hvalue : Ratio.value ⟨v.num.toNat, v.den⟩ = v := by
    have hnum : ((v.num.toNat : ℤ) : ℚ) = v.num := by
      rw [Int.toNat_of_nonneg (Rat.num_nonneg.2 hv)]
    unfold Ratio.value
    rw [← Int.cast_natCast, hnum, Rat.num_div_den]
  obtain ⟨count, h, -⟩ := nearest_roundsTo (r := ⟨v.num.toNat, v.den⟩) hf v.den_pos
  exact ⟨count, hvalue ▸ h⟩

end Computed

/-! ### The ends of the scale -/

section Ends
variable {v w : ℚ} {count : Nat}

theorem isNearest_zero_iff (hf : f.fractions % 2 = 0) (hinfinity : 0 < f.infinityBits)
    (hv : 0 ≤ v) : f.IsNearest v 0 ↔ v ≤ f.halfway 0 := by
  obtain ⟨count, h⟩ := exists_roundsTo hf hv
  have hwithin : f.RoundsWithin v 0 ↔ v ≤ f.halfway 0 :=
    ⟨RoundsWithin.le, fun hle => hle.lt_or_eq.imp_right fun heq => ⟨heq, rfl⟩⟩
  rw [h.isNearest_iff, ← hwithin, ← h 0]
  omega

theorem isNearest_infinity_iff (hf : f.fractions % 2 = 0) (hinfinity : 0 < f.infinityBits)
    (hv : 0 ≤ v) : f.IsNearest v f.infinityBits ↔ f.halfway (f.infinityBits - 1) ≤ v := by
  obtain ⟨count, h⟩ := exists_roundsTo hf hv
  have heven : f.infinityBits % 2 = 0 := by
    rw [infinityBits, Nat.mul_mod, hf, Nat.mul_zero, Nat.zero_mod]
  have habove : ¬ f.RoundsWithin v (f.infinityBits - 1) ↔ f.halfway (f.infinityBits - 1) ≤ v := by
    rw [not_roundsWithin_iff, le_iff_lt_or_eq]
    exact or_congr_right ⟨fun hv => hv.1.symm, fun hv => ⟨hv.symm, by omega⟩⟩
  rw [h.isNearest_iff, ← habove, ← h]
  omega

/-- Numbers that are rounded to one count are near to each other, but for the lowest
counts. -/
theorem RoundsTo.lt_of_roundsTo (h : f.RoundsTo v (count + 1)) (h' : f.RoundsTo w (count + 1))
    (hfractions : 8 ≤ f.fractions) (hcount : 8 ≤ count) : 2 * w < 3 * v := by
  have hlow := (number_lt_halfway count).trans_le (halfway_le_of_not_roundsWithin h.above)
  have hhigh : w < f.number (count + 2) := h'.within.le.trans_lt (halfway_lt_number (count + 1))
  have hspacing := spacing_succ_le (f := f) count
  have hsteps : 8 * f.spacing count ≤ f.number count := by
    obtain ⟨e, steps, hcounted, hbinade, -, he⟩ := exists_binade (f := f) count
    have height : 8 ≤ count - f.binade count * f.fractions := by
      rw [he, hcounted, Nat.add_sub_cancel_left]
      rcases hbinade with rfl | hbinade
      · omega
      · omega
    exact mul_le_mul_of_nonneg_right (by exact_mod_cast height) (spacing_pos count).le
  have hpos := spacing_pos (f := f) count
  rw [number_succ, number_succ] at hhigh
  linarith

end Ends

/-! ### Other binades -/

section Shifts
variable {v : ℚ} {count other : Nat} {k : Int}

/-- Behind the lowest binade the scale repeats itself, times a power of two. -/
theorem number_shift (hcount : f.fractions ≤ count) (hother : f.fractions ≤ other)
    (hk : (other : ℤ) = count + k * f.fractions) : f.number other = f.number count * 2 ^ k := by
  have hpos := f.fractions_pos
  obtain ⟨e, steps, rfl, hlow, hlt, -⟩ := exists_binade (f := f) count
  obtain ⟨e', steps', rfl, hlow', hlt', -⟩ := exists_binade (f := f) other
  have hsteps : f.fractions ≤ steps := by
    rcases hlow with rfl | hlow
    · omega
    · exact hlow
  have hsteps' : f.fractions ≤ steps' := by
    rcases hlow' with rfl | hlow'
    · omega
    · exact hlow'
  -- The counts differ by whole binades, so the steps within them are the same.
  have hbinades : (e' : ℤ) = e + k ∧ steps' = steps := by
    push_cast at hk
    have hdiff : ((e' : ℤ) - e - k) * f.fractions = steps - steps' := by linarith
    have hbound : |((e' : ℤ) - e - k) * f.fractions| < f.fractions := by
      rw [hdiff, abs_lt]
      constructor <;> omega
    rw [abs_mul, Nat.abs_cast] at hbound
    have hzero : (e' : ℤ) - e - k = 0 := by
      rw [← Int.abs_lt_one_iff]
      exact lt_of_mul_lt_mul_right (by rwa [one_mul]) (Int.natCast_nonneg f.fractions)
    rw [hzero, zero_mul] at hdiff
    constructor <;> omega
  obtain ⟨he, rfl⟩ := hbinades
  rw [number_eq (.inr hsteps) hlt.le, number_eq (.inr hsteps) hlt.le, he, mul_assoc,
    ← zpow_add₀ two_ne_zero, add_assoc]

theorem halfway_shift (hcount : f.fractions ≤ count) (hother : f.fractions ≤ other)
    (hk : (other : ℤ) = count + k * f.fractions) : f.halfway other = f.halfway count * 2 ^ k := by
  have hsucc : f.number (other + 1) = f.number (count + 1) * 2 ^ k :=
    number_shift (by omega) (by omega) (by push_cast; rw [hk]; ring)
  rw [halfway, halfway, number_shift hcount hother hk, hsucc]
  ring

theorem roundsWithin_shift (hf : f.fractions % 2 = 0) (hcount : f.fractions ≤ count)
    (hother : f.fractions ≤ other) (hk : (other : ℤ) = count + k * f.fractions) :
    f.RoundsWithin (v * 2 ^ k) other ↔ f.RoundsWithin v count := by
  have hparity : other % 2 = count % 2 := by
    have heven : (k * f.fractions) % 2 = 0 := by
      rw [Int.mul_emod, show (f.fractions : ℤ) % 2 = 0 by omega, mul_zero, Int.zero_emod]
    omega
  have hunit := two_zpow_pos k
  rw [RoundsWithin, RoundsWithin, halfway_shift hcount hother hk, hparity,
    mul_lt_mul_iff_left₀ hunit, mul_left_inj' hunit.ne']

/-- Rounding there is the same in every binade. -/
theorem RoundsTo.shift (h : f.RoundsTo v count) (hf : f.fractions % 2 = 0)
    (hcount : f.fractions < count) (hother : f.fractions < other)
    (hk : (other : ℤ) = count + k * f.fractions) : f.RoundsTo (v * 2 ^ k) other := by
  obtain ⟨below, rfl⟩ := Nat.exists_eq_succ_of_ne_zero (by omega : count ≠ 0)
  refine roundsTo_iff.2 ⟨(roundsWithin_shift hf hcount.le hother.le hk).2 h.within,
    fun below' hbelow' => ?_⟩
  subst hbelow'
  have hk' : (below' : ℤ) = below + k * f.fractions := by push_cast at hk; omega
  rw [roundsWithin_shift hf (Nat.le_of_lt_succ hcount) (Nat.le_of_lt_succ hother) hk']
  exact h.above

end Shifts

/-! ### Bits -/

section Bits
variable {bits : Nat}

theorem infinityBits_lt_signWeight : f.infinityBits < f.signWeight := by
  have hweight : f.signWeight = 2 ^ f.exponentBits * f.fractions := by
    rw [Nat.mul_comm]
    exact Nat.pow_add ..
  have htop : f.topField < 2 ^ f.exponentBits :=
    Nat.sub_lt (Nat.pow_pos (by decide)) Nat.one_pos
  rw [hweight]
  exact Nat.mul_lt_mul_of_pos_right htop f.fractions_pos

theorem magnitude_withSign (h : bits < f.signWeight) (negative : Bool) :
    f.magnitude (f.withSign negative bits) = bits := by
  cases negative with
  | true => exact (Nat.add_mod_left _ _).trans (Nat.mod_eq_of_lt h)
  | false => exact Nat.mod_eq_of_lt h

theorem isNegative_withSign (h : bits < f.signWeight) (negative : Bool) :
    f.isNegative (f.withSign negative bits) = negative := by
  have hpos : 0 < f.signWeight := Nat.pow_pos (by decide)
  unfold isNegative withSign
  cases negative with
  | true => simp [Nat.add_div_left _ hpos, Nat.div_eq_of_lt h]
  | false => simp [Nat.div_eq_of_lt h]

/-- Bits below infinity are those of a finite float. -/
theorem exists_decode (h : bits < f.infinityBits) (negative : Bool) :
    ∃ significand exponent,
      f.decode (f.withSign negative bits) = .finite negative significand exponent ∧
        f.IsMagnitude bits significand exponent := by
  have hweight := h.trans f.infinityBits_lt_signWeight
  have hfield : bits / f.fractions ≠ f.topField :=
    ((Nat.div_lt_iff_lt_mul f.fractions_pos).2 h).ne
  have hfinite : ∃ significand exponent,
      f.decode (f.withSign negative bits) = .finite negative significand exponent := by
    unfold decode
    rw [magnitude_withSign hweight, isNegative_withSign hweight]
    dsimp only
    rw [if_neg hfield]
    split
    · exact ⟨_, _, rfl⟩
    · exact ⟨_, _, rfl⟩
  obtain ⟨significand, exponent, hdecode⟩ := hfinite
  have hmagnitude := (isMagnitude_of_decode hdecode).2
  rw [magnitude_withSign hweight] at hmagnitude
  exact ⟨significand, exponent, hdecode, hmagnitude⟩

theorem decode_infinity (negative : Bool) :
    f.decode (f.withSign negative f.infinityBits) = .infinite negative := by
  have hfield : f.infinityBits / f.fractions = f.topField :=
    Nat.mul_div_cancel _ f.fractions_pos
  have hfraction : f.infinityBits % f.fractions = 0 := Nat.mul_mod_left _ _
  unfold decode
  rw [magnitude_withSign f.infinityBits_lt_signWeight,
    isNegative_withSign f.infinityBits_lt_signWeight]
  dsimp only
  rw [if_pos hfield, if_pos hfraction]

/-- The bits of a finite float are the count of its number. -/
theorem IsMagnitude.number_eq {significand : Nat} {exponent : Int}
    (h : f.IsMagnitude bits significand exponent) : f.number bits = significand * 2 ^ exponent := by
  have hleast := h.least_le
  have hlow : (exponent - f.leastExponent).toNat = 0 ∨ f.fractions ≤ significand := by
    rcases hleast.eq_or_lt with heq | hlt
    · left
      omega
    · exact .inr (h.normal hlt)
  rw [h.bits_eq, FloatFormat.number_eq hlow h.lt.le]
  congr 2
  omega

theorem exists_ratio (h : bits < f.infinityBits) :
    ∃ r, f.ratio? bits = some r ∧ 0 < r.den ∧ r.value = f.number bits := by
  obtain ⟨significand, exponent, hdecode, hmagnitude⟩ := exists_decode h false
  refine ⟨Ratio.ofBinary significand exponent, ?_, Ratio.den_ofBinary_pos _ _, ?_⟩
  · unfold ratio?
    rw [show bits = f.withSign false bits from rfl, hdecode]
  · rw [Ratio.value_ofBinary, hmagnitude.number_eq]

theorem ratio?_infinity : f.ratio? f.infinityBits = none := by
  have hdecode := f.decode_infinity false
  unfold ratio?
  rw [show f.infinityBits = f.withSign false f.infinityBits from rfl, hdecode]

end Bits
end FloatFormat
end CheckedFormat
