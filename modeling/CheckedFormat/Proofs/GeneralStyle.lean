import CheckedFormat.Proofs.FloatReading
/-! The general style of floating-point numbers.

The general style picks one of the other two by the exponent of the rounded number, and
rounds at another place where it picks the fixed one. What is written is still the number
that the scientific style writes with as many significant digits, to the last digit
(`Field.general_keeps_number`); only the zeros at its end go, and the point behind which
none are left, unless the alternative form keeps them. -/
namespace CheckedFormat

/-! ### What a text says -/

namespace FloatToken.Parts

/-- The power of ten that the exponent says. -/
def power (p : Parts) : Int :=
  if p.exponentNegative then -(digitsValue 10 p.exponent : Int) else digitsValue 10 p.exponent

/-- The number that the parts say. -/
def number (p : Parts) : ℚ :=
  digitsValue 10 (p.whole ++ p.fraction) * 10 ^ (p.power - p.fraction.length)

/-- The digits from the first one on that is not zero. -/
def significantDigits (p : Parts) : List Byte := (p.whole ++ p.fraction).dropWhile (· == 48)

end FloatToken.Parts

namespace WrittenNumber

open FloatToken (parts)

section Parts
variable (n : WrittenNumber)

theorem power_parts : (parts .decimal n.text).power = n.power := by
  have hvalue : digitsValue 10 (FloatToken.exponentDigits n) = n.power.natAbs :=
    (FloatToken.isNumeral_exponentDigits n).value
  rw [FloatToken.parts_text]
  show (if decide (n.power < 0) = true then -(digitsValue 10 _ : Int) else _) = n.power
  rw [hvalue]
  by_cases hnegative : n.power < 0
  · rw [decide_eq_true hnegative, if_pos rfl]
    omega
  · rw [decide_eq_false hnegative, if_neg Bool.false_ne_true]
    omega

theorem number_parts : (parts .decimal n.text).number = n.value := by
  unfold FloatToken.Parts.number
  rw [n.power_parts, FloatToken.parts_text]
  rfl

theorem not_mem_digits {b : Byte} (hb : b.isDigit = false) : b ∉ n.whole ++ n.fraction := by
  intro hmem
  have hdigit := n.digits b hmem
  rw [hb] at hdigit
  cases hdigit

/-- A letter stands in front of an exponent and nowhere else. -/
theorem forall_ne_letter_iff : (∀ b ∈ n.text, b.lower ≠ 101) ↔ n.exponent = none := by
  constructor
  · intro h
    cases hexponent : n.exponent with
    | none => rfl
    | some exponent =>
      have hpart : n.exponentPart = Field.exponentText exponent.1 exponent.2 := by
        rw [exponentPart, hexponent]
      rw [Field.exponentText_eq] at hpart
      refine absurd ?_ (h (if exponent.2 then 69 else 101) ?_)
      · split <;> decide
      · refine List.mem_append_right _ ?_
        rw [hpart]
        exact List.mem_cons_self
  · intro hexponent b hb
    have hpart : n.exponentPart = [] := by rw [exponentPart, hexponent]
    have hdigit : ∀ c ∈ n.whole ++ n.fraction, c.lower ≠ 101 := fun c hc => by
      simpa using Byte.lower_beq_of_isDigit (n.digits c hc) (c := 101) rfl
    rw [text, hpart, List.append_nil] at hb
    rcases List.mem_append.1 hb with hb | hb
    · exact hdigit b (List.mem_append_left _ hb)
    · unfold pointPart at hb
      split at hb
      · cases hb
      · rcases List.mem_cons.1 hb with rfl | hb
        · decide
        · exact hdigit b (List.mem_append_right _ hb)

theorem point_mem_text_iff : 46 ∈ n.text ↔ n.fraction ≠ [] ∨ n.pointed = true := by
  have hwhole : 46 ∉ n.whole := fun h =>
    n.not_mem_digits (b := 46) rfl (List.mem_append_left _ h)
  have hexponent : 46 ∉ n.exponentPart := by
    unfold exponentPart
    split
    · exact nofun
    · rename_i exponent upper _
      have hdigits : 46 ∉ paddedNumeral 2 exponent.natAbs := fun h => by
        have hdigit := (isNumeral_padded 2 exponent.natAbs).all 46 h
        cases hdigit
      rw [Field.exponentText_eq]
      simp only [List.mem_cons, hdigits, or_false, not_or]
      constructor
      · cases upper <;> decide
      · split <;> decide
  have hpoint : 46 ∈ n.text ↔ 46 ∈ n.pointPart := by simp [text, hwhole, hexponent]
  rw [hpoint, pointPart]
  split
  · rename_i hnone
    simp [List.length_eq_zero_iff.1 hnone.1, hnone.2]
  · rename_i hsome
    refine iff_of_true List.mem_cons_self ?_
    rwa [not_and_or, Bool.not_eq_false, places, List.length_eq_zero_iff] at hsome

end Parts

/-- Digits in the general style. The alternative form keeps the zeros at their end and the
point. -/
def general (digits places : Nat) (alternative : Bool) (exponent : Option (Int × Bool)) :
    WrittenNumber :=
  if alternative then ofNumeral digits places true exponent
  else (ofNumeral digits places false exponent).stripped

section General
variable (digits places : Nat) (alternative : Bool) (exponent : Option (Int × Bool))

theorem exponent_general : (general digits places alternative exponent).exponent = exponent := by
  cases alternative <;> rfl

theorem value_general : (general digits places alternative exponent).value =
    digits * 10 ^ ((exponent.map Prod.fst).getD 0 - places) := by
  cases alternative with
  | true => exact value_ofNumeral ..
  | false => exact (value_stripped _).trans (value_ofNumeral ..)

/-- Without the alternative form the last digit behind a point is not zero. -/
theorem getLast?_general (h : 46 ∈ (general digits places false exponent).text) :
    ∃ b, (general digits places false exponent).fraction.getLast? = .some b ∧ b ≠ 48 := by
  have hsome : (general digits places false exponent).fraction ≠ [] := by
    rw [point_mem_text_iff] at h
    exact h.resolve_right Bool.false_ne_true
  have hlast := List.rdropWhile_last_not _ _ hsome
  exact ⟨_, List.getLast?_eq_some_getLast hsome, fun hzero => hlast (beq_iff_eq.2 hzero)⟩

/-- The alternative form shows the point and all digits. -/
theorem significantDigits_general (hdigits : digits ≠ 0) :
    46 ∈ (general digits places true exponent).text ∧
      (parts .decimal (general digits places true exponent).text).significantDigits =
        decimalNumeral digits := by
  constructor
  · rw [point_mem_text_iff]
    exact .inr rfl
  · rw [FloatToken.parts_text]
    show ((ofNumeral digits places true exponent).whole ++
      (ofNumeral digits places true exponent).fraction).dropWhile (· == 48) = decimalNumeral digits
    have hfirst := Radix.decimal.head?_numeral_ne (Nat.pos_of_ne_zero hdigits)
    rw [ofNumeral, List.take_append_drop]
    unfold paddedNumeral
    refine dropWhile_of_stopsAt (fun b hb => ?_) fun b hb => ?_
    · rw [(List.mem_replicate.1 hb).2]
      rfl
    · rw [beq_eq_false_iff_ne]
      rintro rfl
      exact hfirst hb

end General

end WrittenNumber

/-! ### Numbers in the general style -/

theorem length_decimalNumeral {digits places : Nat} (hlow : 10 ^ places ≤ digits)
    (hhigh : digits < 10 ^ (places + 1)) : (decimalNumeral digits).length = places + 1 := by
  have hne : digits ≠ 0 := by
    have hpos : 0 < 10 ^ places := Nat.pow_pos (by decide)
    omega
  have hlog : Nat.log 10 digits = places := Nat.log_eq_of_pow_le_of_lt_pow hlow hhigh
  rw [decimalNumeral, List.length_map, Ratio.length_toDigits (by decide) hne, hlog]

/-- What a text in the general style owes to the text of the same number in the scientific
style, with `digits` significant digits. -/
structure IsGeneral (value : ℚ) (digits : Nat) (alternative : Bool)
    (scientific general : List Byte) : Prop where
  /-- Both are numbers as they are written. -/
  written : ∀ text ∈ [scientific, general], ∃ n : WrittenNumber, n.text = text
  number : (FloatToken.parts .decimal general).number =
    (FloatToken.parts .decimal scientific).number
  zero : value = 0 → (FloatToken.parts .decimal scientific).number = 0 ∧
    (FloatToken.parts .decimal scientific).power = 0
  /-- There is no exponent where that of the scientific style is small. -/
  fixed_iff : (∀ b ∈ general, b.lower ≠ 101) ↔
    -4 ≤ (FloatToken.parts .decimal scientific).power ∧
      (FloatToken.parts .decimal scientific).power < digits
  /-- No zero stands at the end behind a point, and no point without digits. -/
  stripped : alternative = false → 46 ∈ general →
    ∃ b, (FloatToken.parts .decimal general).fraction.getLast? = some b ∧ b ≠ 48
  full : alternative = true → value ≠ 0 → 46 ∈ general ∧
    (FloatToken.parts .decimal general).significantDigits.length = digits

namespace Field
open WrittenNumber (ofNumeral general)

section General
variable {r : Ratio}

/-- A text in the general style, by the exponent of the rounded number. -/
theorem generalText_eq (hden : 0 < r.den) {precision places : Nat}
    (hplaces : max precision 1 = places + 1) (upper alternative : Bool) :
    generalText r precision upper alternative =
      if -4 ≤ (r.significant places).2 ∧ (r.significant places).2 < (places + 1 : Nat) then
        (general (r.significant places).1 (places - (r.significant places).2).toNat alternative
          none).text
      else
        (general (r.significant places).1 places alternative
          (some ((r.significant places).2, upper))).text := by
  have hsignificant := r.isSignificant hden places
  unfold generalText
  dsimp only
  rw [hplaces, Nat.add_sub_cancel]
  by_cases hfixed : -4 ≤ (r.significant places).2 ∧ (r.significant places).2 < (places + 1 : Nat)
  · rw [if_pos hfixed, if_pos hfixed]
    obtain ⟨behind, hbehind⟩ := Int.eq_ofNat_of_zero_le
      (show 0 ≤ (places : Int) - (r.significant places).2 by omega)
    have hround : (r.scale 10 behind).round = (r.significant places).1 := by
      rw [← hbehind]
      exact hsignificant.rounded
    rw [show ((places + 1 : Nat) : Int) - 1 - (r.significant places).2 = behind by omega, hbehind,
      Int.toNat_natCast, ← hround]
    cases alternative with
    | true => exact (WrittenNumber.text_fixed r behind true).symm
    | false =>
      have hmantissa :=
        (ofNumeral (r.scale 10 behind).round behind false none).mantissa_stripped rfl
      rw [WrittenNumber.mantissa_unpointed, ← Ratio.fixed_eq] at hmantissa
      exact hmantissa.symm.trans (List.append_nil _).symm
  · rw [if_neg hfixed, if_neg hfixed]
    cases alternative with
    | true => exact (WrittenNumber.text_scientific hsignificant.lt).symm
    | false =>
      have hmantissa := (ofNumeral (r.significant places).1 places false
        (some ((r.significant places).2, upper))).mantissa_stripped rfl
      rw [WrittenNumber.mantissa_unpointed, ← Ratio.mantissa_eq hsignificant.lt] at hmantissa
      exact congrArg (· ++ exponentText (r.significant places).2 upper) hmantissa.symm

/-- Whichever style is picked, the text is that of the significant digits. -/
theorem exists_general (hden : 0 < r.den) {precision places : Nat}
    (hplaces : max precision 1 = places + 1) (upper alternative : Bool) :
    ∃ behind exponent,
      generalText r precision upper alternative =
        (general (r.significant places).1 behind alternative exponent).text ∧
      (exponent.map Prod.fst).getD 0 - (behind : Int) = (r.significant places).2 - places ∧
      (exponent = none ↔
        -4 ≤ (r.significant places).2 ∧ (r.significant places).2 < (places + 1 : Nat)) := by
  rw [generalText_eq hden hplaces]
  split
  · rename_i hfixed
    refine ⟨_, _, rfl, ?_, iff_of_true rfl hfixed⟩
    simp only [Option.map_none, Option.getD_none]
    omega
  · rename_i hfixed
    exact ⟨_, _, rfl, rfl, iff_of_false nofun hfixed⟩

/-- The general style suits the scientific one, for every number. -/
theorem isGeneral (hden : 0 < r.den) (precision : Nat) (upper alternative : Bool) :
    IsGeneral r.value (max precision 1) alternative
      (scientificText r (max precision 1 - 1) upper alternative)
      (generalText r precision upper alternative) := by
  obtain ⟨places, hplaces⟩ : ∃ places, max precision 1 = places + 1 :=
    ⟨max precision 1 - 1, by omega⟩
  obtain ⟨behind, exponent, htext, hpower, hfixed⟩ :=
    exists_general hden hplaces upper alternative
  have hscientific : (WrittenNumber.ofNumeral (r.significant places).1 places alternative
      (some ((r.significant places).2, upper))).text =
        scientificText r places upper alternative :=
    WrittenNumber.text_scientific (r.isSignificant hden places).lt
  have hvalue := WrittenNumber.value_ofNumeral (r.significant places).1 places alternative
    (some ((r.significant places).2, upper))
  rw [hplaces, Nat.add_sub_cancel, htext, ← hscientific]
  refine ⟨?_, ?_, fun hzero => ?_, ?_, ?_, ?_⟩
  · simp only [List.mem_cons, List.not_mem_nil, or_false, forall_eq_or_imp, forall_eq]
    exact ⟨⟨_, rfl⟩, ⟨_, rfl⟩⟩
  · rw [WrittenNumber.number_parts, WrittenNumber.number_parts, WrittenNumber.value_general, hvalue,
      hpower]
    rfl
  · have hnone : r.significant places = (0, 0) := if_pos ((Ratio.num_eq_zero_iff hden).2 hzero)
    rw [WrittenNumber.number_parts, WrittenNumber.power_parts, hvalue, hnone]
    simp [WrittenNumber.power, ofNumeral]
  · rw [WrittenNumber.forall_ne_letter_iff, WrittenNumber.exponent_general,
      WrittenNumber.power_parts]
    exact hfixed
  · rintro rfl hpoint
    rw [FloatToken.parts_text]
    exact WrittenNumber.getLast?_general _ _ _ hpoint
  · rintro rfl hvalue
    have hnum : r.num ≠ 0 := fun hnum => hvalue ((Ratio.num_eq_zero_iff hden).1 hnum)
    have hlow := Ratio.ten_pow_le_significant hnum hden places
    have hhigh := (r.isSignificant hden places).lt
    have hne : (r.significant places).1 ≠ 0 := by
      have hpos : 0 < 10 ^ places := Nat.pow_pos (by decide)
      omega
    obtain ⟨hpoint, hdigits⟩ := WrittenNumber.significantDigits_general
      (r.significant places).1 behind exponent hne
    exact ⟨hpoint, hdigits ▸ length_decimalNumeral hlow hhigh⟩

end General

/-- The general style chooses how a number is written and never the number. With as many
significant digits as the precision says, six where it says nothing and one at least, the
magnitude of every finite double reads as the number that the scientific style writes. It
stands without an exponent exactly where the exponent of that number is at least -4 and
less than the digits are. Zeros at its end behind a point go, and so does a point that
would end it; the alternative form shows the point and every digit. -/
theorem general_keeps_number {bits : Word} {negative : Bool} {significand : Nat} {exponent : Int}
    (h : FloatFormat.binary64.decode bits.toNat = .finite negative significand exponent)
    (upper : Bool) (layout : Layout) :
    let digits := max (layout.precision.getD 6) 1
    IsGeneral (significand * 2 ^ exponent) digits layout.flags.alternative
      (floatBody bits ⟨.scientific, upper⟩ { layout with precision := .given (digits - 1) }).rest
      (floatBody bits ⟨.general, upper⟩ layout).rest := by
  unfold floatBody
  rw [h, ← Ratio.value_ofBinary]
  exact isGeneral (Ratio.den_ofBinary_pos significand exponent) _ upper _

/-- Rounding to six digits moves the exponent of 99999.97, and the fixed style is picked by
the exponent that it moves to. -/
theorem general_keeps_number_of_carry :
    let bits : Word := 0x40F869FF851EB852
    let layout : Layout := ⟨{ Flags.none with alternative := true }, .absent, .absent⟩
    FloatFormat.binary64.decode bits.toNat = .finite false 6871945612015698 (-36) ∧
      IsGeneral ((6871945612015698 : Nat) * 2 ^ (-36 : Int)) 6 true
        (floatBody bits ⟨.scientific, false⟩ { layout with precision := .given 5 }).rest
        (floatBody bits ⟨.general, false⟩ layout).rest :=
  have hdecode : FloatFormat.binary64.decode (0x40F869FF851EB852 : Word).toNat =
      .finite false 6871945612015698 (-36) := by decide
  ⟨hdecode, general_keeps_number hdecode false
    ⟨{ Flags.none with alternative := true }, .absent, .absent⟩⟩

end Field
end CheckedFormat
