import CheckedFormat.Field.Floating
import CheckedFormat.Proofs.FormatWriting
import CheckedFormat.Proofs.Ratios
import Mathlib.Data.List.DropRight
/-! Decimal numbers as they are written.

The fields of floats in the styles with significant digits are decimal numbers: digits
with a point among or behind them, and an exponent (`WrittenNumber`). All of them say
the number that the significant digits say, with zeros at the end or without
(`exists_written`). -/
namespace CheckedFormat

/-! ### Numerals with zeros in front -/

theorem isNumeral_padded (count n : Nat) : IsNumeral n (paddedNumeral count n) := by
  have h := isNumeral_numeral n
  refine ⟨fun b hb => ?_, ?_⟩
  · rcases List.mem_append.1 hb with hb | hb
    · rw [(List.mem_replicate.1 hb).2]
      rfl
    · exact h.all b hb
  · unfold paddedNumeral
    rw [digitsValue_zeros]
    exact h.value

theorem length_padded_le {count n : Nat} (hcount : 0 < count) (h : n < 10 ^ count) (least : Nat) :
    (paddedNumeral least n).length ≤ max least count := by
  have hlength := (Nat.length_toDigits_le_iff (by decide) hcount).2 h
  simp only [paddedNumeral, decimalNumeral, List.length_append, List.length_replicate,
    List.length_map]
  omega

theorem le_length_padded (least n : Nat) : least ≤ (paddedNumeral least n).length := by
  simp only [paddedNumeral, List.length_append, List.length_replicate]
  omega

/-- A numeral with a point in front of its last digits; there is no point without
digits behind it. -/
def insertPoint (places : Nat) (numeral : List Byte) : List Byte :=
  if places = 0 then numeral
  else numeral.take (numeral.length - places) ++ 46 :: numeral.drop (numeral.length - places)

theorem Ratio.fixed_eq (r : Ratio) (places : Nat) :
    r.fixed places = insertPoint places (paddedNumeral (places + 1) (r.scale 10 places).round) := by
  unfold fixed insertPoint
  by_cases hplaces : places = 0
  · simp [hplaces]
  · simp [hplaces]

/-- A mantissa has one digit before the point. -/
theorem Ratio.mantissa_eq {r : Ratio} {places : Nat}
    (h : (r.significant places).1 < 10 ^ (places + 1)) :
    r.mantissa places =
      insertPoint places (paddedNumeral (places + 1) (r.significant places).1) := by
  have hlow := le_length_padded (places + 1) (r.significant places).1
  have hhigh := length_padded_le (Nat.succ_pos places) h (places + 1)
  rw [insertPoint,
    show (paddedNumeral (places + 1) (r.significant places).1).length - places = 1 by omega]
  rfl

theorem stripTrailingZeros_whole {whole : List Byte} (h : ∀ b ∈ whole, b ≠ 46) :
    stripTrailingZeros whole = whole := by
  have hnone : whole.contains 46 = false := by
    rw [Bool.eq_false_iff, Ne, List.contains_iff_mem]
    exact fun hmem => h 46 hmem rfl
  rw [stripTrailingZeros, hnone]
  rfl

/-- Without its zeros at the end the part behind the point may be nothing, and then the
point goes as well. -/
theorem stripTrailingZeros_point (whole : List Byte) {fraction : List Byte}
    (h : ∀ b ∈ fraction, b ≠ 46) :
    stripTrailingZeros (whole ++ 46 :: fraction) =
      if fraction.rdropWhile (· == 48) = [] then whole
      else whole ++ 46 :: fraction.rdropWhile (· == 48) := by
  have hpoint : (whole ++ 46 :: fraction).contains 46 = true := by
    simp
  have hreverse : (whole ++ 46 :: fraction).reverse = fraction.reverse ++ 46 :: whole.reverse := by
    simp
  rw [stripTrailingZeros, hpoint, if_pos rfl, hreverse]
  unfold List.rdropWhile
  cases hkept : fraction.reverse.dropWhile (· == 48) with
  | nil => simp [List.dropWhile_append, hkept]
  | cons b kept =>
    have hb : b ≠ 46 := by
      refine h b (List.mem_reverse.1 ((List.dropWhile_sublist (· == 48)).subset ?_))
      rw [hkept]
      exact List.mem_cons_self
    simp [List.dropWhile_append, hkept, hb]

/-! ### Written numbers -/

/-- A decimal number as it is written. -/
structure WrittenNumber where
  whole : List Byte
  fraction : List Byte
  /-- Whether a point stands also where no digits follow it. -/
  pointed : Bool
  /-- The exponent, and whether its letter is a capital. -/
  exponent : Option (Int × Bool)
  some : whole ≠ []
  digits : ∀ b ∈ whole ++ fraction, b.isDigit

namespace WrittenNumber

/-- How many digits stand behind the point. -/
def places (n : WrittenNumber) : Nat := n.fraction.length

/-- What stands behind the whole part and before the exponent. -/
def pointPart (n : WrittenNumber) : List Byte :=
  if n.places = 0 ∧ n.pointed = false then [] else 46 :: n.fraction

def exponentPart (n : WrittenNumber) : List Byte :=
  match n.exponent with
  | none => []
  | .some (exponent, upper) => Field.exponentText exponent upper

def text (n : WrittenNumber) : List Byte := n.whole ++ n.pointPart ++ n.exponentPart

/-- The power of ten that the exponent says. -/
def power (n : WrittenNumber) : Int := (n.exponent.map Prod.fst).getD 0

/-- The number that the digits are without the point. -/
def allDigits (n : WrittenNumber) : Nat := digitsValue 10 (n.whole ++ n.fraction)

def value (n : WrittenNumber) : ℚ := n.allDigits * 10 ^ (n.power - n.places)

/-- A numeral with a point in front of its last digits. -/
def ofNumeral (digits places : Nat) (pointed : Bool) (exponent : Option (Int × Bool)) :
    WrittenNumber where
  whole := (paddedNumeral (places + 1) digits).take
    ((paddedNumeral (places + 1) digits).length - places)
  fraction := (paddedNumeral (places + 1) digits).drop
    ((paddedNumeral (places + 1) digits).length - places)
  pointed := pointed
  exponent := exponent
  some := by
    have hlength := le_length_padded (places + 1) digits
    rw [← List.length_pos_iff, List.length_take]
    omega
  digits := by
    rw [List.take_append_drop]
    exact (isNumeral_padded (places + 1) digits).all

section OfNumeral
variable (digits places : Nat) (pointed : Bool) (exponent : Option (Int × Bool))

@[simp]
theorem places_ofNumeral : (ofNumeral digits places pointed exponent).places = places := by
  have hlength := le_length_padded (places + 1) digits
  simp only [WrittenNumber.places, ofNumeral, List.length_drop]
  omega

theorem value_ofNumeral : (ofNumeral digits places pointed exponent).value =
    digits * 10 ^ ((exponent.map Prod.fst).getD 0 - places) := by
  rw [value, places_ofNumeral, allDigits, ofNumeral, List.take_append_drop,
    (isNumeral_padded (places + 1) digits).value]
  rfl

theorem mantissa_ofNumeral : (ofNumeral digits places pointed exponent).whole ++
    (ofNumeral digits places pointed exponent).pointPart =
      insertPoint places (paddedNumeral (places + 1) digits) ++ Field.barePoint pointed places := by
  unfold pointPart Field.barePoint insertPoint
  rw [places_ofNumeral]
  by_cases hplaces : places = 0
  · subst hplaces
    cases pointed <;> simp [ofNumeral, show ascii "." = [46] from rfl]
  · simp [hplaces, ofNumeral]

theorem mantissa_unpointed : (ofNumeral digits places false exponent).whole ++
    (ofNumeral digits places false exponent).pointPart =
      insertPoint places (paddedNumeral (places + 1) digits) := by
  rw [mantissa_ofNumeral]
  exact List.append_nil _

end OfNumeral

/-! ### Fields -/

section Fields
variable {r : Ratio} {places : Nat} {upper alternative : Bool}

theorem text_fixed (r : Ratio) (places : Nat) (alternative : Bool) :
    (ofNumeral (r.scale 10 places).round places alternative none).text =
      Field.fixedText r places alternative := by
  rw [text, mantissa_ofNumeral, ← Ratio.fixed_eq]
  exact List.append_nil _

theorem text_scientific (h : (r.significant places).1 < 10 ^ (places + 1)) :
    (ofNumeral (r.significant places).1 places alternative
      (.some ((r.significant places).2, upper))).text =
        Field.scientificText r places upper alternative := by
  rw [text, mantissa_ofNumeral, ← Ratio.mantissa_eq h]
  rfl

end Fields

/-! ### Zeros at the end -/

/-- The number without the zeros at the end of its places. -/
def stripped (n : WrittenNumber) : WrittenNumber where
  whole := n.whole
  fraction := n.fraction.rdropWhile (· == 48)
  pointed := false
  exponent := n.exponent
  some := n.some
  digits := by
    have hkept := (List.rdropWhile_prefix (· == 48) n.fraction).subset
    intro b hb
    refine n.digits b (List.mem_append.2 ?_)
    exact (List.mem_append.1 hb).imp_right (hkept ·)

/-- What is dropped is zeros. -/
theorem exists_zeros (n : WrittenNumber) :
    ∃ count, n.fraction = n.stripped.fraction ++ List.replicate count 48 := by
  have hzeros : ∀ b ∈ n.fraction.rtakeWhile (· == 48), b = 48 := fun b hb => by
    simpa using List.mem_rtakeWhile_imp hb
  refine ⟨(n.fraction.rtakeWhile (· == 48)).length, ?_⟩
  rw [← List.eq_replicate_of_mem hzeros]
  exact (List.rdropWhile_append_rtakeWhile ..).symm

theorem mantissa_stripped (n : WrittenNumber) (h : n.pointed = false) :
    n.stripped.whole ++ n.stripped.pointPart = stripTrailingZeros (n.whole ++ n.pointPart) := by
  have hne : ∀ b ∈ n.whole ++ n.fraction, b ≠ 46 := by
    rintro b hb rfl
    have hdigit := n.digits 46 hb
    revert hdigit
    decide
  by_cases hplaces : n.places = 0
  · have hfraction : n.fraction = [] := List.length_eq_zero_iff.1 hplaces
    have hpoint : n.pointPart = [] := if_pos ⟨hplaces, h⟩
    have hpoint' : n.stripped.pointPart = [] := if_pos ⟨by simp [places, stripped, hfraction], rfl⟩
    have hwhole : ∀ b ∈ n.whole, b ≠ 46 := fun b hb => hne b (List.mem_append_left _ hb)
    rw [hpoint, hpoint', List.append_nil, List.append_nil, stripTrailingZeros_whole hwhole]
    rfl
  · have hpoint : n.pointPart = 46 :: n.fraction := if_neg fun hnone => hplaces hnone.1
    have hfraction : ∀ b ∈ n.fraction, b ≠ 46 := fun b hb => hne b (List.mem_append_right _ hb)
    rw [hpoint, stripTrailingZeros_point _ hfraction]
    by_cases hkept : n.fraction.rdropWhile (· == 48) = []
    · have hpoint' : n.stripped.pointPart = [] := if_pos ⟨List.length_eq_zero_iff.2 hkept, rfl⟩
      rw [if_pos hkept, hpoint', List.append_nil]
      rfl
    · have hpoint' : n.stripped.pointPart = 46 :: n.fraction.rdropWhile (· == 48) :=
        if_neg fun hnone => hkept (List.length_eq_zero_iff.1 hnone.1)
      rw [if_neg hkept, hpoint']
      rfl

theorem digitsValue_zeros_behind (digits : List Byte) (count : Nat) :
    digitsValue 10 (digits ++ List.replicate count 48) =
      digitsValue 10 digits * 10 ^ count := by
  induction count with
  | zero => simp
  | succ count ih =>
    rw [List.replicate_succ', ← List.append_assoc, digitsValue_append_digit, ih,
      Nat.pow_succ, Nat.mul_assoc]
    rfl

/-- Zeros at the end of the places say nothing. -/
theorem value_stripped (n : WrittenNumber) : n.stripped.value = n.value := by
  obtain ⟨count, hfraction⟩ := n.exists_zeros
  have hdigits : n.allDigits = n.stripped.allDigits * 10 ^ count := by
    rw [allDigits, allDigits, hfraction, ← List.append_assoc, digitsValue_zeros_behind]
    rfl
  have hplaces : n.places = n.stripped.places + count := by
    simp [places, congrArg List.length hfraction]
  have hpower : n.stripped.power = n.power := rfl
  rw [value, value, hdigits, hplaces, hpower]
  push_cast
  rw [mul_assoc, ← zpow_natCast (10 : ℚ) count, Ratio.zpow_ten_add]
  congr 2
  ring

/-! ### Fields of significant digits -/

/-- The number is written as the text, says the significant digits of a ratio, and is not
much longer than they are. -/
structure Spells (n : WrittenNumber) (text : List Byte) (r : Ratio) (places : Nat) : Prop where
  text_eq : n.text = text
  value_eq : n.value = r.written places
  power_lt : n.power.natAbs < 1000
  length_le : n.whole.length + n.places + 1 + n.exponentPart.length ≤ places + 7

theorem Spells.length_text_le {n : WrittenNumber} {text : List Byte} {r : Ratio} {places : Nat}
    (h : n.Spells text r places) : text.length ≤ places + 7 := by
  have hpoint : n.pointPart.length ≤ n.places + 1 := by
    unfold pointPart
    split <;> simp [WrittenNumber.places]
  have hlength := h.length_le
  rw [← h.text_eq, WrittenNumber.text, List.length_append, List.length_append]
  omega

section Fields
variable {r : Ratio} {places : Nat} {upper : Bool}

theorem length_ofNumeral (digits places : Nat) (pointed : Bool) (exponent : Option (Int × Bool)) :
    (ofNumeral digits places pointed exponent).whole.length + places =
      (paddedNumeral (places + 1) digits).length := by
  have hlength := le_length_padded (places + 1) digits
  rw [ofNumeral, List.length_take]
  omega

theorem length_exponentText {exponent : Int} (h : exponent.natAbs < 1000) (upper : Bool) :
    (Field.exponentText exponent upper).length ≤ 5 := by
  have hdigits := length_padded_le (by decide : 0 < 3) h 2
  unfold Field.exponentText
  rw [List.length_append, List.length_append]
  have hletter : (ascii (if upper then "E" else "e")).length = 1 := by
    cases upper <;> rfl
  have hsign : (ascii (if exponent < 0 then "-" else "+")).length = 1 := by
    split <;> rfl
  omega

theorem spells_scientific (hden : 0 < r.den) (hexponent : (r.significant places).2.natAbs < 1000)
    (upper alternative : Bool) :
    (ofNumeral (r.significant places).1 places alternative
      (.some ((r.significant places).2, upper))).Spells
        (Field.scientificText r places upper alternative) r places := by
  have hlt := (r.isSignificant hden places).lt
  refine ⟨text_scientific hlt, value_ofNumeral .., hexponent, ?_⟩
  have hdigits := length_padded_le (Nat.succ_pos places) hlt (places + 1)
  have hpart := length_exponentText hexponent upper
  rw [places_ofNumeral, length_ofNumeral]
  show _ + 1 + (Field.exponentText (r.significant places).2 upper).length ≤ _
  omega

/-- Rounding at the last significant place says the significant digits again. -/
theorem spells_fixed (hden : 0 < r.den) (hlow : -4 ≤ (r.significant places).2)
    (alternative : Bool) {behind : Nat}
    (hbehind : (behind : Int) = places - (r.significant places).2) :
    (ofNumeral (r.scale 10 behind).round behind alternative none).Spells
      (Field.fixedText r behind alternative) r places := by
  have hsignificant := r.isSignificant hden places
  have hround : (r.scale 10 behind).round = (r.significant places).1 := by
    rw [hbehind]
    exact hsignificant.rounded
  have hpower : (0 : Int).natAbs < 1000 := by decide
  refine ⟨text_fixed r behind alternative, ?_, hpower, ?_⟩
  · rw [value_ofNumeral, hround, Ratio.written]
    congr 2
    rw [hbehind]
    simp
  · have hdigits := length_padded_le (Nat.succ_pos places) hsignificant.lt (behind + 1)
    rw [places_ofNumeral, length_ofNumeral, hround]
    show _ + 1 + 0 ≤ _
    omega

theorem Spells.stripped {n : WrittenNumber} {text : List Byte} (h : n.Spells text r places)
    (hpointed : n.pointed = false) :
    n.stripped.Spells (stripTrailingZeros (n.whole ++ n.pointPart) ++ n.exponentPart) r places := by
  refine ⟨?_, n.value_stripped.trans h.value_eq, h.power_lt, ?_⟩
  · rw [WrittenNumber.text, n.mantissa_stripped hpointed]
    rfl
  · have hplaces : n.stripped.places ≤ n.places :=
      (List.rdropWhile_prefix (· == 48) n.fraction).length_le
    have hlength := h.length_le
    show n.whole.length + n.stripped.places + 1 + n.exponentPart.length ≤ _
    omega

end Fields
end WrittenNumber

/-- How many significant digits stand behind the first one. -/
def FloatForm.places (form : FloatForm) (precision : Nat) : Nat :=
  if form.style = .scientific then precision else max precision 1 - 1

open WrittenNumber in
/-- A field in a style of significant digits is a written number. -/
theorem exists_spells {r : Ratio} (hden : 0 < r.den) {form : FloatForm} {precision : Nat}
    (hstyle : form.style ≠ .fixed)
    (hexponent : (r.significant (form.places precision)).2.natAbs < 1000) (alternative : Bool) :
    ∃ n : WrittenNumber,
      n.Spells (Field.finiteText r form precision alternative) r (form.places precision) := by
  obtain ⟨style, upper⟩ := form
  cases style with
  | fixed => exact absurd rfl hstyle
  | scientific => exact ⟨_, spells_scientific hden hexponent upper alternative⟩
  | general =>
    have hplaces : FloatForm.places ⟨.general, upper⟩ precision = max precision 1 - 1 := rfl
    rw [hplaces] at hexponent ⊢
    show ∃ n : WrittenNumber, n.Spells (Field.generalText r precision upper alternative) r _
    unfold Field.generalText
    dsimp only
    obtain ⟨places, hp⟩ : ∃ places, max precision 1 = places + 1 := ⟨max precision 1 - 1, by omega⟩
    rw [hp, Nat.add_sub_cancel] at hexponent ⊢
    by_cases hfixed : -4 ≤ (r.significant places).2 ∧ (r.significant places).2 < (places + 1 : Nat)
    · rw [if_pos hfixed]
      have hbehind : ((((places + 1 : Nat) : Int) - 1 - (r.significant places).2).toNat : Int) =
          places - (r.significant places).2 := by omega
      have hspells := fun alternative =>
        spells_fixed hden hfixed.1 alternative hbehind
      cases alternative with
      | true => exact ⟨_, hspells true⟩
      | false =>
        have hstripped := (hspells false).stripped rfl
        rw [mantissa_unpointed, ← Ratio.fixed_eq] at hstripped
        exact ⟨_, List.append_nil (stripTrailingZeros _) ▸ hstripped⟩
    · rw [if_neg hfixed]
      have hspells := spells_scientific hden hexponent upper
      cases alternative with
      | true => exact ⟨_, hspells true⟩
      | false =>
        have hstripped := (hspells false).stripped rfl
        rw [mantissa_unpointed, ← Ratio.mantissa_eq (r.isSignificant hden places).lt] at hstripped
        exact ⟨_, hstripped⟩

end CheckedFormat
