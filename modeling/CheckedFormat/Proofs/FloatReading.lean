import CheckedFormat.Proofs.NearestFloat
import CheckedFormat.Proofs.PrintedFields
import CheckedFormat.Proofs.WrittenNumber
/-! Written numbers, read as floats.

A written number is a token (`run_text`), and the token means the digits, the places and
the exponent that were written (`magnitude_text`). So one that is near to a double means
the double, also behind a sign and with zeros in front (`Reads`). -/
namespace CheckedFormat

/-! ### Runs of a recogniser -/

namespace Recogniser

variable {σ : Type} {l : Recogniser σ} {state : σ}

theorem run_append (front rest : List Byte) :
    l.run state (front ++ rest) = (l.run state front).bind (l.run · rest) := by
  induction front generalizing state with
  | nil => rfl
  | cons b front ih =>
    show (l.step state b).bind (fun next => l.run next (front ++ rest)) =
      ((l.step state b).bind (fun next => l.run next front)).bind (l.run · rest)
    rw [Option.bind_assoc]
    congr
    funext next
    exact ih

theorem run_of_stays {text : List Byte} (h : ∀ b ∈ text, l.step state b = some state) :
    l.run state text = some state := by
  induction text with
  | nil => rfl
  | cons b text ih =>
    obtain ⟨hb, htext⟩ := List.forall_mem_cons.1 h
    show (l.step state b).bind _ = _
    rw [hb]
    exact ih htext

end Recogniser

namespace Byte

theorem isDigitOf_of_isDigit {b : Byte} (h : b.isDigit = true) : b.isDigitOf 10 = true := by
  rw [isDigitOf, digit?_of_isDigit h]
  rfl

/-- A digit is no letter in either case. -/
theorem lower_beq_of_isDigit {b c : Byte} (h : b.isDigit = true) (hc : c.isDigit = false) :
    (b.lower == c) = false := by
  have hcode := isDigit_iff.1 h
  have hlower : b.lower = b := by
    refine if_neg ?_
    rw [isUpper_iff]
    omega
  rw [hlower, beq_eq_false_iff_ne]
  rintro rfl
  rw [h] at hc
  cases hc

end Byte

/-- An exponent as bytes. -/
theorem Field.exponentText_eq (exponent : Int) (upper : Bool) :
    exponentText exponent upper = (if upper then 69 else 101) ::
      (if exponent < 0 then 45 else 43) :: paddedNumeral 2 exponent.natAbs := by
  unfold exponentText
  cases upper <;> by_cases h : exponent < 0 <;> simp only [h, if_true, if_false] <;> rfl

namespace FloatToken

/-! ### Tokens -/

/-- A state that a decimal number may end in. -/
inductive IsEnd : State → Prop where
  | zero : IsEnd .zero
  | whole : IsEnd (.whole .decimal true)
  | fraction : IsEnd (.fraction .decimal true)
  | exponent : IsEnd .exponent

theorem IsEnd.accepts {state : State} (h : IsEnd state) : accepts state = true := by
  cases h <;> rfl

section Steps
variable {b : Byte}

/-- No number goes on with a control character or a blank. -/
theorem IsEnd.step_of_le {state : State} (h : IsEnd state) (hb : b.toNat ≤ 32) :
    step state b = none := by
  have hne : ∀ c : Byte, 32 < c.toNat → (b == c) = false := by
    intro c hc
    rw [beq_eq_false_iff_ne]
    rintro rfl
    omega
  have hdigit : b.isDigit = false := by
    rw [Bool.eq_false_iff, Ne, Byte.isDigit_iff]
    omega
  have hdigitOf : b.isDigitOf 10 = false := by
    rw [Bool.eq_false_iff]
    intro hof
    rw [Byte.isDigit_of_isDigitOf hof] at hdigit
    cases hdigit
  have hlower : b.lower = b := by
    refine if_neg ?_
    rw [Byte.isUpper_iff]
    omega
  cases h <;> simp [step, inWhole, markExponent, Radix.base, Radix.exponentLetter, hlower, hdigit,
    hdigitOf, hne 46 (by decide), hne 120 (by decide), hne 'e'.toUInt8 (by decide)]

theorem step_whole (h : b.isDigit = true) :
    step (.whole .decimal true) b = some (.whole .decimal true) :=
  if_pos (Byte.isDigitOf_of_isDigit h)

theorem step_fraction (h : b.isDigit = true) :
    step (.fraction .decimal true) b = some (.fraction .decimal true) :=
  if_pos (Byte.isDigitOf_of_isDigit h)

theorem step_exponent (h : b.isDigit = true) : step .exponent b = some .exponent := if_pos h

/-- The first digit. -/
theorem step_signed (h : b.isDigit = true) :
    step .signed b = some (if b == 48 then .zero else .whole .decimal true) := by
  have hletter := fun {c} => Byte.lower_beq_of_isDigit (c := c) h
  show first b = _
  simp only [first, hletter (c := 105) rfl, hletter (c := 110) rfl, Bool.false_eq_true, if_false, h,
    if_true]
  split <;> rfl

/-- A zero in front goes on as any digit, but for a radix mark. -/
theorem step_zero (h : (b.lower == 120) = false) :
    step .zero b = step (.whole .decimal true) b := by
  show (if b.lower == 120 then _ else _) = _
  rw [h]
  rfl

end Steps

section Runs
variable (n : WrittenNumber)

theorem run_digits {state : State} {digits : List Byte}
    (hstep : ∀ {b : Byte}, b.isDigit = true → step state b = some state)
    (h : ∀ b ∈ digits, b.isDigit) : recogniser.run state digits = some state :=
  Recogniser.run_of_stays fun b hb => hstep (h b hb)

/-- Behind the digits and the point stand only an exponent or nothing. -/
theorem run_pointPart : ∃ state, recogniser.run (.whole .decimal true) n.pointPart = some state ∧
    (state = .whole .decimal true ∨ state = .fraction .decimal true) := by
  unfold WrittenNumber.pointPart
  split
  · exact ⟨_, rfl, .inl rfl⟩
  · refine ⟨_, ?_, .inr rfl⟩
    show recogniser.run (.fraction .decimal true) n.fraction = _
    exact run_digits step_fraction fun b hb => n.digits b (List.mem_append_right _ hb)

theorem run_exponentText {state : State}
    (hstate : state = .whole .decimal true ∨ state = .fraction .decimal true) (exponent : Int)
    (upper : Bool) : recogniser.run state (Field.exponentText exponent upper) = some .exponent := by
  have hmark : step state (if upper then 69 else 101) = some .exponentMark := by
    rcases hstate with rfl | rfl <;> cases upper <;> decide
  have hsign : step .exponentMark (if exponent < 0 then 45 else 43) = some .exponentSign := by
    split <;> rfl
  have hall := (isNumeral_padded 2 exponent.natAbs).all
  have hlength := le_length_padded 2 exponent.natAbs
  rw [Field.exponentText_eq]
  generalize paddedNumeral 2 exponent.natAbs = digits at hall hlength
  cases digits with
  | nil => simp at hlength
  | cons b digits =>
    obtain ⟨hb, hdigits⟩ := List.forall_mem_cons.1 hall
    have hfirst : step .exponentSign b = some .exponent := if_pos hb
    show (step state _).bind _ = _
    rw [hmark]
    show (step .exponentMark _).bind _ = _
    rw [hsign]
    show (step .exponentSign b).bind _ = _
    rw [hfirst]
    exact run_digits step_exponent hdigits

theorem run_behind : ∃ state,
    recogniser.run (.whole .decimal true) (n.pointPart ++ n.exponentPart) = some state ∧
      IsEnd state := by
  obtain ⟨state, hpoint, hstate⟩ := run_pointPart n
  rw [Recogniser.run_append, hpoint]
  show ∃ final, recogniser.run state n.exponentPart = some final ∧ IsEnd final
  unfold WrittenNumber.exponentPart
  split
  · refine ⟨state, rfl, ?_⟩
    rcases hstate with rfl | rfl
    · exact .whole
    · exact .fraction
  · exact ⟨_, run_exponentText hstate .., .exponent⟩

/-- The first digit of a number, and what stands behind it. -/
theorem exists_first : ∃ b digits,
    n.text = b :: (digits ++ (n.pointPart ++ n.exponentPart)) ∧ b.isDigit = true ∧
      ∀ c ∈ digits, c.isDigit := by
  have hsome := n.some
  have hdigits := n.digits
  unfold WrittenNumber.text
  generalize n.whole = whole at hsome hdigits
  cases whole with
  | nil => exact absurd rfl hsome
  | cons b digits =>
    refine ⟨b, digits, by simp, hdigits b (by simp), fun c hc => ?_⟩
    exact hdigits c (List.mem_append_left _ (List.mem_cons_of_mem b hc))

/-- An exponent starts with its letter. -/
theorem stopsAt_exponentPart {p : Byte → Bool} (hupper : p 69 = false) (hlower : p 101 = false) :
    StopsAt p n.exponentPart := by
  unfold WrittenNumber.exponentPart
  split
  · exact .nil _
  · rename_i upper _
    rw [Field.exponentText_eq]
    cases upper with
    | true => exact .cons _ hupper
    | false => exact .cons _ hlower

/-- No radix mark stands behind digits. -/
theorem stopsAt_mark {digits : List Byte} (h : ∀ b ∈ digits, b.isDigit) :
    StopsAt (fun b => b.lower == 120) (digits ++ (n.pointPart ++ n.exponentPart)) := by
  have hdigits : StopsAt (fun b => b.lower == 120) digits := fun b hb => by
    exact Byte.lower_beq_of_isDigit (h b (List.mem_of_mem_head? hb)) rfl
  refine hdigits.append (.append ?_ (stopsAt_exponentPart n rfl rfl))
  unfold WrittenNumber.pointPart
  split
  · exact .nil _
  · exact .cons _ (by decide)

/-- A written number is a token. -/
theorem run_text : ∃ state, recogniser.run .signed n.text = some state ∧ IsEnd state := by
  obtain ⟨b, digits, htext, hb, hdigits⟩ := exists_first n
  obtain ⟨final, hbehind, hend⟩ := run_behind n
  have hrun : recogniser.run (.whole .decimal true) (digits ++ (n.pointPart ++ n.exponentPart)) =
      some final := by
    rw [Recogniser.run_append, run_digits step_whole hdigits]
    exact hbehind
  have hmark := stopsAt_mark n hdigits
  rw [htext]
  show ∃ state, (step .signed b).bind _ = some state ∧ IsEnd state
  rw [step_signed hb]
  generalize digits ++ (n.pointPart ++ n.exponentPart) = rest at hrun hmark
  by_cases hzero : (b == 48) = true
  · rw [if_pos hzero]
    cases rest with
    | nil => exact ⟨_, rfl, .zero⟩
    | cons c rest =>
      refine ⟨final, ?_, hend⟩
      show (step .zero c).bind _ = _
      rw [step_zero (hmark c rfl)]
      exact hrun
  · rw [if_neg hzero]
    exact ⟨final, hrun, hend⟩

theorem code_of_mem_text : ∀ b ∈ n.text, 43 ≤ b.toNat := by
  have hdigits : ∀ digits : List Byte, (∀ b ∈ digits, b.isDigit) → ∀ b ∈ digits, 43 ≤ b.toNat := by
    intro digits h b hb
    have hcode := Byte.isDigit_iff.1 (h b hb)
    omega
  have hnumber := hdigits _ n.digits
  have hwhole := fun b hb => hnumber b (List.mem_append_left _ hb)
  have hfraction := fun b hb => hnumber b (List.mem_append_right _ hb)
  refine List.forall_mem_append.2 ⟨List.forall_mem_append.2 ⟨hwhole, ?_⟩, ?_⟩
  · unfold WrittenNumber.pointPart
    split
    · exact nofun
    · exact List.forall_mem_cons.2 ⟨by decide, hfraction⟩
  · unfold WrittenNumber.exponentPart
    split
    · exact nofun
    · rename_i exponent upper _
      rw [Field.exponentText_eq]
      refine List.forall_mem_cons.2 ⟨by cases upper <;> decide, List.forall_mem_cons.2 ⟨?_, ?_⟩⟩
      · split <;> decide
      · exact hdigits _ (isNumeral_padded 2 exponent.natAbs).all

end Runs

/-! ### Values -/

section Values
variable (n : WrittenNumber)

/-- The digits of the exponent. -/
def exponentDigits : List Byte :=
  match n.exponent with
  | none => []
  | some (exponent, _) => paddedNumeral 2 exponent.natAbs

/-- Behind the whole part the point goes, where there is one. -/
theorem behind_point :
    (if (n.pointPart ++ n.exponentPart).head? == some 46 then (n.pointPart ++ n.exponentPart).drop 1
      else n.pointPart ++ n.exponentPart) = n.fraction ++ n.exponentPart := by
  unfold WrittenNumber.pointPart
  split
  · rename_i hnone
    have hhead : ¬ (n.exponentPart.head? == some 46) = true := fun hpoint => by
      have hstops := stopsAt_exponentPart n (p := (· == 46)) rfl rfl
      have hfalse := hstops 46 (by simpa using hpoint)
      cases hfalse
    rw [List.nil_append, if_neg hhead, List.length_eq_zero_iff.1 hnone.1]
    rfl
  · rfl

theorem sign_written :
    ((n.exponentPart.drop 1).head? == some 45) = decide (n.power < 0) := by
  unfold WrittenNumber.exponentPart WrittenNumber.power
  cases n.exponent with
  | none => rfl
  | some exponent =>
    obtain ⟨exponent, upper⟩ := exponent
    show (((Field.exponentText exponent upper).drop 1).head? == some 45) = decide (exponent < 0)
    rw [Field.exponentText_eq]
    by_cases hnegative : exponent < 0 <;> simp [hnegative]

theorem digits_written : (n.exponentPart.drop 1).filter Byte.isDigit = exponentDigits n := by
  unfold WrittenNumber.exponentPart exponentDigits
  cases n.exponent with
  | none => rfl
  | some exponent =>
    obtain ⟨exponent, upper⟩ := exponent
    have hall := (isNumeral_padded 2 exponent.natAbs).all
    have hsign : (if exponent < 0 then 45 else 43 : Byte).isDigit = false := by
      split <;> rfl
    show ((Field.exponentText exponent upper).drop 1).filter Byte.isDigit = _
    rw [Field.exponentText_eq, List.drop_succ_cons, List.drop_zero,
      List.filter_cons_of_neg (by simp [hsign]), List.filter_eq_self.2 hall]

theorem parts_text :
    parts .decimal n.text = ⟨n.whole, n.fraction, decide (n.power < 0), exponentDigits n⟩ := by
  have hdigits : ∀ b ∈ n.whole ++ n.fraction, Byte.isDigitOf 10 b := fun b hb =>
    Byte.isDigitOf_of_isDigit (n.digits b hb)
  have hwhole := fun b hb => hdigits b (List.mem_append_left _ hb)
  have hfraction := fun b hb => hdigits b (List.mem_append_right _ hb)
  have hexponent : StopsAt (Byte.isDigitOf 10) n.exponentPart := stopsAt_exponentPart n rfl rfl
  have hpoint : StopsAt (Byte.isDigitOf 10) (n.pointPart ++ n.exponentPart) := by
    refine .append ?_ hexponent
    unfold WrittenNumber.pointPart
    split
    · exact .nil _
    · exact .cons _ rfl
  unfold parts WrittenNumber.text
  dsimp only [Radix.base]
  rw [List.append_assoc, takeWhile_of_stopsAt hwhole hpoint, dropWhile_of_stopsAt hwhole hpoint,
    behind_point, takeWhile_of_stopsAt hfraction hexponent, dropWhile_of_stopsAt hfraction hexponent,
    sign_written, digits_written]

/-- Reading digits from the front, what comes out lies between the powers of ten. -/
theorem foldl_digits_within {digits : List Byte} (h : ∀ b ∈ digits, b.isDigit) (front : Nat) :
    front * 10 ^ digits.length ≤ digits.foldl (fun n b => n * 10 + (b.digit? 10).getD 0) front ∧
      digits.foldl (fun n b => n * 10 + (b.digit? 10).getD 0) front <
        (front + 1) * 10 ^ digits.length := by
  induction digits generalizing front with
  | nil => simp
  | cons b digits ih =>
    obtain ⟨hb, hdigits⟩ := List.forall_mem_cons.1 h
    have hcode := Byte.isDigit_iff.1 hb
    obtain ⟨hlow, hhigh⟩ := ih hdigits (front * 10 + (b.toNat - 48))
    have hstep : front * 10 * 10 ^ digits.length ≤
        (front * 10 + (b.toNat - 48)) * 10 ^ digits.length := by gcongr; omega
    have hstep' : (front * 10 + (b.toNat - 48) + 1) * 10 ^ digits.length ≤
        (front + 1) * 10 * 10 ^ digits.length := by gcongr; omega
    rw [List.foldl_cons, List.length_cons, Byte.digit?_of_isDigit hb, Option.getD_some, Nat.pow_succ,
      Nat.mul_comm (10 ^ digits.length) 10, ← Nat.mul_assoc, ← Nat.mul_assoc]
    exact ⟨hstep.trans hlow, hhigh.trans_le hstep'⟩

/-- Digits of a value below the bound are all taken. -/
theorem decimalExponent_of_isNumeral {digits : List Byte} {value : Nat}
    (h : IsNumeral value digits) (hvalue : value < exponentBound) : decimalExponent digits = value := by
  have hfold : ∀ front, digits.foldl (fun n b => n * 10 + (b.digit? 10).getD 0) front < exponentBound →
      digits.foldl (fun n b => if n < exponentBound then n * 10 + (b.toNat - 48) else n) front =
        digits.foldl (fun n b => n * 10 + (b.digit? 10).getD 0) front := by
    have hall := h.all
    clear h hvalue
    induction digits with
    | nil => exact fun front _ => rfl
    | cons b digits ih =>
      obtain ⟨hb, hdigits⟩ := List.forall_mem_cons.1 hall
      intro front hlt
      have hfront := (foldl_digits_within hall front).1
      have hpos : 1 ≤ 10 ^ (b :: digits).length := Nat.one_le_pow _ _ (by decide)
      have hbelow : front < exponentBound := by
        refine lt_of_le_of_lt ?_ (lt_of_le_of_lt hfront hlt)
        exact Nat.le_mul_of_pos_right front hpos
      rw [List.foldl_cons, List.foldl_cons, if_pos hbelow, Byte.digit?_of_isDigit hb, Option.getD_some]
      rw [List.foldl_cons, Byte.digit?_of_isDigit hb, Option.getD_some] at hlt
      exact ih hdigits _ hlt
  have hvalue' := h.value
  unfold digitsValue at hvalue'
  rw [decimalExponent, hfold 0 (by rwa [hvalue']), hvalue']

theorem isNumeral_exponentDigits : IsNumeral n.power.natAbs (exponentDigits n) := by
  unfold exponentDigits WrittenNumber.power
  cases n.exponent with
  | none => exact ⟨nofun, rfl⟩
  | some exponent => exact isNumeral_padded 2 exponent.1.natAbs

theorem digitsValue_dropWhile (digits : List Byte) :
    digitsValue 10 (digits.dropWhile (· == 48)) = digitsValue 10 digits := by
  have hzeros : ∀ b ∈ digits.takeWhile (· == 48), b = 48 := fun b hb => by
    simpa using of_mem_takeWhile (· == 48) digits b hb
  calc digitsValue 10 (digits.dropWhile (· == 48))
      = digitsValue 10
          (List.replicate (digits.takeWhile (· == 48)).length 48 ++ digits.dropWhile (· == 48)) :=
        (digitsValue_zeros 10 _ _).symm
    _ = digitsValue 10 digits := by
      rw [← List.eq_replicate_of_mem hzeros, List.takeWhile_append_dropWhile]

/-- Without the zeros in front the digits are as many as their value has. -/
theorem size_dropWhile {digits : List Byte} (h : ∀ b ∈ digits, b.isDigit) :
    (digitsValue 10 (digits.dropWhile (· == 48)) ≠ 0 →
        10 ^ (digits.dropWhile (· == 48)).length ≤
          10 * digitsValue 10 (digits.dropWhile (· == 48))) ∧
      digitsValue 10 (digits.dropWhile (· == 48)) < 10 ^ (digits.dropWhile (· == 48)).length := by
  have hall : ∀ b ∈ digits.dropWhile (· == 48), b.isDigit := fun b hb =>
    h b ((List.dropWhile_sublist _).subset hb)
  have hfirst := stopsAt_dropWhile (· == 48) digits
  generalize digits.dropWhile (· == 48) = kept at hall hfirst
  refine ⟨fun hne => ?_, ?_⟩
  · cases kept with
    | nil => exact absurd rfl hne
    | cons b rest =>
      obtain ⟨hb, hrest⟩ := List.forall_mem_cons.1 hall
      have hcode := Byte.isDigit_iff.1 hb
      have hzero : b.toNat ≠ 48 := by
        have hne := hfirst b rfl
        rw [beq_eq_false_iff_ne, Ne, ← UInt8.toNat_inj] at hne
        exact hne
      have hlow := (foldl_digits_within hrest (0 * 10 + (b.toNat - 48))).1
      rw [digitsValue, List.foldl_cons, Byte.digit?_of_isDigit hb, Option.getD_some, List.length_cons,
        Nat.pow_succ, Nat.mul_comm]
      refine Nat.mul_le_mul_left 10 (le_trans ?_ hlow)
      exact Nat.le_mul_of_pos_left _ (by omega)
  · have hhigh := (foldl_digits_within hall 0).2
    rwa [Nat.zero_add, Nat.one_mul] at hhigh

theorem magnitude_of_digit {b : Byte} {rest : List Byte} (hb : b.isDigit = true)
    (hrest : StopsAt (fun b => b.lower == 120) rest) :
    magnitude (b :: rest) = decimalValue (parts .decimal (b :: rest)) := by
  unfold magnitude
  split
  · rename_i mark behind heq
    cases heq
    have hmark : (mark.lower == 120) = false := hrest mark rfl
    rw [hmark, if_neg Bool.false_ne_true]
  · rename_i heq
    cases heq
    rw [Byte.lower_beq_of_isDigit hb rfl, Byte.lower_beq_of_isDigit hb rfl,
      if_neg Bool.false_ne_true, if_neg Bool.false_ne_true]
  · rename_i heq
    cases heq

/-- A written number that is near to a double means the double. -/
theorem magnitude_text {bits significand : Nat} {exponent : Int}
    (h : FloatFormat.binary64.IsMagnitude bits significand exponent)
    (hpower : n.power.natAbs < exponentBound)
    (hnear : |n.value - significand * 2 ^ exponent| * (2 * 10 ^ 16) ≤ significand * 2 ^ exponent) :
    magnitude n.text = bits := by
  obtain ⟨b, digits, htext, hb, hdigits⟩ := exists_first n
  have hwritten := decimalExponent_of_isNumeral (isNumeral_exponentDigits n) hpower
  have hsign : (if decide (n.power < 0) = true then -(n.power.natAbs : Int) else n.power.natAbs) =
      n.power := by
    by_cases hnegative : n.power < 0 <;> simp only [hnegative, decide_true, decide_false] <;>
      simp only [if_true, Bool.false_eq_true, if_false] <;> omega
  obtain ⟨hlow, hhigh⟩ := size_dropWhile n.digits
  rw [htext, magnitude_of_digit hb (stopsAt_mark n hdigits), ← htext, parts_text]
  unfold decimalValue
  dsimp only
  rw [hwritten, hsign]
  refine nearestDecimal_of_near h hlow hhigh ?_
  rw [digitsValue_dropWhile]
  exact hnear

end Values

/-! ### Signs -/

/-- The text is a token of this double. -/
structure Reads (text : List Byte) (bits : Word) : Prop where
  accepted : ∃ state, recogniser.run .start text = some state ∧ IsEnd state
  value : value text = bits
  code : ∀ b ∈ text, 43 ≤ b.toNat

theorem Reads.ne_nil {text : List Byte} {bits : Word} (h : Reads text bits) : text ≠ [] := by
  rintro rfl
  obtain ⟨state, hrun, hend⟩ := h.accepted
  cases hrun
  cases hend

/-- A token holds no white space and no zero byte. -/
theorem Reads.not_blank {text : List Byte} {bits : Word} (h : Reads text bits) :
    ∀ b ∈ text, b.isSpace = false ∧ b ≠ 0 := by
  intro b hb
  have hcode := h.code b hb
  refine ⟨?_, ?_⟩
  · rw [Bool.eq_false_iff, Ne, Byte.isSpace_iff]
    omega
  · rintro rfl
    revert hcode
    decide

/-- A token is taken whole where white space or the end stands behind it. -/
theorem Reads.token {text rest : List Byte} {bits : Word} (h : Reads text bits)
    (hrest : StopsAt (fun b => !b.isSpace) rest) :
    TextReading.token recogniser recogniser.start none (text ++ rest) =
      (some text, text.length) := by
  obtain ⟨state, hrun, hend⟩ := h.accepted
  have hstop : ∀ b, rest.head? = some b → step state b = none := fun b hb => by
    have hspace : b.isSpace = true := by simpa using hrest b hb
    rw [Byte.isSpace_iff] at hspace
    exact hend.step_of_le (by omega)
  have hlongest : TextReading.longest recogniser recogniser.start none (text ++ rest) = some text :=
    TextReading.longest_append hrun hend.accepts hstop
  rw [TextReading.token, hlongest, Option.getD_some]

section Signs
variable (n : WrittenNumber)

theorem reads_text : Reads n.text (BitVec.ofNat 64 (magnitude n.text)) := by
  obtain ⟨state, hrun, hend⟩ := run_text n
  obtain ⟨b, digits, htext, hb, -⟩ := exists_first n
  have hcode := Byte.isDigit_iff.1 hb
  have hplus : b ≠ 43 := by rintro rfl; revert hcode; decide
  have hminus : b ≠ 45 := by rintro rfl; revert hcode; decide
  refine ⟨⟨state, ?_, hend⟩, ?_, code_of_mem_text n⟩
  · have hsign : b.isSign = false := by simp [Byte.isSign, hplus, hminus]
    rw [htext] at hrun ⊢
    show ((if b.isSign then some State.signed else first b).bind _) = _
    rw [hsign, if_neg Bool.false_ne_true]
    exact hrun
  · unfold FloatToken.value
    rw [htext]
    split <;> simp_all

theorem reads_plus : Reads (43 :: n.text) (BitVec.ofNat 64 (magnitude n.text)) := by
  obtain ⟨state, hrun, hend⟩ := run_text n
  exact ⟨⟨state, hrun, hend⟩, rfl, List.forall_mem_cons.2 ⟨by decide, code_of_mem_text n⟩⟩

theorem reads_minus : Reads (45 :: n.text)
    (BitVec.ofNat 64 (FloatFormat.binary64.negate (magnitude n.text))) := by
  obtain ⟨state, hrun, hend⟩ := run_text n
  exact ⟨⟨state, hrun, hend⟩, rfl, List.forall_mem_cons.2 ⟨by decide, code_of_mem_text n⟩⟩

/-- Behind the sign that the flags ask for a number is a token of the signed double. -/
theorem exists_reads_sign (flags : Flags) (negative : Bool) {bits : Nat} {field : List Byte}
    (hmagnitude : magnitude n.text = bits) (hbits : bits < FloatFormat.binary64.signWeight)
    (hpadded : Padded (flags.sign negative ++ n.text) field) :
    ∃ word, Padded word field ∧
      Reads word (BitVec.ofNat 64 (FloatFormat.binary64.withSign negative bits)) := by
  subst hmagnitude
  unfold Flags.sign at hpadded
  cases negative with
  | true =>
    have hnegate : FloatFormat.binary64.negate (magnitude n.text) =
        FloatFormat.binary64.withSign true (magnitude n.text) := by
      simp [FloatFormat.negate, FloatFormat.isNegative, FloatFormat.magnitude,
        Nat.div_eq_of_lt hbits, Nat.mod_eq_of_lt hbits]
    exact ⟨_, hpadded, hnegate ▸ reads_minus n⟩
  | false =>
    by_cases hplus : flags.plus = true
    · rw [hplus] at hpadded
      exact ⟨_, hpadded, reads_plus n⟩
    · rw [Bool.not_eq_true] at hplus
      rw [hplus] at hpadded
      cases hblank : flags.blank with
      | true =>
        rw [hblank] at hpadded
        exact ⟨_, hpadded.of_blank (isBlank_replicate 1), reads_text n⟩
      | false =>
        rw [hblank] at hpadded
        exact ⟨_, hpadded, reads_text n⟩

end Signs

end FloatToken
end CheckedFormat
