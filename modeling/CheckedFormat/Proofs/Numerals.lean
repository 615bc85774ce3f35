import CheckedFormat.Field.Integer
import CheckedFormat.Proofs.ByteClasses
import CheckedFormat.Scan.IntegerToken
/-! Numerals and the numbers that they denote.

Printing writes the numeral of a number and scanning evaluates digits; the two agree
in every radix (`digitsValue_numeral`), also with zeros in front. A text of digits is a token,
with a radix mark in front where the base takes one (`Denotes`), and so is such a text
behind a sign (`Reads`). -/
namespace CheckedFormat

/-! ### Digits -/

namespace Byte

theorem alphanumericValue?_digitChar : ∀ d : Fin 16,
    alphanumericValue? (Nat.digitChar d).toUInt8 = some d.val ∧
      alphanumericValue? (upper (Nat.digitChar d).toUInt8) = some d.val := by
  decide

/-- White space is no digit of any base, and no sign or radix mark. -/
theorem alphanumericValue?_of_isSpace {b : Byte} (h : b.isSpace = true) :
    alphanumericValue? b = none := by
  rw [isSpace_iff] at h
  have hdigit : ¬ b.isDigit = true := by rw [isDigit_iff]; omega
  have hlower : ¬ b.isLower = true := by rw [isLower_iff]; omega
  have hupper : ¬ b.isUpper = true := by rw [isUpper_iff]; omega
  rw [alphanumericValue?, if_neg hdigit, if_neg hlower, if_neg hupper]

/-- The letter and digit codes; every digit is one of them. -/
theorem code_of_isDigitOf {base : Nat} {b : Byte} (h : b.isDigitOf base = true) :
    (48 ≤ b.toNat ∧ b.toNat ≤ 57) ∨ (97 ≤ b.toNat ∧ b.toNat ≤ 122) ∨
      (65 ≤ b.toNat ∧ b.toNat ≤ 90) := by
  rw [← isDigit_iff, ← isLower_iff, ← isUpper_iff]
  unfold isDigitOf digit? alphanumericValue? at h
  by_cases hdigit : b.isDigit = true
  · exact .inl hdigit
  · by_cases hlower : b.isLower = true
    · exact .inr (.inl hlower)
    · by_cases hupper : b.isUpper = true
      · exact .inr (.inr hupper)
      · simp [hdigit, hlower, hupper] at h

/-- A digit of a base is one of every larger base. -/
theorem isDigitOf_mono {base base' : Nat} {b : Byte} (hle : base ≤ base')
    (h : b.isDigitOf base = true) : b.isDigitOf base' = true := by
  unfold isDigitOf digit? at h ⊢
  cases hvalue : alphanumericValue? b with
  | none => simp [hvalue] at h
  | some value =>
    have hlt : value < base := by simpa [hvalue, Option.isSome_filter] using h
    simp [Option.isSome_filter, Nat.lt_of_lt_of_le hlt hle]

end Byte

namespace Radix

/-- The byte of a digit. -/
def digit (r : Radix) (d : Nat) : Byte :=
  if r = hexUpper then Byte.upper (Nat.digitChar d).toUInt8 else (Nat.digitChar d).toUInt8

theorem two_le_base (r : Radix) : 2 ≤ r.base := by
  cases r <;> decide

theorem base_le (r : Radix) : r.base ≤ 16 := by
  cases r <;> decide

theorem digit?_digit (r : Radix) {d : Nat} (h : d < r.base) :
    (r.digit d).digit? r.base = some d := by
  have hbase := r.base_le
  obtain ⟨hlower, hupper⟩ := Byte.alphanumericValue?_digitChar ⟨d, by omega⟩
  dsimp only at hlower hupper
  unfold Byte.digit? digit
  split
  · rw [hupper]
    simp [h]
  · rw [hlower]
    simp [h]

/-- A numeral is that of the number without its last digit, and the last digit. -/
theorem numeral_eq (r : Radix) (n : Nat) :
    r.numeral n =
      (if n < r.base then [] else r.numeral (n / r.base)) ++ [r.digit (n % r.base)] := by
  have hbase := r.two_le_base
  unfold numeral digit
  rw [Nat.toDigits_eq_if (by omega)]
  by_cases hn : n < r.base
  · rw [if_pos hn, if_pos hn, Nat.mod_eq_of_lt hn]
    split <;> rfl
  · rw [if_neg hn, if_neg hn]
    split <;> simp

theorem numeral_ne_nil (r : Radix) (n : Nat) : r.numeral n ≠ [] := by
  rw [numeral_eq]
  simp

theorem isDigitOf_of_mem_numeral (r : Radix) (n : Nat) :
    ∀ b ∈ r.numeral n, b.isDigitOf r.base := by
  have hbase := r.two_le_base
  induction n using Nat.strongRecOn with
  | ind n ih =>
    intro b hb
    rw [numeral_eq, List.mem_append, List.mem_singleton] at hb
    rcases hb with hb | rfl
    · by_cases hn : n < r.base
      · rw [if_pos hn] at hb
        cases hb
      · rw [if_neg hn] at hb
        exact ih (n / r.base) (Nat.div_lt_self (by omega) (by omega)) b hb
    · rw [Byte.isDigitOf, digit?_digit r (Nat.mod_lt n (by omega))]
      rfl

end Radix

/-! ### What digits denote -/

theorem digitsValue_append_digit (base : Nat) (digits : List Byte) (b : Byte) :
    digitsValue base (digits ++ [b]) =
      digitsValue base digits * base + (b.digit? base).getD 0 := by
  simp [digitsValue]

/-- The number that a numeral denotes is the one that it was written for. -/
theorem digitsValue_numeral (r : Radix) (n : Nat) : digitsValue r.base (r.numeral n) = n := by
  have hbase := r.two_le_base
  induction n using Nat.strongRecOn with
  | ind n ih =>
    have hdigit := r.digit?_digit (Nat.mod_lt n (show 0 < r.base by omega))
    rw [Radix.numeral_eq, digitsValue_append_digit, hdigit, Option.getD_some]
    by_cases hn : n < r.base
    · rw [if_pos hn, Nat.mod_eq_of_lt hn]
      simp [digitsValue]
    · rw [if_neg hn, ih (n / r.base) (Nat.div_lt_self (by omega) (by omega)), Nat.mul_comm]
      exact Nat.div_add_mod n r.base

/-- Zeros in front change nothing. -/
theorem digitsValue_zeros (base count : Nat) (digits : List Byte) :
    digitsValue base (List.replicate count 48 ++ digits) = digitsValue base digits := by
  have hzero : (Byte.digit? base 48).getD 0 = 0 := by
    unfold Byte.digit?
    rw [show Byte.alphanumericValue? 48 = some 0 by decide]
    by_cases hbase : 0 < base <;> simp [Option.filter, hbase]
  induction count with
  | zero => rfl
  | succ count ih =>
    rw [List.replicate_succ, List.cons_append, digitsValue, List.foldl_cons, hzero, Nat.zero_mul]
    exact ih

namespace IntegerToken

/-! ### Tokens -/

/-- The text is digits of a base, at least one. -/
structure AreDigits (base : Nat) (text : List Byte) : Prop where
  some : text ≠ []
  all : ∀ b ∈ text, b.isDigitOf base

theorem AreDigits.zeros {base : Nat} {text : List Byte} (hbase : 0 < base) (count : Nat)
    (h : AreDigits base text) : AreDigits base (List.replicate count 48 ++ text) := by
  refine ⟨?_, fun b hb => ?_⟩
  · simp [h.some]
  · rcases List.mem_append.1 hb with hb | hb
    · rw [(List.mem_replicate.1 hb).2, Byte.isDigitOf, Byte.digit?,
        show Byte.alphanumericValue? 48 = .some 0 by decide]
      simp [Option.filter, hbase]
    · exact h.all b hb

theorem areDigits_numeral (r : Radix) (n : Nat) : AreDigits r.base (r.numeral n) :=
  ⟨r.numeral_ne_nil n, r.isDigitOf_of_mem_numeral n⟩

/-- Behind a sign, or without one, the text is a token of this magnitude. -/
structure Denotes (base : Base) (text : List Byte) (m : Nat) : Prop where
  accepted : ∃ state, (recogniser base).run .signed text = some state ∧ accepts state = true
  magnitude : magnitude base text = m

/-- The text is a token of this value. -/
structure Reads (base : Base) (text : List Byte) (v : Value) : Prop where
  accepted : ∃ state, (recogniser base).run .start text = some state ∧ accepts state = true
  value : value base text = v

theorem run_digits (base : Base) {n : Nat} {text : List Byte} (h : ∀ b ∈ text, b.isDigitOf n) :
    (recogniser base).run (.digits n) text = some (.digits n) := by
  induction text with
  | nil => rfl
  | cons b rest ih =>
    have hb : digitIn n b = some (.digits n) := if_pos (h b List.mem_cons_self)
    show (digitIn n b).bind _ = _
    rw [hb]
    exact ih fun c hc => h c (List.mem_cons_of_mem b hc)

/-- Digits are a token where the first of them tells their base. -/
theorem denotes_of_first {base : Base} {n : Nat} {b : Byte} {rest : List Byte}
    (hfirst : first base b = digitIn n b)
    (hmagnitude : magnitude base (b :: rest) = digitsValue n (b :: rest))
    (h : AreDigits n (b :: rest)) : Denotes base (b :: rest) (digitsValue n (b :: rest)) := by
  refine ⟨⟨.digits n, ?_, rfl⟩, hmagnitude⟩
  have hb : digitIn n b = some (.digits n) := if_pos (h.all b List.mem_cons_self)
  show (first base b).bind _ = _
  rw [hfirst, hb]
  exact run_digits _ fun c hc => h.all c (List.mem_cons_of_mem b hc)

theorem denotes_fixed {base : Nat} {text : List Byte} (h : AreDigits base text) :
    Denotes (.fixed base) text (digitsValue base text) := by
  cases text with
  | nil => exact absurd rfl h.some
  | cons b rest => exact denotes_of_first rfl rfl h

/-- Hexadecimal digits behind a mark. -/
theorem denotes_marked {base : Base} {mark : Byte} {text : List Byte}
    (hbase : base = .hex ∨ base = .detect) (hmark : isMark mark = true) (h : AreDigits 16 text) :
    Denotes base (48 :: mark :: text) (digitsValue 16 text) := by
  have hfirst : first base 48 = some .zero := by rcases hbase with rfl | rfl <;> rfl
  refine ⟨⟨.digits 16, ?_, rfl⟩, ?_⟩
  · cases text with
    | nil => exact absurd rfl h.some
    | cons b rest =>
      have hb : digitIn 16 b = some (.digits 16) := if_pos (h.all b List.mem_cons_self)
      show (first base 48).bind _ = _
      rw [hfirst]
      show ((if isMark mark then some State.marked else digitIn _ mark).bind _) = _
      rw [if_pos hmark]
      show (digitIn 16 b).bind _ = _
      rw [hb]
      exact run_digits _ fun c hc => h.all c (List.mem_cons_of_mem b hc)
  · rcases hbase with rfl | rfl
    all_goals
      show (if isMark mark then _ else _) = _
      rw [if_pos hmark]

theorem isMark_iff {b : Byte} : isMark b = true ↔ b = 120 ∨ b = 88 := by
  rw [isMark, beq_iff_eq, Byte.lower_eq_iff (by decide)]
  rfl

/-- A mark is no hexadecimal digit. -/
theorem not_isMark_of_isDigitOf {b : Byte} (h : b.isDigitOf 16 = true) : isMark b = false := by
  rw [Bool.eq_false_iff]
  intro hmark
  rcases isMark_iff.1 hmark with rfl | rfl
  · revert h
    decide
  · revert h
    decide

/-- Digits behind a leading zero, which may have been the front of a mark. -/
theorem denotes_zero {base : Base} {text : List Byte} (hbase : base = .hex ∨ base = .detect)
    (h : ∀ b ∈ text, b.isDigitOf (baseAfterZero base)) :
    Denotes base (48 :: text) (digitsValue (baseAfterZero base) text) := by
  have hfirst : first base 48 = some .zero := by rcases hbase with rfl | rfl <;> rfl
  cases text with
  | nil => rcases hbase with rfl | rfl <;> exact ⟨⟨.zero, rfl, rfl⟩, rfl⟩
  | cons c rest =>
    obtain ⟨hc, hrest⟩ := List.forall_mem_cons.1 h
    have hmark : isMark c = false := by
      refine not_isMark_of_isDigitOf (Byte.isDigitOf_mono ?_ hc)
      rcases hbase with rfl | rfl <;> decide
    have hdigit : digitIn (baseAfterZero base) c = some (.digits (baseAfterZero base)) := if_pos hc
    refine ⟨⟨.digits (baseAfterZero base), ?_, rfl⟩, ?_⟩
    · show (first base 48).bind _ = _
      rw [hfirst]
      show ((if isMark c then some State.marked else digitIn _ c).bind _) = _
      rw [hmark, if_neg Bool.false_ne_true, hdigit]
      exact run_digits _ hrest
    · rcases hbase with rfl | rfl
      all_goals
        show (if isMark c then _ else _) = _
        rw [hmark, if_neg Bool.false_ne_true]
        rfl

theorem denotes_hex {text : List Byte} (h : AreDigits 16 text) :
    Denotes .hex text (digitsValue 16 text) := by
  cases text with
  | nil => exact absurd rfl h.some
  | cons b rest =>
    by_cases hzero : b = 48
    · subst hzero
      rw [show digitsValue 16 (48 :: rest) = digitsValue 16 rest from digitsValue_zeros 16 1 rest]
      exact denotes_zero (.inl rfl) (List.forall_mem_cons.1 h.all).2
    · refine denotes_of_first (if_neg (by simpa using hzero)) ?_ h
      unfold IntegerToken.magnitude
      split <;> simp_all

/-! ### Signs -/

theorem code_of_first {base : Base} {b : Byte} {state : State} (h : first base b = some state) :
    48 ≤ b.toNat := by
  have hdigit : ∀ {n : Nat}, digitIn n b = some state → 48 ≤ b.toNat := by
    intro n hin
    unfold digitIn at hin
    split at hin
    · rename_i hdigit
      have hcode := Byte.code_of_isDigitOf hdigit
      omega
    · cases hin
  cases base with
  | fixed n => exact hdigit h
  | hex | detect =>
    unfold first at h
    dsimp only at h
    split at h
    · rename_i hzero
      rw [beq_iff_eq] at hzero
      subst hzero
      decide
    · exact hdigit h

/-- The front of the text is no sign. -/
theorem Denotes.head {base : Base} {text : List Byte} {m : Nat} (h : Denotes base text m) :
    ∃ b rest, text = b :: rest ∧ 48 ≤ b.toNat := by
  obtain ⟨state, hrun, haccepts⟩ := h.accepted
  cases text with
  | nil =>
    cases hrun
    cases haccepts
  | cons b rest =>
    refine ⟨b, rest, rfl, ?_⟩
    cases hfirst : first base b with
    | none =>
      have hnone : (recogniser base).run .signed (b :: rest) = none := by
        show (first base b).bind _ = none
        rw [hfirst]
        rfl
      rw [hnone] at hrun
      cases hrun
    | some next => exact code_of_first hfirst

theorem Denotes.reads {base : Base} {text : List Byte} {m : Nat} (h : Denotes base text m) :
    Reads base text ⟨false, m⟩ := by
  obtain ⟨b, rest, rfl, hcode⟩ := h.head
  have hplus : b ≠ 43 := by rintro rfl; revert hcode; decide
  have hminus : b ≠ 45 := by rintro rfl; revert hcode; decide
  obtain ⟨state, hrun, haccepts⟩ := h.accepted
  refine ⟨⟨state, ?_, haccepts⟩, ?_⟩
  · have hsign : b.isSign = false := by simp [Byte.isSign, hplus, hminus]
    show ((if b.isSign then some State.signed else first base b).bind _) = _
    rw [hsign, if_neg Bool.false_ne_true]
    exact hrun
  · unfold value
    split <;> simp_all [h.magnitude]

theorem Denotes.reads_plus {base : Base} {text : List Byte} {m : Nat} (h : Denotes base text m) :
    Reads base (43 :: text) ⟨false, m⟩ := by
  obtain ⟨state, hrun, haccepts⟩ := h.accepted
  exact ⟨⟨state, hrun, haccepts⟩, congrArg _ h.magnitude⟩

theorem Denotes.reads_minus {base : Base} {text : List Byte} {m : Nat} (h : Denotes base text m) :
    Reads base (45 :: text) ⟨true, m⟩ := by
  obtain ⟨state, hrun, haccepts⟩ := h.accepted
  exact ⟨⟨state, hrun, haccepts⟩, congrArg _ h.magnitude⟩

end IntegerToken
end CheckedFormat
