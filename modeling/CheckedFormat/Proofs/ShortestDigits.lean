import CheckedFormat.Proofs.Numerals
import Mathlib.Algebra.Group.Nat.Defs
import Mathlib.Data.List.Induction
/-! The digits of printed whole numbers.

A directive asks for a least number of digits and, in the marked octal form, for a zero in
front (`DigitDemand`). Digits that meet this and say a number are many (`Radix.Says`), but
one text of them is shorter than all others (`Radix.SaysShortest`). It is the one that
stands in the field, behind the sign or the radix mark
(`Field.integers_written_shortest`). -/
namespace CheckedFormat

/-- What a directive asks of the digits of a whole number. -/
structure DigitDemand where
  /-- How many there are at least. -/
  least : Nat
  /-- Whether the first of them is a zero. -/
  zeroFirst : Bool
  deriving DecidableEq, Repr

/-- What a layout asks of digits: as many as the precision says, and one where it says
nothing; octal digits begin with a zero in the alternative form. -/
def Layout.digitDemand (layout : Layout) (r : Radix) : DigitDemand where
  least := layout.precision.getD 1
  zeroFirst := layout.flags.alternative && r == .octal

namespace Radix

/-- The digits of a radix in the order of their values. -/
def alphabet : Radix → List Byte
  | decimal => ascii "0123456789"
  | octal => ascii "01234567"
  | hexLower => ascii "0123456789abcdef"
  | hexUpper => ascii "0123456789ABCDEF"

/-- Digits that say a number and meet a demand. -/
structure Says (r : Radix) (demand : DigitDemand) (n : Nat) (digits : List Byte) : Prop where
  digit : ∀ b ∈ digits, b ∈ r.alphabet
  value : digitsValue r.base digits = n
  least : demand.least ≤ digits.length
  zeroFirst : demand.zeroFirst = true → digits.head? = some 48

/-- Of the digits that say a number and meet a demand, those that are fewer than all
others. -/
structure SaysShortest (r : Radix) (demand : DigitDemand) (n : Nat) (digits : List Byte) : Prop
    extends r.Says demand n digits where
  shortest : ∀ other, r.Says demand n other → other ≠ digits → digits.length < other.length

/-! ### Alphabets -/

section Alphabet
variable {r : Radix} {b c : Byte} {digits other : List Byte} {n d : Nat}

/-- A digit has a value and is the one that stands for it. -/
theorem digit?_of_mem_alphabet (h : b ∈ r.alphabet) :
    ∃ d < r.base, b.digit? r.base = some d ∧ r.digit d = b := by
  have hall : r.alphabet.all
      (fun b => (b.digit? r.base).any fun d => d < r.base && r.digit d == b) = true := by
    cases r <;> decide
  obtain ⟨d, hdigit, hd⟩ := (Option.any_eq_true _ _).1 (List.all_eq_true.1 hall b h)
  rw [Bool.and_eq_true, decide_eq_true_eq, beq_iff_eq] at hd
  exact ⟨d, hd.1, hdigit, hd.2⟩

/-- A digit is known by its value. -/
theorem eq_of_digit?_eq (hb : b ∈ r.alphabet) (hc : c ∈ r.alphabet)
    (h : b.digit? r.base = c.digit? r.base) : b = c := by
  obtain ⟨d, -, hdigit, rfl⟩ := digit?_of_mem_alphabet hb
  obtain ⟨e, -, hvalue, rfl⟩ := digit?_of_mem_alphabet hc
  rw [hdigit, hvalue] at h
  rw [Option.some.inj h]

theorem digit_mem_alphabet (h : d < r.base) : r.digit d ∈ r.alphabet := by
  revert d
  cases r <;> decide

theorem zero_mem_alphabet (r : Radix) : 48 ∈ r.alphabet := by
  cases r <;> decide

theorem mem_alphabet_of_mem_numeral (r : Radix) (n : Nat) : ∀ b ∈ r.numeral n, b ∈ r.alphabet := by
  have hbase := r.two_le_base
  induction n using Nat.strongRecOn with
  | ind n ih =>
    intro b hb
    rw [numeral_eq, List.mem_append, List.mem_singleton] at hb
    rcases hb with hb | rfl
    · by_cases hn : n < r.base
      · rw [if_pos hn] at hb
        cases hb
      · rw [if_neg hn] at hb
        exact ih (n / r.base) (Nat.div_lt_self (by omega) (by omega)) b hb
    · exact digit_mem_alphabet (Nat.mod_lt n (by omega))

/-! ### Values of digits -/

/-- The value of digits, by their last one. -/
theorem digitsValue_concat (h : ∀ c ∈ digits ++ [b], c ∈ r.alphabet) :
    ∃ d < r.base, b.digit? r.base = some d ∧
      digitsValue r.base (digits ++ [b]) =
        digitsValue r.base digits * r.base + d := by
  obtain ⟨d, hd, hdigit, -⟩ := digit?_of_mem_alphabet (h b (by simp))
  refine ⟨d, hd, hdigit, ?_⟩
  rw [digitsValue_append_digit, hdigit, Option.getD_some]

theorem digitsValue_lt_pow (h : ∀ b ∈ digits, b ∈ r.alphabet) :
    digitsValue r.base digits < r.base ^ digits.length := by
  induction digits using List.reverseRecOn with
  | nil => simp [digitsValue]
  | append_singleton digits b ih =>
    obtain ⟨d, hd, -, hvalue⟩ := digitsValue_concat h
    have hfront := ih fun c hc => h c (List.mem_append_left _ hc)
    rw [hvalue, List.length_append, List.length_singleton, Nat.pow_succ]
    calc digitsValue r.base digits * r.base + d
        < digitsValue r.base digits * r.base + r.base := Nat.add_lt_add_left hd _
      _ = (digitsValue r.base digits + 1) * r.base := (Nat.succ_mul _ _).symm
      _ ≤ r.base ^ digits.length * r.base := Nat.mul_le_mul_right _ hfront

/-- As many digits of the same value are the same digits. -/
theorem eq_of_digitsValue_eq (hdigits : ∀ b ∈ digits, b ∈ r.alphabet)
    (hother : ∀ b ∈ other, b ∈ r.alphabet) (hlength : digits.length = other.length)
    (hvalue : digitsValue r.base digits = digitsValue r.base other) :
    digits = other := by
  induction digits using List.reverseRecOn generalizing other with
  | nil => exact (List.length_eq_zero_iff.1 hlength.symm).symm
  | append_singleton digits b ih =>
    cases other using List.reverseRecOn with
    | nil => simp at hlength
    | append_singleton front c =>
      obtain ⟨d, hd, hb, hdvalue⟩ := digitsValue_concat hdigits
      obtain ⟨e, he, hc, hevalue⟩ := digitsValue_concat hother
      rw [hdvalue, hevalue] at hvalue
      -- Quotient and remainder of the value by the base.
      have hquotient : digitsValue r.base digits =
          digitsValue r.base front := by
        have hdiv := congrArg (· / r.base) hvalue
        have hpos : 0 < r.base := Nat.lt_of_le_of_lt (Nat.zero_le d) hd
        simpa [Nat.mul_add_div hpos, Nat.mul_comm _ r.base, Nat.div_eq_of_lt hd,
          Nat.div_eq_of_lt he] using hdiv
      have hremainder : d = e := by
        rw [hquotient] at hvalue
        exact Nat.add_left_cancel hvalue
      have hlast : b = c := by
        refine eq_of_digit?_eq (hdigits b (by simp)) (hother c (by simp)) ?_
        rw [hb, hc, hremainder]
      have hfront : digits = front := by
        refine ih (fun a ha => hdigits a (List.mem_append_left _ ha))
          (fun a ha => hother a (List.mem_append_left _ ha)) ?_ hquotient
        simpa using hlength
      rw [hfront, hlast]

/-- No fewer digits than those of the numeral say a number that is not zero. -/
theorem length_numeral_le (hn : n ≠ 0) (hdigits : ∀ b ∈ digits, b ∈ r.alphabet)
    (hvalue : digitsValue r.base digits = n) :
    (r.numeral n).length ≤ digits.length := by
  have hlt := digitsValue_lt_pow hdigits
  rw [hvalue] at hlt
  have hpos : 0 < digits.length := by
    rw [List.length_pos_iff]
    rintro rfl
    exact hn (Nat.lt_one_iff.1 hlt)
  have hnumeral := (Nat.length_toDigits_le_iff r.two_le_base hpos).2 hlt
  unfold numeral
  split <;> simpa using hnumeral

end Alphabet

/-! ### Shortest digits -/

section Shortest
variable {r : Radix} {demand : DigitDemand} {n : Nat} {digits : List Byte}

/-- Digits that are as few as any are fewer than all others. -/
theorem Says.saysShortest (h : r.Says demand n digits)
    (hle : ∀ other, r.Says demand n other → digits.length ≤ other.length) :
    r.SaysShortest demand n digits := by
  refine { h with shortest := fun other hother hne => ?_ }
  refine Nat.lt_of_le_of_ne (hle other hother) fun hlength => hne ?_
  exact eq_of_digitsValue_eq hother.digit h.digit hlength.symm (hother.value.trans h.value.symm)

/-- Zero has no digits where none are asked for. -/
theorem saysShortest_nil (hleast : demand.least = 0) (hzero : demand.zeroFirst = false) :
    r.SaysShortest demand 0 [] := by
  refine Says.saysShortest ⟨nofun, rfl, Nat.le_of_eq hleast, fun h => ?_⟩ fun _ _ => Nat.zero_le _
  rw [hzero] at h
  cases h

/-- The numeral with zeros in front up to some number of digits meets a demand for no more
of them, and for a zero in front where one is put there. -/
theorem says_withLeastDigits {most : Nat} (hleast : demand.least ≤ most)
    (hzero : demand.zeroFirst = true → n ≠ 0 → (r.numeral n).length < most) :
    r.Says demand n (Field.withLeastDigits most (r.numeral n)) := by
  refine ⟨fun b hb => ?_, ?_, ?_, fun hfirst => ?_⟩
  · rcases List.mem_append.1 hb with hb | hb
    · rw [(List.mem_replicate.1 hb).2]
      exact r.zero_mem_alphabet
    · exact mem_alphabet_of_mem_numeral r n b hb
  · exact (digitsValue_zeros ..).trans (digitsValue_numeral r n)
  · simp only [Field.withLeastDigits, List.length_append, List.length_replicate]
    omega
  · unfold Field.withLeastDigits
    by_cases hn : n = 0
    · subst hn
      have hnumeral : r.numeral 0 = [48] := by cases r <;> decide
      rw [hnumeral]
      cases most - [(48 : Byte)].length <;> rfl
    · obtain ⟨count, hcount⟩ := Nat.exists_eq_add_of_lt (hzero hfirst hn)
      rw [show most - (r.numeral n).length = count + 1 by omega]
      rfl

/-- Behind a zero in front the other digits say the number. -/
theorem Says.length_numeral_lt (h : r.Says demand n digits) (hzero : demand.zeroFirst = true)
    (hn : n ≠ 0) : (r.numeral n).length < digits.length := by
  have hfirst := h.zeroFirst hzero
  cases digits with
  | nil => cases hfirst
  | cons b rest =>
    obtain rfl : b = 48 := Option.some.inj hfirst
    have hvalue := h.value
    rw [show 48 :: rest = List.replicate 1 48 ++ rest from rfl,
      digitsValue_zeros] at hvalue
    have hle := length_numeral_le hn (fun c hc => h.digit c (List.mem_cons_of_mem _ hc)) hvalue
    exact Nat.lt_succ_of_le hle

end Shortest
end Radix

namespace Field

/-- How many digits an unsigned number is filled up to with zeros. -/
theorem leastDigits_eq (value : Nat) (r : Radix) (layout : Layout) :
    leastDigits value r layout =
      if (layout.digitDemand r).zeroFirst = true ∧ value ≠ 0 then
        max (layout.digitDemand r).least ((r.numeral value).length + 1)
      else (layout.digitDemand r).least := by
  unfold leastDigits Layout.digitDemand
  simp

theorem length_withLeastDigits (least : Nat) (numeral : List Byte) :
    (withLeastDigits least numeral).length = max least numeral.length := by
  simp only [withLeastDigits, List.length_append, List.length_replicate]
  omega

/-- A number that is not zero has the shortest digits that say it as its own. -/
theorem saysShortest_of_ne_zero {value : Nat} (r : Radix) (layout : Layout) (h : value ≠ 0) :
    r.SaysShortest (layout.digitDemand r) value
      (withLeastDigits (leastDigits value r layout) (r.numeral value)) := by
  have hleast := leastDigits_eq value r layout
  generalize layout.digitDemand r = demand at *
  refine (Radix.says_withLeastDigits ?_ fun hzero _ => ?_).saysShortest fun other hother => ?_
  · rw [hleast]
    split
    · exact Nat.le_max_left _ _
    · exact Nat.le_refl _
  · rw [hleast, if_pos ⟨hzero, h⟩]
    omega
  · have hlength := hother.least
    rw [length_withLeastDigits, hleast]
    split
    · rename_i hzero
      have hlt := hother.length_numeral_lt hzero.1 h
      omega
    · have hle := Radix.length_numeral_le h hother.digit hother.value
      omega

/-- Zero has one digit where one is asked for, in its own right or as the first. -/
theorem saysShortest_zero (r : Radix) (layout : Layout)
    (h : (layout.digitDemand r).least ≠ 0 ∨ (layout.digitDemand r).zeroFirst = true) :
    r.SaysShortest (layout.digitDemand r) 0
      (withLeastDigits (leastDigits 0 r layout) (r.numeral 0)) := by
  have hleast : leastDigits 0 r layout = (layout.digitDemand r).least := by
    rw [leastDigits_eq, if_neg (by simp)]
  rw [hleast]
  generalize layout.digitDemand r = demand at *
  refine (Radix.says_withLeastDigits (Nat.le_refl _) fun _ hne =>
    absurd rfl hne).saysShortest fun other hother => ?_
  have hnumeral : (r.numeral 0).length = 1 := by cases r <;> decide
  have hsome : 0 < other.length := by
    rcases h with hne | hzero
    · exact Nat.lt_of_lt_of_le (Nat.pos_of_ne_zero hne) hother.least
    · have hfirst := hother.zeroFirst hzero
      rw [List.length_pos_iff]
      rintro rfl
      cases hfirst
  have hlength := hother.least
  rw [length_withLeastDigits, hnumeral]
  omega

/-- The digits of an unsigned number. -/
theorem saysShortest_rest (value : Nat) (r : Radix) (layout : Layout) :
    r.SaysShortest (layout.digitDemand r) value (unsignedBody value r layout).rest := by
  unfold unsignedBody
  dsimp only
  split
  · rename_i hnone
    obtain ⟨rfl, hprecision, hmarked⟩ := hnone
    refine Radix.saysShortest_nil ?_ ?_
    · rw [Layout.digitDemand, hprecision]
      rfl
    · simpa [Layout.digitDemand] using hmarked
  · rename_i hsome
    by_cases hvalue : value = 0
    · subst hvalue
      refine saysShortest_zero r layout ?_
      by_contra hnone
      obtain ⟨hleast, hzero⟩ := not_or.1 hnone
      refine hsome ⟨rfl, ?_, by simpa [Layout.digitDemand] using hzero⟩
      simp only [Layout.digitDemand, not_not] at hleast
      cases hprecision : layout.precision with
      | absent | fromArgument => simp [hprecision, Quantity.getD] at hleast
      | given places => simpa [hprecision, Quantity.getD] using hleast
    · exact saysShortest_of_ne_zero r layout hvalue

/-- A signed number has the digits of its magnitude in decimal. -/
theorem signedBody_rest (value : Int) (layout : Layout) :
    (signedBody value layout).rest = (unsignedBody value.natAbs .decimal layout).rest := by
  unfold signedBody unsignedBody leastDigits
  simp

/-- There are no digits for zero alone, where none are asked for. -/
theorem rest_eq_nil_iff (value : Nat) (r : Radix) (layout : Layout) :
    (unsignedBody value r layout).rest = [] ↔
      value = 0 ∧ layout.precision = .given 0 ∧ ¬(layout.flags.alternative ∧ r = .octal) := by
  unfold unsignedBody
  dsimp only
  split
  · rename_i hnone
    exact iff_of_true rfl hnone
  · rename_i hsome
    refine iff_of_false (fun hnil => ?_) hsome
    exact r.numeral_ne_nil value (List.append_eq_nil_iff.1 hnil).2

/-- Whole numbers are written by the book. Without a width the field of a number is its
sign, or its radix mark, and the shortest digits that say the number, of all that are as
many as the precision asks for and begin with a zero in the marked octal form. There are
none for zero alone, where the precision is zero and no zero must be in front. -/
theorem integers_written_shortest (layout : Layout) :
    (∀ value : Int, ∃ digits,
      signed value { layout with width := .absent } =
        (if value < 0 then ascii "-" else if layout.flags.plus then ascii "+"
          else if layout.flags.blank then ascii " " else []) ++ digits ∧
      Radix.decimal.SaysShortest (layout.digitDemand .decimal) value.natAbs digits ∧
      (digits = [] ↔ value = 0 ∧ layout.precision = .given 0)) ∧
    ∀ (value : Nat) (r : Radix), ∃ digits,
      unsigned value r { layout with width := .absent } =
        (if layout.flags.alternative ∧ value ≠ 0 then r.mark else []) ++ digits ∧
      r.SaysShortest (layout.digitDemand r) value digits ∧
      (digits = [] ↔ value = 0 ∧ layout.precision = .given 0 ∧
        ¬(layout.flags.alternative ∧ r = .octal)) := by
  refine ⟨fun value => ⟨(signedBody value layout).rest, ?_, ?_, ?_⟩,
    fun value r => ⟨(unsignedBody value r layout).rest, ?_, saysShortest_rest value r layout,
      rest_eq_nil_iff value r layout⟩⟩
  · refine (Body.place_zero (signedBody value layout) layout.flags).trans ?_
    simp [Body.bytes, signedBody, Flags.sign]
  · rw [signedBody_rest]
    exact saysShortest_rest value.natAbs .decimal layout
  · rw [signedBody_rest, rest_eq_nil_iff]
    simp
  · refine (Body.place_zero (unsignedBody value r layout) layout.flags).trans ?_
    simp [Body.bytes, unsignedBody]

/-- The marked octal form puts a zero in front where the precision leaves none. -/
example :
    unsigned 64 .octal ⟨{ Flags.none with alternative := true }, .absent, .given 2⟩ =
      ascii "0100" := by decide

end Field
end CheckedFormat
