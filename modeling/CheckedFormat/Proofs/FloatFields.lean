import CheckedFormat.Proofs.FloatReading
import CheckedFormat.Proofs.LongestField
import CheckedFormat.Proofs.StoredFields
/-! Fields of floating-point numbers.

A floating-point number is an optional sign and a number in decimal or hexadecimal, each
with an optional exponent, or a word for infinity or NaN (`FloatToken.IsFloat`). The
recogniser's states are what may still follow, so it accepts exactly these texts
(`FloatToken.accepts_start_iff`): a reader takes the longest of them or gives back all that
it looked at, and every floating-point directive does so behind white space
(`Scan.float_fields_take_the_longest`). -/
namespace CheckedFormat

theorem Byte.isDigitOf_ten (b : Byte) : b.isDigitOf 10 = b.isDigit :=
  Bool.eq_iff_iff.2 ⟨isDigit_of_isDigitOf, isDigitOf_of_isDigit⟩

namespace FloatToken

open IntegerToken (AreDigits)
open Recogniser (accepts_nil accepts_cons accepts_cons_of_step accepts_cons_congr
  not_accepts_of_step)

/-! ### The texts of floating-point numbers -/

/-- A text of one language and behind it one of another. -/
def Followed (First Second : List Byte → Prop) (text : List Byte) : Prop :=
  ∃ front rest, front ++ rest = text ∧ First front ∧ Second rest

/-- Digits behind a point. There is one at least, unless the number has digits before. -/
structure IsFraction (base : Nat) (seen : Bool) (text : List Byte) : Prop where
  digits : ∀ b ∈ text, b.isDigitOf base
  some : seen = true ∨ text ≠ []

/-- Digits, with a point among them or without one. There is one at least, unless the
number has digits before. -/
inductive IsMantissa (base : Nat) (seen : Bool) : List Byte → Prop where
  | whole {digits : List Byte} (hdigits : ∀ b ∈ digits, b.isDigitOf base)
      (hsome : seen = true ∨ digits ≠ []) : IsMantissa base seen digits
  | point {whole fraction : List Byte} (hwhole : ∀ b ∈ whole, b.isDigitOf base)
      (hfraction : ∀ b ∈ fraction, b.isDigitOf base)
      (hsome : seen = true ∨ whole ≠ [] ∨ fraction ≠ []) :
      IsMantissa base seen (whole ++ 46 :: fraction)

/-- A text of a language, or one behind a sign. -/
inductive Signed (Unsigned : List Byte → Prop) : List Byte → Prop where
  | plain {text : List Byte} (h : Unsigned text) : Signed Unsigned text
  | signed {sign : Byte} {text : List Byte} (hsign : sign = 43 ∨ sign = 45) (h : Unsigned text) :
      Signed Unsigned (sign :: text)

/-- Nothing, or decimal digits, with a sign or none, behind a letter in either case. -/
inductive IsExponent (letter : Byte) : List Byte → Prop where
  | absent : IsExponent letter []
  | written {b : Byte} {text : List Byte} (hletter : b = letter ∨ b = letter.upper)
      (h : Signed (AreDigits 10) text) : IsExponent letter (b :: text)

/-- A mantissa and an exponent. -/
def IsNumeral (radix : Radix) (seen : Bool) : List Byte → Prop :=
  Followed (IsMantissa radix.base seen) (IsExponent radix.exponentLetter)

/-- A number in decimal, one in hexadecimal behind its mark, or a word in any case. -/
inductive IsMagnitude : List Byte → Prop where
  | decimal {text : List Byte} (h : IsNumeral .decimal false text) : IsMagnitude text
  | hex {mark : Byte} {text : List Byte} (hmark : mark = 120 ∨ mark = 88)
      (h : IsNumeral .hex false text) : IsMagnitude (48 :: mark :: text)
  | word {text : List Byte}
      (h : text.map Byte.lower ∈ [ascii "inf", ascii "infinity", ascii "nan"]) : IsMagnitude text

/-- The texts of floating-point numbers. -/
def IsFloat : List Byte → Prop := Signed IsMagnitude

/-! ### Their first bytes -/

section Texts
variable {First Second : List Byte → Prop} {base : Nat} {seen : Bool} {radix : Radix} {b : Byte}
  {text : List Byte}

theorem followed_nil : Followed First Second [] ↔ First [] ∧ Second [] := by
  constructor
  · rintro ⟨front, rest, htext, hfront, hrest⟩
    obtain ⟨rfl, rfl⟩ := List.append_eq_nil_iff.1 htext
    exact ⟨hfront, hrest⟩
  · rintro ⟨hfront, hrest⟩
    exact ⟨[], [], rfl, hfront, hrest⟩

/-- The first byte of a text belongs to the first part, unless that is empty. -/
theorem followed_cons : Followed First Second (b :: text) ↔
    First [] ∧ Second (b :: text) ∨ Followed (fun front => First (b :: front)) Second text := by
  constructor
  · rintro ⟨front, rest, htext, hfront, hrest⟩
    rcases List.append_eq_cons_iff.1 htext with ⟨rfl, rfl⟩ | ⟨front, rfl, rfl⟩
    · exact .inl ⟨hfront, hrest⟩
    · exact .inr ⟨front, rest, rfl, hfront, hrest⟩
  · rintro (⟨hfront, hrest⟩ | ⟨front, rest, rfl, hfront, hrest⟩)
    · exact ⟨[], b :: text, rfl, hfront, hrest⟩
    · exact ⟨b :: front, rest, rfl, hfront, hrest⟩

theorem Followed.congr {First' : List Byte → Prop} (h : ∀ front, First front ↔ First' front) :
    Followed First Second text ↔ Followed First' Second text := by
  simp only [Followed, h]

theorem not_followed (h : ∀ front, ¬ First front) : ¬ Followed First Second text := by
  rintro ⟨front, rest, -, hfront, -⟩
  exact h front hfront

theorem isFraction_nil : IsFraction base seen [] ↔ seen = true :=
  ⟨fun h => h.some.resolve_right fun hne => hne rfl, fun h => ⟨nofun, .inl h⟩⟩

theorem isFraction_cons :
    IsFraction base seen (b :: text) ↔ b.isDigitOf base = true ∧ IsFraction base true text := by
  constructor
  · rintro ⟨hdigits, -⟩
    obtain ⟨hb, htext⟩ := List.forall_mem_cons.1 hdigits
    exact ⟨hb, htext, .inl rfl⟩
  · rintro ⟨hb, htext, -⟩
    exact ⟨List.forall_mem_cons.2 ⟨hb, htext⟩, .inr nofun⟩

theorem isMantissa_nil : IsMantissa base seen [] ↔ seen = true := by
  constructor
  · intro h
    generalize htext : ([] : List Byte) = text at h
    cases h with
    | whole _ hsome => exact hsome.resolve_right fun hne => hne htext.symm
    | point => exact absurd (List.append_eq_nil_iff.1 htext.symm).2 nofun
  · intro h
    exact .whole nofun (.inl h)

theorem isMantissa_cons : IsMantissa base seen (b :: text) ↔
    b.isDigitOf base = true ∧ IsMantissa base true text ∨ b = 46 ∧ IsFraction base seen text := by
  constructor
  · intro h
    generalize hall : b :: text = all at h
    cases h with
    | whole hdigits hsome =>
      subst hall
      obtain ⟨hb, htext⟩ := List.forall_mem_cons.1 hdigits
      exact .inl ⟨hb, .whole htext (.inl rfl)⟩
    | @point whole fraction hwhole hfraction hsome =>
      cases whole with
      | nil =>
        cases hall
        exact .inr ⟨rfl, hfraction, hsome.imp_right fun h => h.resolve_left fun hne => hne rfl⟩
      | cons c whole =>
        cases hall
        obtain ⟨hb, hwhole⟩ := List.forall_mem_cons.1 hwhole
        exact .inl ⟨hb, .point hwhole hfraction (.inl rfl)⟩
  · rintro (⟨hb, h⟩ | ⟨rfl, hdigits, hsome⟩)
    · cases h with
      | whole hdigits _ => exact .whole (List.forall_mem_cons.2 ⟨hb, hdigits⟩) (.inr nofun)
      | @point whole fraction hwhole hfraction _ =>
        have h : IsMantissa base seen ((b :: whole) ++ 46 :: fraction) :=
          .point (List.forall_mem_cons.2 ⟨hb, hwhole⟩) hfraction (.inr (.inl nofun))
        exact h
    · have h : IsMantissa base seen ([] ++ 46 :: text) :=
        .point nofun hdigits (hsome.imp_right .inr)
      exact h

theorem isExponent_cons {letter : Byte} :
    IsExponent letter (b :: text) ↔ (b = letter ∨ b = letter.upper) ∧ Signed (AreDigits 10) text :=
  ⟨fun | .written hletter h => ⟨hletter, h⟩, fun ⟨hletter, h⟩ => .written hletter h⟩

/-- The letter of an exponent is no digit of its radix. -/
theorem not_isExponent_of_isDigitOf (hb : b.isDigitOf radix.base = true) :
    ¬ IsExponent radix.exponentLetter (b :: text) := by
  intro h
  have hall : ∀ radix : Radix, radix.exponentLetter.isDigitOf radix.base = false ∧
      radix.exponentLetter.upper.isDigitOf radix.base = false := by
    intro radix
    cases radix <;> decide
  rcases (isExponent_cons.1 h).1 with rfl | rfl
  · exact absurd hb (Bool.eq_false_iff.1 (hall radix).1)
  · exact absurd hb (Bool.eq_false_iff.1 (hall radix).2)

theorem not_isExponent_point : ¬ IsExponent radix.exponentLetter (46 :: text) := by
  intro h
  have hletter := (isExponent_cons.1 h).1
  revert hletter
  cases radix <;> decide

end Texts

/-! ### What is accepted from each state -/

section States
variable {radix : Radix} {seen : Bool} {b : Byte} {text rest : List Byte}

theorem accepts_exponent :
    recogniser.Accepts .exponent text ↔ ∀ b ∈ text, b.isDigitOf 10 := by
  induction text with
  | nil => exact ⟨fun _ => nofun, fun _ => accepts_nil.2 rfl⟩
  | cons b text ih =>
    rw [List.forall_mem_cons, ← ih, Byte.isDigitOf_ten]
    constructor
    · intro h
      obtain ⟨next, hstep, hrest⟩ := accepts_cons.1 h
      obtain ⟨hb, hnext⟩ := Option.ite_none_right_eq_some.1 hstep
      cases hnext
      exact ⟨hb, hrest⟩
    · rintro ⟨hb, hrest⟩
      exact (accepts_cons_of_step (if_pos hb)).2 hrest

/-- Digits must follow where the next byte has to be one. -/
theorem accepts_exponentSign :
    recogniser.Accepts .exponentSign text ↔ AreDigits 10 text := by
  cases text with
  | nil => exact ⟨fun h => absurd (accepts_nil.1 h) Bool.false_ne_true, fun h => absurd rfl h.some⟩
  | cons b text =>
    have hstep : recogniser.step .exponentSign b = recogniser.step .exponent b := rfl
    rw [accepts_cons_congr hstep, accepts_exponent]
    exact ⟨fun h => ⟨nofun, h⟩, fun h => h.all⟩

/-- A state from which a sign leads to another one, and every other byte goes on as from
there, accepts what that one does, also behind a sign. -/
theorem accepts_of_sign {state behind : State} {Unsigned : List Byte → Prop}
    (hstep : ∀ b, step state b = if b.isSign then some behind else step behind b)
    (hstops : accepts state = false ∧ accepts behind = false)
    (hsigns : ∀ b, b.isSign = true → step behind b = none)
    (hbehind : ∀ {text}, recogniser.Accepts behind text ↔ Unsigned text) :
    recogniser.Accepts state text ↔ Signed Unsigned text := by
  have hsigned {b : Byte} (hb : b.isSign = true) : recogniser.step state b = some behind :=
    (hstep b).trans (if_pos hb)
  have hplain {b : Byte} (hb : ¬ b.isSign = true) :
      recogniser.step state b = recogniser.step behind b := (hstep b).trans (if_neg hb)
  constructor
  · intro h
    cases text with
    | nil => exact absurd ((accepts_nil.1 h).symm.trans hstops.1) nofun
    | cons b rest =>
      by_cases hb : b.isSign = true
      · rw [accepts_cons_of_step (hsigned hb), hbehind] at h
        exact .signed (Byte.isSign_iff.1 hb) h
      · rw [accepts_cons_congr (hplain hb), hbehind] at h
        exact .plain h
  · intro h
    cases h with
    | plain h =>
      rw [← hbehind] at h
      cases text with
      | nil => exact absurd ((accepts_nil.1 h).symm.trans hstops.2) nofun
      | cons b rest =>
        have hb : ¬ b.isSign = true := fun hb => not_accepts_of_step (hsigns b hb) h
        rwa [accepts_cons_congr (hplain hb)]
    | signed hb h =>
      rwa [accepts_cons_of_step (hsigned (Byte.isSign_iff.2 hb)), hbehind]

theorem accepts_exponentMark :
    recogniser.Accepts .exponentMark text ↔ Signed (AreDigits 10) text := by
  refine accepts_of_sign (fun _ => rfl) ⟨rfl, rfl⟩ (fun b hb => ?_) accepts_exponentSign
  rcases Byte.isSign_iff.1 hb with rfl | rfl <;> rfl

/-- Where a number may only go on with an exponent, it does so if it has a digit. -/
theorem accepts_of_markExponent {state : State} (hstep : step state b = markExponent radix seen b) :
    recogniser.Accepts state (b :: rest) ↔
      seen = true ∧ IsExponent radix.exponentLetter (b :: rest) := by
  have hlower : radix.exponentLetter.isLower = true := by cases radix <;> decide
  rw [isExponent_cons, ← Byte.lower_eq_iff hlower, ← accepts_exponentMark]
  by_cases hmark : seen = true ∧ b.lower = radix.exponentLetter
  · have hnext : step state b = some .exponentMark := by
      rw [hstep, markExponent, if_pos (by simpa using hmark)]
    rw [accepts_cons_of_step hnext]
    exact ⟨fun h => ⟨hmark.1, hmark.2, h⟩, fun h => h.2.2⟩
  · have hnext : recogniser.step state b = none :=
      hstep.trans (if_neg (by simpa using hmark))
    exact ⟨fun h => absurd h (not_accepts_of_step hnext), fun h => absurd ⟨h.1, h.2.1⟩ hmark⟩

theorem accepts_fraction : recogniser.Accepts (.fraction radix seen) text ↔
    Followed (IsFraction radix.base seen) (IsExponent radix.exponentLetter) text := by
  induction text generalizing seen with
  | nil =>
    rw [accepts_nil, followed_nil, isFraction_nil]
    exact ⟨fun h => ⟨h, .absent⟩, And.left⟩
  | cons b text ih =>
    rw [followed_cons, isFraction_nil, Followed.congr fun _ => isFraction_cons]
    cases hb : b.isDigitOf radix.base with
    | true =>
      rw [accepts_cons_of_step (if_pos hb), ih]
      simp only [not_isExponent_of_isDigitOf hb, and_false, false_or, true_and]
    | false =>
      have hstep : step (.fraction radix seen) b = markExponent radix seen b :=
        if_neg (by simp [hb])
      rw [accepts_of_markExponent hstep]
      simp only [Bool.false_eq_true, false_and, not_followed fun _ => id, or_false]

theorem accepts_whole :
    recogniser.Accepts (.whole radix seen) text ↔ IsNumeral radix seen text := by
  have hpoint : (46 : Byte).isDigitOf radix.base = false := by cases radix <;> decide
  show _ ↔ Followed _ _ text
  induction text generalizing seen with
  | nil =>
    rw [accepts_nil, followed_nil, isMantissa_nil]
    exact ⟨fun h => ⟨h, .absent⟩, And.left⟩
  | cons b text ih =>
    have hstep : step (.whole radix seen) b = inWhole radix seen b := rfl
    rw [followed_cons, isMantissa_nil, Followed.congr fun _ => isMantissa_cons]
    rw [inWhole] at hstep
    by_cases hdot : b = 46
    · subst hdot
      rw [accepts_cons_of_step (hstep.trans ((if_neg (by simp [hpoint])).trans (if_pos rfl))),
        accepts_fraction]
      simp only [not_isExponent_point, and_false, hpoint, Bool.false_eq_true, false_and, true_and,
        false_or]
    · cases hb : b.isDigitOf radix.base with
      | true =>
        rw [accepts_cons_of_step (hstep.trans (if_pos hb)), ih]
        simp only [not_isExponent_of_isDigitOf hb, and_false, false_or, true_and, hdot, false_and,
          or_false]
      | false =>
        rw [accepts_of_markExponent
          (hstep.trans ((if_neg (by simp [hb])).trans (if_neg (by simpa using hdot))))]
        simp only [Bool.false_eq_true, false_and, hdot, or_self, not_followed fun _ => id, or_false]

/-! ### Words -/

/-- Behind a letter of a word stand the others, and at the end of it nothing, or what
infinity may leave out. -/
theorem accepts_word {word : List Byte} :
    recogniser.Accepts (.word word (word.isEmpty || word == ascii "inity")) text ↔
      ∃ left, text.map Byte.lower ++ left = word ∧ (left = [] ∨ left = ascii "inity") := by
  induction text generalizing word with
  | nil =>
    rw [accepts_nil]
    simp [recogniser, accepts]
  | cons b text ih =>
    cases word with
    | nil =>
      rw [accepts_cons]
      exact ⟨nofun, nofun⟩
    | cons want word =>
      by_cases hb : b.lower = want
      · have hstep : recogniser.step (.word (want :: word) ((want :: word).isEmpty ||
            want :: word == ascii "inity")) b =
            some (.word word (word.isEmpty || word == ascii "inity")) := if_pos (by simpa using hb)
        rw [accepts_cons_of_step hstep, ih]
        simp [hb]
      · have hstep : recogniser.step (.word (want :: word) ((want :: word).isEmpty ||
            want :: word == ascii "inity")) b = none := if_neg (by simpa using hb)
        exact ⟨fun h => absurd h (not_accepts_of_step hstep), fun ⟨_, htext, _⟩ =>
          absurd (List.cons.inj htext).1 hb⟩

/-- The words are told by their first letters. -/
theorem accepts_signed_of_letter (hb : b.lower = 105 ∨ b.lower = 110) :
    recogniser.Accepts .signed (b :: rest) ↔
      (b :: rest).map Byte.lower ∈ [ascii "inf", ascii "infinity", ascii "nan"] := by
  have hinf : ascii "inf" = 105 :: ascii "nf" := by decide
  have hinfinity : ascii "infinity" = 105 :: (ascii "nf" ++ ascii "inity") := by decide
  have hnan : ascii "nan" = 110 :: ascii "an" := by decide
  rw [List.map_cons, hinf, hinfinity, hnan]
  rcases hb with hb | hb
  · have hstep : recogniser.step .signed b =
        some (.word (ascii "nf" ++ ascii "inity") ((ascii "nf" ++ ascii "inity").isEmpty ||
          ascii "nf" ++ ascii "inity" == ascii "inity")) := by
      show first b = _
      rw [first, if_pos (by simpa using hb), hinfinity]
      exact if_pos (by simpa using hb)
    have hmem : b.lower :: rest.map Byte.lower ∈
        [105 :: ascii "nf", 105 :: (ascii "nf" ++ ascii "inity"), 110 :: ascii "an"] ↔
          rest.map Byte.lower = ascii "nf" ∨ rest.map Byte.lower = ascii "nf" ++ ascii "inity" := by
      simp [hb]
    rw [accepts_cons_of_step hstep, accepts_word, hmem]
    constructor
    · rintro ⟨left, htext, rfl | rfl⟩
      · exact .inr ((List.append_nil _).symm.trans htext)
      · exact .inl (List.append_cancel_right htext)
    · rintro (htext | htext)
      · exact ⟨ascii "inity", by rw [htext], .inr rfl⟩
      · exact ⟨[], by rw [htext, List.append_nil], .inl rfl⟩
  · have hstep : recogniser.step .signed b =
        some (.word (ascii "an") ((ascii "an").isEmpty || ascii "an" == ascii "inity")) := by
      show first b = _
      rw [first, if_neg (by simp [hb]), if_pos (by simpa using hb), hnan]
      exact if_pos (by simpa using hb)
    have hmem : b.lower :: rest.map Byte.lower ∈
        [105 :: ascii "nf", 105 :: (ascii "nf" ++ ascii "inity"), 110 :: ascii "an"] ↔
          rest.map Byte.lower = ascii "an" := by
      simp [hb]
    rw [accepts_cons_of_step hstep, accepts_word, hmem]
    constructor
    · rintro ⟨left, htext, rfl | rfl⟩
      · exact (List.append_nil _).symm.trans htext
      · have hlength : (rest.map Byte.lower).length + 5 = 2 :=
          List.length_append.symm.trans (congrArg List.length htext)
        omega
    · intro htext
      exact ⟨[], by rw [htext, List.append_nil], .inl rfl⟩

/-! ### Whole numbers and signs -/

/-- The first digit may be any. -/
theorem isNumeral_cons_digit (hb : b.isDigitOf radix.base = true) :
    IsNumeral radix seen (b :: rest) ↔ IsNumeral radix true rest := by
  have hstep : recogniser.step (.whole radix seen) b = some (.whole radix true) := if_pos hb
  rw [← accepts_whole, accepts_cons_of_step hstep, accepts_whole]

/-- Behind a zero a decimal number goes on, or a mark makes it a hexadecimal one. -/
theorem accepts_zero : recogniser.Accepts .zero text ↔
    (∃ mark rest, text = mark :: rest ∧ (mark = 120 ∨ mark = 88) ∧ IsNumeral .hex false rest) ∨
      IsNumeral .decimal true text := by
  cases text with
  | nil =>
    rw [accepts_nil, ← accepts_whole, accepts_nil]
    exact ⟨fun _ => .inr rfl, fun _ => rfl⟩
  | cons b rest =>
    have hmark : b.lower = 120 ↔ b = 120 ∨ b = 88 := Byte.lower_eq_iff (by decide)
    by_cases hb : b.lower = 120
    · have hstep : recogniser.step .zero b = some (.whole .hex false) := if_pos (by simpa using hb)
      have hnone : ¬ IsNumeral .decimal true (b :: rest) := by
        rw [← accepts_whole]
        refine not_accepts_of_step ?_
        rcases hmark.1 hb with rfl | rfl <;> rfl
      rw [accepts_cons_of_step hstep, accepts_whole]
      constructor
      · intro h
        exact .inl ⟨b, rest, rfl, hmark.1 hb, h⟩
      · rintro (⟨_, _, htext, _, h⟩ | h)
        · cases htext
          exact h
        · exact absurd h hnone
    · have hstep : recogniser.step .zero b = recogniser.step (.whole .decimal true) b :=
        step_zero (by simpa using hb)
      rw [accepts_cons_congr hstep, accepts_whole]
      constructor
      · exact .inr
      · rintro (⟨_, _, htext, h, _⟩ | h)
        · cases htext
          exact absurd (hmark.2 h) hb
        · exact h

/-- No number starts with the first letter of a word. -/
theorem not_isNumeral_of_letter (hb : b.lower = 105 ∨ b.lower = 110) :
    ¬ IsNumeral .decimal false (b :: rest) := by
  rw [← accepts_whole]
  refine not_accepts_of_step ?_
  rw [Byte.lower_eq_iff (by decide), Byte.lower_eq_iff (by decide)] at hb
  rcases hb with (rfl | rfl) | rfl | rfl <;> rfl

/-- Another first byte is that of a number in decimal. -/
theorem accepts_signed_of_other (hletter : ¬ (b.lower = 105 ∨ b.lower = 110)) (hzero : b ≠ 48) :
    recogniser.Accepts .signed (b :: rest) ↔ IsNumeral .decimal false (b :: rest) := by
  have hstep : recogniser.step .signed b = recogniser.step (.whole .decimal false) b := by
    obtain ⟨hinfinity, hnan⟩ := not_or.1 hletter
    show first b = inWhole .decimal false b
    rw [first, if_neg (by simpa using hinfinity), if_neg (by simpa using hnan),
      if_neg (by simpa using hzero), inWhole, Radix.base, Byte.isDigitOf_ten]
    rfl
  rw [accepts_cons_congr hstep, accepts_whole]

theorem accepts_signed : recogniser.Accepts .signed text ↔ IsMagnitude text := by
  have hzero : (48 : Byte).isDigitOf Radix.decimal.base = true := by decide
  constructor
  · intro h
    cases text with
    | nil => exact absurd (accepts_nil.1 h) Bool.false_ne_true
    | cons b rest =>
      by_cases hletter : b.lower = 105 ∨ b.lower = 110
      · exact .word ((accepts_signed_of_letter hletter).1 h)
      · by_cases hb : b = 48
        · subst hb
          rcases accepts_zero.1 ((accepts_cons_of_step rfl).1 h) with
            ⟨mark, rest, rfl, hmark, hrest⟩ | hrest
          · exact .hex hmark hrest
          · exact .decimal ((isNumeral_cons_digit hzero).2 hrest)
        · exact .decimal ((accepts_signed_of_other hletter hb).1 h)
  · intro h
    cases h with
    | decimal h =>
      cases text with
      | nil => exact absurd (accepts_nil.1 (accepts_whole.2 h)) Bool.false_ne_true
      | cons b rest =>
        by_cases hb : b = 48
        · subst hb
          rw [accepts_cons_of_step rfl, accepts_zero]
          exact .inr ((isNumeral_cons_digit hzero).1 h)
        · exact (accepts_signed_of_other (fun hletter => not_isNumeral_of_letter hletter h) hb).2 h
    | hex hmark h =>
      rw [accepts_cons_of_step rfl, accepts_zero]
      exact .inl ⟨_, _, rfl, hmark, h⟩
    | word h =>
      cases text with
      | nil => exact absurd h (by decide)
      | cons b rest =>
        have hletter : b.lower = 105 ∨ b.lower = 110 := by
          simp only [List.map_cons, List.mem_cons, List.not_mem_nil, or_false] at h
          rcases h with h | h | h
          · exact .inl (List.cons.inj h).1
          · exact .inl (List.cons.inj h).1
          · exact .inr (List.cons.inj h).1
        exact (accepts_signed_of_letter hletter).2 h

/-- The tokens are the floating-point numbers. -/
theorem accepts_start_iff : recogniser.Accepts .start text ↔ IsFloat text := by
  refine accepts_of_sign (fun _ => rfl) ⟨rfl, rfl⟩ (fun b hb => ?_) accepts_signed
  rcases Byte.isSign_iff.1 hb with rfl | rfl <;> rfl

/-- An exponent without digits is left, with its sign. -/
example : TextReading.longest recogniser .start none (ascii "-0x1.8p+,") =
    some (ascii "-0x1.8") := by
  decide +kernel

theorem not_isFloat_nil : ¬ IsFloat [] := fun h =>
  absurd (accepts_nil.1 (accepts_start_iff.2 h)) Bool.false_ne_true

end States
end FloatToken

namespace Scan
open FloatToken (IsFloat)

/-- The letters of floating-point numbers. -/
def floatLetters : List Conversion := [.f, .F, .e, .E, .g, .G, .a, .A]

variable {S M : Type} [ByteSource S] [Memory M] {V : SourceView S}

theorem convert_float {letter : Conversion} {spec : ScanSpec} (hletter : letter ∈ floatLetters)
    (hspec : spec.conversion = .letter letter) :
    convert (S := S) (M := M) spec = convertFloat spec := by
  unfold convert
  rw [hspec]
  simp only [floatLetters, List.mem_cons, List.not_mem_nil, or_false] at hletter
  rcases hletter with rfl | rfl | rfl | rfl | rfl | rfl | rfl | rfl
  all_goals rfl

/-- The bytes that a directive stores for a double: the double itself for a long one, and
else the float that it is rounded to. -/
def floatBytes (length : LengthModifier) (bits : Word) : List Byte :=
  match length with
  | .long | .longDouble => littleEndian 8 bits.toNat
  | _ => littleEndian 4 (FloatFormat.toSingle bits.toNat)

omit [ByteSource S] in
/-- What a directive does with a double is to store its bytes. -/
theorem storeDouble_deposits (suppress : Bool) (length : LengthModifier) (bits : Word)
    (s : State S M) :
    Deposits suppress [floatBytes length bits] s (storeNumber suppress
      (fun m address => Memory.writeFloat m address bits (floatSize length)) s) := by
  have hwrite : (fun (m : M) address => Memory.writeFloat m address bits (floatSize length)) =
      fun m address => Memory.writeBytes m address (floatBytes length bits) := by
    cases length <;> rfl
  rw [hwrite]
  exact storeNumber_deposits suppress _ s

/-- A token is the longest floating-point number within the width; where there is none,
all that was looked at is unread again. So a floating-point directive takes the longest
number that stands behind white space and stores the double that it means where the next
argument points, and fails to match only where there is none. -/
theorem float_fields_take_the_longest :
    (∀ (width : Option Nat) {r : Reader S} {behind ahead : List Byte}, r.At V behind ahead →
      let (result, after) := r.token FloatToken.recogniser width
      (∃ token, IsLongest IsFloat (within width ahead) token ∧ result = some token ∧
        after.At V (token.reverse ++ behind) (ahead.drop token.length)) ∨
      ((∀ front, front <+: within width ahead → ¬ IsFloat front) ∧ result = none ∧
        after.At V behind ahead)) ∧
    ∀ letter ∈ floatLetters, ∀ spec : ScanSpec, spec.conversion = .letter letter →
      TakesLongest (M := M) V (fun text bits => IsFloat text ∧ FloatToken.value text = bits)
        spec.width (convert spec)
        fun bits => Deposits spec.suppress [floatBytes spec.length bits] := by
  refine ⟨fun width r behind ahead h => ?_, fun letter hletter spec hspec => ?_⟩
  · rcases exists_isLongest_or (FloatToken.recogniser.Accepts .start) (within width ahead) with
      ⟨token, hlongest⟩ | hnone
    · obtain ⟨hresult, hplace⟩ := h.token_of_isLongest hlongest
      exact .inl ⟨token, hlongest.congr fun _ => FloatToken.accepts_start_iff, hresult, hplace⟩
    · obtain ⟨hresult, hplace⟩ := h.token_of_none hnone
      refine .inr ⟨fun front hfront hfloat => ?_, hresult, hplace⟩
      exact hnone front hfront (FloatToken.accepts_start_iff.2 hfloat)
  · rw [convert_float hletter hspec]
    refine takesLongest_of_recogniser FloatToken.recogniser spec.width (fun text => ?_)
      (fun bits h => FloatToken.not_isFloat_nil h.1) fun token bits t h => ?_
    · rw [exists_and_left]
      exact FloatToken.accepts_start_iff.trans (and_iff_left ⟨_, rfl⟩).symm
    · rw [← h.2]
      exact storeDouble_deposits spec.suppress spec.length _ t

end Scan
end CheckedFormat
