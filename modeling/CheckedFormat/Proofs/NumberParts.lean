import CheckedFormat.Proofs.FloatFields
import CheckedFormat.Proofs.FloatScale
/-! The parts of a floating-point number.

A numeral spells its digits before the point, those behind it and its exponent (`Spells`),
and it is split into what it spells (`Spells.parts_eq`). The value of a token is that of its
numeral behind the sign, so whether it is a signed nearest double depends on the magnitude
alone (`value_signed`, `isNearest_signed_iff`). Whatever the source, a token that was taken is
a floating-point number, and a directive stores its value (`Scan.exists_convert_eq`). -/
namespace CheckedFormat
namespace FloatToken

open IntegerToken (AreDigits)
open Recogniser (accepts_cons_of_step not_accepts_of_step)

/-! ### What a numeral spells -/

/-- A point and the digits behind it. Without a point there are none. -/
inductive SpellsFraction : List Byte → List Byte → Prop where
  | absent : SpellsFraction [] []
  | point (fraction : List Byte) : SpellsFraction (46 :: fraction) fraction

/-- The letter of an exponent in either case, its sign, and its digits. -/
inductive SpellsExponent (letter : Byte) : List Byte → Bool → List Byte → Prop where
  | absent : SpellsExponent letter [] false []
  | plain {b : Byte} {digits : List Byte} (hletter : b = letter ∨ b = letter.upper)
      (h : AreDigits 10 digits) : SpellsExponent letter (b :: digits) false digits
  | plus {b : Byte} {digits : List Byte} (hletter : b = letter ∨ b = letter.upper)
      (h : AreDigits 10 digits) : SpellsExponent letter (b :: 43 :: digits) false digits
  | minus {b : Byte} {digits : List Byte} (hletter : b = letter ∨ b = letter.upper)
      (h : AreDigits 10 digits) : SpellsExponent letter (b :: 45 :: digits) true digits

/-- The text is a numeral of these parts. -/
structure Spells (radix : Radix) (text : List Byte) (p : Parts) : Prop where
  digits : ∀ b ∈ p.whole ++ p.fraction, b.isDigitOf radix.base
  some : p.whole ++ p.fraction ≠ []
  text_eq : ∃ fraction exponent, text = p.whole ++ (fraction ++ exponent) ∧
    SpellsFraction fraction p.fraction ∧
    SpellsExponent radix.exponentLetter exponent p.exponentNegative p.exponent

section Spelling
variable {radix : Radix} {text : List Byte} {p : Parts}

theorem isExponent_iff {letter : Byte} :
    IsExponent letter text ↔ ∃ negative digits, SpellsExponent letter text negative digits := by
  constructor
  · intro h
    cases h with
    | absent => exact ⟨_, _, .absent⟩
    | written hletter h =>
      cases h with
      | plain h => exact ⟨_, _, .plain hletter h⟩
      | signed hsign h =>
        rcases hsign with rfl | rfl
        · exact ⟨_, _, .plus hletter h⟩
        · exact ⟨_, _, .minus hletter h⟩
  · rintro ⟨negative, digits, h⟩
    cases h with
    | absent => exact .absent
    | plain hletter h => exact .written hletter (.plain h)
    | plus hletter h => exact .written hletter (.signed (.inl rfl) h)
    | minus hletter h => exact .written hletter (.signed (.inr rfl) h)

/-- The numerals are the texts that spell a number. -/
theorem isNumeral_iff : IsNumeral radix false text ↔ ∃ p, Spells radix text p := by
  constructor
  · rintro ⟨front, exponent, rfl, hfront, hexponent⟩
    obtain ⟨negative, digits, hexponent⟩ := isExponent_iff.1 hexponent
    cases hfront with
    | whole hdigits hsome =>
      refine ⟨⟨front, [], negative, digits⟩, ?_, ?_, [], exponent, rfl, .absent, hexponent⟩
      · rwa [List.append_nil]
      · rw [List.append_nil]
        exact hsome.resolve_left Bool.false_ne_true
    | @point whole fraction hwhole hfraction hsome =>
      refine ⟨⟨whole, fraction, negative, digits⟩, List.forall_mem_append.2 ⟨hwhole, hfraction⟩, ?_,
        46 :: fraction, exponent, List.append_assoc .., .point fraction, hexponent⟩
      rw [Ne, List.append_eq_nil_iff, not_and_or]
      exact hsome.resolve_left Bool.false_ne_true
  · rintro ⟨⟨whole, fraction, negative, digits⟩, hdigits, hsome, point, exponent, rfl, hpoint,
      hexponent⟩
    obtain ⟨hwhole, hfraction⟩ := List.forall_mem_append.1 hdigits
    refine ⟨whole ++ point, exponent, List.append_assoc .., ?_, isExponent_iff.2 ⟨_, _, hexponent⟩⟩
    rw [Ne, List.append_eq_nil_iff, not_and_or] at hsome
    cases hpoint with
    | absent =>
      rw [List.append_nil]
      exact .whole hwhole (.inr (hsome.resolve_right fun hne => hne rfl))
    | point => exact .point hwhole hfraction (.inr hsome)

/-- No digit and no point stands where an exponent does. -/
theorem SpellsExponent.stopsAt {exponent digits : List Byte} {negative : Bool}
    (h : SpellsExponent radix.exponentLetter exponent negative digits) :
    StopsAt (Byte.isDigitOf radix.base) exponent ∧ ¬ (exponent.head? == Option.some 46) = true := by
  have hexponent := isExponent_iff.2 ⟨_, _, h⟩
  cases exponent with
  | nil => exact ⟨.nil _, nofun⟩
  | cons b rest =>
    refine ⟨.cons _ (Bool.eq_false_iff.2 fun hb => not_isExponent_of_isDigitOf hb hexponent),
      fun hb => ?_⟩
    obtain rfl : b = 46 := by simpa using hb
    exact not_isExponent_point hexponent

/-- Behind its letter an exponent shows its sign and its digits. -/
theorem SpellsExponent.written {letter : Byte} {exponent digits : List Byte} {negative : Bool}
    (h : SpellsExponent letter exponent negative digits) :
    ((exponent.drop 1).head? == Option.some 45) = negative ∧
      (exponent.drop 1).filter Byte.isDigit = digits := by
  have hall : ∀ {digits : List Byte}, AreDigits 10 digits → digits.filter Byte.isDigit = digits :=
    fun h => List.filter_eq_self.2 fun b hb => (Byte.isDigitOf_ten b).symm.trans (h.all b hb)
  cases h with
  | absent => exact ⟨rfl, rfl⟩
  | plain _ h =>
    refine ⟨?_, hall h⟩
    cases digits with
    | nil => rfl
    | cons b rest =>
      rw [List.drop_succ_cons, List.drop_zero, List.head?_cons, beq_eq_false_iff_ne]
      rintro ⟨⟩
      exact absurd (h.all 45 List.mem_cons_self) (by decide)
  | plus _ h => exact ⟨rfl, hall h⟩
  | minus _ h => exact ⟨rfl, hall h⟩

theorem Spells.isDigit_exponent (h : Spells radix text p) : ∀ b ∈ p.exponent, b.isDigit := by
  obtain ⟨_, exponent, -, -, hexponent⟩ := h.text_eq
  rw [← hexponent.written.2]
  exact fun b hb => List.of_mem_filter hb

/-- A numeral is split into what it spells. -/
theorem Spells.parts_eq (h : Spells radix text p) : parts radix text = p := by
  obtain ⟨whole, fraction, negative, digits⟩ := p
  obtain ⟨hdigits, -, point, exponent, rfl, hpoint, hexponent⟩ := h
  obtain ⟨hwhole, hfraction⟩ := List.forall_mem_append.1 hdigits
  obtain ⟨hstops, hhead⟩ := hexponent.stopsAt
  obtain ⟨hsign, hwritten⟩ := hexponent.written
  have hbase : (46 : Byte).isDigitOf radix.base = false := by cases radix <;> decide
  have hbehind : StopsAt (Byte.isDigitOf radix.base) (point ++ exponent) := by
    cases hpoint with
    | absent => exact hstops
    | point => exact .cons _ hbase
  have hskip : (if (point ++ exponent).head? == Option.some 46 then (point ++ exponent).drop 1
      else point ++ exponent) = fraction ++ exponent := by
    cases hpoint with
    | absent => exact if_neg hhead
    | point => rfl
  unfold parts
  dsimp only
  rw [takeWhile_of_stopsAt hwhole hbehind, dropWhile_of_stopsAt hwhole hbehind, hskip,
    takeWhile_of_stopsAt hfraction hstops, dropWhile_of_stopsAt hfraction hstops, hsign, hwritten]

end Spelling

/-! ### Magnitudes -/

section Magnitudes
variable {text : List Byte} {mark : Byte}

theorem magnitude_hex (hmark : mark = 120 ∨ mark = 88) :
    magnitude (48 :: mark :: text) = hexValue (parts .hex text) := by
  have hlower : mark.lower = 120 := (Byte.lower_eq_iff (by decide)).2 hmark
  exact if_pos (by simpa using hlower)

theorem magnitude_decimal (h : IsNumeral .decimal false text) :
    magnitude text = decimalValue (parts .decimal text) := by
  unfold magnitude
  split
  · rename_i mark rest
    refine if_neg fun hmark => ?_
    have hbehind := (isNumeral_cons_digit (by decide)).1 h
    rw [← accepts_whole] at hbehind
    refine not_accepts_of_step ?_ hbehind
    rcases (Byte.lower_eq_iff (by decide)).1 (beq_iff_eq.1 hmark) with rfl | rfl <;> rfl
  · rename_i b rest _
    have hletter : ¬ (b.lower = 105 ∨ b.lower = 110) := fun hb => not_isNumeral_of_letter hb h
    obtain ⟨hinfinity, hnan⟩ := not_or.1 hletter
    rw [if_neg (by simpa using hinfinity), if_neg (by simpa using hnan)]
  · exact absurd ((Recogniser.accepts_nil.1 (accepts_whole.2 h))) Bool.false_ne_true

theorem isSign_of_isNumeral {b : Byte} (h : IsNumeral .decimal false (b :: text)) :
    b.isSign = false := by
  rw [Bool.eq_false_iff]
  intro hb
  rw [← accepts_whole] at h
  refine not_accepts_of_step ?_ h
  rcases Byte.isSign_iff.1 hb with rfl | rfl <;> rfl

end Magnitudes

/-! ### Signs -/

/-- A sign, or none. -/
inductive SpellsSign : List Byte → Bool → Prop where
  | absent : SpellsSign [] false
  | plus : SpellsSign [43] false
  | minus : SpellsSign [45] true

/-- The magnitude with the sign that was read. -/
def signed (negative : Bool) (bits : Nat) : Nat :=
  if negative then FloatFormat.binary64.negate bits else bits

section Signs
open FloatFormat (binary64)
variable {sign text : List Byte} {negative : Bool} {mark : Byte} {bits : Nat}

theorem value_signed (hsign : SpellsSign sign negative)
    (hfirst : ∀ b, text.head? = some b → b.isSign = false) :
    value (sign ++ text) = BitVec.ofNat 64 (signed negative (magnitude text)) := by
  cases hsign with
  | plus => rfl
  | minus => rfl
  | absent =>
    unfold value
    rw [List.nil_append]
    split
    · exact absurd (hfirst 43 rfl) (by decide)
    · exact absurd (hfirst 45 rfl) (by decide)
    · rfl

/-- What stands behind the radix mark of a token is a numeral. -/
theorem isNumeral_of_isFloat (hsign : SpellsSign sign negative) (hmark : mark = 120 ∨ mark = 88)
    (h : IsFloat (sign ++ 48 :: mark :: text)) : IsNumeral .hex false text := by
  have hlower : mark.lower = 120 := (Byte.lower_eq_iff (by decide)).2 hmark
  have hstep : recogniser.step .zero mark = some (.whole .hex false) :=
    if_pos (by simpa using hlower)
  rw [← accepts_whole, ← accepts_cons_of_step hstep]
  rw [← accepts_start_iff] at h
  cases hsign with
  | absent => exact (accepts_cons_of_step rfl).1 h
  | plus => exact (accepts_cons_of_step rfl).1 ((accepts_cons_of_step rfl).1 h)
  | minus => exact (accepts_cons_of_step rfl).1 ((accepts_cons_of_step rfl).1 h)

theorem signed_of_lt (h : bits < binary64.signWeight) :
    signed negative bits = binary64.withSign negative bits := by
  cases negative with
  | false => rfl
  | true =>
    show binary64.withSign (!binary64.isNegative bits) (binary64.magnitude bits) = _
    have hpositive : binary64.isNegative bits = false :=
      FloatFormat.isNegative_withSign h false
    have hmagnitude : binary64.magnitude bits = bits := FloatFormat.magnitude_withSign h false
    rw [hpositive, hmagnitude]
    rfl

theorem signed_lt (h : bits < 2 ^ 64) : signed negative bits < 2 ^ 64 := by
  cases negative with
  | false => exact h
  | true =>
    have hweight : binary64.signWeight = 2 ^ 63 := rfl
    have hmagnitude : binary64.magnitude bits < 2 ^ 63 := Nat.mod_lt _ (by decide)
    show binary64.withSign (!binary64.isNegative bits) (binary64.magnitude bits) < 2 ^ 64
    unfold FloatFormat.withSign
    split <;> omega

/-- The sign is that of the token where the magnitude is the nearest one, and no sign makes
another magnitude the nearest one. -/
theorem isNearest_signed_iff (h : bits < 2 ^ 64) {v : ℚ} :
    (∃ magnitude, binary64.IsNearest v magnitude ∧
      signed negative bits = binary64.withSign negative magnitude) ↔
        binary64.IsNearest v bits := by
  have hweight : ∀ {magnitude}, binary64.IsNearest v magnitude →
      magnitude < binary64.signWeight := fun hnearest =>
    hnearest.le.trans_lt binary64.infinityBits_lt_signWeight
  constructor
  · rintro ⟨magnitude, hnearest, hsigned⟩
    cases negative with
    | false =>
      obtain rfl : bits = magnitude := hsigned
      exact hnearest
    | true =>
      have hlt : binary64.magnitude bits < binary64.signWeight := Nat.mod_lt _ (by decide)
      have hsame : binary64.withSign (!binary64.isNegative bits) (binary64.magnitude bits) =
          binary64.withSign true magnitude := hsigned
      have hpositive := congrArg binary64.isNegative hsame
      rw [FloatFormat.isNegative_withSign hlt,
        FloatFormat.isNegative_withSign (hweight hnearest), Bool.not_eq_true'] at hpositive
      have hmagnitude := congrArg binary64.magnitude hsame
      rw [FloatFormat.magnitude_withSign hlt,
        FloatFormat.magnitude_withSign (hweight hnearest)] at hmagnitude
      have hbits : bits < 2 ^ 63 := by
        have hquotient : (bits / 2 ^ 63) % 2 ≠ 1 := beq_eq_false_iff_ne.1 hpositive
        omega
      obtain rfl : bits = magnitude := (Nat.mod_eq_of_lt hbits).symm.trans hmagnitude
      exact hnearest
  · intro hnearest
    exact ⟨bits, hnearest, signed_of_lt (hweight hnearest)⟩

end Signs
end FloatToken

/-! ### Tokens that are taken -/

namespace Reader

variable {S σ : Type} [ByteSource S] {l : Recogniser σ}

theorem accepts_of_here {state : σ} {token : List Byte} (h : l.here state = some token) :
    l.Accepts state token := by
  obtain ⟨haccepts, htoken⟩ := Option.ite_none_right_eq_some.1 h
  cases htoken
  exact Recogniser.accepts_nil.2 haccepts

/-- Whatever the source, a token that was taken is accepted. -/
theorem accepts_of_tokenFrom {r : Reader S} {state : σ} {width : Option Nat} {token : List Byte}
    (h : (tokenFrom l state width r).1 = some token) : l.Accepts state token := by
  by_cases hwidth : width = some 0
  · rw [hwidth, tokenFrom_full] at h
    exact accepts_of_here h
  · cases hget : r.get with
    | mk result r' =>
      cases result with
      | none =>
        rw [tokenFrom_end l hwidth hget] at h
        exact accepts_of_here h
      | some b =>
        cases hstep : l.step state b with
        | none =>
          rw [tokenFrom_stop l hwidth hget hstep] at h
          exact accepts_of_here h
        | some next =>
          cases htoken : tokenFrom l next (lessOne width) r' with
          | mk rest r'' =>
            cases rest with
            | some rest =>
              rw [tokenFrom_extend l hwidth hget hstep htoken] at h
              cases h
              exact (Recogniser.accepts_cons_of_step hstep).2
                (accepts_of_tokenFrom (congrArg Prod.fst htoken))
            | none =>
              rw [tokenFrom_retreat l hwidth hget hstep htoken] at h
              exact accepts_of_here h
termination_by r.size
decreasing_by exact size_get hget

end Reader

namespace Scan
open FloatToken (IsFloat)

variable {S M : Type} [ByteSource S] [Memory M]

/-- Behind white space a floating-point directive finds this token. -/
structure FindsToken (spec : ScanSpec) (s : State S M) (token : List Byte) : Prop where
  some : s.reader.skipSpace.1 = true
  found : (s.reader.skipSpace.2.token FloatToken.recogniser spec.width).1 = .some token

variable {letter : Conversion} {spec : ScanSpec} {s : State S M} {token : List Byte}

omit [Memory M] in
theorem FindsToken.isFloat (h : FindsToken spec s token) : IsFloat token :=
  FloatToken.accepts_start_iff.1 (Reader.accepts_of_tokenFrom h.found)

/-- The value of the token that it finds is what a directive stores. -/
theorem exists_deposits (hletter : letter ∈ floatLetters)
    (hspec : spec.conversion = .letter letter) (h : FindsToken spec s token) :
    ∃ t, SameStores s t ∧
      Deposits spec.suppress [floatBytes spec.length (FloatToken.value token)] t
        (convert spec s) := by
  refine ⟨afterReading (Reader.token FloatToken.recogniser spec.width)
    (afterReading Reader.skipSpace s), (sameStores_afterReading _ _).trans
      (sameStores_afterReading _ _), ?_⟩
  rw [convert_float hletter hspec, convertFloat, afterSpace, bind_reading, h.some, if_pos rfl,
    bind_reading]
  have hfound : ((afterReading Reader.skipSpace s).reader.token FloatToken.recogniser
      spec.width).1 = .some token := h.found
  rw [hfound]
  exact storeDouble_deposits _ _ _ _

end Scan
end CheckedFormat
