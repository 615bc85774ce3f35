import CheckedFormat.Proofs.LongestField
import CheckedFormat.Proofs.Numerals
import CheckedFormat.Proofs.StoredFields
import CheckedFormat.Memory.Arena
import Mathlib.Data.List.Induction
import Mathlib.Data.Nat.Digits.Defs
/-! Fields of whole numbers.

A whole number is an optional sign and a magnitude as its base has it written
(`IntegerToken.IsNumber`). The tokens of a base are exactly these texts, and the value of
a token is the number that it is written for, so every directive for whole numbers takes
the longest of them and stores the low bytes of its number, held within the range of the
letter (`Scan.number_fields_take_the_longest`). -/
namespace CheckedFormat
namespace IntegerToken

/-! ### The texts of whole numbers -/

/-- The number that digits of a base stand for, the last one counting ones. -/
def placeValue (base : Nat) (digits : List Byte) : Nat :=
  Nat.ofDigits base (digits.reverse.map fun b => (b.digit? base).getD 0)

/-- How a base has magnitudes written. A base that is to be detected is sixteen behind a
mark, else eight behind a leading zero, and else ten. -/
inductive IsMagnitude : Base → List Byte → Nat → Prop where
  | fixed {base : Nat} {digits : List Byte} (h : AreDigits base digits) :
      IsMagnitude (.fixed base) digits (placeValue base digits)
  | hex {digits : List Byte} (h : AreDigits 16 digits) :
      IsMagnitude .hex digits (placeValue 16 digits)
  | marked {base : Base} {mark : Byte} {digits : List Byte} (hbase : base = .hex ∨ base = .detect)
      (hmark : mark = 120 ∨ mark = 88) (h : AreDigits 16 digits) :
      IsMagnitude base (48 :: mark :: digits) (placeValue 16 digits)
  | octal {digits : List Byte} (h : ∀ b ∈ digits, b.isDigitOf 8) :
      IsMagnitude .detect (48 :: digits) (placeValue 8 digits)
  | decimal {digits : List Byte} (h : AreDigits 10 digits) (hzero : digits.head? ≠ some 48) :
      IsMagnitude .detect digits (placeValue 10 digits)

/-- A magnitude, or one behind a sign. -/
inductive IsNumber (base : Base) : List Byte → Int → Prop where
  | plain {text : List Byte} {m : Nat} (h : IsMagnitude base text m) : IsNumber base text m
  | plus {text : List Byte} {m : Nat} (h : IsMagnitude base text m) : IsNumber base (43 :: text) m
  | minus {text : List Byte} {m : Nat} (h : IsMagnitude base text m) :
      IsNumber base (45 :: text) (-m)

/-! ### Their values -/

theorem digitsValue_eq_placeValue (base : Nat) (digits : List Byte) :
    digitsValue base digits = placeValue base digits := by
  induction digits using List.reverseRecOn with
  | nil => rfl
  | append_singleton digits b ih =>
    rw [digitsValue_append_digit, ih, placeValue, placeValue, List.reverse_append,
      List.reverse_singleton, List.singleton_append, List.map_cons, Nat.ofDigits_cons,
      Nat.add_comm, Nat.mul_comm]

/-- A magnitude is a token of its number. -/
theorem IsMagnitude.denotes {base : Base} {text : List Byte} {m : Nat}
    (h : IsMagnitude base text m) : Denotes base text m := by
  cases h with
  | fixed h => exact digitsValue_eq_placeValue _ text ▸ denotes_fixed h
  | hex h => exact digitsValue_eq_placeValue 16 text ▸ denotes_hex h
  | marked hbase hmark h =>
    exact digitsValue_eq_placeValue 16 _ ▸ denotes_marked hbase (isMark_iff.2 hmark) h
  | octal h => exact digitsValue_eq_placeValue 8 _ ▸ denotes_zero (.inr rfl) h
  | decimal h hzero =>
    rw [← digitsValue_eq_placeValue]
    cases text with
    | nil => exact absurd rfl h.some
    | cons b rest =>
      have hb : b ≠ 48 := fun heq => hzero (congrArg some heq)
      refine denotes_of_first (if_neg (by simpa using hb)) ?_ h
      unfold IntegerToken.magnitude
      split <;> simp_all

/-- A number that is written so is a token of this value. -/
theorem IsNumber.reads {base : Base} {text : List Byte} {v : Int} (h : IsNumber base text v) :
    ∃ w, Reads base text w ∧ w.toInt = v := by
  cases h with
  | plain h => exact ⟨_, h.denotes.reads, rfl⟩
  | plus h => exact ⟨_, h.denotes.reads_plus, rfl⟩
  | minus h => exact ⟨_, h.denotes.reads_minus, rfl⟩

/-! ### What is accepted -/

section Accepted
variable {base : Base} {n : Nat} {b : Byte} {text rest : List Byte} {next : State}

theorem digitIn_eq_some_iff :
    digitIn n b = some next ↔ b.isDigitOf n = true ∧ next = .digits n := by
  unfold digitIn
  by_cases hb : b.isDigitOf n = true
  · rw [if_pos hb, Option.some.injEq, eq_comm]
    exact ⟨fun h => ⟨hb, h⟩, And.right⟩
  · rw [if_neg hb]
    exact ⟨nofun, fun h => absurd h.1 hb⟩

/-- Behind a digit only digits are accepted. -/
theorem all_of_accepts_digits (h : (recogniser base).Accepts (.digits n) text) :
    ∀ b ∈ text, b.isDigitOf n := by
  induction text with
  | nil => exact nofun
  | cons b text ih =>
    obtain ⟨next, hstep, hrest⟩ := Recogniser.accepts_cons.1 h
    obtain ⟨hb, rfl⟩ := digitIn_eq_some_iff.1 hstep
    exact List.forall_mem_cons.2 ⟨hb, ih hrest⟩

theorem areDigits_of_digitIn (hstep : digitIn n b = some next)
    (h : (recogniser base).Accepts next rest) : AreDigits n (b :: rest) := by
  obtain ⟨hb, rfl⟩ := digitIn_eq_some_iff.1 hstep
  exact ⟨nofun, List.forall_mem_cons.2 ⟨hb, all_of_accepts_digits h⟩⟩

/-- Behind a mark digits must follow. -/
theorem areDigits_of_accepts_marked (h : (recogniser base).Accepts .marked text) :
    AreDigits 16 text := by
  cases text with
  | nil => exact absurd (Recogniser.accepts_nil.1 h) Bool.false_ne_true
  | cons b rest =>
    obtain ⟨next, hstep, hrest⟩ := Recogniser.accepts_cons.1 h
    exact areDigits_of_digitIn hstep hrest

/-- Behind a leading zero stands a mark with digits, or digits, or nothing. -/
theorem of_accepts_zero (h : (recogniser base).Accepts .zero text) :
    (∃ mark digits, text = mark :: digits ∧ (mark = 120 ∨ mark = 88) ∧ AreDigits 16 digits) ∨
      ∀ b ∈ text, b.isDigitOf (baseAfterZero base) := by
  cases text with
  | nil => exact .inr nofun
  | cons b rest =>
    obtain ⟨next, hstep, hrest⟩ := Recogniser.accepts_cons.1 h
    replace hstep : (if isMark b then some .marked else digitIn (baseAfterZero base) b) =
      some next := hstep
    by_cases hmark : isMark b = true
    · rw [if_pos hmark] at hstep
      cases hstep
      exact .inl ⟨b, rest, rfl, isMark_iff.1 hmark, areDigits_of_accepts_marked hrest⟩
    · rw [if_neg hmark] at hstep
      exact .inr (areDigits_of_digitIn hstep hrest).all

theorem exists_isMagnitude_of_zero (hbase : base = .hex ∨ base = .detect)
    (h : (recogniser base).Accepts .zero rest) : ∃ m, IsMagnitude base (48 :: rest) m := by
  rcases of_accepts_zero h with ⟨mark, digits, rfl, hmark, hdigits⟩ | hdigits
  · exact ⟨_, .marked hbase hmark hdigits⟩
  · rcases hbase with rfl | rfl
    · exact ⟨_, .hex ⟨nofun, List.forall_mem_cons.2 ⟨by decide, hdigits⟩⟩⟩
    · exact ⟨_, .octal hdigits⟩

/-- Behind a sign, or without one, only magnitudes are accepted. -/
theorem exists_isMagnitude (h : (recogniser base).Accepts .signed text) :
    ∃ m, IsMagnitude base text m := by
  cases text with
  | nil => exact absurd (Recogniser.accepts_nil.1 h) Bool.false_ne_true
  | cons b rest =>
    obtain ⟨next, hfirst, hrest⟩ := Recogniser.accepts_cons.1 h
    replace hfirst : first base b = some next := hfirst
    cases base with
    | fixed n => exact ⟨_, .fixed (areDigits_of_digitIn hfirst hrest)⟩
    | hex =>
      by_cases hzero : b = 48
      · subst hzero
        cases hfirst
        exact exists_isMagnitude_of_zero (.inl rfl) hrest
      · rw [first, if_neg (by simpa using hzero)] at hfirst
        exact ⟨_, .hex (areDigits_of_digitIn hfirst hrest)⟩
    | detect =>
      by_cases hzero : b = 48
      · subst hzero
        cases hfirst
        exact exists_isMagnitude_of_zero (.inr rfl) hrest
      · rw [first, if_neg (by simpa using hzero)] at hfirst
        exact ⟨_, .decimal (areDigits_of_digitIn hfirst hrest) (by simpa using hzero)⟩

/-- Only numbers are accepted. -/
theorem exists_isNumber (h : (recogniser base).Accepts .start text) :
    ∃ v, IsNumber base text v := by
  cases text with
  | nil => exact absurd (Recogniser.accepts_nil.1 h) Bool.false_ne_true
  | cons b rest =>
    obtain ⟨next, hstep, hrest⟩ := Recogniser.accepts_cons.1 h
    replace hstep : (if b.isSign then some .signed else first base b) = some next := hstep
    by_cases hsign : b.isSign = true
    · rw [if_pos hsign] at hstep
      cases hstep
      obtain ⟨m, hm⟩ := exists_isMagnitude hrest
      rcases Byte.isSign_iff.1 hsign with rfl | rfl
      · exact ⟨_, .plus hm⟩
      · exact ⟨_, .minus hm⟩
    · rw [if_neg hsign] at hstep
      obtain ⟨m, hm⟩ := exists_isMagnitude (Recogniser.accepts_cons.2 ⟨next, hstep, hrest⟩)
      exact ⟨_, .plain hm⟩

/-- The tokens of a base are the numbers that it has written. -/
theorem accepts_start_iff : (recogniser base).Accepts .start text ↔ ∃ v, IsNumber base text v := by
  constructor
  · exact exists_isNumber
  · rintro ⟨v, hv⟩
    obtain ⟨w, hreads, -⟩ := hv.reads
    exact hreads.accepted

theorem not_isNumber_nil {v : Int} : ¬ IsNumber base [] v := fun h =>
  absurd (Recogniser.accepts_nil.1 (accepts_start_iff.2 ⟨v, h⟩)) Bool.false_ne_true

end Accepted

theorem Value.natAbs_toInt (w : Value) : w.toInt.natAbs = w.magnitude := by
  unfold toInt
  split <;> simp

end IntegerToken

namespace Scan
open IntegerToken (IsNumber)

/-! ### Letters -/

/-- The letters of whole numbers. -/
def numberLetters : List Conversion := [.d, .i, .u, .o, .x, .X, .p]

/-- The base that a letter asks for. -/
def baseOf : Conversion → IntegerToken.Base
  | .d | .u => .fixed 10
  | .o => .fixed 8
  | .i => .detect
  | _ => .hex

/-- The bytes of the object that a letter stores to; an address has eight under every
modifier. -/
def objectSize (letter : Conversion) (length : LengthModifier) : Nat :=
  if letter = .p then 8 else length.integerSize

/-- The number that a letter stores for a value: held within the signed range, or else the
value modulo the word, and the largest word where the magnitude is beyond it. -/
def storedNumber (letter : Conversion) (v : Int) : Int :=
  if letter = .d ∨ letter = .i then max (-2 ^ 63) (min v (2 ^ 63 - 1))
  else if 2 ^ 64 - 1 < v.natAbs then 2 ^ 64 - 1
  else v % 2 ^ 64

/-- The low bytes of the number that is stored. -/
def storedBytes (letter : Conversion) (length : LengthModifier) (v : Int) : List Byte :=
  littleEndian (objectSize letter length) (storedNumber letter v % 2 ^ 64).toNat

theorem integerSizes_contains_objectSize (letter : Conversion) (length : LengthModifier) :
    integerSizes.contains (objectSize letter length) = true := by
  unfold objectSize
  split
  · rfl
  · cases length <;> rfl

/-- The word that a token is stored as. -/
theorem toNat_bits (letter : Conversion) (w : IntegerToken.Value) :
    (if decide (letter = .d ∨ letter = .i) then w.toSigned else w.toUnsigned).toNat =
      (storedNumber letter w.toInt % 2 ^ 64).toNat := by
  have hlong : (longMax : Int) = 2 ^ 63 - 1 := by decide
  have hword : wordMax = 2 ^ 64 - 1 := by decide
  unfold storedNumber
  by_cases hsigned : letter = .d ∨ letter = .i
  · rw [if_pos (decide_eq_true hsigned), if_pos hsigned, IntegerToken.Value.toSigned,
      BitVec.toNat_ofInt, hlong]
    rfl
  · rw [if_neg (by simpa using hsigned), if_neg hsigned, IntegerToken.Value.toUnsigned,
      w.natAbs_toInt, hword]
    split
    · rfl
    · rw [BitVec.toNat_ofInt]
      simp

section Fields
variable {S M : Type} [ByteSource S] [Memory M] {V : SourceView S} {letter : Conversion}
  {spec : ScanSpec}

theorem convert_number (hletter : letter ∈ numberLetters)
    (hspec : spec.conversion = .letter letter) :
    convert (S := S) (M := M) spec =
      convertInteger spec (baseOf letter) (decide (letter = .d ∨ letter = .i))
        (objectSize letter spec.length) := by
  unfold convert
  rw [hspec]
  simp only [numberLetters, List.mem_cons, List.not_mem_nil, or_false] at hletter
  rcases hletter with rfl | rfl | rfl | rfl | rfl | rfl | rfl
  all_goals rfl

/-- A directive for whole numbers takes the longest number that stands behind white space,
and stores its low bytes where the next argument points; a suppressed one takes it and
stores nothing. -/
theorem number_fields_take_the_longest (hletter : letter ∈ numberLetters)
    (hspec : spec.conversion = .letter letter) :
    TakesLongest (M := M) V (IsNumber (baseOf letter)) spec.width (convert spec) fun v =>
      Deposits spec.suppress [storedBytes letter spec.length v] := by
  rw [convert_number hletter hspec]
  refine takesLongest_of_recogniser (IntegerToken.recogniser (baseOf letter)) spec.width
    (fun text => IntegerToken.accepts_start_iff) (fun v => IntegerToken.not_isNumber_nil)
    fun token v t hv => ?_
  obtain ⟨w, hreads, rfl⟩ := hv.reads
  rw [storedBytes, ← toNat_bits, hreads.value]
  exact storeInteger_deposits (integerSizes_contains_objectSize letter spec.length)
    spec.suppress _ t

end Fields

/-- Within a width of three a mark has no digits, and the zero before it is the number: it
is stored in two bytes, and the two behind them stay. -/
theorem number_field_stops_before_bare_mark :
    let spec : ScanSpec := ⟨false, some 3, .short, .letter .i⟩
    let frame : Frame Arena :=
      ⟨.start .checked [.pointer 0x10000], ⟨0x10000, [1, 2, 3, 4]⟩, .initial⟩
    Conversion.i ∈ numberLetters ∧ spec.conversion = .letter .i ∧
      ∃ t, convert spec ⟨.start (TextSource.mk (ascii " -0x7")), frame⟩ = .ok .assigned t ∧
        t.frame.memory = ⟨0x10000, [0, 0, 3, 4]⟩ ∧
        t.frame.arguments = frame.arguments.advance ∧
        t.reader.At TextSource.view (ascii "0- ") (ascii "x7") := by
  intro spec frame
  have hletter : Conversion.i ∈ numberLetters := by decide
  have hat : (Reader.start (TextSource.mk (ascii " -0x7"))).At TextSource.view []
      (ascii " -0x7") := .start (TextSource.shows_mk _)
  have hspace : (ascii " -0x7").takeWhile Byte.isSpace = ascii " " ∧
      (ascii " -0x7").dropWhile Byte.isSpace = ascii "-0x7" := by decide +kernel
  have hlongest : IsLongest (fun front => ∃ v, IsNumber .detect front v)
      (within (some 3) (ascii "-0x7")) (ascii "-0") := by
    have hfound : TextReading.longest (IntegerToken.recogniser .detect) .start (some 3)
        (ascii "-0x7") = some (ascii "-0") := by decide +kernel
    have hspec := TextReading.longest_spec (IntegerToken.recogniser .detect) .start (some 3)
      (ascii "-0x7")
    rw [hfound] at hspec
    exact hspec.congr fun _ => IntegerToken.accepts_start_iff
  have hnumber : IsNumber .detect (ascii "-0") (-(0 : Nat)) := .minus (.octal nofun)
  have hbytes : storedBytes .i .short (-(0 : Nat)) = [0, 0] := by decide +kernel
  have hspec : spec.conversion = .letter .i := rfl
  rw [← hspace.2] at hlongest
  obtain ⟨t, hends, hframe, hplace⟩ :=
    (number_fields_take_the_longest hletter hspec).taken (s := ⟨_, frame⟩) hat hlongest hnumber
  rw [hspace.1, hspace.2] at hplace
  rw [hbytes] at hends
  have hnext : t.frame.arguments.next .pointer = .ok (0x10000, t.frame.arguments.advance) := by
    rw [hframe]
    rfl
  have hwrite : Memory.writeBytes t.frame.memory 0x10000 [0, 0] =
      .ok (⟨0x10000, [0, 0, 3, 4]⟩ : Arena) := by
    rw [hframe]
    exact ok_of_toOption (by decide +kernel)
  refine ⟨hletter, hspec, _, hends.unique (.assigned rfl hnext (.cons hwrite (.nil _ _))), rfl,
    ?_, hplace⟩
  exact congrArg (ArgumentList.advance ·.arguments) hframe

end Scan
end CheckedFormat
