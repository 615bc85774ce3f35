import CheckedFormat.Directive.Scan
import CheckedFormat.Proofs.WrittenDirective
/-! Scanning directives up to their letter.

Behind its percent sign a scanning directive opens with a star, a width and a length
modifier, each of which may be left out (`ScanOpening`). Every text starts with one
opening that the next byte does not go on with (`ScanOpening.exists_text`), and reading
takes that one and goes by what stands behind it (`parseDirective_opening`). -/
namespace CheckedFormat

/-- Only zeros say zero. -/
theorem saturatingDecimal_eq_zero_iff {digits : List Byte} (h : ∀ b ∈ digits, b.isDigit) :
    saturatingDecimal digits = 0 ↔ ∀ b ∈ digits, b = 48 := by
  -- What the digits so far said is zero just when they were zeros.
  have hfold : ∀ n, digits.foldl (fun n d => min (n * 10 + (d.toNat - 48)) wordMax) n = 0 ↔
      n = 0 ∧ ∀ b ∈ digits, b = 48 := by
    induction digits with
    | nil => simp
    | cons d digits ih =>
      obtain ⟨hd, hdigits⟩ := List.forall_mem_cons.1 h
      intro n
      have hstep : min (n * 10 + (d.toNat - 48)) wordMax = 0 ↔ n = 0 ∧ d = 48 := by
        rw [Byte.isDigit_iff] at hd
        rw [← UInt8.toNat_inj]
        show _ ↔ n = 0 ∧ d.toNat = 48
        unfold wordMax
        omega
      rw [List.foldl_cons, ih hdigits, hstep, List.forall_mem_cons, and_assoc]
  exact (hfold 0).trans ⟨And.right, fun h => ⟨rfl, h⟩⟩

/-- Everything of a directive between the percent sign and the letter. -/
structure ScanOpening where
  suppress : Bool
  /-- The digits of the width; none leave it out. -/
  digits : List Byte
  length : LengthModifier
  areDigits : ∀ b ∈ digits, b.isDigit

namespace ScanOpening

def text (o : ScanOpening) : List Byte :=
  (if o.suppress then [42] else []) ++ (o.digits ++ ascii o.length.spelling)

/-- The width that the digits say; zero is none. -/
def width (o : ScanOpening) : Option Nat := (some (saturatingDecimal o.digits)).filter (· != 0)

/-- The width is left out where there are no digits, or zeros alone. -/
theorem width_eq_none_iff (o : ScanOpening) : o.width = none ↔ ∀ b ∈ o.digits, b = 48 := by
  have hvalue : o.width = none ↔ saturatingDecimal o.digits = 0 := by
    simp [width, Option.filter]
  rw [hvalue]
  exact saturatingDecimal_eq_zero_iff o.areDigits

/-- The text behind the opening does not go on with any of its parts. -/
structure StopsBefore (o : ScanOpening) (rest : List Byte) : Prop where
  star : o.suppress = false → StopsAt (· == 42) (o.digits ++ (ascii o.length.spelling ++ rest))
  digits : StopsAt Byte.isDigit (ascii o.length.spelling ++ rest)
  length : StopsAt o.length.continues rest

/-- Of the text behind the opening only the next byte counts. -/
theorem StopsBefore.of_head {o : ScanOpening} {b : Byte} {rest : List Byte}
    (h : o.StopsBefore (b :: rest)) (later : List Byte) : o.StopsBefore (b :: later) where
  star hstar := by simpa only [StopsAt, List.head?_append, List.head?_cons] using h.star hstar
  digits := by simpa only [StopsAt, List.head?_append, List.head?_cons] using h.digits
  length := .cons later (h.length b rfl)

/-- Every text starts with an opening that the next byte does not go on with. -/
theorem exists_text (text : List Byte) :
    ∃ (o : ScanOpening) (rest : List Byte), text = o.text ++ rest ∧ o.StopsBefore rest := by
  have hopening : ∀ later : List Byte, ∃ (digits : List Byte) (length : LengthModifier)
      (rest : List Byte), (∀ b ∈ digits, b.isDigit) ∧
        later = digits ++ (ascii length.spelling ++ rest) ∧
        StopsAt Byte.isDigit (ascii length.spelling ++ rest) ∧ StopsAt length.continues rest := by
    intro later
    obtain ⟨length, rest, hlength, hstops⟩ :=
      LengthModifier.exists_spelling (later.dropWhile Byte.isDigit)
    refine ⟨_, length, rest, of_mem_takeWhile Byte.isDigit later, ?_, ?_, hstops⟩
    · rw [← hlength, List.takeWhile_append_dropWhile]
    · rw [← hlength]
      exact stopsAt_dropWhile _ _
  by_cases hstar : ∃ later, text = 42 :: later
  · obtain ⟨later, rfl⟩ := hstar
    obtain ⟨digits, length, rest, hall, rfl, hdigits, hlength⟩ := hopening later
    refine ⟨⟨true, digits, length, hall⟩, rest, ?_, nofun, hdigits, hlength⟩
    simp [ScanOpening.text]
  · obtain ⟨digits, length, rest, hall, rfl, hdigits, hlength⟩ := hopening text
    refine ⟨⟨false, digits, length, hall⟩, rest, ?_, fun _ b hb => ?_, hdigits, hlength⟩
    · simp [ScanOpening.text]
    · rw [beq_eq_false_iff_ne]
      rintro rfl
      exact hstar (List.head?_eq_some_iff.1 hb)

/-- An opening goes no further where the text ends or a byte stands that is no part of
any. -/
theorem stopsBefore_of_ends (o : ScanOpening) {rest : List Byte}
    (hends : ∀ b, rest.head? = some b → b.endsOpening = true) : o.StopsBefore rest := by
  have hmodifier {p : Byte → Bool}
      (hother : ∀ b, b ≠ 42 → b.isDigit = false → p b = false) :
      StopsAt p (ascii o.length.spelling ++ rest) := by
    refine .append (fun b hb => ?_) (fun b hb => ?_)
    · obtain ⟨_, hstar, hdigit, _⟩ := o.length.code_of_head hb
      exact hother b hstar hdigit
    · obtain ⟨_, hstar, hdigit, _⟩ := Byte.endsOpening_iff.1 (hends b hb)
      exact hother b hstar hdigit
  refine ⟨fun _ => .append (fun b hb => ?_) (hmodifier fun b hstar _ => ?_),
    hmodifier fun b _ hdigit => hdigit, fun b hb => o.length.continues_eq_false ?_⟩
  · rw [beq_eq_false_iff_ne]
    rintro rfl
    exact absurd (o.areDigits 42 (List.mem_of_head? hb)) (by decide)
  · rwa [beq_eq_false_iff_ne]
  · exact (Byte.endsOpening_iff.1 (hends b hb)).2.2.2.2

end ScanOpening

theorem Conversion.letter_ne_setOpener (conversion : Conversion) :
    (conversion.letter == ScanSegment.setOpener) = false := by
  cases conversion <;> decide

namespace ScanSegment

/-- Splits the opening off the front of a text. -/
def split (text : List Byte) : (Bool × Option Nat × LengthModifier) × List Byte :=
  let (suppress, text) := takeStar text
  let (width, text) := takeWidth text
  let (length, text) := LengthModifier.take text
  ((suppress, width, length), text)

/-- What a directive is that opens with these parts and goes on with the text. -/
def conclude (suppress : Bool) (width : Option Nat) (length : LengthModifier) (text : List Byte) :
    Except Malformed (ScanSegment × List Byte) := do
  let (conversion, rest) ← takeConversion text
  checkLength length conversion
  return (directive ⟨suppress, width, length, conversion⟩, rest)

theorem parseDirective_eq (text : List Byte) :
    parseDirective text =
      conclude (split text).1.1 (split text).1.2.1 (split text).1.2.2 (split text).2 := by
  unfold parseDirective split conclude
  rfl

theorem split_opening (o : ScanOpening) {rest : List Byte} (h : o.StopsBefore rest) :
    split (o.text ++ rest) = ((o.suppress, o.width, o.length), rest) := by
  have hstar : takeStar (o.text ++ rest) =
      (o.suppress, o.digits ++ (ascii o.length.spelling ++ rest)) := by
    rw [ScanOpening.text, List.append_assoc, List.append_assoc]
    cases hsuppress : o.suppress with
    | true => rfl
    | false =>
      show takeStar (o.digits ++ (ascii o.length.spelling ++ rest)) = _
      unfold takeStar
      split
      · rename_i heq
        have hhead := h.star hsuppress 42
        rw [heq] at hhead
        exact absurd (hhead rfl) (by decide)
      · rfl
  unfold split
  rw [hstar]
  dsimp only
  unfold takeWidth takeDigits
  rw [takeWhile_of_stopsAt o.areDigits h.digits, dropWhile_of_stopsAt o.areDigits h.digits]
  dsimp only
  rw [LengthModifier.take_spelling o.length h.length]
  rfl

/-- Reading takes the whole opening and goes by what stands behind it. -/
theorem parseDirective_opening (o : ScanOpening) {rest : List Byte} (h : o.StopsBefore rest) :
    parseDirective (o.text ++ rest) = conclude o.suppress o.width o.length rest := by
  rw [parseDirective_eq, split_opening o h]

/-- Only a percent sign right behind the first one is no directive. -/
theorem parse_eq_parseDirective {text : List Byte} (h : ∀ rest, text ≠ opener :: rest) :
    parse text = parseDirective text := by
  unfold parse
  split
  · rfl
  · rename_i b rest
    rw [if_neg]
    intro hb
    exact h rest (by rw [eq_of_beq hb])

section Conclude
variable (suppress : Bool) (width : Option Nat) (length : LengthModifier) {text rest : List Byte}

theorem conclude_error {cause : Malformed} (h : takeConversion text = .error cause) :
    conclude suppress width length text = .error cause := by
  unfold conclude
  rw [h]
  rfl

theorem conclude_ok {conversion : ScanConversion} (h : takeConversion text = .ok (conversion, rest)) :
    conclude suppress width length text = (checkLength length conversion).map fun _ =>
      (directive ⟨suppress, width, length, conversion⟩, rest) := by
  unfold conclude
  rw [h]
  show (checkLength length conversion).bind _ = _
  cases checkLength length conversion <;> rfl

/-- A letter is taken, and then the modifier has to go with it. -/
theorem conclude_letter (conversion : Conversion) (rest : List Byte) :
    conclude suppress width length (conversion.letter :: rest) =
      if length.scannable conversion then
        .ok (directive ⟨suppress, width, length, .letter conversion⟩, rest)
      else .error (.badLength length conversion.letter) := by
  have htake : takeConversion (conversion.letter :: rest) = .ok (.letter conversion, rest) := by
    simp [takeConversion, conversion.letter_ne_setOpener, Conversion.ofLetter?_letter]
  rw [conclude_ok _ _ _ htake, checkLength]
  split <;> rfl

/-- So is a set, which goes with no modifier. -/
theorem conclude_set {members : ByteSet} (h : ByteSet.take text = some (members, rest)) :
    conclude suppress width length (setOpener :: text) =
      if length = .plain then .ok (directive ⟨suppress, width, length, .set members⟩, rest)
      else .error (.badLength length setOpener) := by
  have htake : takeConversion (setOpener :: text) = .ok (.set members, rest) := by
    simp [takeConversion, h]
  rw [conclude_ok _ _ _ htake, checkLength]
  by_cases hplain : length = .plain
  · rw [if_pos hplain, hplain]
    rfl
  · rw [if_neg hplain, if_neg (by simpa using hplain)]
    rfl

end Conclude

end ScanSegment
end CheckedFormat
