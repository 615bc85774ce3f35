import CheckedFormat.Proofs.ByteClasses
/-! Printing directives as they are written.

Behind its percent sign a directive opens with any flags in any order, then a width and
a precision that may be left out, digits or a star, and a length modifier
(`PrintOpening`). Every text starts with one opening that the next byte does not go on
with (`exists_opening`), and reading takes that one (`parse_opening`). A
`WrittenDirective` is an opening and a letter that go together; reading it gives back the
directive that its parts say (`parse_body`), whatever stands behind it. -/
namespace CheckedFormat

/-! ### The parts -/

/-- A width. Its digits do not start with a zero, which would be a flag. -/
inductive WrittenWidth where
  | absent
  | digits (first : Byte) (rest : List Byte) (positive : first.isDigit = true ∧ first ≠ 48)
    (all : ∀ b ∈ rest, b.isDigit)
  | star

namespace WrittenWidth

def text : WrittenWidth → List Byte
  | absent => []
  | digits first rest .. => first :: rest
  | star => [42]

def quantity : WrittenWidth → Quantity
  | absent => .absent
  | digits first rest .. => .given (saturatingDecimal (first :: rest))
  | star => .fromArgument

/-- Whether the byte would go on with the width. -/
def continues : WrittenWidth → Byte → Bool
  | absent, b => b == 42 || b.isDigit
  | digits .., b => b.isDigit
  | star, _ => false

end WrittenWidth

/-- A precision, which may be a point alone. -/
inductive WrittenPrecision where
  | absent
  | digits (run : List Byte) (all : ∀ b ∈ run, b.isDigit)
  | star

namespace WrittenPrecision

def text : WrittenPrecision → List Byte
  | absent => []
  | digits run .. => 46 :: run
  | star => [46, 42]

def quantity : WrittenPrecision → Quantity
  | absent => .absent
  | digits run .. => .given (saturatingDecimal run)
  | star => .fromArgument

/-- Whether the byte would go on with the precision. -/
def continues : WrittenPrecision → Byte → Bool
  | absent, b => b == 46
  | digits run .., b => b.isDigit || (run.isEmpty && b == 42)
  | star, _ => false

end WrittenPrecision

/-- Whether the byte would go on with the modifier. -/
def LengthModifier.continues : LengthModifier → Byte → Bool
  | plain, b => (ascii "hlztjL").contains b
  | short, b => b == 104
  | long, b => b == 108
  | _, _ => false

/-- Everything of a directive between the percent sign and the letter. -/
structure PrintOpening where
  flags : List Byte
  width : WrittenWidth
  precision : WrittenPrecision
  length : LengthModifier
  areFlags : ∀ b ∈ flags, Flags.isFlag b

namespace PrintOpening

def text (o : PrintOpening) : List Byte :=
  o.flags ++ (o.width.text ++ (o.precision.text ++ ascii o.length.spelling))

/-- The layout that the parts say. -/
def layout (o : PrintOpening) : Layout :=
  ⟨(Flags.ofBytes o.flags).settle, o.width.quantity, o.precision.quantity⟩

/-- The text behind the opening does not go on with any of its parts. -/
structure StopsBefore (o : PrintOpening) (rest : List Byte) : Prop where
  flags : StopsAt Flags.isFlag
    (o.width.text ++ (o.precision.text ++ (ascii o.length.spelling ++ rest)))
  width : StopsAt o.width.continues (o.precision.text ++ (ascii o.length.spelling ++ rest))
  precision : StopsAt o.precision.continues (ascii o.length.spelling ++ rest)
  length : StopsAt o.length.continues rest

/-- Of the text behind the opening only the next byte counts. -/
theorem StopsBefore.of_head {o : PrintOpening} {b : Byte} {rest : List Byte}
    (h : o.StopsBefore (b :: rest)) (later : List Byte) : o.StopsBefore (b :: later) where
  flags := by simpa only [StopsAt, List.head?_append, List.head?_cons] using h.flags
  width := by simpa only [StopsAt, List.head?_append, List.head?_cons] using h.width
  precision := by simpa only [StopsAt, List.head?_append, List.head?_cons] using h.precision
  length := .cons later (h.length b rfl)

end PrintOpening

/-- A printing directive as it is written. -/
structure WrittenDirective where
  flags : List Byte
  width : WrittenWidth
  precision : WrittenPrecision
  length : LengthModifier
  conversion : Conversion
  areFlags : ∀ b ∈ flags, Flags.isFlag b
  printable : conversion.isPrintable = true
  fits : length.printable conversion = true

namespace WrittenDirective

/-- What stands behind the percent sign. -/
def body (d : WrittenDirective) : List Byte :=
  d.flags ++ (d.width.text ++ (d.precision.text ++ (ascii d.length.spelling ++ [d.conversion.letter])))

def text (d : WrittenDirective) : List Byte := opener :: d.body

/-- The directive that the parts say. -/
def spec (d : WrittenDirective) : PrintSpec :=
  ⟨⟨(Flags.ofBytes d.flags).settle, d.width.quantity, d.precision.quantity⟩, d.length, d.conversion⟩

/-- What stands in front of the letter. -/
def opening (d : WrittenDirective) : PrintOpening :=
  ⟨d.flags, d.width, d.precision, d.length, d.areFlags⟩

theorem body_eq (d : WrittenDirective) : d.body = d.opening.text ++ [d.conversion.letter] := by
  simp [body, PrintOpening.text, opening]

theorem body_append (d : WrittenDirective) (rest : List Byte) :
    d.body ++ rest = d.opening.text ++ d.conversion.letter :: rest := by
  rw [body_eq, List.append_assoc, List.singleton_append]

end WrittenDirective

/-! ### Reading the parts -/

theorem LengthModifier.take_spelling (length : LengthModifier) {rest : List Byte}
    (h : StopsAt length.continues rest) : take (ascii length.spelling ++ rest) = (length, rest) := by
  cases length with
  | plain =>
    show take rest = (plain, rest)
    unfold take
    split
    all_goals first
      | rfl
      | exact absurd (h _ rfl) (by decide)
  | short =>
    show take (104 :: rest) = (short, rest)
    unfold take
    split
    · rename_i heq
      cases heq
      exact absurd (h 104 rfl) (by decide)
    all_goals simp_all
  | long =>
    show take (108 :: rest) = (long, rest)
    unfold take
    split
    case h_3 heq =>
      cases heq
      exact absurd (h 108 rfl) (by decide)
    all_goals simp_all
  | _ => rfl

theorem Quantity.takePrecision_text (precision : WrittenPrecision) {rest : List Byte}
    (h : StopsAt precision.continues rest) :
    takePrecision (precision.text ++ rest) = (precision.quantity, rest) := by
  cases precision with
  | star => rfl
  | absent =>
    show takePrecision rest = (absent, rest)
    unfold takePrecision
    split
    · exact absurd (h 46 rfl) (by decide)
    · exact absurd (h 46 rfl) (by decide)
    · rfl
  | digits run hall =>
    have hdigits : StopsAt Byte.isDigit rest := fun b hb => (Bool.or_eq_false_iff.1 (h b hb)).1
    show takePrecision (46 :: (run ++ rest)) = _
    unfold takePrecision
    split
    · rename_i later heq
      -- The star behind the point is no digit, and behind no digits at all it is excluded.
      cases run with
      | nil =>
        obtain rfl : rest = 42 :: later := (List.cons.inj heq).2
        cases h 42 rfl
      | cons b run =>
        obtain rfl : b = 42 := (List.cons.inj (List.cons.inj heq).2).1
        exact absurd (hall 42 List.mem_cons_self) (by decide)
    · rename_i heq
      cases heq
      simp only [takeDigits, takeWhile_of_stopsAt hall hdigits, dropWhile_of_stopsAt hall hdigits]
      rfl
    · rename_i hpoint
      exact absurd rfl (hpoint _)

theorem Quantity.takeWidth_text (width : WrittenWidth) {rest : List Byte}
    (h : StopsAt width.continues rest) :
    takeWidth (width.text ++ rest) = (width.quantity, rest) := by
  cases width with
  | star => rfl
  | absent =>
    have hdigits : StopsAt Byte.isDigit rest := fun b hb => (Bool.or_eq_false_iff.1 (h b hb)).2
    have hnone : ∀ b ∈ ([] : List Byte), b.isDigit := nofun
    show takeWidth ([] ++ rest) = (absent, rest)
    unfold takeWidth
    split
    · rename_i later heq
      obtain rfl : rest = 42 :: later := heq
      exact absurd (h 42 rfl) (by decide)
    · simp only [takeDigits, takeWhile_of_stopsAt hnone hdigits, dropWhile_of_stopsAt hnone hdigits]
  | digits first run positive hall =>
    have hdigits : ∀ c ∈ first :: run, c.isDigit := List.forall_mem_cons.2 ⟨positive.1, hall⟩
    show takeWidth (first :: run ++ rest) = _
    unfold takeWidth
    split
    · rename_i later heq
      obtain rfl : first = 42 := (List.cons.inj heq).1
      exact absurd positive.1 (by decide)
    · simp only [takeDigits, takeWhile_of_stopsAt hdigits h, dropWhile_of_stopsAt hdigits h]
      rfl

/-! ### Reading an opening -/

namespace PrintSegment

/-- What a directive is that opens with these parts and goes on with the text. -/
def conclude (layout : Layout) (length : LengthModifier) :
    List Byte → Except Malformed (PrintSegment × List Byte)
  | [] => .error .truncated
  | letter :: rest =>
    if letter == opener then .ok (percent, rest)
    else
      match (Conversion.ofLetter? letter).filter (·.isPrintable) with
      | none => .error (.unknownConversion letter)
      | some conversion =>
        if length.printable conversion then .ok (directive ⟨layout, length, conversion⟩, rest)
        else .error (.badLength length letter)

/-- Splits the opening off the front of a text. -/
def split (text : List Byte) : (Layout × LengthModifier) × List Byte :=
  let (flags, text) := Flags.take text
  let (width, text) := Quantity.takeWidth text
  let (precision, text) := Quantity.takePrecision text
  let (length, text) := LengthModifier.take text
  ((⟨flags, width, precision⟩, length), text)

theorem parse_eq (text : List Byte) :
    parse text = conclude (split text).1.1 (split text).1.2 (split text).2 := by
  unfold parse split conclude
  rfl

theorem split_opening (o : PrintOpening) {rest : List Byte} (h : o.StopsBefore rest) :
    split (o.text ++ rest) = ((o.layout, o.length), rest) := by
  have hflags : Flags.take (o.flags ++
      (o.width.text ++ (o.precision.text ++ (ascii o.length.spelling ++ rest)))) =
      ((Flags.ofBytes o.flags).settle,
        o.width.text ++ (o.precision.text ++ (ascii o.length.spelling ++ rest))) := by
    unfold Flags.take
    rw [takeWhile_of_stopsAt o.areFlags h.flags, dropWhile_of_stopsAt o.areFlags h.flags]
  have htext : o.text ++ rest =
      o.flags ++ (o.width.text ++ (o.precision.text ++ (ascii o.length.spelling ++ rest))) := by
    simp [PrintOpening.text]
  unfold split
  rw [htext, hflags]
  dsimp only
  rw [Quantity.takeWidth_text o.width h.width]
  dsimp only
  rw [Quantity.takePrecision_text o.precision h.precision]
  dsimp only
  rw [LengthModifier.take_spelling o.length h.length]
  rfl

/-- Reading takes the whole opening and goes by what stands behind it. -/
theorem parse_opening (o : PrintOpening) {rest : List Byte} (h : o.StopsBefore rest) :
    parse (o.text ++ rest) = conclude o.layout o.length rest := by
  rw [parse_eq, split_opening o h]

end PrintSegment

/-! ### Every text starts with an opening -/

theorem LengthModifier.exists_spelling (text : List Byte) :
    ∃ (length : LengthModifier) (rest : List Byte),
      text = ascii length.spelling ++ rest ∧ StopsAt length.continues rest := by
  fun_cases take text with
  | case1 rest => exact ⟨char, rest, rfl, fun _ _ => rfl⟩
  | case2 rest hother =>
    refine ⟨short, rest, rfl, fun b hb => ?_⟩
    obtain ⟨later, rfl⟩ := List.head?_eq_some_iff.1 hb
    exact beq_eq_false_iff_ne.2 fun h => hother later (h ▸ rfl)
  | case3 rest => exact ⟨longLong, rest, rfl, fun _ _ => rfl⟩
  | case4 rest hother =>
    refine ⟨long, rest, rfl, fun b hb => ?_⟩
    obtain ⟨later, rfl⟩ := List.head?_eq_some_iff.1 hb
    exact beq_eq_false_iff_ne.2 fun h => hother later (h ▸ rfl)
  | case5 rest => exact ⟨size, rest, rfl, fun _ _ => rfl⟩
  | case6 rest => exact ⟨difference, rest, rfl, fun _ _ => rfl⟩
  | case7 rest => exact ⟨maximal, rest, rfl, fun _ _ => rfl⟩
  | case8 rest => exact ⟨longDouble, rest, rfl, fun _ _ => rfl⟩
  | case9 =>
    refine ⟨plain, text, rfl, fun b hb => ?_⟩
    obtain ⟨later, rfl⟩ := List.head?_eq_some_iff.1 hb
    have hletters : ascii "hlztjL" = [104, 108, 122, 116, 106, 76] := by decide
    simp_all [continues]

theorem WrittenPrecision.exists_text (text : List Byte) :
    ∃ (precision : WrittenPrecision) (rest : List Byte),
      text = precision.text ++ rest ∧ StopsAt precision.continues rest := by
  fun_cases Quantity.takePrecision text with
  | case1 rest => exact ⟨star, rest, rfl, fun _ _ => rfl⟩
  | case2 after hstar =>
    refine ⟨digits _ (of_mem_takeWhile Byte.isDigit after), after.dropWhile Byte.isDigit, ?_,
      fun b hb => ?_⟩
    · rw [WrittenPrecision.text, List.cons_append, List.takeWhile_append_dropWhile]
    · have hdigit : b.isDigit = false := stopsAt_dropWhile Byte.isDigit after b hb
      rw [continues, hdigit, Bool.false_or]
      -- Behind no digits the text is what stood behind the point.
      cases hrun : after.takeWhile Byte.isDigit with
      | cons c run => rfl
      | nil =>
        have hafter : after.dropWhile Byte.isDigit = after := by
          have hsplit := List.takeWhile_append_dropWhile (p := Byte.isDigit) (l := after)
          rwa [hrun, List.nil_append] at hsplit
        rw [hafter] at hb
        obtain ⟨later, rfl⟩ := List.head?_eq_some_iff.1 hb
        exact beq_eq_false_iff_ne.2 fun h => hstar later (by rw [h])
  | case3 _ _ hpoint =>
    refine ⟨absent, text, rfl, fun b hb => ?_⟩
    obtain ⟨later, rfl⟩ := List.head?_eq_some_iff.1 hb
    exact beq_eq_false_iff_ne.2 fun h => hpoint later (h ▸ rfl)

/-- A text that does not start with a flag starts with a width. -/
theorem WrittenWidth.exists_text {text : List Byte} (h : StopsAt Flags.isFlag text) :
    ∃ (width : WrittenWidth) (rest : List Byte),
      text = width.text ++ rest ∧ StopsAt width.continues rest := by
  have hsplit := List.takeWhile_append_dropWhile (p := Byte.isDigit) (l := text)
  have hstops := stopsAt_dropWhile Byte.isDigit text
  have hall := of_mem_takeWhile Byte.isDigit text
  cases hrun : text.takeWhile Byte.isDigit with
  | cons first run =>
    rw [hrun] at hsplit hall
    have hfirst : Flags.isFlag first = false := h first (by rw [← hsplit]; rfl)
    refine ⟨digits first run ⟨hall first List.mem_cons_self, ?_⟩
      (fun b hb => hall b (List.mem_cons_of_mem first hb)), _, hsplit.symm, hstops⟩
    rintro rfl
    exact absurd hfirst (by decide)
  | nil =>
    rw [hrun, List.nil_append] at hsplit
    rw [hsplit] at hstops
    by_cases hstar : ∃ later, text = 42 :: later
    · obtain ⟨later, rfl⟩ := hstar
      exact ⟨star, later, rfl, fun _ _ => rfl⟩
    · refine ⟨absent, text, rfl, fun b hb => ?_⟩
      rw [continues, hstops b hb, Bool.or_false, beq_eq_false_iff_ne]
      rintro rfl
      exact hstar (List.head?_eq_some_iff.1 hb)

/-- Every text starts with an opening that the next byte does not go on with. -/
theorem exists_opening (text : List Byte) :
    ∃ (o : PrintOpening) (rest : List Byte), text = o.text ++ rest ∧ o.StopsBefore rest := by
  have hflags := stopsAt_dropWhile Flags.isFlag text
  obtain ⟨width, afterWidth, hwidth, hwidthStops⟩ := WrittenWidth.exists_text hflags
  obtain ⟨precision, afterPrecision, hprecision, hprecisionStops⟩ :=
    WrittenPrecision.exists_text afterWidth
  obtain ⟨length, rest, hlength, hlengthStops⟩ := LengthModifier.exists_spelling afterPrecision
  subst hlength hprecision
  refine ⟨⟨text.takeWhile Flags.isFlag, width, precision, length, of_mem_takeWhile _ _⟩, rest, ?_,
    ?_, hwidthStops, hprecisionStops, hlengthStops⟩
  · have hsplit := List.takeWhile_append_dropWhile (p := Flags.isFlag) (l := text)
    rw [hwidth] at hsplit
    refine hsplit.symm.trans ?_
    simp [PrintOpening.text]
  · show StopsAt Flags.isFlag (width.text ++ _)
    rw [← hwidth]
    exact hflags

/-! ### What ends an opening -/

/-- Whether the byte starts neither a flag, a width, a precision nor a modifier. -/
def Byte.endsOpening (b : Byte) : Bool :=
  !Flags.isFlag b && b != 42 && !b.isDigit && b != 46 && !(ascii "hlztjL").contains b

theorem Byte.endsOpening_iff {b : Byte} :
    b.endsOpening = true ↔ Flags.isFlag b = false ∧ b ≠ 42 ∧ b.isDigit = false ∧ b ≠ 46 ∧
      (ascii "hlztjL").contains b = false := by
  simp only [endsOpening, Bool.and_eq_true, Bool.not_eq_true', bne_iff_ne, ne_eq, and_assoc]

theorem WrittenWidth.continues_eq_false (width : WrittenWidth) {b : Byte} (hstar : b ≠ 42)
    (hdigit : b.isDigit = false) : width.continues b = false := by
  cases width <;> simp [continues, hstar, hdigit]

theorem WrittenPrecision.continues_eq_false (precision : WrittenPrecision) {b : Byte}
    (hpoint : b ≠ 46) (hstar : b ≠ 42) (hdigit : b.isDigit = false) :
    precision.continues b = false := by
  cases precision <;> simp [continues, hpoint, hstar, hdigit]

theorem LengthModifier.continues_eq_false (length : LengthModifier) {b : Byte}
    (h : (ascii "hlztjL").contains b = false) : length.continues b = false := by
  have hletters : ascii "hlztjL" = [104, 108, 122, 116, 106, 76] := by decide
  cases length <;> simp_all [continues]

/-- A modifier starts with one of its letters, which are no other parts. -/
theorem LengthModifier.code_of_head (length : LengthModifier) {b : Byte}
    (h : (ascii length.spelling).head? = some b) :
    Flags.isFlag b = false ∧ b ≠ 42 ∧ b.isDigit = false ∧ b ≠ 46 := by
  cases length <;> cases h <;> decide

theorem WrittenWidth.stopsAt_flag (width : WrittenWidth) : StopsAt Flags.isFlag width.text := by
  cases width with
  | absent => exact .nil _
  | star => exact .cons _ (by decide)
  | digits first run positive all =>
    refine .cons _ ?_
    obtain ⟨hdigit, hzero⟩ := positive
    rw [Byte.isDigit_iff] at hdigit
    have hcode : first.toNat ≠ 48 := fun h => hzero (UInt8.toNat_inj.1 h)
    rw [Bool.eq_false_iff, ne_eq, Flags.isFlag_iff]
    omega

/-- A precision starts with a point. -/
theorem WrittenPrecision.eq_of_head (precision : WrittenPrecision) {b : Byte}
    (h : precision.text.head? = some b) : b = 46 := by
  cases precision <;> cases h <;> rfl

/-- An opening goes no further where the text ends or a byte stands that is no part of
any. -/
theorem PrintOpening.stopsBefore_of_ends (o : PrintOpening) {rest : List Byte}
    (hends : ∀ b, rest.head? = some b → b.endsOpening = true) : o.StopsBefore rest := by
  have hmodifier {p : Byte → Bool} (hother : ∀ b, Flags.isFlag b = false → b ≠ 42 →
      b.isDigit = false → b ≠ 46 → p b = false) : StopsAt p (ascii o.length.spelling ++ rest) := by
    refine .append (fun b hb => ?_) (fun b hb => ?_)
    · obtain ⟨hflag, hstar, hdigit, hpoint⟩ := o.length.code_of_head hb
      exact hother b hflag hstar hdigit hpoint
    · obtain ⟨hflag, hstar, hdigit, hpoint, _⟩ := Byte.endsOpening_iff.1 (hends b hb)
      exact hother b hflag hstar hdigit hpoint
  refine ⟨?_, ?_, ?_, fun b hb => o.length.continues_eq_false ?_⟩
  · refine .append o.width.stopsAt_flag (.append (fun b hb => ?_) (hmodifier fun b h _ _ _ => h))
    rw [o.precision.eq_of_head hb]
    decide
  · refine .append (fun b hb => ?_)
      (hmodifier fun b _ hstar hdigit _ => o.width.continues_eq_false hstar hdigit)
    rw [o.precision.eq_of_head hb]
    exact o.width.continues_eq_false (by decide) (by decide)
  · exact hmodifier fun b _ hstar hdigit hpoint =>
      o.precision.continues_eq_false hpoint hstar hdigit
  · exact (Byte.endsOpening_iff.1 (hends b hb)).2.2.2.2

theorem PrintOpening.stopsBefore_nil (o : PrintOpening) : o.StopsBefore [] :=
  o.stopsBefore_of_ends nofun

theorem Conversion.letter_ends (conversion : Conversion) : conversion.letter.endsOpening = true := by
  cases conversion <;> decide

theorem Conversion.letter_ne_opener (conversion : Conversion) :
    (conversion.letter == opener) = false := by
  cases conversion <;> decide

/-- Reading what is written behind a percent sign gives the directive that it says. -/
theorem PrintSegment.parse_body (d : WrittenDirective) (rest : List Byte) :
    parse (d.body ++ rest) = .ok (.directive d.spec, rest) := by
  have hstops : d.opening.StopsBefore (d.conversion.letter :: rest) :=
    d.opening.stopsBefore_of_ends fun b hb => by
      cases hb
      exact d.conversion.letter_ends
  rw [d.body_append, parse_opening d.opening hstops]
  simp only [conclude, d.conversion.letter_ne_opener, Bool.false_eq_true, if_false,
    Conversion.ofLetter?_letter, Option.filter, d.printable, if_true]
  exact if_pos d.fits

end CheckedFormat
