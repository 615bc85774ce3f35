import CheckedFormat.Proofs.Numerals
import CheckedFormat.Proofs.PrintGrammar
/-! Printing formats, written and read back.

A list of segments can be written when its literals are not empty, hold no percent sign
and never follow one another, and when its directives have no flag that another one
overrides and no number beyond a word (`Writable`). Writing leaves some choice: the
flags of a directive in any order and as often as one likes, and zeros in front of a
precision (`Writes`). Whichever way the list is written, reading the text gives the list
back (`parse_written`). -/
namespace CheckedFormat

/-! ### Decimal digits -/

/-- The digits denote the number. -/
structure IsNumeral (n : Nat) (digits : List Byte) : Prop where
  all : ∀ b ∈ digits, b.isDigit
  value : digitsValue 10 digits = n

theorem Byte.digit?_of_isDigit {b : Byte} (h : b.isDigit = true) :
    b.digit? 10 = some (b.toNat - 48) := by
  have hcode := Byte.isDigit_iff.1 h
  rw [Byte.digit?, Byte.alphanumericValue?, if_pos h, Option.filter_some, if_pos]
  simp
  omega

/-- Letters are no decimal digits. -/
theorem Byte.isDigit_of_isDigitOf {b : Byte} (h : b.isDigitOf 10 = true) : b.isDigit = true := by
  obtain ⟨value, hvalue⟩ := Option.isSome_iff_exists.1 h
  obtain ⟨hvalue, hlt⟩ := Option.filter_eq_some_iff.1 hvalue
  rw [decide_eq_true_iff] at hlt
  rcases Byte.code_of_isDigitOf h with hdigit | hlower | hupper
  · exact Byte.isDigit_iff.2 hdigit
  · have hletter : b.isLower = true := Byte.isLower_iff.2 hlower
    have hdigit : ¬ b.isDigit = true := by rw [Byte.isDigit_iff]; omega
    rw [Byte.alphanumericValue?, if_neg hdigit, if_pos hletter] at hvalue
    cases hvalue
    omega
  · have hletter : b.isUpper = true := Byte.isUpper_iff.2 hupper
    have hdigit : ¬ b.isDigit = true := by rw [Byte.isDigit_iff]; omega
    have hlower : ¬ b.isLower = true := by rw [Byte.isLower_iff]; omega
    rw [Byte.alphanumericValue?, if_neg hdigit, if_neg hlower, if_pos hletter] at hvalue
    cases hvalue
    omega

/-- Digits say the number that they denote, up to the largest word. -/
theorem saturatingDecimal_eq {digits : List Byte} (h : ∀ b ∈ digits, b.isDigit) :
    saturatingDecimal digits = min (digitsValue 10 digits) wordMax := by
  -- Both are folds; what is held already is the least of the value so far and the word.
  have hfold : ∀ n, digits.foldl (fun n d => min (n * 10 + (d.toNat - 48)) wordMax) (min n wordMax) =
      min (digits.foldl (fun n b => n * 10 + (b.digit? 10).getD 0) n) wordMax := by
    induction digits with
    | nil => exact fun n => rfl
    | cons d digits ih =>
      obtain ⟨hd, hdigits⟩ := List.forall_mem_cons.1 h
      intro n
      have hstep : min (min n wordMax * 10 + (d.toNat - 48)) wordMax =
          min (n * 10 + (d.toNat - 48)) wordMax := by
        unfold wordMax
        omega
      rw [List.foldl_cons, List.foldl_cons, Byte.digit?_of_isDigit hd, Option.getD_some, hstep,
        ih hdigits]
  exact hfold 0

theorem IsNumeral.saturatingDecimal_eq {n : Nat} {digits : List Byte} (h : IsNumeral n digits)
    (hn : n ≤ wordMax) : saturatingDecimal digits = n := by
  rw [CheckedFormat.saturatingDecimal_eq h.all, h.value, Nat.min_eq_left hn]

theorem isNumeral_numeral (n : Nat) : IsNumeral n (Radix.decimal.numeral n) where
  value := digitsValue_numeral .decimal n
  all b hb := Byte.isDigit_of_isDigitOf (Radix.isDigitOf_of_mem_numeral .decimal n b hb)

/-- A numeral that is not zero does not start with a zero. -/
theorem Radix.head?_numeral_ne (r : Radix) {n : Nat} (hn : 0 < n) :
    (r.numeral n).head? ≠ some 48 := by
  have hbase := r.two_le_base
  induction n using Nat.strongRecOn with
  | ind n ih =>
    rw [Radix.numeral_eq]
    split
    · rename_i hlt
      have hdigit := r.digit?_digit hlt
      rw [Nat.mod_eq_of_lt hlt]
      intro hzero
      rw [Option.some.inj hzero] at hdigit
      obtain ⟨hvalue, _⟩ := Option.filter_eq_some_iff.1 hdigit
      have hnone : Byte.alphanumericValue? 48 = some 0 := by decide
      rw [hnone] at hvalue
      cases hvalue
      exact absurd hn (Nat.lt_irrefl 0)
    · rename_i hge
      have hquotient : 0 < n / r.base := Nat.div_pos (by omega) (by omega)
      have hfirst := ih _ (Nat.div_lt_self hn (by omega)) hquotient
      cases hfront : r.numeral (n / r.base) with
      | nil => exact absurd hfront (r.numeral_ne_nil _)
      | cons b front => rwa [hfront] at hfirst

/-! ### Flags -/

namespace Flags

/-- The flags of a text that spells them. -/
theorem ofBytes_of_spelling {flags : Flags} {bytes : List Byte}
    (h : ∀ b, b ∈ bytes ↔ b ∈ ascii flags.spelling) : ofBytes bytes = flags := by
  have hcontains : ∀ b, bytes.contains b = (ascii flags.spelling).contains b := fun b => by
    rw [Bool.eq_iff_iff, List.contains_iff_mem, List.contains_iff_mem, h]
  simp only [ofBytes, hcontains]
  obtain ⟨left, plus, blank, alternative, zero⟩ := flags
  cases left <;> cases plus <;> cases blank <;> cases alternative <;> cases zero <;> decide

theorem isFlag_of_spelling {flags : Flags} : ∀ b ∈ ascii flags.spelling, isFlag b := by
  obtain ⟨left, plus, blank, alternative, zero⟩ := flags
  cases left <;> cases plus <;> cases blank <;> cases alternative <;> cases zero <;> decide +kernel

/-- Flags of which none overrides another stay as they are. -/
theorem settle_eq_self {flags : Flags} (hleft : ¬ (flags.left = true ∧ flags.zero = true))
    (hplus : ¬ (flags.plus = true ∧ flags.blank = true)) : flags.settle = flags := by
  obtain ⟨left, plus, blank, alternative, zero⟩ := flags
  cases left <;> cases plus <;> cases blank <;> cases zero <;> simp_all [settle]

end Flags

/-! ### Writing -/

/-- A directive that can be written: printing knows the conversion under the modifier,
no flag overrides another, a width is a number that is not zero, and numbers are words. -/
structure PrintSpec.Writable (spec : PrintSpec) : Prop where
  printable : spec.conversion.isPrintable = true
  fits : spec.length.printable spec.conversion = true
  leftOrZero : ¬ (spec.layout.flags.left = true ∧ spec.layout.flags.zero = true)
  plusOrBlank : ¬ (spec.layout.flags.plus = true ∧ spec.layout.flags.blank = true)
  width : ∀ w, spec.layout.width = .given w → 1 ≤ w ∧ w ≤ wordMax
  precision : ∀ p, spec.layout.precision = .given p → p ≤ wordMax

namespace PrintFormat

/-- The segments can be written one after the other. -/
inductive Writable : List PrintSegment → Prop where
  | nil : Writable []
  | literal {run : List Byte} {later : List PrintSegment} (nonempty : run ≠ [])
      (ordinary : ∀ b ∈ run, b ≠ opener) (apart : ∀ run' rest, later ≠ .literal run' :: rest)
      (h : Writable later) : Writable (.literal run :: later)
  | percent {later : List PrintSegment} (h : Writable later) : Writable (.percent :: later)
  | directive {spec : PrintSpec} {later : List PrintSegment} (hspec : spec.Writable)
      (h : Writable later) : Writable (.directive spec :: later)

/-- A width as text: digits that do not start with a zero, a star, or nothing. -/
inductive WritesWidth : Quantity → List Byte → Prop where
  | absent : WritesWidth .absent []
  | given {w : Nat} {digits : List Byte} (h : IsNumeral w digits) (first : digits.head? ≠ some 48) :
      WritesWidth (.given w) digits
  | fromArgument : WritesWidth .fromArgument (ascii "*")

/-- A precision as text: digits or a star behind a point, or nothing. -/
inductive WritesPrecision : Quantity → List Byte → Prop where
  | absent : WritesPrecision .absent []
  | given {p : Nat} {digits : List Byte} (h : IsNumeral p digits) :
      WritesPrecision (.given p) (ascii "." ++ digits)
  | fromArgument : WritesPrecision .fromArgument (ascii ".*")

/-- A directive as text. Its flags stand in any order, each at least once. -/
inductive WritesDirective (spec : PrintSpec) : List Byte → Prop where
  | parts {flags width precision : List Byte}
      (hflags : ∀ b, b ∈ flags ↔ b ∈ ascii spec.layout.flags.spelling)
      (hwidth : WritesWidth spec.layout.width width)
      (hprecision : WritesPrecision spec.layout.precision precision) :
      WritesDirective spec (opener :: (flags ++ (width ++ (precision ++
        (ascii spec.length.spelling ++ [spec.conversion.letter])))))

/-- The text writes the segments one after the other. -/
inductive Writes : List PrintSegment → List Byte → Prop where
  | nil : Writes [] []
  | literal {run text : List Byte} {later : List PrintSegment} (h : Writes later text) :
      Writes (.literal run :: later) (run ++ text)
  | percent {text : List Byte} {later : List PrintSegment} (h : Writes later text) :
      Writes (.percent :: later) (ascii "%%" ++ text)
  | directive {spec : PrintSpec} {directive text : List Byte} {later : List PrintSegment}
      (hd : WritesDirective spec directive) (h : Writes later text) :
      Writes (.directive spec :: later) (directive ++ text)

/-! ### Every list that can be written has a text -/

theorem exists_writesWidth (width : Quantity) (h : ∀ w, width = .given w → 1 ≤ w ∧ w ≤ wordMax) :
    ∃ text, WritesWidth width text := by
  cases width with
  | absent => exact ⟨_, .absent⟩
  | given w => exact ⟨_, .given (isNumeral_numeral w) (Radix.decimal.head?_numeral_ne (h w rfl).1)⟩
  | fromArgument => exact ⟨_, .fromArgument⟩

theorem exists_writesPrecision (precision : Quantity) : ∃ text, WritesPrecision precision text := by
  cases precision with
  | absent => exact ⟨_, .absent⟩
  | given p => exact ⟨_, .given (isNumeral_numeral p)⟩
  | fromArgument => exact ⟨_, .fromArgument⟩

theorem exists_writes {segments : List PrintSegment} (h : Writable segments) :
    ∃ text, Writes segments text := by
  induction h with
  | nil => exact ⟨_, .nil⟩
  | literal _ _ _ _ ih =>
    obtain ⟨text, htext⟩ := ih
    exact ⟨_, .literal htext⟩
  | percent _ ih =>
    obtain ⟨text, htext⟩ := ih
    exact ⟨_, .percent htext⟩
  | @directive spec _ hspec _ ih =>
    obtain ⟨text, htext⟩ := ih
    obtain ⟨width, hwidth⟩ := exists_writesWidth spec.layout.width hspec.width
    obtain ⟨precision, hprecision⟩ := exists_writesPrecision spec.layout.precision
    exact ⟨_, .directive (.parts (fun _ => .rfl) hwidth hprecision) htext⟩

/-! ### Reading what is written -/

theorem WritesWidth.exists_written {width : Quantity} {text : List Byte}
    (h : WritesWidth width text) (hwidth : ∀ w, width = .given w → 1 ≤ w ∧ w ≤ wordMax) :
    ∃ written : WrittenWidth, written.text = text ∧ written.quantity = width := by
  cases h with
  | absent => exact ⟨.absent, rfl, rfl⟩
  | fromArgument => exact ⟨.star, rfl, rfl⟩
  | @given w _ h first =>
    obtain ⟨hpositive, hword⟩ := hwidth w rfl
    have hvalue := h.saturatingDecimal_eq hword
    cases text with
    | nil => exact absurd h.value (by rw [digitsValue]; simp; omega)
    | cons b digits =>
      obtain ⟨hb, hdigits⟩ := List.forall_mem_cons.1 h.all
      have hzero : b ≠ 48 := fun hb => first (by rw [hb]; rfl)
      exact ⟨.digits b digits ⟨hb, hzero⟩ hdigits, rfl, congrArg _ hvalue⟩

theorem WritesPrecision.exists_written {precision : Quantity} {text : List Byte}
    (h : WritesPrecision precision text) (hprecision : ∀ p, precision = .given p → p ≤ wordMax) :
    ∃ written : WrittenPrecision, written.text = text ∧ written.quantity = precision := by
  cases h with
  | absent => exact ⟨.absent, rfl, rfl⟩
  | fromArgument => exact ⟨.star, rfl, rfl⟩
  | @given p digits h =>
    exact ⟨.digits digits h.all, rfl, congrArg _ (h.saturatingDecimal_eq (hprecision p rfl))⟩

/-- A directive that can be written is the source of its text. -/
theorem WritesDirective.exists_source {spec : PrintSpec} {text : List Byte}
    (h : WritesDirective spec text) (hspec : spec.Writable) :
    ∃ body, PrintGrammar.IsSource (.directive spec) body ∧ text = opener :: body := by
  obtain @⟨flags, _, _, hflags, hwidth, hprecision⟩ := h
  obtain ⟨width, rfl, hsays⟩ := hwidth.exists_written hspec.width
  obtain ⟨precision, rfl, hprecise⟩ := hprecision.exists_written hspec.precision
  let d : WrittenDirective :=
    ⟨flags, width, precision, spec.length, spec.conversion,
      fun b hb => Flags.isFlag_of_spelling b ((hflags b).1 hb), hspec.printable, hspec.fits⟩
  have hlayout : d.opening.layout = spec.layout := by
    have hsettled := Flags.settle_eq_self hspec.leftOrZero hspec.plusOrBlank
    simp only [PrintOpening.layout, WrittenDirective.opening, d, Flags.ofBytes_of_spelling hflags,
      hsettled, hsays, hprecise]
  have hread : d.spec = spec := congrArg (PrintSpec.mk · spec.length spec.conversion) hlayout
  exact ⟨d.body, hread ▸ .directive d, rfl⟩

/-- A text that does not start with a literal starts with a percent sign. -/
theorem Writes.stopsAt {segments : List PrintSegment} {text : List Byte} (h : Writes segments text)
    (hfirst : ∀ run later, segments ≠ .literal run :: later) : StopsAt (· != opener) text := by
  intro b hb
  cases h with
  | nil => cases hb
  | literal => exact absurd rfl (hfirst _ _)
  | percent => cases hb; rfl
  | directive hd => cases hd; cases hb; rfl

theorem tiles_of_writes {segments : List PrintSegment} {text : List Byte} (h : Writable segments)
    (htext : Writes segments text) : PrintGrammar.grammar.Tiles segments text := by
  induction htext with
  | nil => exact .nil
  | literal htext ih =>
    cases h with
    | literal nonempty ordinary apart h =>
      exact .run (.literal ⟨nonempty, fun b hb => bne_iff_ne.2 (ordinary b hb),
        htext.stopsAt apart⟩) (ih h)
  | percent _ ih =>
    cases h with
    | percent h =>
      let o : PrintOpening := ⟨[], .absent, .absent, .plain, nofun⟩
      exact .directive (.percent o) (ih h)
  | directive hd _ ih =>
    cases h with
    | directive hspec h =>
      obtain ⟨body, hsource, rfl⟩ := hd.exists_source hspec
      exact .directive hsource (ih h)

/-- A list of segments that can be written has a text, and reading any text that writes
it gives the list back. -/
theorem parse_written {segments : List PrintSegment} (h : Writable segments) :
    (∃ text, Writes segments text) ∧ ∀ text, Writes segments text → parse text = .ok segments :=
  ⟨exists_writes h, fun _ htext => PrintGrammar.reads.ok_iff.2 (tiles_of_writes h htext)⟩

/-- A number with flags, a width and a precision, and a string that is cut. -/
def hexNumber : PrintSpec := ⟨⟨⟨true, false, false, true, false⟩, .given 12, .given 3⟩, .long, .x⟩

def cutString : PrintSpec := ⟨⟨Flags.none, .fromArgument, .given 0⟩, .plain, .s⟩

/-- Literals that could be taken for parts of the directives beside them. -/
theorem parse_written_neighbours :
    Writable [.literal (ascii "10"), .directive hexNumber, .literal (ascii "5.x"), .percent,
      .directive cutString] ∧
    parse (ascii "10%#-#12.003lx5.x%%%*.s") = .ok [.literal (ascii "10"), .directive hexNumber,
      .literal (ascii "5.x"), .percent, .directive cutString] := by
  have hwritable : Writable [.literal (ascii "10"), .directive hexNumber, .literal (ascii "5.x"),
      .percent, .directive cutString] := by
    have hnumber : hexNumber.Writable :=
      ⟨rfl, rfl, by decide, by decide, by rintro _ ⟨⟩; decide, by rintro _ ⟨⟩; decide⟩
    have hstring : cutString.Writable :=
      ⟨rfl, rfl, by decide, by decide, nofun, by rintro _ ⟨⟩; decide⟩
    exact .literal nofun (by decide +kernel) nofun (.directive hnumber
      (.literal nofun (by decide +kernel) nofun (.percent (.directive hstring .nil))))
  have hnumber : WritesDirective hexNumber (opener :: (ascii "#-#" ++ (ascii "12" ++
      ((ascii "." ++ ascii "003") ++ (ascii "l" ++ ascii "x"))))) := by
    have htwice : ascii "#-#" = [35, 45, 35] := by decide
    have honce : ascii hexNumber.layout.flags.spelling = [45, 35] := by decide
    refine .parts (fun b => ?_) (.given ⟨by decide +kernel, by decide⟩ (by decide))
      (.given ⟨by decide +kernel, by decide⟩)
    rw [htwice, honce]
    grind
  have hstring : WritesDirective cutString (opener :: (ascii "" ++ (ascii "*" ++
      ((ascii "." ++ ascii "") ++ (ascii "" ++ ascii "s"))))) :=
    .parts (fun b => .rfl) .fromArgument (.given ⟨nofun, rfl⟩)
  exact ⟨hwritable, (parse_written hwritable).2 _
    (.literal (.directive hnumber (.literal (.percent (.directive hstring .nil)))))⟩

end PrintFormat
end CheckedFormat
