import CheckedFormat.Proofs.FormatText
import CheckedFormat.Proofs.FormatGrammar
/-! The grammar of printing formats.

A directive is a percent sign, any flags, a width, a precision, a length modifier and a
letter, each but the last optional; a format is a sequence of directives and other
bytes. The grammar says this on the text alone, and leaves open which of its zeros are
flags and which are digits. `print_formats_by_grammar` says that reading accepts exactly the
formats of the grammar, that the segments tile the text, and that a format that is
refused is refused at the first percent sign that starts no directive, and for which
cause. -/
namespace CheckedFormat
namespace PrintGrammar

/-! ### The grammar -/

/-- The letters of the numbers that printing takes as floats. -/
def floats : List Byte := ascii "fFeEgG"

/-- A width: a star, digits, or nothing. -/
inductive IsWidth : List Byte → Prop where
  | digits {run : List Byte} (all : ∀ b ∈ run, b.isDigit) : IsWidth run
  | star : IsWidth (ascii "*")

/-- A precision: a point, and a star, digits, or nothing behind it; or nothing. -/
inductive IsPrecision : List Byte → Prop where
  | absent : IsPrecision []
  | digits {run : List Byte} (all : ∀ b ∈ run, b.isDigit) : IsPrecision (ascii "." ++ run)
  | star : IsPrecision (ascii ".*")

/-- What a directive may have between its percent sign and its letter, with a length
modifier at the end. -/
inductive IsOpening : LengthModifier → List Byte → Prop where
  | parts {flags width precision : List Byte} (length : LengthModifier)
      (areFlags : ∀ b ∈ flags, b ∈ ascii "-+ #0") (isWidth : IsWidth width)
      (isPrecision : IsPrecision precision) :
      IsOpening length (flags ++ (width ++ (precision ++ ascii length.spelling)))

/-- A directive. A second percent sign may stand behind any opening. -/
inductive IsDirective : List Byte → Prop where
  | percent {length : LengthModifier} {opening : List Byte} (h : IsOpening length opening) :
      IsDirective (opener :: (opening ++ [opener]))
  | letter {length : LengthModifier} {opening : List Byte} {letter : Byte}
      (h : IsOpening length opening) (fits : letter ∈ length.letters floats) :
      IsDirective (opener :: (opening ++ [letter]))

/-- What is wrong with a text behind a percent sign: it ends with the opening; or the
byte behind the longest opening is no letter; or the letter and the modifier do not go
together. -/
inductive Breaks : List Byte → Malformed → Prop where
  | truncated {length : LengthModifier} {opening : List Byte} (h : IsOpening length opening) :
      Breaks opening .truncated
  | unknownConversion {length : LengthModifier} {opening rest : List Byte} {letter : Byte}
      (h : IsOpening length opening)
      (longest : ∀ length', ¬ IsOpening length' (opening ++ [letter]))
      (unknown : letter ≠ opener ∧ letter ∉ LengthModifier.plain.letters floats) :
      Breaks (opening ++ letter :: rest) (.unknownConversion letter)
  | badLength {length : LengthModifier} {opening rest : List Byte} {letter : Byte}
      (h : IsOpening length opening) (known : letter ∈ LengthModifier.plain.letters floats)
      (misfits : letter ∉ length.letters floats) :
      Breaks (opening ++ letter :: rest) (.badLength length letter)

/-- The segment that a directive is, by its text behind the percent sign. -/
inductive IsSource : PrintSegment → List Byte → Prop where
  | percent (o : PrintOpening) : IsSource .percent (o.text ++ [opener])
  | directive (d : WrittenDirective) : IsSource (.directive d.spec) d.body

/-- A literal is a run of bytes that ends only at a percent sign or with the format. -/
inductive IsRun : PrintSegment → List Byte → List Byte → Prop where
  | literal {run rest : List Byte} (h : MaximalRun (· != opener) run rest) :
      IsRun (.literal run) run rest

/-- The grammar of printing formats. -/
def grammar : FormatGrammar PrintSegment := ⟨IsDirective, Breaks, IsSource, IsRun⟩

/-! ### Openings -/

theorem isWidth_nil : IsWidth [] := .digits (List.forall_mem_nil _)

/-- A width of the grammar is zeros, which are flags, and a width that starts with none. -/
theorem IsWidth.exists_written {text : List Byte} (h : IsWidth text) :
    ∃ (zeros : List Byte) (width : WrittenWidth),
      (∀ b ∈ zeros, b = 48) ∧ zeros ++ width.text = text := by
  cases h with
  | star => exact ⟨[], .star, List.forall_mem_nil _, rfl⟩
  | digits all =>
    have hsplit := List.takeWhile_append_dropWhile (p := (· == (48 : Byte))) (l := text)
    have hzeros : ∀ b ∈ text.takeWhile (· == (48 : Byte)), b = 48 := fun b hb =>
      eq_of_beq (of_mem_takeWhile _ _ b hb)
    have hfirst := stopsAt_dropWhile (· == (48 : Byte)) text
    cases hrest : text.dropWhile (· == (48 : Byte)) with
    | nil =>
      rw [hrest] at hsplit
      exact ⟨_, .absent, hzeros, hsplit⟩
    | cons first rest =>
      rw [hrest] at hsplit hfirst
      have hdigits : ∀ b ∈ first :: rest, b.isDigit := fun b hb =>
        all b (by rw [← hsplit]; exact List.mem_append_right _ hb)
      exact ⟨_, .digits first rest
        ⟨hdigits first List.mem_cons_self, beq_eq_false_iff_ne.1 (hfirst first rfl)⟩
        (fun b hb => hdigits b (List.mem_cons_of_mem first hb)), hzeros, hsplit⟩

theorem IsPrecision.exists_written {text : List Byte} (h : IsPrecision text) :
    ∃ precision : WrittenPrecision, precision.text = text := by
  cases h with
  | absent => exact ⟨.absent, rfl⟩
  | digits all => exact ⟨.digits _ all, rfl⟩
  | star => exact ⟨.star, rfl⟩

/-- The openings of the grammar are those that reading tells apart. -/
theorem isOpening_iff {length : LengthModifier} {text : List Byte} :
    IsOpening length text ↔ ∃ o : PrintOpening, o.length = length ∧ o.text = text := by
  constructor
  · rintro ⟨length, areFlags, isWidth, isPrecision⟩
    rename_i flags _ _
    obtain ⟨zeros, width, hzeros, rfl⟩ := isWidth.exists_written
    obtain ⟨precision, rfl⟩ := isPrecision.exists_written
    have hflags : ∀ b ∈ flags ++ zeros, Flags.isFlag b := fun b hb => by
      rcases List.mem_append.1 hb with hb | hb
      · simpa [Flags.isFlag, Flags.characters] using areFlags b hb
      · rw [hzeros b hb]
        decide
    exact ⟨⟨flags ++ zeros, width, precision, length, hflags⟩, rfl, by simp [PrintOpening.text]⟩
  · rintro ⟨⟨flags, width, precision, length, areFlags⟩, rfl, rfl⟩
    refine .parts length (fun b hb => ?_) ?_ ?_
    · simpa [Flags.isFlag, Flags.characters] using areFlags b hb
    · cases width with
      | absent => exact isWidth_nil
      | digits first rest positive all => exact .digits (List.forall_mem_cons.2 ⟨positive.1, all⟩)
      | star => exact .star
    · cases precision with
      | absent => exact .absent
      | digits run all => exact .digits all
      | star => exact .star

theorem isOpening_text (o : PrintOpening) : IsOpening o.length o.text :=
  isOpening_iff.2 ⟨o, rfl, rfl⟩

/-- Some opening is the text. -/
def StartsDirective (text : List Byte) : Prop := ∃ o : PrintOpening, o.text = text

theorem startsDirective_iff {text : List Byte} :
    StartsDirective text ↔ ∃ length, IsOpening length text := by
  constructor
  · rintro ⟨o, rfl⟩
    exact ⟨o.length, isOpening_text o⟩
  · rintro ⟨length, h⟩
    obtain ⟨o, _, htext⟩ := isOpening_iff.1 h
    exact ⟨o, htext⟩

/-- Reading splits openings off the front of a text. -/
theorem splitsOff : SplitsOff PrintOpening.text (fun o => (o.layout, o.length))
    PrintOpening.StopsBefore PrintSegment.split where
  exists_text := exists_opening
  split_text := PrintSegment.split_opening _
  of_head := PrintOpening.StopsBefore.of_head
  stopsBefore_nil := PrintOpening.stopsBefore_nil

theorem IsWidth.dropLast {text : List Byte} (h : IsWidth text) : IsWidth text.dropLast := by
  cases h with
  | digits all => exact .digits fun b hb => all b (List.dropLast_subset _ hb)
  | star => exact isWidth_nil

theorem IsPrecision.dropLast {text : List Byte} (h : IsPrecision text) :
    IsPrecision text.dropLast := by
  cases h with
  | absent => exact .absent
  | star => exact .digits (List.forall_mem_nil _)
  | @digits run all =>
    cases run with
    | nil => exact .absent
    | cons b run => exact .digits fun c hc => all c (List.dropLast_subset _ hc)

/-- Every start of an opening is an opening. -/
theorem prefixClosed_startsDirective : PrefixClosed StartsDirective := by
  refine prefixClosed_of_dropLast fun text h => startsDirective_iff.2 ?_
  obtain ⟨length, @⟨flags, width, precision, _, areFlags, isWidth, isPrecision⟩⟩ :=
    startsDirective_iff.1 h
  obtain ⟨shorter, hshorter⟩ := length.exists_dropLast
  -- The last byte belongs to the last part that is not empty.
  rw [List.dropLast_append]
  split
  · refine ⟨.plain, ?_⟩
    simpa [ascii, LengthModifier.spelling] using
      IsOpening.parts .plain (fun b hb => areFlags b (List.dropLast_subset _ hb))
        isWidth_nil .absent
  rw [List.dropLast_append]
  split
  · refine ⟨.plain, ?_⟩
    simpa [ascii, LengthModifier.spelling] using
      IsOpening.parts .plain areFlags isWidth.dropLast .absent
  rw [List.dropLast_append]
  split
  · refine ⟨.plain, ?_⟩
    simpa [ascii, LengthModifier.spelling] using
      IsOpening.parts .plain areFlags isWidth isPrecision.dropLast
  · rw [← hshorter]
    exact ⟨shorter, .parts shorter areFlags isWidth isPrecision⟩

/-- Reading goes by what stands behind the longest opening. -/
theorem parse_of_longest {o : PrintOpening} {rest : List Byte}
    (h : LongestStart StartsDirective o.text rest) :
    PrintSegment.parse (o.text ++ rest) = PrintSegment.conclude o.layout o.length rest := by
  rw [PrintSegment.parse_eq, splitsOff.split_of_longest prefixClosed_startsDirective h]

/-! ### Letters -/

/-- The letters of the grammar are letters of conversions. -/
theorem exists_conversion {length : LengthModifier} {letter : Byte}
    (h : letter ∈ length.letters floats) : ∃ conversion : Conversion, conversion.letter = letter := by
  have hall : ∀ b ∈ length.letters floats, ∃ conversion ∈ Conversion.all, conversion.letter = b := by
    cases length <;> decide +kernel
  obtain ⟨conversion, _, hconversion⟩ := hall letter h
  exact ⟨conversion, hconversion⟩

/-- They are those of the conversions that printing knows, each behind the modifiers that
go with it. -/
theorem letter_mem_letters_iff {length : LengthModifier} {conversion : Conversion} :
    conversion.letter ∈ length.letters floats ↔
      conversion.isPrintable = true ∧ length.printable conversion = true := by
  have hall : ∀ conversion ∈ Conversion.all, conversion.letter ∈ length.letters floats ↔
      conversion.isPrintable = true ∧ length.printable conversion = true := by
    cases length <;> decide +kernel
  exact hall conversion (by cases conversion <;> decide)

/-- What stands for a byte that is the letter of a printing conversion. -/
theorem ofLetter?_filter_eq_some_iff {letter : Byte} {conversion : Conversion} :
    (Conversion.ofLetter? letter).filter (·.isPrintable) = some conversion ↔
      conversion.letter = letter ∧ conversion.isPrintable = true := by
  rw [Option.filter_eq_some_iff, Conversion.ofLetter?_eq_some_iff]

/-! ### One directive -/

section Conclude
variable (layout : Layout) (length : LengthModifier) {letter : Byte} (rest : List Byte)

theorem conclude_unknown (hpercent : letter ≠ opener)
    (hletter : letter ∉ LengthModifier.plain.letters floats) :
    PrintSegment.conclude layout length (letter :: rest) = .error (.unknownConversion letter) := by
  have hnone : (Conversion.ofLetter? letter).filter (·.isPrintable) = none := by
    rw [Option.eq_none_iff_forall_ne_some]
    intro conversion hconversion
    obtain ⟨hname, hprintable⟩ := ofLetter?_filter_eq_some_iff.1 hconversion
    subst hname
    exact hletter (letter_mem_letters_iff.2 ⟨hprintable, rfl⟩)
  simp only [PrintSegment.conclude, beq_eq_false_iff_ne.2 hpercent, hnone, Bool.false_eq_true,
    if_false]

variable {conversion : Conversion} (hprintable : conversion.isPrintable = true)
include hprintable

/-- A letter is taken where the modifier goes with it. -/
theorem conclude_letter : PrintSegment.conclude layout length (conversion.letter :: rest) =
    if length.printable conversion then .ok (.directive ⟨layout, length, conversion⟩, rest)
    else .error (.badLength length conversion.letter) := by
  simp only [PrintSegment.conclude, conversion.letter_ne_opener,
    ofLetter?_filter_eq_some_iff.2 ⟨rfl, hprintable⟩, Bool.false_eq_true, if_false]

end Conclude

/-- The kinds of letters behind an opening. -/
theorem letter_cases (letter : Byte) :
    letter = opener ∨ (letter ≠ opener ∧ letter ∉ LengthModifier.plain.letters floats) ∨
      ∃ conversion : Conversion, letter = conversion.letter ∧ conversion.isPrintable = true := by
  by_cases hpercent : letter = opener
  · exact .inl hpercent
  · by_cases hletter : letter ∈ LengthModifier.plain.letters floats
    · obtain ⟨conversion, rfl⟩ := exists_conversion hletter
      obtain ⟨hprintable, _⟩ := letter_mem_letters_iff.1 hletter
      exact .inr (.inr ⟨conversion, rfl, hprintable⟩)
    · exact .inr (.inl ⟨hpercent, hletter⟩)

/-- A text behind a percent sign is read as the segment that it starts with, or breaks the
grammar and is refused for that. -/
theorem parse_cases (text : List Byte) :
    (∃ segment body rest, IsSource segment body ∧ text = body ++ rest ∧
      PrintSegment.parse text = .ok (segment, rest)) ∨
    ∃ cause, Breaks text cause ∧ PrintSegment.parse text = .error cause := by
  obtain ⟨o, later, rfl, hstops⟩ := exists_opening text
  rw [PrintSegment.parse_opening o hstops]
  cases later with
  | nil => exact .inr ⟨_, by rw [List.append_nil]; exact .truncated (isOpening_text o), rfl⟩
  | cons letter later =>
    rcases letter_cases letter with rfl | ⟨hpercent, hunknown⟩ | ⟨conversion, rfl, hprintable⟩
    · exact .inl ⟨_, _, later, .percent o, by simp, rfl⟩
    · have hlongest : ∀ length, ¬ IsOpening length (o.text ++ [letter]) := fun length hlonger =>
        (splitsOff.longestStart hstops).ends letter rfl (startsDirective_iff.2 ⟨length, hlonger⟩)
      exact .inr ⟨_, .unknownConversion (isOpening_text o) hlongest ⟨hpercent, hunknown⟩,
        conclude_unknown _ _ _ hpercent hunknown⟩
    · rw [conclude_letter _ _ _ hprintable]
      split
      · rename_i hfits
        let d : WrittenDirective :=
          ⟨o.flags, o.width, o.precision, o.length, conversion, o.areFlags, hprintable, hfits⟩
        exact .inl ⟨_, _, later, .directive d, (d.body_append later).symm, rfl⟩
      · rename_i hmisfits
        exact .inr ⟨_, .badLength (isOpening_text o) (letter_mem_letters_iff.2 ⟨hprintable, rfl⟩)
          (fun hletter => hmisfits (letter_mem_letters_iff.1 hletter).2), rfl⟩

theorem parse_of_source {segment : PrintSegment} {body : List Byte} (h : IsSource segment body)
    (rest : List Byte) : PrintSegment.parse (body ++ rest) = .ok (segment, rest) := by
  cases h with
  | directive d => exact PrintSegment.parse_body d rest
  | percent o =>
    have hstops : o.StopsBefore (opener :: rest) := o.stopsBefore_of_ends fun b hb => by
      cases hb
      decide
    rw [List.append_assoc, List.singleton_append, PrintSegment.parse_opening o hstops]
    rfl

theorem parse_of_breaks {text : List Byte} {cause : Malformed} (h : Breaks text cause) :
    PrintSegment.parse text = .error cause := by
  cases h with
  | truncated h =>
    obtain ⟨o, _, rfl⟩ := isOpening_iff.1 h
    have hparse := parse_of_longest (splitsOff.longestStart o.stopsBefore_nil)
    rw [List.append_nil] at hparse
    exact hparse
  | @unknownConversion _ _ rest letter h longest unknown =>
    obtain ⟨o, rfl, rfl⟩ := isOpening_iff.1 h
    have hlongest : LongestStart StartsDirective o.text (letter :: rest) := by
      refine ⟨⟨o, rfl⟩, fun b hb hlonger => ?_⟩
      cases hb
      obtain ⟨length, hlonger⟩ := startsDirective_iff.1 hlonger
      exact longest length hlonger
    rw [parse_of_longest hlongest, conclude_unknown _ _ _ unknown.1 unknown.2]
  | @badLength _ _ rest _ h known misfits =>
    obtain ⟨o, rfl, rfl⟩ := isOpening_iff.1 h
    obtain ⟨conversion, rfl⟩ := exists_conversion known
    obtain ⟨hprintable, _⟩ := letter_mem_letters_iff.1 known
    have hstops : o.StopsBefore (conversion.letter :: rest) := o.stopsBefore_of_ends fun b hb => by
      cases hb
      exact conversion.letter_ends
    rw [PrintSegment.parse_opening o hstops, conclude_letter _ _ _ hprintable,
      if_neg fun hfits => misfits (letter_mem_letters_iff.2 ⟨hprintable, hfits⟩)]

theorem isDirective_iff {text : List Byte} :
    IsDirective text ↔ ∃ segment body, IsSource segment body ∧ text = opener :: body := by
  constructor
  · intro h
    cases h with
    | percent h =>
      obtain ⟨o, _, rfl⟩ := isOpening_iff.1 h
      exact ⟨_, _, .percent o, rfl⟩
    | letter h fits =>
      obtain ⟨o, rfl, rfl⟩ := isOpening_iff.1 h
      obtain ⟨conversion, rfl⟩ := exists_conversion fits
      obtain ⟨hprintable, hfits⟩ := letter_mem_letters_iff.1 fits
      let d : WrittenDirective :=
        ⟨o.flags, o.width, o.precision, o.length, conversion, o.areFlags, hprintable, hfits⟩
      exact ⟨_, _, .directive d, congrArg _ d.body_eq.symm⟩
  · rintro ⟨_, _, ⟨o⟩ | ⟨d⟩, rfl⟩
    · exact .percent (isOpening_text o)
    · rw [d.body_eq]
      exact .letter (isOpening_text d.opening)
        (letter_mem_letters_iff.2 ⟨d.printable, d.fits⟩)

/-! ### Whole formats -/

/-- Reading takes one part of a format at a time as the grammar has it. -/
theorem reads : grammar.Reads PrintSegment.parse PrintFormat.parseRest where
  parse_cases := parse_cases
  parse_of_directive := parse_of_source
  parse_of_breaks := parse_of_breaks
  isDirective_iff := isDirective_iff
  run_ordinary := by
    rintro _ _ _ ⟨hrun⟩
    exact ⟨hrun.nonempty, hrun.ne rfl⟩
  run_before := by
    intro segment run rest after
    constructor
    · rintro ⟨hrun⟩
      exact .literal ((MaximalRun.before_iff rfl).1 hrun)
    · rintro ⟨hrun⟩
      exact .literal ((MaximalRun.before_iff rfl).2 hrun)
  exists_run := by
    intro b after hb
    have hrun := maximalRun_of_first (p := (· != opener)) (bne_iff_ne.2 hb) after
    exact ⟨_, _, _, .literal hrun, by rw [List.cons_append, List.takeWhile_append_dropWhile]⟩
  parseRest_nil := PrintFormat.parseRest_nil
  parseRest_directive := PrintFormat.parseRest_directive
  parseRest_malformed := PrintFormat.parseRest_malformed
  parseRest_run := by
    rintro size _ _ _ ⟨hrun⟩
    exact PrintFormat.parseRest_literal size hrun.nonempty hrun.all hrun.stops

theorem IsSource.ne_nil {segment : PrintSegment} {body : List Byte} (h : IsSource segment body) :
    body ≠ [] := by
  cases h <;> simp [WrittenDirective.body]

/-- Reading a format succeeds just on the formats of the grammar. The segments that it
gives tile the text, each directive with at least a byte behind its percent sign. A
format that is refused is one up to the percent sign at the offset, which starts no
directive, for the cause by which the text behind it breaks the grammar. -/
theorem print_formats_by_grammar (format : List Byte) :
    ((∃ segments, PrintFormat.parse format = .ok segments) ↔ grammar.IsFormat format) ∧
    (∀ segments, PrintFormat.parse format = .ok segments ↔ grammar.Tiles segments format) ∧
    (∀ e, PrintFormat.parse format = .error e ↔ grammar.Refused format e) ∧
    ∀ text segment rest, PrintSegment.parse text = .ok (segment, rest) ↔
      ∃ body, body ≠ [] ∧ IsSource segment body ∧ text = body ++ rest := by
  refine ⟨reads.accepts_iff, fun _ => reads.ok_iff, fun _ => reads.error_iff,
    fun text segment rest => ?_⟩
  rw [reads.directive_iff]
  exact exists_congr fun body => ⟨fun ⟨h, htext⟩ => ⟨h.ne_nil, h, htext⟩, fun ⟨_, h⟩ => h⟩

end PrintGrammar
end CheckedFormat
