import CheckedFormat.Proofs.FormatGrammar
import CheckedFormat.Proofs.FormatText
import CheckedFormat.Proofs.SetText
/-! The grammar of scanning formats.

A directive is a percent sign, a star, a width, a length modifier and a letter or a byte
set, each but the last optional; two percent signs with nothing between them are one, too.
A format is a sequence of directives and other bytes. `scan_formats_by_grammar` says that
reading accepts exactly the formats of the grammar, that the segments tile the text, and
that a format that is refused is refused at the first percent sign that starts no
directive, and for which cause. -/
namespace CheckedFormat
namespace ScanGrammar

open ByteSet (IsSetText)
open ScanSegment (setOpener)

/-! ### The grammar -/

/-- The letters of the numbers that scanning takes as floats. -/
def floats : List Byte := ascii "fFeEgGaA"

/-- What a directive may have between its percent sign and its letter, with a length
modifier at the end. -/
inductive IsOpening : LengthModifier → List Byte → Prop where
  | parts {star digits : List Byte} (length : LengthModifier)
      (isStar : star = [] ∨ star = ascii "*") (areDigits : ∀ b ∈ digits, b.isDigit) :
      IsOpening length (star ++ (digits ++ ascii length.spelling))

/-- A directive. A set goes with no modifier. -/
inductive IsDirective : List Byte → Prop where
  | percent : IsDirective [opener, opener]
  | letter {length : LengthModifier} {opening : List Byte} {letter : Byte}
      (h : IsOpening length opening) (fits : letter ∈ length.letters floats) :
      IsDirective (opener :: (opening ++ [letter]))
  | set {opening body : List Byte} (h : IsOpening .plain opening) (hset : IsSetText body) :
      IsDirective (opener :: (opening ++ setOpener :: body))

/-- What is wrong with a text behind a percent sign: it ends with the opening; or a
bracket opens no set; or the byte behind the longest opening is no letter; or the letter
or the set does not go with the modifier. -/
inductive Breaks : List Byte → Malformed → Prop where
  | truncated {length : LengthModifier} {opening : List Byte} (h : IsOpening length opening) :
      Breaks opening .truncated
  | unterminatedSet {length : LengthModifier} {opening rest : List Byte}
      (h : IsOpening length opening) (none : ∀ body later, IsSetText body → rest ≠ body ++ later) :
      Breaks (opening ++ setOpener :: rest) .unterminatedSet
  | unknownConversion {length : LengthModifier} {opening rest : List Byte} {letter : Byte}
      (h : IsOpening length opening)
      (longest : ∀ length', ¬ IsOpening length' (opening ++ [letter]))
      (unknown : letter ≠ setOpener ∧ letter ∉ LengthModifier.plain.letters floats)
      (notPercent : opening = [] → letter ≠ opener) :
      Breaks (opening ++ letter :: rest) (.unknownConversion letter)
  | badLetter {length : LengthModifier} {opening rest : List Byte} {letter : Byte}
      (h : IsOpening length opening) (known : letter ∈ LengthModifier.plain.letters floats)
      (misfits : letter ∉ length.letters floats) :
      Breaks (opening ++ letter :: rest) (.badLength length letter)
  | badSet {length : LengthModifier} {opening body rest : List Byte} (h : IsOpening length opening)
      (hset : IsSetText body) (misfits : length ≠ .plain) :
      Breaks (opening ++ setOpener :: (body ++ rest)) (.badLength length setOpener)

/-- The segment that a directive is, by its text behind the percent sign. -/
inductive IsSource : ScanSegment → List Byte → Prop where
  | percent : IsSource .percent [opener]
  | letter (o : ScanOpening) {conversion : Conversion} (fits : o.length.scannable conversion = true) :
      IsSource (.directive ⟨o.suppress, o.width, o.length, .letter conversion⟩)
        (o.text ++ [conversion.letter])
  | set (o : ScanOpening) {body : List Byte} {members : ByteSet} (hset : IsSetText body)
      (hmembers : ByteSet.take body = some (members, [])) (fits : o.length = .plain) :
      IsSource (.directive ⟨o.suppress, o.width, o.length, .set members⟩)
        (o.text ++ setOpener :: body)

/-- White space, or a run of other ordinary bytes, as long as it goes. -/
inductive IsRun : ScanSegment → List Byte → List Byte → Prop where
  | space {run rest : List Byte} (h : MaximalRun Byte.isSpace run rest) : IsRun .space run rest
  | literal {run rest : List Byte} (h : MaximalRun ScanFormat.isOrdinary run rest) :
      IsRun (.literal run) run rest

/-- The grammar of scanning formats. -/
def grammar : FormatGrammar ScanSegment := ⟨IsDirective, Breaks, IsSource, IsRun⟩

/-! ### Openings -/

/-- The openings of the grammar are those that reading tells apart. -/
theorem isOpening_iff {length : LengthModifier} {text : List Byte} :
    IsOpening length text ↔ ∃ o : ScanOpening, o.length = length ∧ o.text = text := by
  constructor
  · rintro ⟨length, rfl | rfl, areDigits⟩
    · exact ⟨⟨false, _, length, areDigits⟩, rfl, rfl⟩
    · exact ⟨⟨true, _, length, areDigits⟩, rfl, rfl⟩
  · rintro ⟨⟨suppress, digits, length, areDigits⟩, rfl, rfl⟩
    refine .parts length ?_ areDigits
    cases suppress
    · exact .inl rfl
    · exact .inr rfl

theorem isOpening_text (o : ScanOpening) : IsOpening o.length o.text :=
  isOpening_iff.2 ⟨o, rfl, rfl⟩

/-- Some opening is the text. -/
def StartsDirective (text : List Byte) : Prop := ∃ o : ScanOpening, o.text = text

theorem startsDirective_iff {text : List Byte} :
    StartsDirective text ↔ ∃ length, IsOpening length text := by
  constructor
  · rintro ⟨o, rfl⟩
    exact ⟨o.length, isOpening_text o⟩
  · rintro ⟨length, h⟩
    obtain ⟨o, _, htext⟩ := isOpening_iff.1 h
    exact ⟨o, htext⟩

/-- Reading splits openings off the front of a text. -/
theorem splitsOff : SplitsOff ScanOpening.text (fun o => (o.suppress, o.width, o.length))
    ScanOpening.StopsBefore ScanSegment.split where
  exists_text := ScanOpening.exists_text
  split_text := ScanSegment.split_opening _
  of_head := ScanOpening.StopsBefore.of_head
  stopsBefore_nil o := o.stopsBefore_of_ends nofun

/-- Every start of an opening is an opening. -/
theorem prefixClosed_startsDirective : PrefixClosed StartsDirective := by
  refine prefixClosed_of_dropLast fun text h => startsDirective_iff.2 ?_
  obtain ⟨length, @⟨star, digits, _, isStar, areDigits⟩⟩ := startsDirective_iff.1 h
  obtain ⟨shorter, hshorter⟩ := length.exists_dropLast
  -- The last byte belongs to the last part that is not empty.
  rw [List.dropLast_append]
  split
  · have hstar : star.dropLast = [] := by rcases isStar with rfl | rfl <;> rfl
    have hnone : IsOpening .plain ([] ++ ([] ++ ascii LengthModifier.plain.spelling)) :=
      .parts .plain (.inl rfl) nofun
    exact ⟨.plain, by rw [hstar]; exact hnone⟩
  rw [List.dropLast_append]
  split
  · have hdigits : IsOpening .plain
        (star ++ (digits.dropLast ++ ascii LengthModifier.plain.spelling)) :=
      .parts .plain isStar fun b hb => areDigits b (List.dropLast_subset _ hb)
    exact ⟨.plain, by simpa [ascii, LengthModifier.spelling] using hdigits⟩
  · rw [← hshorter]
    exact ⟨shorter, .parts shorter isStar areDigits⟩

/-- A percent sign right behind the first one follows no opening. -/
theorem eq_nil_of_opener {front rest later : List Byte} (h : LongestStart StartsDirective front rest)
    (htext : front ++ rest = opener :: later) : front = [] ∧ rest = opener :: later := by
  let none : ScanOpening := ⟨false, [], .plain, nofun⟩
  have hstops : none.StopsBefore (opener :: later) := none.stopsBefore_of_ends fun b hb => by
    cases hb
    decide
  exact h.unique prefixClosed_startsDirective (splitsOff.longestStart hstops) htext

/-- Reading goes by what stands behind the longest opening, but for a percent sign right
behind the first one. -/
theorem parse_of_longest {o : ScanOpening} {rest : List Byte}
    (h : LongestStart StartsDirective o.text rest)
    (hpercent : o.text = [] → ∀ later, rest ≠ opener :: later) :
    ScanSegment.parse (o.text ++ rest) = ScanSegment.conclude o.suppress o.width o.length rest := by
  have hopener : ∀ later, o.text ++ rest ≠ opener :: later := fun later htext =>
    hpercent (eq_nil_of_opener h htext).1 later (eq_nil_of_opener h htext).2
  rw [ScanSegment.parse_eq_parseDirective hopener, ScanSegment.parseDirective_eq,
    splitsOff.split_of_longest prefixClosed_startsDirective h]

/-- In front of a letter or a bracket an opening is the longest. -/
theorem parse_of_ends {o : ScanOpening} {b : Byte} {rest : List Byte}
    (hends : b.endsOpening = true) (hb : b ≠ opener) :
    ScanSegment.parse (o.text ++ b :: rest) =
      ScanSegment.conclude o.suppress o.width o.length (b :: rest) := by
  have hstops : o.StopsBefore (b :: rest) := o.stopsBefore_of_ends fun c hc => by
    cases hc
    exact hends
  exact parse_of_longest (splitsOff.longestStart hstops) fun _ _ heq => hb (List.cons.inj heq).1

/-! ### Letters -/

/-- The letters of the grammar are letters of conversions. -/
theorem exists_conversion {length : LengthModifier} {letter : Byte}
    (h : letter ∈ length.letters floats) : ∃ conversion : Conversion, conversion.letter = letter := by
  have hall : ∀ b ∈ length.letters floats, ∃ conversion ∈ Conversion.all, conversion.letter = b := by
    cases length <;> decide +kernel
  obtain ⟨conversion, _, hconversion⟩ := hall letter h
  exact ⟨conversion, hconversion⟩

/-- They are those of all conversions, each behind the modifiers that go with it. -/
theorem letter_mem_letters_iff {length : LengthModifier} {conversion : Conversion} :
    conversion.letter ∈ length.letters floats ↔ length.scannable conversion = true := by
  have hall : ∀ conversion ∈ Conversion.all, conversion.letter ∈ length.letters floats ↔
      length.scannable conversion = true := by
    cases length <;> decide +kernel
  exact hall conversion (by cases conversion <;> decide)

/-- The kinds of letters behind an opening. -/
theorem letter_cases (letter : Byte) :
    letter = setOpener ∨ (letter ≠ setOpener ∧ letter ∉ LengthModifier.plain.letters floats) ∨
      ∃ conversion : Conversion, letter = conversion.letter := by
  by_cases hset : letter = setOpener
  · exact .inl hset
  · by_cases hletter : letter ∈ LengthModifier.plain.letters floats
    · obtain ⟨conversion, rfl⟩ := exists_conversion hletter
      exact .inr (.inr ⟨conversion, rfl⟩)
    · exact .inr (.inl ⟨hset, hletter⟩)

/-! ### One directive -/

theorem takeConversion_unknown {letter : Byte} {rest : List Byte}
    (h : letter ≠ setOpener ∧ letter ∉ LengthModifier.plain.letters floats) :
    ScanSegment.takeConversion (letter :: rest) = .error (.unknownConversion letter) := by
  have hnone : Conversion.ofLetter? letter = none := by
    rw [Option.eq_none_iff_forall_ne_some]
    intro conversion hconversion
    obtain rfl := Conversion.ofLetter?_eq_some_iff.1 hconversion
    exact h.2 (letter_mem_letters_iff.2 rfl)
  simp [ScanSegment.takeConversion, h.1, hnone]

theorem takeConversion_unterminated {rest : List Byte} (h : ByteSet.take rest = none) :
    ScanSegment.takeConversion (setOpener :: rest) = .error .unterminatedSet := by
  simp [ScanSegment.takeConversion, h]

/-- A text behind a percent sign is read as the segment that it starts with, or breaks the
grammar and is refused for that. -/
theorem parse_cases (text : List Byte) :
    (∃ segment body rest, IsSource segment body ∧ text = body ++ rest ∧
      ScanSegment.parse text = .ok (segment, rest)) ∨
    ∃ cause, Breaks text cause ∧ ScanSegment.parse text = .error cause := by
  by_cases hpercent : ∃ later, text = opener :: later
  · obtain ⟨later, rfl⟩ := hpercent
    exact .inl ⟨_, _, later, .percent, rfl, rfl⟩
  obtain ⟨o, later, rfl, hstops⟩ := ScanOpening.exists_text text
  have hlongest := splitsOff.longestStart hstops
  rw [parse_of_longest hlongest
    fun hnone later hlater => hpercent ⟨later, by rw [hnone, hlater, List.nil_append]⟩]
  cases later with
  | nil => exact .inr ⟨_, by rw [List.append_nil]; exact .truncated (isOpening_text o), rfl⟩
  | cons letter later =>
    rcases letter_cases letter with rfl | hunknown | ⟨conversion, rfl⟩
    · cases hset : ByteSet.take later with
      | none =>
        exact .inr ⟨_, .unterminatedSet (isOpening_text o) (ByteSet.take_eq_none_iff.1 hset),
          ScanSegment.conclude_error _ _ _ (takeConversion_unterminated hset)⟩
      | some taken =>
        obtain ⟨members, behind⟩ := taken
        obtain ⟨body, hbody, hmembers, rfl⟩ := ByteSet.take_eq_some_iff.1 hset
        rw [ScanSegment.conclude_set _ _ _ hset]
        split
        · rename_i hplain
          exact .inl ⟨_, _, behind, .set o hbody hmembers hplain, by simp, rfl⟩
        · rename_i hplain
          exact .inr ⟨_, .badSet (isOpening_text o) hbody hplain, rfl⟩
    · have hnot : o.text = [] → letter ≠ opener := fun hnone hletter =>
        hpercent ⟨later, by rw [hnone, hletter, List.nil_append]⟩
      exact .inr ⟨_, .unknownConversion (isOpening_text o) (fun length hlonger =>
        hlongest.ends letter rfl (startsDirective_iff.2 ⟨length, hlonger⟩)) hunknown hnot,
        ScanSegment.conclude_error _ _ _ (takeConversion_unknown hunknown)⟩
    · rw [ScanSegment.conclude_letter]
      split
      · rename_i hfits
        exact .inl ⟨_, _, later, .letter o hfits, by simp, rfl⟩
      · rename_i hmisfits
        exact .inr ⟨_, .badLetter (isOpening_text o) (letter_mem_letters_iff.2 rfl)
          (fun hletter => hmisfits (letter_mem_letters_iff.1 hletter)), rfl⟩

theorem parse_of_source {segment : ScanSegment} {body : List Byte} (h : IsSource segment body)
    (rest : List Byte) : ScanSegment.parse (body ++ rest) = .ok (segment, rest) := by
  cases h with
  | percent => rfl
  | @letter o conversion fits =>
    have hletter : conversion.letter ≠ opener := by cases conversion <;> decide
    rw [List.append_assoc, List.singleton_append, parse_of_ends conversion.letter_ends hletter,
      ScanSegment.conclude_letter, if_pos fits]
  | @set o body members hset hmembers fits =>
    have htake : ByteSet.take (body ++ rest) = some (members, rest) :=
      ByteSet.take_eq_some_iff.2 ⟨body, hset, hmembers, rfl⟩
    rw [List.append_assoc, List.cons_append, parse_of_ends (by decide) (by decide),
      ScanSegment.conclude_set _ _ _ htake, if_pos fits]

theorem parse_of_breaks {text : List Byte} {cause : Malformed} (h : Breaks text cause) :
    ScanSegment.parse text = .error cause := by
  cases h with
  | truncated h =>
    obtain ⟨o, _, rfl⟩ := isOpening_iff.1 h
    have hparse := parse_of_longest (splitsOff.longestStart (splitsOff.stopsBefore_nil o))
      fun _ _ heq => List.cons_ne_nil _ _ heq.symm
    rw [List.append_nil] at hparse
    exact hparse
  | unterminatedSet h none =>
    obtain ⟨o, rfl, rfl⟩ := isOpening_iff.1 h
    rw [parse_of_ends (by decide) (by decide), ScanSegment.conclude_error _ _ _
      (takeConversion_unterminated (ByteSet.take_eq_none_iff.2 none))]
  | @unknownConversion _ _ rest letter h longest unknown notPercent =>
    obtain ⟨o, rfl, rfl⟩ := isOpening_iff.1 h
    have hlongest : LongestStart StartsDirective o.text (letter :: rest) := by
      refine ⟨⟨o, rfl⟩, fun b hb hlonger => ?_⟩
      cases hb
      obtain ⟨length, hlonger⟩ := startsDirective_iff.1 hlonger
      exact longest length hlonger
    rw [parse_of_longest hlongest fun hnone _ heq => notPercent hnone (List.cons.inj heq).1,
      ScanSegment.conclude_error _ _ _ (takeConversion_unknown unknown)]
  | badLetter h known misfits =>
    obtain ⟨o, rfl, rfl⟩ := isOpening_iff.1 h
    obtain ⟨conversion, rfl⟩ := exists_conversion known
    have hletter : conversion.letter ≠ opener := by cases conversion <;> decide
    rw [parse_of_ends conversion.letter_ends hletter, ScanSegment.conclude_letter,
      if_neg fun hfits => misfits (letter_mem_letters_iff.2 hfits)]
  | badSet h hset misfits =>
    obtain ⟨o, rfl, rfl⟩ := isOpening_iff.1 h
    obtain ⟨members, htake⟩ := ByteSet.exists_take hset
    rw [parse_of_ends (by decide) (by decide), ScanSegment.conclude_set _ _ _ (htake _),
      if_neg misfits]

theorem isDirective_iff {text : List Byte} :
    IsDirective text ↔ ∃ segment body, IsSource segment body ∧ text = opener :: body := by
  constructor
  · intro h
    cases h with
    | percent => exact ⟨_, _, .percent, rfl⟩
    | letter h fits =>
      obtain ⟨o, rfl, rfl⟩ := isOpening_iff.1 h
      obtain ⟨conversion, rfl⟩ := exists_conversion fits
      exact ⟨_, _, .letter o (letter_mem_letters_iff.1 fits), rfl⟩
    | set h hset =>
      obtain ⟨o, hplain, rfl⟩ := isOpening_iff.1 h
      obtain ⟨members, htake⟩ := ByteSet.exists_take hset
      have hmembers := htake []
      rw [List.append_nil] at hmembers
      exact ⟨_, _, .set o hset hmembers hplain, rfl⟩
  · rintro ⟨_, _, _ | ⟨o, fits⟩ | ⟨o, hset, _, fits⟩, rfl⟩
    · exact .percent
    · exact .letter (isOpening_text o) (letter_mem_letters_iff.2 fits)
    · exact .set (fits ▸ isOpening_text o) hset

theorem IsSource.ne_nil {segment : ScanSegment} {body : List Byte} (h : IsSource segment body) :
    body ≠ [] := by
  cases h <;> simp

/-! ### Whole formats -/

/-- Reading takes one part of a format at a time as the grammar has it. -/
theorem reads : grammar.Reads ScanSegment.parse ScanFormat.parseRest where
  parse_cases := parse_cases
  parse_of_directive := parse_of_source
  parse_of_breaks := parse_of_breaks
  isDirective_iff := isDirective_iff
  run_ordinary := by
    rintro _ _ _ (⟨hrun⟩ | ⟨hrun⟩)
    · exact ⟨hrun.nonempty, hrun.ne rfl⟩
    · exact ⟨hrun.nonempty, hrun.ne rfl⟩
  run_before := by
    intro segment run rest after
    constructor
    · rintro (⟨hrun⟩ | ⟨hrun⟩)
      · exact .space ((MaximalRun.before_iff rfl).1 hrun)
      · exact .literal ((MaximalRun.before_iff rfl).1 hrun)
    · rintro (⟨hrun⟩ | ⟨hrun⟩)
      · exact .space ((MaximalRun.before_iff rfl).2 hrun)
      · exact .literal ((MaximalRun.before_iff rfl).2 hrun)
  exists_run := by
    intro b after hb
    by_cases hspace : b.isSpace = true
    · exact ⟨_, _, _, .space (maximalRun_of_first hspace after),
        by rw [List.cons_append, List.takeWhile_append_dropWhile]⟩
    · have hordinary : ScanFormat.isOrdinary b = true := by
        rw [ScanFormat.isOrdinary, Bool.eq_false_iff.2 hspace]
        exact bne_iff_ne.2 hb
      exact ⟨_, _, _, .literal (maximalRun_of_first hordinary after),
        by rw [List.cons_append, List.takeWhile_append_dropWhile]⟩
  parseRest_nil := ScanFormat.parseRest_nil
  parseRest_directive := ScanFormat.parseRest_directive
  parseRest_malformed := ScanFormat.parseRest_malformed
  parseRest_run := by
    rintro size _ _ _ (⟨hrun⟩ | ⟨hrun⟩)
    · exact ScanFormat.parseRest_space size hrun.nonempty hrun.all hrun.stops
    · exact ScanFormat.parseRest_literal size hrun.nonempty hrun.all hrun.stops

/-- Reading a format succeeds just on the formats of the grammar. The segments that it
gives tile the text, a byte set in one piece with its directive, and a width is left out
where its digits say none. A format that is refused is one up to the percent sign at the
offset, which starts no directive, for the cause by which the text behind it breaks the
grammar. -/
theorem scan_formats_by_grammar (format : List Byte) :
    ((∃ segments, ScanFormat.parse format = .ok segments) ↔ grammar.IsFormat format) ∧
    (∀ segments, ScanFormat.parse format = .ok segments ↔ grammar.Tiles segments format) ∧
    (∀ e, ScanFormat.parse format = .error e ↔ grammar.Refused format e) ∧
    (∀ text segment rest, ScanSegment.parse text = .ok (segment, rest) ↔
      ∃ body, body ≠ [] ∧ IsSource segment body ∧ text = body ++ rest) ∧
    ∀ o : ScanOpening, o.width = none ↔ ∀ b ∈ o.digits, b = 48 := by
  refine ⟨reads.accepts_iff, fun _ => reads.ok_iff, fun _ => reads.error_iff,
    fun text segment rest => ?_, ScanOpening.width_eq_none_iff⟩
  rw [reads.directive_iff]
  exact exists_congr fun body => ⟨fun ⟨h, htext⟩ => ⟨h.ne_nil, h, htext⟩, fun ⟨_, h⟩ => h⟩

end ScanGrammar
end CheckedFormat
