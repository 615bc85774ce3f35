import CheckedFormat.Proofs.Demands
import CheckedFormat.Proofs.FormatJoining
import CheckedFormat.Proofs.Rendering
/-! Printing in pieces.

A format may be cut in two wherever its first part is a format: printing the first part, and
then the second with the arguments and the memory that the first left, gives the same
output in two pieces, as long as the second part counts nothing and the whole is no longer
than an output may be. What is wrong with the second part is found before anything is
printed (`format_append`). -/
namespace CheckedFormat
namespace Print

variable {M : Type} [Memory M]

/-- Segments that are joined print what they print apart. -/
theorem renderFrom_joined {segments more all : List PrintSegment}
    (h : Joined PrintSegment.Merged segments more all) {written : Nat} {frame left : Frame M}
    {output : List Byte} :
    renderFrom written all frame = .ok output left ↔
      renderFrom written (segments ++ more) frame = .ok output left := by
  cases h with
  | apart => rfl
  | merged hmerged front rest =>
    cases hmerged with
    | literal run run' =>
      rw [List.append_assoc, List.singleton_append, renderFrom_append_eq_ok_iff,
        renderFrom_append_eq_ok_iff]
      simp only [renderFrom_literal_append]

/-- A directive that is read asks for the count only by its letter. -/
theorem ofConversion_ne_count {conversion : Conversion} (hprintable : conversion.isPrintable = true)
    (h : conversion ≠ .n) : OperandKind.ofConversion conversion ≠ .count := by
  cases conversion <;> simp_all [OperandKind.ofConversion, Conversion.isPrintable]

omit [Memory M] in
theorem agree_noteFailure (e : PrintError) (frame : Frame M) :
    (noteFailure e frame).Agree frame := by
  refine ⟨arguments_noteFailure e frame, ?_⟩
  cases e <;> simp only [noteFailure, PrintError.faultKind?] <;> split <;> rfl

/-- A format that is refused is refused before anything is taken or stored. -/
theorem exists_format_of_refused {text : List Byte} {e : FormatError}
    (h : PrintFormat.parse text = .error e) (frame : Frame M) :
    ∃ left, format text frame = (.error (.format e), left) ∧ left.Agree frame := by
  have hrender : format text frame =
      (.error (.format e), noteFailure (.format e) (frame.note (·.count .printCalls))) := by
    unfold format render
    rw [h]
    rfl
  exact ⟨_, hrender, (agree_noteFailure _ _).trans (frame.agree_note _)⟩

section Pieces
variable {first second output : List Byte} {segments more : List PrintSegment}
  {frame left : Frame M} (hfirst : PrintFormat.parse first = .ok segments)
  (hsecond : PrintFormat.parse second = .ok more)
  (hcounts : ∀ spec, .directive spec ∈ more → OperandKind.ofConversion spec.conversion ≠ .count)
include hfirst hsecond hcounts

/-- What is printed at once is printed in pieces. -/
theorem exists_pieces (h : format (first ++ second) frame = (.ok output, left)) :
    ∃ front middle back last, format first frame = (.ok front, middle) ∧
      format second middle = (.ok back, last) ∧ output = front ++ back ∧
      output.length ≤ intMax ∧ left.Agree last := by
  obtain ⟨all, hall, hjoined⟩ : ∃ all, PrintFormat.parse (first ++ second) = .ok all ∧ _ :=
    PrintGrammar.reads.parse_append PrintGrammar.joins hfirst hsecond
  obtain ⟨_, behind, hparse, hrender, rfl⟩ := format_eq_ok_iff.1 h
  cases hall.symm.trans hparse
  have hlength := length_le_of_renderFrom (Nat.zero_le intMax) hrender
  obtain ⟨front, middle, back, hfront, hback, rfl⟩ :=
    renderFrom_append_eq_ok_iff.1 ((renderFrom_joined hjoined).1 hrender)
  have hroom := length_le_of_renderFrom (Nat.zero_le intMax) hfront
  rw [Nat.zero_add] at hback hlength hroom
  obtain ⟨hfresh, _⟩ := (renderFrom_further (Nat.zero_le front.length) hroom hcounts).1 hback
  -- The second call starts with other observations than the first one left at the seam.
  let seam := middle.note (·.countMany .bytesRendered front.length)
  have hseam : (seam.note (·.count .printCalls)).Agree middle := ⟨rfl, rfl⟩
  obtain ⟨last, hlast, hagree⟩ := exists_renderFrom_of_agree hseam.symm hfresh
  exact ⟨front, seam, back, last.note (·.countMany .bytesRendered back.length),
    format_eq_ok_iff.2 ⟨segments, middle, hfirst, hfront, rfl⟩,
    format_eq_ok_iff.2 ⟨more, last, hsecond, hlast, rfl⟩, rfl, hlength,
    hagree.arguments, hagree.memory⟩

/-- What is printed in pieces is printed at once. -/
theorem exists_whole {front back : List Byte} {middle last : Frame M}
    (hfront : format first frame = (.ok front, middle))
    (hback : format second middle = (.ok back, last)) (hlength : (front ++ back).length ≤ intMax) :
    ∃ left, format (first ++ second) frame = (.ok (front ++ back), left) ∧ left.Agree last := by
  obtain ⟨all, hall, hjoined⟩ : ∃ all, PrintFormat.parse (first ++ second) = .ok all ∧ _ :=
    PrintGrammar.reads.parse_append PrintGrammar.joins hfirst hsecond
  obtain ⟨_, seam, hparse, hrender, rfl⟩ := format_eq_ok_iff.1 hfront
  cases hfirst.symm.trans hparse
  obtain ⟨_, behind, hparse', hrender', rfl⟩ := format_eq_ok_iff.1 hback
  cases hsecond.symm.trans hparse'
  have hseam : ((seam.note (·.countMany .bytesRendered front.length)).note
      (·.count .printCalls)).Agree seam := ⟨rfl, rfl⟩
  obtain ⟨left, hleft, hagree⟩ := exists_renderFrom_of_agree hseam hrender'
  rw [List.length_append] at hlength
  have hfurther : renderFrom (0 + front.length) more seam = .ok back left := by
    rw [Nat.zero_add]
    exact (renderFrom_further (Nat.zero_le _) (by omega) hcounts).2 ⟨hleft, hlength⟩
  have hwhole : renderFrom 0 all (frame.note (·.count .printCalls)) = .ok (front ++ back) left :=
    (renderFrom_joined hjoined).2
      (renderFrom_append_eq_ok_iff.2 ⟨front, seam, back, hrender, hfurther, rfl⟩)
  exact ⟨_, format_eq_ok_iff.2 ⟨all, left, hall, hwhole, rfl⟩,
    hagree.symm.arguments, hagree.symm.memory⟩

end Pieces

/-- **Printing in pieces is printing at once.** Behind a format that is read, one that is
read too and counts nothing prints what it prints on its own with what the first one left:
the call for both succeeds just when the two calls succeed one after the other and the
pieces together are not too long. Then the output is the two pieces, and the arguments and
the memory come out the same. A format that is refused is refused behind the first one for
the same cause, as much further on, and no argument is taken and nothing stored. -/
theorem format_append {first second : List Byte} {segments : List PrintSegment}
    (hfirst : PrintFormat.parse first = .ok segments) (frame : Frame M) :
    (∀ more, PrintFormat.parse second = .ok more →
      (∀ spec, .directive spec ∈ more → spec.conversion ≠ .n) →
      ∀ output arguments memory,
        (∃ left, format (first ++ second) frame = (.ok output, left) ∧
          left.arguments = arguments ∧ left.memory = memory) ↔
        ∃ front middle back left, format first frame = (.ok front, middle) ∧
          format second middle = (.ok back, left) ∧ output = front ++ back ∧
          output.length ≤ intMax ∧ left.arguments = arguments ∧ left.memory = memory) ∧
    ∀ e, PrintFormat.parse second = .error e →
      ∃ left, format (first ++ second) frame =
          (.error (.format ⟨first.length + e.offset, e.cause⟩), left) ∧
        left.arguments = frame.arguments ∧ left.memory = frame.memory := by
  constructor
  · intro more hsecond hletters output arguments memory
    have hcounts : ∀ spec, .directive spec ∈ more →
        OperandKind.ofConversion spec.conversion ≠ .count := by
      intro spec hspec
      have hformed : spec.WellFormed := PrintFormat.wellFormed_of_parse hsecond _ hspec
      exact ofConversion_ne_count hformed.printable (hletters spec hspec)
    constructor
    · intro h
      obtain ⟨left, hformat, rfl, rfl⟩ := h
      obtain ⟨front, middle, back, last, hfront, hback, houtput, hlength, hagree⟩ :=
        exists_pieces hfirst hsecond hcounts hformat
      exact ⟨front, middle, back, last, hfront, hback, houtput, hlength,
        hagree.arguments.symm, hagree.memory.symm⟩
    · intro h
      obtain ⟨front, middle, back, last, hfront, hback, rfl, hlength, rfl, rfl⟩ := h
      obtain ⟨left, hformat, hagree⟩ := exists_whole hfirst hsecond hcounts hfront hback hlength
      exact ⟨left, hformat, hagree.arguments, hagree.memory⟩
  · intro e hsecond
    obtain ⟨left, hformat, hagree⟩ :=
      exists_format_of_refused (PrintGrammar.reads.parse_append_error hfirst hsecond) frame
    exact ⟨left, hformat, hagree.arguments, hagree.memory⟩

/-- A frame with a number, a place for a count and a word among its arguments. -/
def cutFrame : Frame Arena :=
  ⟨.start .checked [.int 7, .pointer 0x10008, .pointer 0x10000],
    ((Arena.empty.allocateString (ascii "ok")).2.allocate 8).2, .initial⟩

/-- A count in front of a literal that is cut in two, and a word behind it; and a percent
sign at the end of the second part. -/
theorem format_append_in_literal :
    PrintFormat.parse (ascii "%d%n-a") = .ok [.directive ⟨⟨.none, .absent, .absent⟩, .plain, .d⟩,
      .directive ⟨⟨.none, .absent, .absent⟩, .plain, .n⟩, .literal (ascii "-a")] ∧
    (∃ front middle back left, format (ascii "%d%n-a") cutFrame = (.ok front, middle) ∧
      format (ascii "b%s") middle = (.ok back, left) ∧ ascii "7-abok" = front ++ back) ∧
    ∃ left, format (ascii "%d%n-a" ++ ascii "b%") cutFrame =
        (.error (.format ⟨7, .truncated⟩), left) ∧
      left.arguments = cutFrame.arguments ∧ left.memory = cutFrame.memory := by
  have hfirst : PrintFormat.parse (ascii "%d%n-a") =
      .ok [.directive ⟨⟨.none, .absent, .absent⟩, .plain, .d⟩,
        .directive ⟨⟨.none, .absent, .absent⟩, .plain, .n⟩, .literal (ascii "-a")] :=
    ok_of_toOption (by decide +kernel)
  have hsecond : PrintFormat.parse (ascii "b%s") =
      .ok [.literal (ascii "b"), .directive ⟨⟨.none, .absent, .absent⟩, .plain, .s⟩] :=
    ok_of_toOption (by decide +kernel)
  have hrefused : PrintFormat.parse (ascii "b%") = .error ⟨1, .truncated⟩ :=
    error_of_no_value (by decide +kernel)
  have hwhole : (format (ascii "%d%n-a" ++ ascii "b%s") cutFrame).1 = .ok (ascii "7-abok") :=
    ok_of_toOption (by decide +kernel)
  have hcounts : ∀ spec, PrintSegment.directive spec ∈ [.literal (ascii "b"),
      .directive ⟨⟨.none, .absent, .absent⟩, .plain, .s⟩] → spec.conversion ≠ .n := by
    simp
  obtain ⟨front, middle, back, left, hfront, hback, houtput, -⟩ :=
    ((format_append hfirst cutFrame).1 _ hsecond hcounts _ _ _).1
      ⟨_, Prod.ext hwhole rfl, rfl, rfl⟩
  exact ⟨hfirst, ⟨front, middle, back, left, hfront, hback, houtput⟩,
    (format_append hfirst cutFrame).2 _ hrefused⟩

end Print
end CheckedFormat
