import CheckedFormat.Proofs.ScanOpening
/-! Formats segment by segment.

Reading a format takes one segment off its front and reads the rest: a directive
behind its percent sign, or the longest run of ordinary bytes; where a percent sign
starts no directive, it reports the place. A plain scanning directive is a percent sign,
a length modifier and a letter (`parse_spelling`). -/
namespace CheckedFormat

/-! ### Formats for printing -/

namespace PrintFormat

theorem parseRest_nil (size : Nat) : parseRest size [] = .ok [] := by
  rw [parseRest]

theorem parseRest_directive (size : Nat) {text rest : List Byte} {segment : PrintSegment}
    (h : PrintSegment.parse text = .ok (segment, rest)) :
    parseRest size (opener :: text) =
      (parseRest size rest).map (segment :: ·) := by
  rw [parseRest, if_pos (beq_self_eq_true _)]
  split
  · simp_all
  · rename_i segment' rest' h'
    rw [h] at h'
    cases h'
    cases parseRest size rest <;> rfl

theorem parseRest_malformed (size : Nat) {text : List Byte} {cause : Malformed}
    (h : PrintSegment.parse text = .error cause) :
    parseRest size (opener :: text) = .error ⟨size - (text.length + 1), cause⟩ := by
  rw [parseRest, if_pos (beq_self_eq_true _)]
  split
  · simp_all
  · simp_all

theorem parseRest_literal (size : Nat) {run rest : List Byte} (hrun : run ≠ [])
    (hordinary : ∀ b ∈ run, b != opener)
    (hrest : StopsAt (· != opener) rest) :
    parseRest size (run ++ rest) = (parseRest size rest).map (.literal run :: ·) := by
  cases run with
  | nil => exact absurd rfl hrun
  | cons b run =>
    have hb : (b == opener) = false := by
      simpa using hordinary b List.mem_cons_self
    have htail : ∀ c ∈ run, c != opener := fun c hc =>
      hordinary c (List.mem_cons_of_mem b hc)
    rw [List.cons_append, parseRest, hb, if_neg Bool.false_ne_true]
    dsimp only
    rw [takeWhile_of_stopsAt htail hrest, dropWhile_of_stopsAt htail hrest]
    cases parseRest size rest <;> rfl

end PrintFormat

/-! ### Formats for scanning -/

/-- A scanning directive without star and width, as it is written. -/
def ScanSpec.plainText (length : LengthModifier) (conversion : Conversion) : List Byte :=
  opener :: (ascii length.spelling ++ [conversion.letter])

/-- A directive that stores a field of any width. -/
def ScanSpec.plain (length : LengthModifier) (conversion : Conversion) : ScanSpec :=
  ⟨false, none, length, .letter conversion⟩

theorem LengthModifier.scannable_of_printable {length : LengthModifier} {conversion : Conversion}
    (h : length.printable conversion = true) : length.scannable conversion = true := by
  cases length <;> cases conversion <;> first | rfl | cases h

theorem ScanSegment.parse_spelling {length : LengthModifier} {conversion : Conversion}
    (rest : List Byte) (h : length.scannable conversion = true) :
    parse (ascii length.spelling ++ (conversion.letter :: rest)) =
      .ok (.directive (.plain length conversion), rest) := by
  let o : ScanOpening := ⟨false, [], length, nofun⟩
  have hstops : o.StopsBefore (conversion.letter :: rest) := o.stopsBefore_of_ends fun b hb => by
    cases hb
    exact conversion.letter_ends
  have hopener : ∀ later, ascii length.spelling ++ conversion.letter :: rest ≠ opener :: later := by
    intro later heq
    cases length <;> cases conversion <;> cases heq
  rw [parse_eq_parseDirective hopener]
  refine (parseDirective_opening o hstops).trans ?_
  rw [conclude_letter, if_pos h]
  rfl

namespace ScanFormat

theorem parseRest_nil (size : Nat) : parseRest size [] = .ok [] := by
  rw [parseRest]

theorem parseRest_directive (size : Nat) {text rest : List Byte} {segment : ScanSegment}
    (h : ScanSegment.parse text = .ok (segment, rest)) :
    parseRest size (opener :: text) = (parseRest size rest).map (segment :: ·) := by
  have hspace : Byte.isSpace opener = false := by decide
  rw [parseRest, hspace, if_neg Bool.false_ne_true, if_pos (beq_self_eq_true _)]
  split
  · simp_all
  · rename_i segment' rest' h'
    rw [h] at h'
    cases h'
    cases parseRest size rest <;> rfl

theorem parseRest_malformed (size : Nat) {text : List Byte} {cause : Malformed}
    (h : ScanSegment.parse text = .error cause) :
    parseRest size (opener :: text) = .error ⟨size - (text.length + 1), cause⟩ := by
  have hspace : Byte.isSpace opener = false := by decide
  rw [parseRest, hspace, if_neg Bool.false_ne_true, if_pos (beq_self_eq_true _)]
  split
  · simp_all
  · simp_all

theorem parseRest_space (size : Nat) {run rest : List Byte} (hrun : run ≠ [])
    (hspace : ∀ b ∈ run, b.isSpace) (hrest : StopsAt Byte.isSpace rest) :
    parseRest size (run ++ rest) = (parseRest size rest).map (.space :: ·) := by
  cases run with
  | nil => exact absurd rfl hrun
  | cons b run =>
    have htail : ∀ c ∈ run, c.isSpace := fun c hc => hspace c (List.mem_cons_of_mem b hc)
    rw [List.cons_append, parseRest, if_pos (hspace b List.mem_cons_self),
      dropWhile_of_stopsAt htail hrest]
    cases parseRest size rest <;> rfl

theorem parseRest_literal (size : Nat) {run rest : List Byte} (hrun : run ≠ [])
    (hordinary : ∀ b ∈ run, isOrdinary b) (hrest : StopsAt isOrdinary rest) :
    parseRest size (run ++ rest) = (parseRest size rest).map (.literal run :: ·) := by
  cases run with
  | nil => exact absurd rfl hrun
  | cons b run =>
    obtain ⟨hb, htail⟩ := List.forall_mem_cons.1 hordinary
    obtain ⟨hspace, hopener⟩ : b.isSpace = false ∧ (b == opener) = false := by
      simpa [isOrdinary] using hb
    rw [List.cons_append, parseRest, hspace, if_neg Bool.false_ne_true, hopener,
      if_neg Bool.false_ne_true]
    dsimp only
    rw [takeWhile_of_stopsAt htail hrest, dropWhile_of_stopsAt htail hrest]
    cases parseRest size rest <;> rfl

end ScanFormat
end CheckedFormat
