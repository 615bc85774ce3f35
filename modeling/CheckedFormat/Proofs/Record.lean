import CheckedFormat.Proofs.ArenaAccess
import CheckedFormat.Proofs.FormatText
import CheckedFormat.Proofs.PrintedFields
import CheckedFormat.Proofs.Rendering
/-! Records of fields, printed.

A record is a sequence of fields: integers, addresses and strings, each under any
directive that prints it whole, with white space between the directives. The output
of a call that succeeds is then the fields' words between blanks, in order, with white
space between them (`printed_of_format`). -/
namespace CheckedFormat

/-- White space between two directives of a format. -/
structure Gap where
  bytes : List Byte
  some : bytes ≠ []
  blank : IsBlank bytes

/-- A field of a record: how it is printed, and where a scan is to store it. -/
structure RecordField where
  directive : WrittenDirective
  /-- The argument for a star in the place of the width. -/
  widthArgument : Slot
  precisionArgument : Slot
  value : Slot
  /-- The text of a string. -/
  text : List Byte
  destination : Word
  /-- What stands in front of the directive, unless it is the first. -/
  printGap : Gap
  scanGap : Gap

namespace RecordField

/-- The layout with the width that an argument gives. -/
def widthLayout (f : RecordField) : Layout :=
  if f.directive.spec.layout.width = .fromArgument then
    Print.withWidth f.directive.spec.layout f.widthArgument.bits.asInt
  else f.directive.spec.layout

/-- The layout with its stars replaced by their arguments. -/
def layout (f : RecordField) : Layout :=
  if f.widthLayout.precision = .fromArgument then
    Print.withPrecision f.widthLayout f.precisionArgument.bits.asInt
  else f.widthLayout

/-- The arguments that the field is printed from. -/
def slots (f : RecordField) : List Slot :=
  (if f.directive.spec.layout.width = .fromArgument then [f.widthArgument] else []) ++
    ((if f.directive.spec.layout.precision = .fromArgument then [f.precisionArgument] else []) ++
      [f.value])

/-- The argument that a scan stores through. -/
def pointer (f : RecordField) : Slot := ⟨.pointer, f.destination⟩

/-- The bytes of the value in memory: those of an integer of the modified size or of
an address, or a string and a zero byte. -/
def stored (f : RecordField) : List Byte :=
  match f.directive.conversion with
  | .s => f.text ++ [0]
  | .p => littleEndian 8 f.value.bits.toNat
  | _ => littleEndian f.directive.length.integerSize f.value.bits.toNat

/-- The arguments have the types that the directive reads. -/
structure Passed (f : RecordField) : Prop where
  width : f.directive.spec.layout.width = .fromArgument →
    f.widthArgument.type.compatible .int = true
  precision : f.directive.spec.layout.precision = .fromArgument →
    f.precisionArgument.type.compatible .int = true
  value : f.value.type.compatible ((OperandKind.ofConversion f.directive.conversion).argumentType
    f.directive.length) = true

/-- The directive prints the value whole: an integer that a precision of zero cannot
hide, an address that is not null, or a string without white space that the precision
does not cut. -/
def PrintsWhole (memory : Arena) (f : RecordField) : Prop :=
  match f.directive.conversion with
  | .d | .u | .o | .x | .X => f.layout.precision ≠ .given 0
  | .p => f.value.bits ≠ 0
  | .s => memory.readString f.value.bits.asAddress none = .ok f.text ∧ f.text ≠ [] ∧
      (∀ b ∈ f.text, b.isSpace = false) ∧
      f.text.length ≤ f.layout.precision.getD f.text.length
  | _ => False

/-- The word is a token from which a scan stores what the field stores. -/
def IsNumber (base : IntegerToken.Base) (signed : Bool) (size : Nat) (stored word : List Byte) :
    Prop :=
  ∃ v, IntegerToken.Reads base word v ∧
    littleEndian size (if signed then v.toSigned else v.toUnsigned).toNat = stored

/-- The word from which a scan stores what the field stores. -/
def IsWord (f : RecordField) (word : List Byte) : Prop :=
  match f.directive.conversion with
  | .d => IsNumber (.fixed 10) true f.directive.length.integerSize f.stored word
  | .u => IsNumber (.fixed 10) false f.directive.length.integerSize f.stored word
  | .o => IsNumber (.fixed 8) false f.directive.length.integerSize f.stored word
  | .x | .X => IsNumber .hex false f.directive.length.integerSize f.stored word
  | .p => IsNumber .hex false 8 f.stored word
  | .s => word = f.text ∧ f.text ≠ [] ∧ ∀ b ∈ f.text, b.isSpace = false ∧ b ≠ 0
  | _ => False

/-- What a field prints: its word between blanks. -/
def Prints (f : RecordField) (piece : List Byte) : Prop := ∃ word, Padded word piece ∧ f.IsWord word

theorem IsNumber.solid {base : IntegerToken.Base} {signed : Bool} {size : Nat}
    {stored word : List Byte} (h : IsNumber base signed size stored word) :
    word ≠ [] ∧ ∀ b ∈ word, b.isSpace = false ∧ b ≠ 0 := by
  obtain ⟨v, hreads, _⟩ := h
  exact ⟨hreads.ne_nil, hreads.not_blank⟩

/-- A word is not empty and holds neither white space nor a zero byte. -/
theorem IsWord.solid {f : RecordField} {word : List Byte} (h : f.IsWord word) :
    word ≠ [] ∧ ∀ b ∈ word, b.isSpace = false ∧ b ≠ 0 := by
  unfold IsWord at h
  cases hconversion : f.directive.conversion
  all_goals rw [hconversion] at h
  case d | u | o | x | X | p => exact IsNumber.solid h
  case s =>
    obtain ⟨rfl, hsome, hall⟩ := h
    exact ⟨hsome, hall⟩
  all_goals exact h.elim

end RecordField

/-! ### Texts -/

/-- The directives of a record, each but the first behind its gap. -/
def printTail (rest : List RecordField) : List Byte :=
  rest.flatMap fun f => f.printGap.bytes ++ f.directive.text

/-- The format that prints a record. -/
def printText (first : RecordField) (rest : List RecordField) : List Byte :=
  first.directive.text ++ printTail rest

/-- The directive that scans a field back. -/
def RecordField.scanText (f : RecordField) : List Byte :=
  ScanSpec.plainText f.directive.length f.directive.conversion

def RecordField.scanSpec (f : RecordField) : ScanSpec :=
  .plain f.directive.length f.directive.conversion

def scanTail (rest : List RecordField) : List Byte :=
  rest.flatMap fun f => f.scanGap.bytes ++ f.scanText

/-- The format that scans a record: the same conversions and length modifiers. -/
def scanText (first : RecordField) (rest : List RecordField) : List Byte :=
  first.scanText ++ scanTail rest

/-- A gap ends at the percent sign behind it. -/
theorem Gap.stopsAt_space (text : List Byte) :
    StopsAt Byte.isSpace (opener :: text) := .cons text (by decide)

theorem Gap.ordinary (gap : Gap) : ∀ b ∈ gap.bytes, b != opener := by
  intro b hb
  have hspace := gap.blank b hb
  rw [bne_iff_ne]
  rintro rfl
  revert hspace
  decide

theorem PrintFormat.parseRest_text (size : Nat) (d : WrittenDirective) (rest : List Byte) :
    parseRest size (d.text ++ rest) = (parseRest size rest).map (.directive d.spec :: ·) :=
  parseRest_directive size (PrintSegment.parse_body d rest)

theorem parse_printTail (size : Nat) (rest : List RecordField) :
    PrintFormat.parseRest size (printTail rest) =
      .ok (rest.flatMap fun f => [.literal f.printGap.bytes, .directive f.directive.spec]) := by
  induction rest with
  | nil => exact PrintFormat.parseRest_nil size
  | cons f rest ih =>
    have hopener : StopsAt (· != opener) (f.directive.text ++ printTail rest) :=
      .cons _ (by decide)
    have htext : printTail (f :: rest) =
        f.printGap.bytes ++ (f.directive.text ++ printTail rest) := by
      simp [printTail]
    rw [htext, PrintFormat.parseRest_literal size f.printGap.some f.printGap.ordinary hopener,
      PrintFormat.parseRest_text, ih]
    rfl

theorem parse_printText (first : RecordField) (rest : List RecordField) :
    PrintFormat.parse (printText first rest) =
      .ok (.directive first.directive.spec ::
        rest.flatMap fun f => [.literal f.printGap.bytes, .directive f.directive.spec]) := by
  unfold PrintFormat.parse printText
  rw [PrintFormat.parseRest_text, parse_printTail]
  rfl

theorem RecordField.parse_scanText (f : RecordField) (size : Nat) (rest : List Byte) :
    ScanFormat.parseRest size (f.scanText ++ rest) =
      (ScanFormat.parseRest size rest).map (.directive f.scanSpec :: ·) := by
  have hparse := ScanSegment.parse_spelling rest
    (LengthModifier.scannable_of_printable f.directive.fits)
  have htext : f.scanText ++ rest = opener ::
      (ascii f.directive.length.spelling ++ (f.directive.conversion.letter :: rest)) := by
    simp [scanText, ScanSpec.plainText]
  rw [htext]
  exact ScanFormat.parseRest_directive size hparse

theorem parse_scanTail (size : Nat) (rest : List RecordField) :
    ScanFormat.parseRest size (scanTail rest) =
      .ok (rest.flatMap fun f => [.space, .directive f.scanSpec]) := by
  induction rest with
  | nil => exact ScanFormat.parseRest_nil size
  | cons f rest ih =>
    have hopener : StopsAt Byte.isSpace (f.scanText ++ scanTail rest) := Gap.stopsAt_space _
    have htext : scanTail (f :: rest) = f.scanGap.bytes ++ (f.scanText ++ scanTail rest) := by
      simp [scanTail]
    rw [htext, ScanFormat.parseRest_space size f.scanGap.some f.scanGap.blank hopener,
      RecordField.parse_scanText, ih]
    rfl

theorem parse_scanText (first : RecordField) (rest : List RecordField) :
    ScanFormat.parse (scanText first rest) =
      .ok (.directive first.scanSpec :: rest.flatMap fun f => [.space, .directive f.scanSpec]) := by
  unfold ScanFormat.parse scanText
  rw [RecordField.parse_scanText, parse_scanTail]
  rfl

/-! ### Printing a field -/

section Fields
variable {frame later : Frame Arena} {rest : List Slot}

/-- An argument for a star is taken where there is a star. -/
theorem Print.fetch_of_offers {slot : Slot} {type : ArgumentType}
    (h : frame.arguments.Offers (slot :: rest)) (htype : slot.type.compatible type = true) :
    ∃ later, Print.fetch type frame = .ok slot.bits later ∧ later.arguments.Offers rest ∧
      later.memory = frame.memory := by
  obtain ⟨later, hfetch, hoffers, hmemory⟩ := Frame.fetch_of_offers h htype
  refine ⟨later, ?_, hoffers, hmemory⟩
  unfold Print.fetch
  rw [hfetch]

namespace RecordField
variable (f : RecordField)

theorem resolveWidth_of_offers (hpassed : f.Passed)
    (h : frame.arguments.Offers
      ((if f.directive.spec.layout.width = .fromArgument then [f.widthArgument] else []) ++ rest)) :
    ∃ later, Print.resolveWidth f.directive.spec.layout frame = .ok f.widthLayout later ∧
      later.arguments.Offers rest ∧ later.memory = frame.memory := by
  unfold Print.resolveWidth widthLayout
  by_cases hstar : f.directive.spec.layout.width = .fromArgument
  · rw [if_pos hstar] at h
    obtain ⟨later, hfetch, hoffers, hmemory⟩ := Print.fetch_of_offers h (hpassed.width hstar)
    rw [if_pos hstar, if_pos hstar, bind_of_ok hfetch]
    exact ⟨later, rfl, hoffers, hmemory⟩
  · rw [if_neg hstar] at h
    rw [if_neg hstar, if_neg hstar]
    exact ⟨frame, rfl, h, rfl⟩

/-- The width leaves the precision as it is. -/
theorem precision_widthLayout : f.widthLayout.precision = f.directive.spec.layout.precision := by
  unfold widthLayout Print.withWidth
  split
  · split <;> rfl
  · rfl

theorem resolvePrecision_of_offers (hpassed : f.Passed)
    (h : frame.arguments.Offers
      ((if f.directive.spec.layout.precision = .fromArgument then [f.precisionArgument] else []) ++
        rest)) :
    ∃ later, Print.resolvePrecision f.widthLayout frame = .ok f.layout later ∧
      later.arguments.Offers rest ∧ later.memory = frame.memory := by
  unfold Print.resolvePrecision layout
  rw [precision_widthLayout]
  by_cases hstar : f.directive.spec.layout.precision = .fromArgument
  · rw [if_pos hstar] at h
    obtain ⟨later, hfetch, hoffers, hmemory⟩ := Print.fetch_of_offers h (hpassed.precision hstar)
    rw [if_pos hstar, if_pos hstar, bind_of_ok hfetch]
    exact ⟨later, rfl, hoffers, hmemory⟩
  · rw [if_neg hstar] at h
    rw [if_neg hstar, if_neg hstar]
    exact ⟨frame, rfl, h, rfl⟩

/-- A directive's stars take their arguments, and leave the value's. -/
theorem resolve_of_offers (hpassed : f.Passed) (h : frame.arguments.Offers (f.slots ++ rest)) :
    ∃ later, Print.resolve f.directive.spec.layout frame = .ok f.layout later ∧
      later.arguments.Offers (f.value :: rest) ∧ later.memory = frame.memory := by
  unfold slots at h
  rw [List.append_assoc] at h
  obtain ⟨middle, hwidth, hmiddle, hmemory⟩ := f.resolveWidth_of_offers hpassed h
  rw [List.append_assoc] at hmiddle
  obtain ⟨later, hprecision, hlater, hmemory'⟩ := f.resolvePrecision_of_offers hpassed hmiddle
  refine ⟨later, ?_, hlater, hmemory'.trans hmemory⟩
  unfold Print.resolve
  rw [bind_of_ok hwidth, hprecision]

theorem fetchOperand_of_offers (hpassed : f.Passed)
    (h : frame.arguments.Offers (f.value :: rest)) :
    ∃ later, Print.fetchOperand f.directive.spec frame =
        .ok (.ofBits (.ofConversion f.directive.conversion) f.directive.length f.value.bits) later ∧
      later.arguments.Offers rest ∧ later.memory = frame.memory := by
  obtain ⟨later, hfetch, hoffers, hmemory⟩ := Frame.fetch_of_offers h hpassed.value
  refine ⟨later, ?_, hoffers, hmemory⟩
  have hspec : f.directive.spec.conversion = f.directive.conversion := rfl
  have hlength : f.directive.spec.length = f.directive.length := rfl
  unfold Print.fetchOperand Frame.fetchOperand
  rw [hspec, hlength, hfetch]
  rfl

end RecordField
end Fields

namespace RecordField
variable {frame later : Frame Arena} {piece : List Byte} {written : Nat} (f : RecordField)

/-- The string of a field is read whole. -/
theorem readString_of_printsWhole {address : Nat} {text : List Byte} {layout : Layout}
    (hread : frame.memory.readString address none = .ok text)
    (hcut : text.length ≤ layout.precision.getD text.length) :
    Print.readString address layout frame = .ok text frame := by
  have hlimited : ∀ limit, text.length ≤ limit.getD text.length →
      Memory.readString frame.memory address limit = .ok text := by
    intro limit hlimit
    cases limit with
    | none => exact hread
    | some places => exact (Arena.readString_of_length_le hread).2.2 places hlimit
  unfold Print.readString
  cases hprecision : layout.precision with
  | given places =>
    rw [hprecision] at hcut
    dsimp only
    rw [hlimited (some places) hcut]
  | absent | fromArgument =>
    dsimp only
    rw [hlimited none (Nat.le_refl _)]

/-- A value that is printed whole is printed as its word. -/
theorem renderOperand_prints (hwhole : f.PrintsWhole frame.memory) (written : Nat) :
    ∃ piece, Print.renderOperand f.directive.spec f.layout written
      (.ofBits (.ofConversion f.directive.conversion) f.directive.length f.value.bits) frame =
        .ok piece frame ∧ f.Prints piece := by
  have hsize : f.directive.length.integerSize ≤ 8 := by
    cases f.directive.length <;> decide
  have hspec : f.directive.spec.conversion = f.directive.conversion := rfl
  unfold PrintsWhole at hwhole
  unfold Prints IsWord stored
  cases hconversion : f.directive.conversion
  all_goals rw [hconversion] at hwhole
  case d =>
    obtain ⟨word, hpadded, hreads⟩ := Field.reads_signed
      (f.value.bits.setWidth (8 * f.directive.length.integerSize)).toInt hwhole
    exact ⟨_, rfl, word, hpadded, _, hreads, IntegerToken.Value.littleEndian_toSigned _ hsize⟩
  case u | o | x | X =>
    obtain ⟨word, hpadded, hreads⟩ := Field.reads_unsigned
      (f.value.bits.setWidth (8 * f.directive.length.integerSize)).toNat
      (.ofLetter f.directive.spec.conversion.letter) hwhole
    rw [hspec, hconversion] at hreads
    exact ⟨_, rfl, word, hpadded, _, hreads, IntegerToken.Value.littleEndian_toUnsigned _ hsize⟩
  case p =>
    have hnull : f.value.bits.asAddress ≠ 0 := fun h => hwhole (BitVec.eq_of_toNat_eq h)
    obtain ⟨word, hpadded, hreads⟩ := Field.reads_pointer f.layout hnull
    have hstored := IntegerToken.Value.littleEndian_toUnsigned f.value.bits (Nat.le_refl 8)
    rw [BitVec.setWidth_eq] at hstored
    exact ⟨_, rfl, word, hpadded, _, hreads, hstored⟩
  case s =>
    obtain ⟨hread, hsome, hblank, hcut⟩ := hwhole
    obtain ⟨hnull, hnonzero, _⟩ := Arena.readString_of_length_le hread
    have hstring := readString_of_printsWhole hread hcut
    refine ⟨Field.string f.text f.layout, ?_, f.text, Field.padded_string hcut, rfl, hsome,
      fun b hb => ⟨hblank b hb, hnonzero b hb⟩⟩
    show (if f.value.bits.asAddress = 0 then _ else _ : Print.Step Arena (List Byte)) frame = _
    rw [if_neg hnull, bind_of_ok hstring]
    rfl
  all_goals exact hwhole.elim

/-- A directive whose call goes on prints the field's word, takes its arguments and
leaves the memory. -/
theorem prints_of_renderDirective {rest : List Slot} (hpassed : f.Passed)
    (hwhole : f.PrintsWhole frame.memory) (hoffers : frame.arguments.Offers (f.slots ++ rest))
    (h : Print.renderDirective f.directive.spec written frame = .ok piece later) :
    f.Prints piece ∧ later.arguments.Offers rest ∧ later.memory = frame.memory := by
  obtain ⟨resolved, hresolve, hresolved, hmemory⟩ := f.resolve_of_offers hpassed hoffers
  obtain ⟨fetched, hfetch, hfetched, hmemory'⟩ := f.fetchOperand_of_offers hpassed hresolved
  have hsame : fetched.memory = frame.memory := hmemory'.trans hmemory
  rw [← hsame] at hwhole
  obtain ⟨word, hrender, hprints⟩ := f.renderOperand_prints hwhole written
  unfold Print.renderDirective at h
  rw [bind_of_ok hresolve] at h
  by_cases hlimits : Print.withinLimits f.layout = true
  · rw [if_pos hlimits, bind_of_ok hfetch, hrender] at h
    cases h
    exact ⟨hprints, hfetched, hsame⟩
  · rw [if_neg hlimits] at h
    cases h

end RecordField

/-! ### Printing a record -/

/-- The text that printing the fields behind the first one adds: a gap and what the
field prints, over and over. -/
inductive Printed : List RecordField → List Byte → Prop where
  | nil : Printed [] []
  | cons {f : RecordField} {rest : List RecordField} {piece text : List Byte} :
    f.Prints piece → Printed rest text → Printed (f :: rest) (f.printGap.bytes ++ (piece ++ text))

section Records
variable {frame later : Frame Arena} {output : List Byte} {written : Nat}

/-- Segments print one after the other. -/
theorem Print.ok_of_renderFrom_cons {segment : PrintSegment} {segments : List PrintSegment}
    (h : Print.renderFrom written (segment :: segments) frame = .ok output later) :
    ∃ piece middle text, Print.renderSegment written segment frame = .ok piece middle ∧
      Print.renderFrom (written + piece.length) segments middle = .ok text later ∧
      output = piece ++ text := by
  obtain ⟨piece, middle, text, hpiece, _, htext, houtput⟩ := Print.renderFrom_cons_eq_ok_iff.1 h
  exact ⟨piece, middle, text, hpiece, htext, houtput⟩

theorem printed_of_renderFrom {rest : List RecordField}
    (hfields : ∀ f ∈ rest, f.Passed ∧ f.PrintsWhole frame.memory)
    (hoffers : frame.arguments.Offers (rest.flatMap RecordField.slots))
    (h : Print.renderFrom written
      (rest.flatMap fun f => [.literal f.printGap.bytes, .directive f.directive.spec]) frame =
        .ok output later) : Printed rest output := by
  induction rest generalizing frame output written with
  | nil =>
    cases h
    exact .nil
  | cons f rest ih =>
    rw [List.flatMap_cons] at h hoffers
    obtain ⟨gap, middle, text, hgap, hbehind, rfl⟩ := Print.ok_of_renderFrom_cons h
    cases hgap
    obtain ⟨piece, last, text, hpiece, hrest, rfl⟩ := Print.ok_of_renderFrom_cons hbehind
    obtain ⟨hpassed, hwhole⟩ := hfields f List.mem_cons_self
    obtain ⟨hprints, hlast, hmemory⟩ := f.prints_of_renderDirective hpassed hwhole hoffers hpiece
    refine .cons hprints (ih (fun g hg => ?_) hlast hrest)
    rw [hmemory]
    exact hfields g (List.mem_cons_of_mem f hg)

/-- The output of a record: what the first field prints, and the rest behind it. -/
theorem printed_of_format {first : RecordField} {rest : List RecordField} {level : CheckLevel}
    {memory : Arena} {telemetry : Telemetry}
    (hfields : ∀ f ∈ first :: rest, f.Passed ∧ f.PrintsWhole memory)
    (h : (Print.format (printText first rest)
      ⟨.start level ((first :: rest).flatMap RecordField.slots), memory, telemetry⟩).1 =
        .ok output) :
    ∃ piece text, output = piece ++ text ∧ first.Prints piece ∧ Printed rest text := by
  unfold Print.format Print.render at h
  rw [parse_printText] at h
  dsimp only at h
  split at h
  · rename_i printed last hrender
    cases h
    obtain ⟨piece, middle, text, hpiece, hrest, rfl⟩ := Print.ok_of_renderFrom_cons hrender
    obtain ⟨hpassed, hwhole⟩ := hfields first List.mem_cons_self
    obtain ⟨hprints, hoffers, hmemory⟩ := first.prints_of_renderDirective hpassed hwhole
      (ArgumentList.offers_start level _) hpiece
    refine ⟨piece, text, rfl, hprints, printed_of_renderFrom (fun f hf => ?_) hoffers hrest⟩
    rw [hmemory]
    exact hfields f (List.mem_cons_of_mem first hf)
  · cases h

end Records
end CheckedFormat
