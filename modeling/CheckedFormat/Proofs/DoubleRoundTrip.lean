import CheckedFormat.Proofs.FloatReading
import CheckedFormat.Proofs.RecordScan
/-! Doubles, printed and scanned back.

Seventeen significant digits say which double was printed. So a double that is printed
with as many or more, in the scientific or the general style and with any flags and width,
is scanned back bit for bit (`scan_of_printed_double`). -/
namespace CheckedFormat

/-! ### Fields of doubles -/

/-- The number with zeros in front, which say nothing. -/
def WrittenNumber.behindZeros (n : WrittenNumber) (count : Nat) : WrittenNumber where
  whole := List.replicate count 48 ++ n.whole
  fraction := n.fraction
  pointed := n.pointed
  exponent := n.exponent
  some := List.append_ne_nil_of_right_ne_nil _ n.some
  digits b hb := by
    rw [List.append_assoc] at hb
    rcases List.mem_append.1 hb with hb | hb
    · rw [(List.mem_replicate.1 hb).2]
      rfl
    · exact n.digits b hb

theorem WrittenNumber.text_behindZeros (n : WrittenNumber) (count : Nat) :
    (n.behindZeros count).text = List.replicate count 48 ++ n.text := by
  simp only [text, behindZeros, List.append_assoc]
  rfl

theorem WrittenNumber.value_behindZeros (n : WrittenNumber) (count : Nat) :
    (n.behindZeros count).value = n.value := by
  have hdigits : (n.behindZeros count).allDigits = n.allDigits := by
    rw [allDigits, behindZeros, List.append_assoc, digitsValue_zeros]
    rfl
  rw [value, hdigits]
  rfl

/-- Sign and magnitude together are the bits. -/
theorem FloatFormat.withSign_magnitude (bits : Word) :
    binary64.withSign (binary64.isNegative bits.toNat) (binary64.magnitude bits.toNat) =
      bits.toNat := by
  have hlt : bits.toNat < 2 * binary64.signWeight := bits.isLt
  have hsplit := Nat.div_add_mod bits.toNat binary64.signWeight
  have hdiv : bits.toNat / binary64.signWeight < 2 :=
    Nat.div_lt_of_lt_mul (by rwa [Nat.mul_comm])
  unfold withSign isNegative magnitude
  generalize bits.toNat / binary64.signWeight = sign at hsplit hdiv
  obtain rfl | rfl : sign = 0 ∨ sign = 1 := by omega
  · simpa using hsplit
  · simpa using hsplit

namespace Field
open FloatFormat

variable {bits : Word} {negative : Bool} {significand : Nat} {exponent : Int} {form : FloatForm}
  (layout : Layout)

/-- The body of a finite double is a written number behind its sign. -/
theorem exists_spells_double (h : binary64.decode bits.toNat = .finite negative significand exponent)
    (hstyle : form.style ≠ .fixed) :
    ∃ n : WrittenNumber, floatBody bits form layout = ⟨layout.flags.sign negative, n.text, true⟩ ∧
      n.Spells n.text (Ratio.ofBinary significand exponent)
        (form.places (layout.precision.getD 6)) := by
  have hmagnitude := (isMagnitude_of_decode h).2
  obtain ⟨n, hspells⟩ := exists_spells (Ratio.den_ofBinary_pos significand exponent) hstyle
    (FloatToken.natAbs_significant_lt hmagnitude _) layout.flags.alternative
  have htext := hspells.text_eq
  refine ⟨n, ?_, { hspells with text_eq := rfl }⟩
  unfold floatBody
  rw [h, htext]
  rfl

/-- A field of seventeen digits or more holds a token of its double. -/
theorem reads_double (h : binary64.decode bits.toNat = .finite negative significand exponent)
    (hstyle : form.style ≠ .fixed) (hplaces : 16 ≤ form.places (layout.precision.getD 6)) :
    ∃ word, Padded word (float bits form layout) ∧ FloatToken.Reads word bits := by
  obtain ⟨hnegative, hmagnitude⟩ := isMagnitude_of_decode h
  obtain ⟨n, hbody, hspells⟩ := exists_spells_double layout h hstyle
  obtain ⟨zeros, hpadded, -⟩ := (floatBody bits form layout).padded_place layout.flags
    (layout.width.getD 0)
  have hnear : |(n.behindZeros zeros).value - significand * 2 ^ exponent| * (2 * 10 ^ 16) ≤
      significand * 2 ^ exponent := by
    rw [n.value_behindZeros, hspells.value_eq, ← Ratio.value_ofBinary]
    exact Ratio.written_near (Ratio.den_ofBinary_pos significand exponent) hplaces
  have hvalue := FloatToken.magnitude_text (n.behindZeros zeros) hmagnitude
    (lt_trans hspells.power_lt (by decide)) hnear
  have hbits : binary64.magnitude bits.toNat < binary64.signWeight :=
    Nat.mod_lt _ (Nat.pow_pos (by decide))
  rw [hbody, ← n.text_behindZeros] at hpadded
  obtain ⟨word, hword, hreads⟩ := FloatToken.exists_reads_sign (n.behindZeros zeros) layout.flags
    negative hvalue hbits hpadded
  refine ⟨word, ?_, ?_⟩
  · rw [float, Body.placeIn, hbody]
    exact hword
  · rwa [← hnegative, withSign_magnitude, BitVec.ofNat_toNat, BitVec.setWidth_eq] at hreads

/-- A field is as wide as it was asked to be, or not much longer than its digits. -/
theorem length_double_le (h : binary64.decode bits.toNat = .finite negative significand exponent)
    (hstyle : form.style ≠ .fixed) :
    (float bits form layout).length ≤
      max (layout.width.getD 0) (form.places (layout.precision.getD 6) + 8) := by
  obtain ⟨n, hbody, hspells⟩ := exists_spells_double layout h hstyle
  have hlead : (layout.flags.sign negative).length ≤ 1 := by
    unfold Flags.sign
    split
    · exact le_rfl
    · split
      · exact le_rfl
      · split
        · exact le_rfl
        · exact Nat.zero_le 1
  have htext := hspells.length_text_le
  rw [float, Body.placeIn, Body.length_place, hbody]
  unfold Body.length
  dsimp only
  omega

end Field

/-! ### Printing a double -/

/-- The directives that write seventeen significant digits or more. -/
inductive KeepsDouble : Conversion → (precision : Nat) → Prop where
  | scientific {conversion : Conversion} {precision : Nat} :
    conversion = .e ∨ conversion = .E → 16 ≤ precision → KeepsDouble conversion precision
  | general {conversion : Conversion} {precision : Nat} :
    conversion = .g ∨ conversion = .G → 17 ≤ precision → KeepsDouble conversion precision

namespace KeepsDouble

variable {conversion : Conversion} {precision : Nat} (h : KeepsDouble conversion precision)
include h

theorem kind : OperandKind.ofConversion conversion = .float := by
  cases h with
  | scientific hletter => rcases hletter with rfl | rfl <;> rfl
  | general hletter => rcases hletter with rfl | rfl <;> rfl

theorem style : (FloatForm.ofLetter conversion.letter).style ≠ .fixed := by
  cases h with
  | scientific hletter => rcases hletter with rfl | rfl <;> decide
  | general hletter => rcases hletter with rfl | rfl <;> decide

theorem places_bounds : 16 ≤ (FloatForm.ofLetter conversion.letter).places precision ∧
    (FloatForm.ofLetter conversion.letter).places precision ≤ precision := by
  cases h with
  | scientific hletter hprecision =>
    have hplaces : (FloatForm.ofLetter conversion.letter).places precision = precision := by
      rcases hletter with rfl | rfl <;> exact if_pos (by decide)
    omega
  | general hletter hprecision =>
    have hplaces : (FloatForm.ofLetter conversion.letter).places precision =
        max precision 1 - 1 := by
      rcases hletter with rfl | rfl <;> exact if_neg (by decide)
    omega

end KeepsDouble

section Printing
variable {f : RecordField} {frame : Frame Arena}

/-- The field that a directive of floats prints. -/
def RecordField.doubleField (f : RecordField) : List Byte :=
  Field.float f.value.bits (.ofLetter f.directive.conversion.letter) f.layout

theorem renderDirective_double (hpassed : f.Passed)
    (hkind : OperandKind.ofConversion f.directive.conversion = .float)
    (hoffers : frame.arguments.Offers f.slots) (written : Nat) :
    ∃ later, Print.renderDirective f.directive.spec written frame =
      if Print.withinLimits f.layout = true then .ok f.doubleField later
      else .error .overflow later := by
  rw [← List.append_nil f.slots] at hoffers
  obtain ⟨resolved, hresolve, hresolved, -⟩ := f.resolve_of_offers hpassed hoffers
  obtain ⟨fetched, hfetch, -, -⟩ := f.fetchOperand_of_offers hpassed hresolved
  rw [hkind] at hfetch
  unfold Print.renderDirective
  rw [bind_of_ok hresolve]
  by_cases hlimits : Print.withinLimits f.layout = true
  · refine ⟨fetched, ?_⟩
    rw [if_pos hlimits, if_pos hlimits, bind_of_ok hfetch]
    rfl
  · refine ⟨resolved, ?_⟩
    rw [if_neg hlimits, if_neg hlimits]
    rfl

theorem render_double (hpassed : f.Passed)
    (hkind : OperandKind.ofConversion f.directive.conversion = .float)
    (hoffers : frame.arguments.Offers f.slots) :
    ∃ later, Print.render f.directive.text frame =
      if Print.withinLimits f.layout = true ∧ f.doubleField.length ≤ intMax then
        .ok f.doubleField later
      else .error .overflow later := by
  obtain ⟨later, hrender⟩ := renderDirective_double hpassed hkind hoffers 0
  replace hrender : Print.renderSegment 0 (.directive f.directive.spec) frame = _ := hrender
  have hparse := parse_printText f []
  rw [show printText f [] = f.directive.text from List.append_nil _] at hparse
  refine ⟨later, ?_⟩
  unfold Print.render
  rw [hparse]
  show Print.renderFrom 0 [.directive f.directive.spec] frame = _
  unfold Print.renderFrom
  by_cases hlimits : Print.withinLimits f.layout = true
  · rw [if_pos hlimits] at hrender
    rw [bind_of_ok hrender]
    by_cases hlength : f.doubleField.length ≤ intMax
    · have hfits : ¬ intMax < 0 + f.doubleField.length := by omega
      rw [if_neg hfits, if_pos ⟨hlimits, hlength⟩]
      show EStateM.Result.ok (f.doubleField ++ []) later = _
      rw [List.append_nil]
    · have hover : intMax < 0 + f.doubleField.length := by omega
      rw [if_pos hover, if_neg fun h => hlength h.2]
      rfl
  · rw [if_neg hlimits] at hrender
    rw [bind_of_error hrender, if_neg fun h => hlimits h.1]

/-- Printing a double fails only beyond the limits of widths, precisions and outputs. -/
theorem format_double (hpassed : f.Passed)
    (hkind : OperandKind.ofConversion f.directive.conversion = .float) (level : CheckLevel)
    (memory : Arena) (telemetry : Telemetry) :
    (Print.format f.directive.text ⟨.start level f.slots, memory, telemetry⟩).1 =
      if Print.withinLimits f.layout = true ∧ f.doubleField.length ≤ intMax then .ok f.doubleField
      else .error .overflow := by
  have hoffers : (Frame.note ⟨.start level f.slots, memory, telemetry⟩
      (·.count .printCalls)).arguments.Offers f.slots := ArgumentList.offers_start level f.slots
  obtain ⟨later, hrender⟩ := render_double hpassed hkind hoffers
  unfold Print.format
  by_cases hlimits : Print.withinLimits f.layout = true ∧ f.doubleField.length ≤ intMax
  · rw [if_pos hlimits] at hrender
    rw [hrender, if_pos hlimits]
  · rw [if_neg hlimits] at hrender
    rw [hrender, if_neg hlimits]

end Printing

/-! ### Scanning a double -/

theorem Padded.ne_zero {word field : List Byte} (h : Padded word field)
    (hword : ∀ b ∈ word, b ≠ 0) : ∀ b ∈ field, b ≠ 0 := by
  obtain ⟨before, after, rfl, hbefore, hafter⟩ := h
  exact List.forall_mem_append.2 ⟨hbefore.ne_zero, List.forall_mem_append.2 ⟨hword, hafter.ne_zero⟩⟩

namespace Scan

section Scanning
variable {S : Type} [ByteSource S] {V : SourceView S} {s : State S Arena}
  {before ahead word : List Byte} {slots : List Slot} {pointer bits : Word}

theorem convertFloat_field {spec : ScanSpec} (hspec : spec.suppress = false ∧ spec.width = none)
    (hsize : floatSize spec.length = 8) (hreads : FloatToken.Reads word bits)
    (hbefore : IsBlank before) (hahead : StopsAt (fun b => !b.isSpace) ahead)
    (hstands : Stands V s (before ++ (word ++ ahead)))
    (hoffers : s.frame.arguments.Offers (⟨.pointer, pointer⟩ :: slots))
    (hin : s.frame.memory.InBounds pointer.toNat 8) :
    ∃ t, convertFloat spec s = .ok .assigned t ∧
      StoresField V pointer.toNat (littleEndian 8 bits.toNat) ahead slots s t := by
  obtain ⟨hspace, hstands⟩ := afterSpace_of_word hstands hbefore hreads.ne_nil fun b hb =>
    (hreads.not_blank b hb).1
  obtain ⟨htoken, hbehind⟩ := stands_afterReading
    (Reader.token_computes FloatToken.recogniser none) hstands
  rw [hreads.token hahead] at htoken hbehind
  replace hbehind : Stands V _ ((word ++ ahead).drop word.length) := hbehind
  rw [List.drop_left] at hbehind
  have hsame := (sameStores_afterReading Reader.skipSpace s).trans
    (sameStores_afterReading (Reader.token FloatToken.recogniser none) _)
  rw [← hsame.1] at hoffers
  rw [← hsame.2, ← length_littleEndian 8 bits.toNat] at hin
  obtain ⟨t, hok, hfield⟩ :=
    (storeNumber_deposits false (littleEndian 8 bits.toNat) _).field hbehind hoffers hin
  refine ⟨t, ?_, hfield.of_sameStores hsame⟩
  unfold convertFloat
  rw [hspace, bind_reading, hspec.2, htoken]
  dsimp only
  rw [hspec.1, hreads.value, hsize]
  exact hok

theorem parse_double :
    ScanFormat.parse (ascii "%lf") = .ok [.directive (.plain .long .f)] := by
  decide +kernel

/-- A field that holds a token of a double is scanned as the double. -/
theorem run_double {field : List Byte} (hpadded : Padded word field)
    (hreads : FloatToken.Reads word bits) (hstands : Stands V s field)
    (hoffers : s.frame.arguments.Offers [⟨.pointer, pointer⟩])
    (hin : s.frame.memory.InBounds pointer.toNat 8) :
    ∃ t ahead, run (ascii "%lf") s = .ok (1, .complete) t ∧
      StoresField V pointer.toNat (littleEndian 8 bits.toNat) ahead [] s t := by
  obtain ⟨before, behind, rfl, hbefore, hbehind⟩ := hpadded
  have hahead : StopsAt (fun b => !b.isSpace) behind := fun b hb => by
    simp [hbehind b (List.mem_of_mem_head? hb)]
  have hspec : (ScanSpec.plain .long .f).suppress = false ∧ (ScanSpec.plain .long .f).width = none :=
    ⟨rfl, rfl⟩
  obtain ⟨t, hconvert, hfield⟩ :=
    convertFloat_field hspec rfl hreads hbefore hahead hstands hoffers hin
  replace hconvert : matchSegment (.directive (.plain .long .f)) s = _ := hconvert
  refine ⟨t, behind, ?_, hfield⟩
  unfold run
  rw [parse_double]
  exact runFrom_of_assigned 0 [] hconvert

end Scanning

/-- **Doubles survive printing and scanning bit for bit.** Print a finite double, negative
zero and the subnormal ones included, under `e` or `E` with a precision of at least 16 or
under `g` or `G` with one of at least 17, with any flags and width. Then the call succeeds
unless the field would pass the largest `int`, and scanning the output under `%lf` is
complete, assigns one field, and leaves the bits of the double at the destination. -/
theorem scan_of_printed_double (f : RecordField) (precision : Nat)
    {negative : Bool} {significand : Nat} {exponent : Int}
    (printLevel scanLevel : CheckLevel) (printMemory scanMemory : Arena)
    (printTelemetry scanTelemetry : Telemetry) (hpassed : f.Passed)
    (hfinite : FloatFormat.binary64.decode f.value.bits.toNat =
      .finite negative significand exponent)
    (hprecision : f.layout.precision = .given precision)
    (hkeeps : KeepsDouble f.directive.conversion precision)
    (hin : scanMemory.InBounds f.destination.toNat 8) :
    ((Print.format f.directive.text ⟨.start printLevel f.slots, printMemory, printTelemetry⟩).1 =
        .error .overflow ∧ intMax < max (f.layout.width.getD 0) (precision + 8)) ∨
      ∃ output outcome left,
        (Print.format f.directive.text ⟨.start printLevel f.slots, printMemory, printTelemetry⟩).1 =
          .ok output ∧
        Scan.scanString output (ascii "%lf")
          ⟨.start scanLevel [f.pointer], scanMemory, scanTelemetry⟩ = (.ok outcome, left) ∧
        outcome.status = .complete ∧ outcome.assigned = 1 ∧ outcome.failure = none ∧
        left.memory.readBytes f.destination.toNat 8 = .ok (littleEndian 8 f.value.bits.toNat) := by
  have hdefault : f.layout.precision.getD 6 = precision := by
    rw [hprecision]
    rfl
  obtain ⟨hleast, hmost⟩ := hkeeps.places_bounds
  rw [format_double hpassed hkeeps.kind]
  by_cases hfits : Print.withinLimits f.layout = true ∧ f.doubleField.length ≤ intMax
  · rw [if_pos hfits]
    obtain ⟨word, hpadded, hreads⟩ := Field.reads_double f.layout hfinite hkeeps.style
      (by rwa [hdefault])
    replace hpadded : Padded word f.doubleField := hpadded
    have hstart : Stands TextSource.view
        ⟨Reader.start (TextSource.mk f.doubleField),
          Frame.note ⟨.start scanLevel [f.pointer], scanMemory, scanTelemetry⟩ (·.count .scanCalls)⟩
        f.doubleField := ⟨[], Reader.At.start (TextSource.shows_mk _)⟩
    obtain ⟨t, ahead, hrun, hfield⟩ := run_double hpadded hreads hstart
      (ArgumentList.offers_start scanLevel _) hin
    obtain ⟨behind, hat⟩ := hfield.stands
    have hholds := hfield.holds
    refine .inr ⟨f.doubleField, ⟨1, t.reader.consumed, .complete, t.reader.failure⟩,
      t.frame.note (·.countMany .fieldsAssigned 1), rfl, ?_, rfl, rfl, hat.failure, ?_⟩
    · unfold scanString scan
      rw [upToNul_of_ne_zero (hpadded.ne_zero fun b hb => (hreads.not_blank b hb).2), hrun]
    · rwa [Arena.Holds, length_littleEndian] at hholds
  · rw [if_neg hfits]
    refine .inl ⟨rfl, ?_⟩
    have hlength := Field.length_double_le f.layout hfinite hkeeps.style
    replace hlength : f.doubleField.length ≤ _ := hlength
    rw [hdefault] at hlength
    have hgiven : (Quantity.given precision).getD 0 = precision := rfl
    rw [Print.withinLimits, hprecision, hgiven, Bool.and_eq_true, decide_eq_true_iff,
      decide_eq_true_iff] at hfits
    omega

/-- The double nearest to minus one tenth, with its sign in front of zeros. -/
def minusTenth : RecordField where
  directive :=
    ⟨ascii "0", .star, .digits (ascii "16") (List.all_eq_true.1 rfl), .plain, .e,
      List.all_eq_true.1 rfl, rfl, rfl⟩
  widthArgument := .int 28
  precisionArgument := .int 0
  value := .double 0xBFB999999999999A
  text := []
  destination := 0x10000
  printGap := exampleGap
  scanGap := exampleGap

theorem scan_of_printed_tenth :
    minusTenth.Passed ∧
      FloatFormat.binary64.decode minusTenth.value.bits.toNat =
        .finite true 0x1999999999999A (-56) ∧
      minusTenth.layout.precision = .given 16 ∧
      KeepsDouble minusTenth.directive.conversion 16 ∧
      exampleTarget.InBounds minusTenth.destination.toNat 8 ∧
      (Print.format (ascii "%0*.16e")
        ⟨.start .checked [.int 28, .double 0xBFB999999999999A], Arena.empty, .initial⟩).1 =
          .ok (ascii "-000001.0000000000000001e-01") ∧
      ∃ outcome left, Scan.scanString (ascii "-000001.0000000000000001e-01") (ascii "%lf")
          ⟨.start .checked [.pointer 0x10000], exampleTarget, .initial⟩ = (.ok outcome, left) ∧
        outcome.status = .complete ∧ outcome.assigned = 1 ∧ outcome.failure = none ∧
        left.memory.readBytes 0x10000 8 =
          .ok [0x9A, 0x99, 0x99, 0x99, 0x99, 0x99, 0xB9, 0xBF] := by
  have hpassed : minusTenth.Passed := ⟨by decide, by decide, by decide⟩
  have hfinite : FloatFormat.binary64.decode minusTenth.value.bits.toNat =
      .finite true 0x1999999999999A (-56) := by decide +kernel
  have hprecision : minusTenth.layout.precision = .given 16 := by decide
  have hkeeps : KeepsDouble minusTenth.directive.conversion 16 :=
    .scientific (.inl rfl) (Nat.le_refl 16)
  have hin : exampleTarget.InBounds minusTenth.destination.toNat 8 := by
    unfold Arena.InBounds
    decide
  have hprint : (Print.format minusTenth.directive.text
      ⟨.start .checked minusTenth.slots, Arena.empty, .initial⟩).1 =
        .ok (ascii "-000001.0000000000000001e-01") := by
    apply ok_of_toOption
    decide +kernel
  refine ⟨hpassed, hfinite, hprecision, hkeeps, hin, hprint, ?_⟩
  rcases scan_of_printed_double minusTenth 16 .checked .checked .empty exampleTarget .initial .initial
    hpassed hfinite hprecision hkeeps hin with ⟨herror, -⟩ | ⟨output, outcome, left, hok, hscan⟩
  · rw [hprint] at herror
    cases herror
  · rw [hprint] at hok
    cases hok
    exact ⟨outcome, left, hscan⟩

end Scan
end CheckedFormat
