import CheckedFormat.Field.Text
import CheckedFormat.Proofs.FloatReading
/-! Widths are padding alone.

What a field holds (`Field.Content`) is a body that no width changes. A width that the
bare text does not fill puts blanks on one side of it, or zeros behind the sign or the
radix mark that it begins with (`Widens`). That front part shows in the text itself
(`leadLength`), so the field of every width is told by the field of none
(`Field.width_only_pads`). -/
namespace CheckedFormat

/-- How much of the front of a number's text is its sign or its radix mark. -/
def leadLength : List Byte → Nat
  | 48 :: mark :: _ => if IntegerToken.isMark mark then 2 else 0
  | b :: _ => if b == 43 || b == 45 || b == 32 then 1 else 0
  | [] => 0

/-- What a width makes of the bare text of a field. Zeros may be what fills the field only
where they count for what it holds. -/
structure Widens (flags : Flags) (ZerosCount : Prop) (width : Nat) (bare field : List Byte) :
    Prop where
  length : field.length = max width bare.length
  filled : width ≤ bare.length → field = bare
  left : bare.length < width → flags.left = true →
    field = bare ++ List.replicate (width - bare.length) 32
  zeros : bare.length < width → flags.left = false → flags.zero = true → ZerosCount →
    field = bare.take (leadLength bare) ++ List.replicate (width - bare.length) 48 ++
      bare.drop (leadLength bare)
  right : bare.length < width → flags.left = false → ¬(flags.zero = true ∧ ZerosCount) →
    field = List.replicate (width - bare.length) 32 ++ bare

/-! ### The front of a number's text -/

section Lead
variable {text rest : List Byte} {b : Byte}

theorem leadLength_nil : leadLength [] = 0 := rfl

/-- Neither a sign nor a mark stands in front of a text that begins as a numeral. -/
theorem leadLength_of_digit (hb : b.isDigitOf 16 = true)
    (hrest : StopsAt IntegerToken.isMark rest) : leadLength (b :: rest) = 0 := by
  have hcode := Byte.code_of_isDigitOf hb
  have hsign : (b == 43 || b == 45 || b == 32) = false := by
    simp only [Bool.or_eq_false_iff, beq_eq_false_iff_ne, Ne, ← UInt8.toNat_inj]
    refine ⟨⟨?_, ?_⟩, ?_⟩ <;> rintro h <;> rw [h] at hcode <;> revert hcode <;> decide
  unfold leadLength
  split
  · rename_i mark behind heq
    cases heq
    rw [hrest mark rfl]
    rfl
  · rename_i heq
    cases heq
    rw [hsign]
    rfl
  · rfl

theorem leadLength_of_digits (h : ∀ b ∈ text, b.isDigitOf 16) : leadLength text = 0 := by
  cases text with
  | nil => rfl
  | cons b rest =>
    obtain ⟨hb, hrest⟩ := List.forall_mem_cons.1 h
    refine leadLength_of_digit hb fun c hc => ?_
    exact IntegerToken.not_isMark_of_isDigitOf (hrest c (List.mem_of_mem_head? hc))

theorem leadLength_sign (flags : Flags) (negative : Bool) (h : leadLength text = 0) :
    leadLength (flags.sign negative ++ text) = (flags.sign negative).length := by
  unfold Flags.sign
  split
  · rfl
  · split
    · rfl
    · split
      · rfl
      · exact h

theorem leadLength_mark (r : Radix) (h : leadLength text = 0) :
    leadLength (r.mark ++ text) = r.mark.length := by
  cases r with
  | decimal | octal => exact h
  | hexLower | hexUpper => rfl

/-- A decimal number as it is written begins with a digit. -/
theorem leadLength_writtenNumber (n : WrittenNumber) : leadLength n.text = 0 := by
  obtain ⟨b, digits, htext, hb, hdigits⟩ := FloatToken.exists_first n
  have hmark := FloatToken.stopsAt_mark n hdigits
  have hb16 : b.isDigitOf 16 = true :=
    Byte.isDigitOf_mono (by decide) (Byte.isDigitOf_of_isDigit hb)
  rw [htext]
  exact leadLength_of_digit hb16 hmark

end Lead

/-! ### Bodies -/

/-- A body is placed as a width widens it, if the lead behind which its zeros come shows in
its text. -/
theorem Body.widens_place (b : Body) (flags : Flags) (width : Nat)
    (hlead : b.takesZeros = true → leadLength b.bytes = b.lead.length) :
    Widens flags (b.takesZeros = true) width b.bytes (b.place flags width) := by
  have hlength : b.bytes.length = b.length := List.length_append
  refine ⟨?_, fun hwidth => ?_, fun _ hleft => ?_, fun _ hleft hzero hzeros => ?_,
    fun _ hleft hzeros => ?_⟩
  · rw [length_place, hlength, Nat.max_comm]
  · have hfill : width - b.length = 0 := by omega
    unfold place bytes
    rw [hfill]
    simp
  · rw [place, if_pos hleft, hlength]
    rfl
  · have hcounts : (flags.zero && b.takesZeros) = true := by simp [hzero, hzeros]
    rw [place, if_neg (by simp [hleft]), if_pos hcounts, hlead hzeros, hlength, bytes,
      List.take_left, List.drop_left]
  · have hcounts : ¬(flags.zero && b.takesZeros) = true := by simpa using hzeros
    rw [place, if_neg (by simp [hleft]), if_neg hcounts, hlength, List.append_assoc]
    rfl

namespace Field

/-- What a field can hold, with what the letter of its directive says about it. -/
inductive Content where
  | signed (value : Int)
  | unsigned (value : Nat) (radix : Radix)
  | float (bits : Word) (form : FloatForm)
  | string (text : List Byte)
  | character (b : Byte)
  | pointer (address : Nat)
  deriving DecidableEq, Repr

namespace Content

/-- The field of the content in a layout. -/
def field (layout : Layout) : Content → List Byte
  | signed value => Field.signed value layout
  | unsigned value radix => Field.unsigned value radix layout
  | float bits form => Field.float bits form layout
  | string text => Field.string text layout
  | character b => Field.character b layout
  | pointer address => Field.pointer address layout

/-- An output with the field of the content behind it. -/
def appendTo (output : List Byte) (layout : Layout) (content : Content) : List Byte :=
  output ++ content.field layout

/-- The `0` flag counts for whole numbers that no precision is given for and for numbers
among the floats. -/
def ZerosCount (precision : Quantity) : Content → Prop
  | signed _ | unsigned _ _ => precision = .absent
  | float bits _ => ∃ negative significand exponent,
      FloatFormat.binary64.decode bits.toNat = .finite negative significand exponent
  | string _ | character _ | pointer _ => False

def body (layout : Layout) : Content → Body
  | signed value => signedBody value layout
  | unsigned value radix => unsignedBody value radix layout
  | float bits form => floatBody bits form layout
  | string text => .plain (text.take (layout.precision.getD text.length))
  | character b => .plain [b]
  | pointer address => .plain (addressText address)

theorem field_eq (layout : Layout) (content : Content) :
    content.field layout = (content.body layout).place layout.flags (layout.width.getD 0) := by
  cases content <;> rfl

/-- The width is no part of what a body is made from. -/
theorem body_width (layout : Layout) (width : Quantity) (content : Content) :
    content.body { layout with width } = content.body layout := by
  cases content <;> rfl

theorem field_absent (layout : Layout) (content : Content) :
    content.field { layout with width := .absent } = (content.body layout).bytes := by
  rw [field_eq, body_width]
  exact Body.place_zero ..

theorem takesZeros_iff (layout : Layout) (content : Content) :
    (content.body layout).takesZeros = true ↔ content.ZerosCount layout.precision := by
  cases content with
  | signed | unsigned => exact beq_iff_eq
  | float bits form =>
    show (floatBody bits form layout).takesZeros = true ↔ _
    unfold floatBody ZerosCount
    cases hdecode : FloatFormat.binary64.decode bits.toNat with
    | nan | infinite =>
      refine iff_of_false nofun ?_
      rintro ⟨negative, significand, exponent, hfinite⟩
      rw [hdecode] at hfinite
      cases hfinite
    | finite negative significand exponent =>
      exact iff_of_true rfl ⟨negative, significand, exponent, hdecode⟩
  | string | character | pointer => exact iff_of_false nofun id

end Content

/-! ### Where zeros come -/

theorem digits_withLeastDigits (r : Radix) (least n : Nat) :
    ∀ b ∈ withLeastDigits least (r.numeral n), b.isDigitOf r.base := by
  have hbase := r.two_le_base
  exact ((IntegerToken.areDigits_numeral r n).zeros (by omega) _).all

theorem leadLength_withLeastDigits (r : Radix) (least n : Nat) :
    leadLength (withLeastDigits least (r.numeral n)) = 0 :=
  leadLength_of_digits fun b hb =>
    Byte.isDigitOf_mono r.base_le (digits_withLeastDigits r least n b hb)

theorem leadLength_signedBody (value : Int) (layout : Layout) :
    leadLength (signedBody value layout).bytes = (signedBody value layout).lead.length := by
  refine leadLength_sign layout.flags _ ?_
  unfold signedBody
  dsimp only
  split
  · exact leadLength_nil
  · exact leadLength_withLeastDigits ..

theorem leadLength_unsignedBody (value : Nat) (r : Radix) (layout : Layout) :
    leadLength (unsignedBody value r layout).bytes = (unsignedBody value r layout).lead.length := by
  have hrest : leadLength (unsignedBody value r layout).rest = 0 := by
    unfold unsignedBody
    dsimp only
    split
    · exact leadLength_nil
    · exact leadLength_withLeastDigits ..
  unfold Body.bytes
  generalize (unsignedBody value r layout).rest = rest at hrest
  unfold unsignedBody
  dsimp only
  split
  · exact leadLength_mark r hrest
  · exact hrest

/-- The magnitude of a finite double is a number as it is written, in every style. -/
theorem exists_writtenNumber {bits significand : Nat} {exponent : Int}
    (h : FloatFormat.binary64.IsMagnitude bits significand exponent) (form : FloatForm)
    (places : Nat) (alternative : Bool) :
    ∃ n : WrittenNumber,
      n.text = finiteText (Ratio.ofBinary significand exponent) form places alternative := by
  by_cases hstyle : form.style = .fixed
  · refine ⟨_, (WrittenNumber.text_fixed (Ratio.ofBinary significand exponent) places
      alternative).trans ?_⟩
    rw [finiteText, hstyle]
  · obtain ⟨n, hspells⟩ := exists_spells (Ratio.den_ofBinary_pos significand exponent) hstyle
      (FloatToken.natAbs_significant_lt h (form.places places)) alternative
    exact ⟨n, hspells.text_eq⟩

theorem leadLength_floatBody (bits : Word) (form : FloatForm) (layout : Layout)
    (h : (floatBody bits form layout).takesZeros = true) :
    leadLength (floatBody bits form layout).bytes = (floatBody bits form layout).lead.length := by
  unfold floatBody at h ⊢
  cases hdecode : FloatFormat.binary64.decode bits.toNat with
  | nan | infinite =>
    rw [hdecode] at h
    cases h
  | finite negative significand exponent =>
    obtain ⟨n, htext⟩ := exists_writtenNumber (FloatFormat.isMagnitude_of_decode hdecode).2 form
      (layout.precision.getD 6) layout.flags.alternative
    refine leadLength_sign layout.flags _ ?_
    dsimp only
    rw [← htext]
    exact leadLength_writtenNumber n

theorem Content.leadLength_body (layout : Layout) (content : Content)
    (h : (content.body layout).takesZeros = true) :
    leadLength (content.body layout).bytes = (content.body layout).lead.length := by
  cases content with
  | signed value => exact leadLength_signedBody value layout
  | unsigned value radix => exact leadLength_unsignedBody value radix layout
  | float bits form => exact leadLength_floatBody bits form layout h
  | string | character | pointer => cases h

/-- A width only pads. Behind every output a content puts one field, which for a given
width is the field without a width, filled up to it: on the right where `-` says so, else
with zeros behind the sign or the radix mark where `0` is set and counts, and else on the
left. -/
theorem width_only_pads (content : Content) (layout : Layout) (width : Nat)
    (output : List Byte) :
    ∃ field, content.appendTo output { layout with width := .given width } = output ++ field ∧
      Widens layout.flags (content.ZerosCount layout.precision) width
        (content.field { layout with width := .absent }) field := by
  refine ⟨_, rfl, ?_⟩
  rw [content.field_absent, content.field_eq, content.body_width, ← content.takesZeros_iff]
  exact (content.body layout).widens_place layout.flags width (content.leadLength_body layout)

/-- Zeros come behind the radix mark. -/
example :
    unsigned 255 .hexLower
        ⟨{ Flags.none with alternative := true, zero := true }, .given 10, .absent⟩ =
      ascii "0x000000ff" := by decide

end Field
end CheckedFormat
