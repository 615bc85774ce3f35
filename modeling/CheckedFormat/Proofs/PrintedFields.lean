import CheckedFormat.Field.Text
import CheckedFormat.Memory.Basic
import CheckedFormat.Proofs.Numerals
import CheckedFormat.Proofs.Reading
/-! What printed fields hold for a scan.

Whatever the flags, the width and the precision, a field is one word between blanks
(`Padded`): a number's word is a token of its value in the radix that it was printed
in, and a string's word is the string. So a scan that skips white space finds the
word, and takes all of it when white space stands behind the field. -/
namespace CheckedFormat

/-! ### Words between blanks -/

/-- White space alone. -/
def IsBlank (text : List Byte) : Prop := ∀ b ∈ text, b.isSpace

theorem IsBlank.append {first second : List Byte} (h₁ : IsBlank first) (h₂ : IsBlank second) :
    IsBlank (first ++ second) := fun b hb =>
  (List.mem_append.1 hb).elim (h₁ b) (h₂ b)

theorem isBlank_replicate (count : Nat) : IsBlank (List.replicate count 32) := fun b hb => by
  rw [(List.mem_replicate.1 hb).2]
  rfl

/-- The field is the word with white space around it. -/
def Padded (word field : List Byte) : Prop :=
  ∃ before after, field = before ++ (word ++ after) ∧ IsBlank before ∧ IsBlank after

theorem Padded.of_blank {blank word field : List Byte} (hblank : IsBlank blank)
    (h : Padded (blank ++ word) field) : Padded word field := by
  obtain ⟨before, after, rfl, hbefore, hafter⟩ := h
  exact ⟨before ++ blank, after, by simp, hbefore.append hblank, hafter⟩

/-- A body stands in its field between blanks, with zeros behind its lead if it takes
them. -/
theorem Body.padded_place (b : Body) (flags : Flags) (width : Nat) :
    ∃ zeros, Padded (b.lead ++ (List.replicate zeros 48 ++ b.rest)) (b.place flags width) ∧
      (b.takesZeros = false → zeros = 0) := by
  unfold place
  by_cases hleft : flags.left = true
  · rw [if_pos hleft]
    exact ⟨0, ⟨[], List.replicate (width - b.length) 32, by simp, nofun, isBlank_replicate _⟩,
      fun _ => rfl⟩
  · rw [if_neg hleft]
    by_cases hzero : (flags.zero && b.takesZeros) = true
    · rw [if_pos hzero]
      refine ⟨width - b.length, ⟨[], [], by simp, nofun, nofun⟩, fun h => ?_⟩
      simp [h] at hzero
    · rw [if_neg hzero]
      exact ⟨0, ⟨List.replicate (width - b.length) 32, [], by simp, isBlank_replicate _, nofun⟩,
        fun _ => rfl⟩

/-- A body that takes no zeros stands in its field between blanks. -/
theorem Body.padded_plain (bytes : List Byte) (layout : Layout) :
    Padded bytes ((plain bytes).placeIn layout) := by
  obtain ⟨zeros, hpadded, hzeros⟩ :=
    (plain bytes).padded_place layout.flags (layout.width.getD 0)
  obtain rfl := hzeros rfl
  exact hpadded

/-! ### Tokens in front of white space -/

namespace IntegerToken

/-- No token goes on with white space, or with a zero byte. -/
theorem step_of_blank (base : Base) (state : State) {b : Byte} (h : b.isSpace = true ∨ b = 0) :
    step base state b = none := by
  have hvalue : Byte.alphanumericValue? b = none := by
    rcases h with h | rfl
    · exact Byte.alphanumericValue?_of_isSpace h
    · decide
  have hcode : b.toNat ≤ 32 := by
    rcases h with h | rfl
    · rw [Byte.isSpace_iff] at h
      omega
    · decide
  have hdigit : ∀ n, digitIn n b = none := by
    intro n
    simp [digitIn, Byte.isDigitOf, Byte.digit?, hvalue]
  have hne : ∀ c : Byte, 32 < c.toNat → (b == c) = false := by
    intro c hlow
    rw [beq_eq_false_iff_ne]
    rintro rfl
    omega
  have hsign : b.isSign = false := by
    rw [Byte.isSign, hne 43 (by decide), hne 45 (by decide)]
    rfl
  have hzero : (b == 48) = false := hne 48 (by decide)
  have hmark : isMark b = false := by
    have hupper : ¬ b.isUpper = true := by
      rw [Byte.isUpper_iff]
      omega
    rw [isMark, Byte.lower, if_neg hupper]
    exact hne 120 (by decide)
  have hfirst : first base b = none := by
    cases base <;> simp [first, hdigit, hzero]
  cases state <;> simp [step, hsign, hmark, hfirst, hdigit]

theorem not_blank_of_run {base : Base} {state final : State} {text : List Byte}
    (h : (recogniser base).run state text = some final) :
    ∀ b ∈ text, b.isSpace = false ∧ b ≠ 0 := by
  induction text generalizing state with
  | nil => exact nofun
  | cons c rest ih =>
    obtain ⟨next, hstep, hnext⟩ := Option.bind_eq_some_iff.1 h
    have hc : ¬ (c.isSpace = true ∨ c = 0) := by
      intro hblank
      have hnone : step base state c = none := step_of_blank base state hblank
      rw [show (recogniser base).step state c = step base state c from rfl, hnone] at hstep
      cases hstep
    intro b hb
    rcases List.mem_cons.1 hb with rfl | hb
    · simpa using hc
    · exact ih hnext b hb

/-- A token holds no white space and no zero byte. -/
theorem Reads.not_blank {base : Base} {text : List Byte} {v : Value} (h : Reads base text v) :
    ∀ b ∈ text, b.isSpace = false ∧ b ≠ 0 := by
  obtain ⟨state, hrun, _⟩ := h.accepted
  exact not_blank_of_run hrun

theorem Reads.ne_nil {base : Base} {text : List Byte} {v : Value} (h : Reads base text v) :
    text ≠ [] := by
  rintro rfl
  obtain ⟨state, hrun, haccepts⟩ := h.accepted
  cases hrun
  cases haccepts

/-- A token is taken whole where white space or the end stands behind it. -/
theorem Reads.token {base : Base} {text rest : List Byte} {v : Value} (h : Reads base text v)
    (hrest : StopsAt (fun b => !b.isSpace) rest) :
    TextReading.token (recogniser base) (recogniser base).start none (text ++ rest) =
      (some text, text.length) := by
  obtain ⟨state, hrun, haccepts⟩ := h.accepted
  have hstop : ∀ b, rest.head? = some b → step base state b = none := fun b hb => by
    have hspace : b.isSpace = true := by simpa using hrest b hb
    exact step_of_blank base state (.inl hspace)
  have hlongest : TextReading.longest (recogniser base) (recogniser base).start none
      (text ++ rest) = some text := TextReading.longest_append hrun haccepts hstop
  rw [TextReading.token, hlongest, Option.getD_some]

end IntegerToken

/-! ### Fields -/

namespace Radix
open IntegerToken

/-- The base in which a scan reads a radix back. -/
def tokens : Radix → IntegerToken.Base
  | decimal => .fixed 10
  | octal => .fixed 8
  | hexLower | hexUpper => .hex

/-- Digits of a radix are a token, behind the radix mark or without it. -/
theorem denotes_digits (r : Radix) {lead digits : List Byte} (hlead : lead = [] ∨ lead = r.mark)
    (h : AreDigits r.base digits) : Denotes r.tokens (lead ++ digits) (digitsValue r.base digits) := by
  rcases hlead with rfl | rfl
  · cases r with
    | decimal | octal => exact denotes_fixed h
    | hexLower | hexUpper => exact denotes_hex h
  · cases r with
    | decimal | octal => exact denotes_fixed h
    | hexLower | hexUpper => exact denotes_marked (.inl rfl) rfl h

/-- So is a numeral with zeros in front. -/
theorem denotes_numeral (r : Radix) {lead : List Byte} (hlead : lead = [] ∨ lead = r.mark)
    (zeros n : Nat) : Denotes r.tokens (lead ++ (List.replicate zeros 48 ++ r.numeral n)) n := by
  have hbase := r.two_le_base
  have h := r.denotes_digits hlead ((areDigits_numeral r n).zeros (by omega) zeros)
  rwa [digitsValue_zeros, digitsValue_numeral] at h

end Radix

namespace Field
open IntegerToken

/-- A body of a numeral with zeros in front, placed: the zeros of the precision and
those of the width stand together. -/
theorem padded_withLeastDigits (lead numeral : List Byte) (least : Nat) (takesZeros : Bool)
    (layout : Layout) :
    ∃ zeros, Padded (lead ++ (List.replicate zeros 48 ++ numeral))
      (Body.placeIn ⟨lead, withLeastDigits least numeral, takesZeros⟩ layout) := by
  obtain ⟨zeros, hpadded, _⟩ := Body.padded_place
    ⟨lead, withLeastDigits least numeral, takesZeros⟩ layout.flags (layout.width.getD 0)
  refine ⟨zeros + (least - numeral.length), ?_⟩
  rwa [← List.replicate_append_replicate, List.append_assoc]

/-- A signed field holds a token of its value. -/
theorem reads_signed (value : Int) {layout : Layout} (h : layout.precision ≠ .given 0) :
    ∃ word, Padded word (signed value layout) ∧
      Reads (.fixed 10) word ⟨value < 0, value.natAbs⟩ := by
  obtain ⟨zeros, hpadded⟩ := padded_withLeastDigits (layout.flags.sign (value < 0))
    (Radix.decimal.numeral value.natAbs) (layout.precision.getD 1) (layout.precision == .absent)
    layout
  have hfield : signed value layout = Body.placeIn ⟨layout.flags.sign (value < 0),
      withLeastDigits (layout.precision.getD 1) (Radix.decimal.numeral value.natAbs),
      layout.precision == .absent⟩ layout := by
    rw [signed, signedBody, if_neg fun hzero => h hzero.2]
  have hdenotes := Radix.decimal.denotes_numeral (.inl rfl) zeros value.natAbs
  rw [hfield]
  unfold Flags.sign at hpadded ⊢
  by_cases hnegative : value < 0
  · rw [decide_eq_true hnegative] at hpadded ⊢
    exact ⟨_, hpadded, hdenotes.reads_minus⟩
  · rw [decide_eq_false hnegative] at hpadded ⊢
    by_cases hplus : layout.flags.plus = true
    · rw [hplus] at hpadded ⊢
      exact ⟨_, hpadded, hdenotes.reads_plus⟩
    · rw [Bool.not_eq_true] at hplus
      rw [hplus] at hpadded ⊢
      cases hblank : layout.flags.blank with
      | true =>
        rw [hblank] at hpadded
        exact ⟨_, hpadded.of_blank (isBlank_replicate 1), hdenotes.reads⟩
      | false =>
        rw [hblank] at hpadded
        exact ⟨_, hpadded, hdenotes.reads⟩

/-- An unsigned field holds a token of its value. -/
theorem reads_unsigned (value : Nat) (r : Radix) {layout : Layout}
    (h : layout.precision ≠ .given 0) :
    ∃ word, Padded word (unsigned value r layout) ∧ Reads r.tokens word ⟨false, value⟩ := by
  obtain ⟨zeros, hpadded⟩ := padded_withLeastDigits
    (if layout.flags.alternative && value != 0 then r.mark else []) (r.numeral value)
    (leastDigits value r layout) (layout.precision == .absent) layout
  have hfield : unsigned value r layout = Body.placeIn
      ⟨if layout.flags.alternative && value != 0 then r.mark else [],
        withLeastDigits (leastDigits value r layout) (r.numeral value),
        layout.precision == .absent⟩ layout := by
    have hdigits : ¬(value = 0 ∧ layout.precision = .given 0 ∧
        ¬(layout.flags.alternative ∧ r = .octal)) := fun hzero => h hzero.2.1
    rw [unsigned, unsignedBody, if_neg hdigits]
  have hlead : (if layout.flags.alternative && value != 0 then r.mark else []) = [] ∨
      (if layout.flags.alternative && value != 0 then r.mark else []) = r.mark := by
    split
    · exact .inr rfl
    · exact .inl rfl
  rw [hfield]
  exact ⟨_, hpadded, (r.denotes_numeral hlead zeros value).reads⟩

/-- The field of an address that is not null holds a token of it. -/
theorem reads_pointer {address : Nat} (layout : Layout) (h : address ≠ 0) :
    ∃ word, Padded word (pointer address layout) ∧ Reads .hex word ⟨false, address⟩ := by
  have hdenotes := Radix.hexLower.denotes_numeral (.inr rfl) 0 address
  have hpadded := Body.padded_plain (addressText address) layout
  have htext : addressText address = Radix.hexLower.mark ++ Radix.hexLower.numeral address :=
    if_neg h
  exact ⟨_, hpadded, htext ▸ hdenotes.reads⟩

/-- A string field holds the string where the precision does not cut it. -/
theorem padded_string {text : List Byte} {layout : Layout}
    (h : text.length ≤ layout.precision.getD text.length) : Padded text (string text layout) := by
  rw [string, List.take_of_length_le h]
  exact Body.padded_plain text layout

end Field

/-! ### Values in memory -/

/-- Only the low bytes of a number are stored. -/
theorem littleEndian_congr {size m n : Nat} (h : ∀ i < 8 * size, m.testBit i = n.testBit i) :
    littleEndian size m = littleEndian size n := by
  induction size generalizing m n with
  | zero => rfl
  | succ size ih =>
    have hbyte : m.toUInt8 = n.toUInt8 := by
      apply UInt8.eq_of_toBitVec_eq
      apply BitVec.eq_of_getLsbD_eq
      intro i hi
      show (BitVec.ofNat 8 m).getLsbD i = (BitVec.ofNat 8 n).getLsbD i
      rw [BitVec.getLsbD_ofNat, BitVec.getLsbD_ofNat, h i (by omega)]
    have hrest : ∀ i < 8 * size, (m / 256).testBit i = (n / 256).testBit i := by
      intro i hi
      have hbit := h (i + 8) (by omega)
      rwa [Nat.testBit_add, Nat.testBit_add] at hbit
    rw [littleEndian, littleEndian, hbyte, ih hrest]

namespace IntegerToken.Value

/-- The low bytes of a word are those of its value in as many bits. -/
theorem littleEndian_of_setWidth_eq {size : Nat} {v w : Word}
    (h : v.setWidth (8 * size) = w.setWidth (8 * size)) :
    littleEndian size v.toNat = littleEndian size w.toNat := by
  apply littleEndian_congr
  intro i hi
  have hbit := congrArg (BitVec.getLsbD · i) h
  simpa only [BitVec.getLsbD_setWidth, BitVec.testBit_toNat, hi, decide_true, Bool.true_and]
    using hbit

/-- Sign and magnitude together are the number. -/
theorem toInt_of_natAbs (n : Int) : toInt ⟨n < 0, n.natAbs⟩ = n := by
  show (if decide (n < 0) then -(n.natAbs : Int) else n.natAbs) = n
  by_cases hnegative : n < 0
  · rw [decide_eq_true hnegative, if_pos rfl]
    omega
  · rw [decide_eq_false hnegative, if_neg Bool.false_ne_true]
    omega

/-- A signed number of a size, read back, has the low bytes that it was printed
from. -/
theorem littleEndian_toSigned {size : Nat} (bits : Word) (h : size ≤ 8) :
    littleEndian size (toSigned ⟨(bits.setWidth (8 * size)).toInt < 0,
      (bits.setWidth (8 * size)).toInt.natAbs⟩).toNat = littleEndian size bits.toNat := by
  have hwide := BitVec.toInt_signExtend_of_le (x := bits.setWidth (8 * size))
    (show 8 * size ≤ 64 by omega)
  have hlow := BitVec.le_toInt ((bits.setWidth (8 * size)).signExtend 64)
  have hhigh := BitVec.toInt_lt (x := (bits.setWidth (8 * size)).signExtend 64)
  have hword : toSigned ⟨(bits.setWidth (8 * size)).toInt < 0,
      (bits.setWidth (8 * size)).toInt.natAbs⟩ = (bits.setWidth (8 * size)).signExtend 64 := by
    unfold toSigned
    rw [toInt_of_natAbs, ← hwide, show max (-(longMax : Int) - 1) (min _ (longMax : Int)) =
      ((bits.setWidth (8 * size)).signExtend 64).toInt by unfold longMax; omega,
      BitVec.ofInt_toInt]
  rw [hword]
  refine littleEndian_of_setWidth_eq ?_
  apply BitVec.eq_of_getLsbD_eq
  intro i hi
  have hwidth : i < 64 := by omega
  simp only [BitVec.getLsbD_setWidth, BitVec.getLsbD_signExtend, hi, hwidth, decide_true,
    Bool.true_and, if_true]

/-- So has an unsigned one. -/
theorem littleEndian_toUnsigned {size : Nat} (bits : Word) (h : size ≤ 8) :
    littleEndian size (toUnsigned ⟨false, (bits.setWidth (8 * size)).toNat⟩).toNat =
      littleEndian size bits.toNat := by
  have hbound : (bits.setWidth (8 * size)).toNat ≤ wordMax := by
    have hle : (bits.setWidth (8 * size)).toNat ≤ bits.toNat := by
      rw [BitVec.toNat_setWidth]
      exact Nat.mod_le _ _
    have hword := bits.isLt
    unfold wordMax
    omega
  have hword : toUnsigned ⟨false, (bits.setWidth (8 * size)).toNat⟩ =
      (bits.setWidth (8 * size)).setWidth 64 := by
    unfold toUnsigned
    rw [if_neg (by dsimp only; omega)]
    show BitVec.ofInt 64 ((bits.setWidth (8 * size)).toNat : Int) = _
    rw [BitVec.ofInt_natCast, BitVec.ofNat_toNat]
  rw [hword]
  refine littleEndian_of_setWidth_eq ?_
  rw [BitVec.setWidth_setWidth_of_le _ (by omega)]
  simp

end IntegerToken.Value
end CheckedFormat
