import CheckedFormat.Memory.Arena
import CheckedFormat.Proofs.DecimalNumbers
/-! Decimal numbers as floats.

A decimal number becomes a float in two roundings, to a double and from there to a float. The
double is on the same side of every number half way between two floats as the number that was
read, unless it is half way itself; so both roundings together are one, unless the second one
sees a tie where there was none and breaks it the wrong way (`FloatFormat.MissesTie`,
`FloatFormat.isNearest_single_iff`). That is how a directive without a length stores a decimal
token (`Scan.decimal_tokens_nearest_iff`). -/
namespace CheckedFormat
namespace FloatFormat

/-- The double is half way between two floats, or at the end of their scale, the number is not,
and it is nearer to the odd one of them. -/
def MissesTie (v : ℚ) (double : Nat) : Prop :=
  ∃ count < binary32.infinityBits, binary64.number double = binary32.halfway count ∧
    if count % 2 = 0 then binary32.halfway count < v else v < binary32.halfway count

section Singles
variable {v : ℚ} {count single double : Nat}

/-- A number and the double that it is rounded to are on the same side of a double. -/
theorem number_le_of_le (h : binary64.RoundsTo v count) (hle : v ≤ binary64.number double) :
    binary64.number (min count binary64.infinityBits) ≤ binary64.number double :=
  number_strictMono.monotone ((Nat.min_le_left _ _).trans (h.mono (roundsTo_number double) hle))

theorem le_number_of_le (h : binary64.RoundsTo v count) (hfinite : double < binary64.infinityBits)
    (hle : binary64.number double ≤ v) :
    binary64.number double ≤ binary64.number (min count binary64.infinityBits) :=
  number_strictMono.monotone (Nat.le_min.2 ⟨(roundsTo_number double).mono h hle, hfinite.le⟩)

/-- Rounding the double instead of the number goes past the same half ways, but for a tie that
it misses. -/
theorem roundsWithin_double_iff (h : binary64.RoundsTo v count)
    (hsingle : single < binary32.infinityBits) :
    (binary32.RoundsWithin v single ↔
        binary32.RoundsWithin (binary64.number (min count binary64.infinityBits)) single) ↔
      ¬ (binary64.number (min count binary64.infinityBits) = binary32.halfway single ∧
        if single % 2 = 0 then binary32.halfway single < v else v < binary32.halfway single) := by
  obtain ⟨double, hfinite, hhalfway⟩ := exists_number_eq_halfway hsingle
  have hbelow : v ≤ binary64.number double → _ := number_le_of_le h
  have habove := le_number_of_le h hfinite
  rw [hhalfway] at hbelow habove
  generalize binary64.number (min count binary64.infinityBits) = y at hbelow habove
  rcases lt_trichotomy y (binary32.halfway single) with hy | hy | hy
  · have hv : v < binary32.halfway single := lt_of_not_ge fun hv => hy.not_ge (habove hv)
    exact iff_of_true (iff_of_true (.inl hv) (.inl hy)) fun htie => hy.ne htie.1
  · subst hy
    have hdouble : binary32.RoundsWithin (binary32.halfway single) single ↔ single % 2 = 0 := by
      simp [RoundsWithin]
    rw [hdouble]
    rcases Nat.mod_two_eq_zero_or_one single with hparity | hparity
    · simp only [hparity, if_true, true_and, iff_true, not_lt, RoundsWithin, and_true]
      exact le_iff_lt_or_eq.symm
    · simp [hparity, RoundsWithin]
  · have hv : binary32.halfway single < v := lt_of_not_ge fun hv => hy.not_ge (hbelow hv)
    refine iff_of_true (iff_of_false ?_ ?_) fun htie => hy.ne' htie.1
    · exact not_roundsWithin_iff.2 (.inl hv)
    · exact not_roundsWithin_iff.2 (.inl hy)

/-- Counts that are cut off at the same place are the same if they are above the same counts. -/
theorem min_eq_min_iff {a b n : Nat} : min a n = min b n ↔ ∀ k < n, (a ≤ k ↔ b ≤ k) := by
  constructor
  · intro h k hk
    omega
  · intro h
    by_contra hne
    have hlow := h a
    have hhigh := h b
    omega

/-- The float that the double is rounded to is the one nearest to the number, unless a tie was
missed. -/
theorem isNearest_single_iff (hv : 0 ≤ v) (h : binary64.RoundsTo v count)
    (hsingle : binary32.RoundsTo (binary64.number (min count binary64.infinityBits)) single) :
    binary32.IsNearest v (min single binary32.infinityBits) ↔
      ¬ MissesTie v (min count binary64.infinityBits) := by
  obtain ⟨once, honce⟩ := exists_roundsTo (f := binary32) fractions_binary32_even hv
  rw [honce.isNearest_iff, eq_comm, min_eq_min_iff]
  unfold MissesTie
  simp only [not_exists, not_and]
  refine forall₂_congr fun k hk => ?_
  rw [honce k, hsingle k, roundsWithin_double_iff h hk, not_and]

end Singles
end FloatFormat

namespace FloatToken
open FloatFormat

section Values
variable {p : Parts}

theorem Spells.isDigit {text : List Byte} (h : Spells .decimal text p) :
    ∀ b ∈ p.whole ++ p.fraction, b.isDigit := fun b hb => Byte.isDigit_of_isDigitOf (h.digits b hb)

theorem decimalValue_le (h : ∀ b ∈ p.whole ++ p.fraction, b.isDigit) :
    decimalValue p ≤ binary64.infinityBits := by
  obtain ⟨count, -, hvalue⟩ := decimalValue_roundsTo h
  rw [hvalue]
  exact Nat.min_le_right _ _

theorem value_decimal {sign text : List Byte} {negative : Bool} (hsign : SpellsSign sign negative)
    (h : Spells .decimal text p) :
    (value (sign ++ text)).toNat = binary64.withSign negative (decimalValue p) := by
  have hnumeral := isNumeral_iff.2 ⟨p, h⟩
  have hfirst : ∀ b, text.head? = some b → b.isSign = false := by
    intro b hb
    obtain ⟨rest, rfl⟩ := List.head?_eq_some_iff.1 hb
    exact isSign_of_isNumeral hnumeral
  have hle := decimalValue_le h.isDigit
  have hlt : decimalValue p < 2 ^ 64 := hle.trans_lt (by decide)
  rw [value_signed hsign hfirst, magnitude_decimal hnumeral, h.parts_eq, BitVec.toNat_ofNat,
    Nat.mod_eq_of_lt (signed_lt hlt), signed_of_lt (hle.trans_lt (by decide))]

end Values
end FloatToken

namespace Scan
open FloatToken (Parts Spells SpellsSign)
open FloatFormat (binary32 binary64)

variable {S M : Type} [ByteSource S] [Memory M]

/-- What a floating-point directive stores as a float for a decimal token, in four bytes where
the next argument points, is the float nearest to the double nearest to the number, with its
sign; and that is the float nearest to the number itself, if and only if no tie was missed. The number is the one that was written, where its
exponent counts, and everywhere the one with the exponent that is taken. -/
theorem decimal_tokens_nearest_iff {letter : Conversion} {spec : ScanSpec} {s : State S M}
    {sign text : List Byte} {negative : Bool} (hletter : letter ∈ floatLetters)
    (hspec : spec.conversion = .letter letter) (hlength : spec.length = .plain)
    (hsign : SpellsSign sign negative) (hnumeral : FloatToken.IsNumeral .decimal false text)
    (hfinds : FindsToken spec s (sign ++ text)) :
    ∃ (p : Parts) (double single : Nat) (t : State S M), Spells .decimal text p ∧ SameStores s t ∧
      Deposits spec.suppress [littleEndian 4 (binary32.withSign negative single)] t
        (convert spec s) ∧
      binary32.IsNearest (binary64.number double) single ∧
      ∀ v, v = p.read ∨ p.IsCounted ∧ v = p.number →
        binary64.IsNearest v double ∧
          (binary32.IsNearest v single ↔ ¬ FloatFormat.MissesTie v double) := by
  obtain ⟨p, hspells⟩ := FloatToken.isNumeral_iff.1 hnumeral
  obtain ⟨t, hsame, hdeposits⟩ := exists_deposits hletter hspec hfinds
  obtain ⟨single, hsingle, hnarrow⟩ :=
    FloatFormat.toSingle_withSign (FloatToken.decimalValue_le hspells.isDigit) negative
  refine ⟨p, FloatToken.decimalValue p, min single binary32.infinityBits, t, hspells, hsame, ?_,
    hsingle.isNearest, fun v hv => ?_⟩
  · rw [hlength] at hdeposits
    rw [← hnarrow, ← FloatToken.value_decimal hsign hspells]
    exact hdeposits
  · have hrounded : ∃ count, binary64.RoundsTo v count ∧
        FloatToken.decimalValue p = min count binary64.infinityBits := by
      rcases hv with rfl | ⟨hcounted, rfl⟩
      · exact FloatToken.decimalValue_roundsTo hspells.isDigit
      · exact FloatToken.number_roundsTo hspells.isDigit hspells.isDigit_exponent hcounted
    have hnonneg : 0 ≤ v := by
      rcases hv with rfl | ⟨-, rfl⟩
      · exact p.read_nonneg
      · exact p.number_nonneg
    obtain ⟨count, hcount, hvalue⟩ := hrounded
    rw [hvalue] at hsingle ⊢
    exact ⟨hcount.isNearest, FloatFormat.isNearest_single_iff hnonneg hcount hsingle⟩

/-- Minus a quarter is a float, so no tie is missed, and it is stored where the pointer
leads. -/
theorem decimal_token_with_exponent_nearest :
    let spec : ScanSpec := ⟨false, none, .plain, .letter .g⟩
    let frame : Frame Arena :=
      ⟨.start .checked [.pointer 0x10000], (Arena.empty.allocate 4).2, .initial⟩
    let s : State TextSource Arena := ⟨.start (TextSource.mk (ascii "-2.5e-1")), frame⟩
    FloatToken.IsNumeral .decimal false (ascii "2.5e-1") ∧
      FindsToken spec s ([45] ++ ascii "2.5e-1") ∧
      ∃ (single : Nat) (t : State TextSource Arena),
        convert spec s = .ok .assigned t ∧
        t.frame.memory.Holds 0x10000 (littleEndian 4 (binary32.withSign true single)) ∧
        t.frame.arguments = frame.arguments.advance ∧
        binary32.IsNearest (1 / 4) single := by
  intro spec frame s
  have hletter : Conversion.g ∈ floatLetters := by decide
  have hspells : Spells .decimal (ascii "2.5e-1") ⟨ascii "2", ascii "5", true, ascii "1"⟩ :=
    ⟨by decide +kernel, by decide, ascii ".5", ascii "e-1", by decide +kernel, .point _,
      .minus (.inl rfl) ⟨by decide, by decide +kernel⟩⟩
  have hnumeral := FloatToken.isNumeral_iff.2 ⟨_, hspells⟩
  have hfinds : FindsToken spec s ([45] ++ ascii "2.5e-1") :=
    ⟨by decide +kernel, by decide +kernel⟩
  obtain ⟨p, double, single, t, hspells', ⟨harguments, hmemory⟩, hdeposits, -, hnearest⟩ :=
    decimal_tokens_nearest_iff hletter rfl rfl .minus hnumeral hfinds
  have hoffers : t.frame.arguments.Offers [⟨.pointer, 0x10000⟩] :=
    harguments ▸ ArgumentList.offers_start .checked [.pointer 0x10000]
  have hin : t.frame.memory.InBounds 0x10000
      [littleEndian 4 (binary32.withSign true single)].flatten.length := by
    rw [hmemory, List.flatten_singleton, length_littleEndian]
    exact ⟨by decide, by decide, by decide⟩
  obtain ⟨later, hassigned, hholds, -⟩ := hdeposits.exists_assigned hoffers hin
  rw [List.flatten_singleton] at hholds
  obtain rfl := hspells'.parts_eq.symm.trans hspells.parts_eq
  have hwritten : digitsValue 10 (ascii "2" ++ ascii "5") = 25 := by decide +kernel
  have hpower : Parts.power ⟨ascii "2", ascii "5", true, ascii "1"⟩ = -1 := by decide +kernel
  have hnumber : Parts.number ⟨ascii "2", ascii "5", true, ascii "1"⟩ = 1 / 4 := by
    have hplaces : (ascii "5").length = 1 := by decide +kernel
    rw [Parts.number, hwritten, hpower, hplaces]
    norm_num
  obtain ⟨hdouble, hsingle⟩ := hnearest (1 / 4) (.inr ⟨.inl (by decide +kernel), hnumber.symm⟩)
  refine ⟨hnumeral, hfinds, single, _, hassigned, hholds,
    congrArg ArgumentList.advance harguments, hsingle.2 ?_⟩
  -- The double is the quarter itself.
  have hexact : binary64.number double = 1 / 4 := by
    have hquarter : binary64.number (1020 * binary64.fractions + binary64.fractions) = 1 / 4 := by
      rw [FloatFormat.number_binade_binary64]
      norm_num
    have hdouble' := (FloatFormat.roundsTo_number (f := binary64)
      (1020 * binary64.fractions + binary64.fractions)).isNearest
    rw [hquarter] at hdouble'
    rw [hdouble.unique hdouble', ← hquarter]
    rfl
  rintro ⟨count, -, hhalfway, htie⟩
  rw [← hhalfway, hexact] at htie
  split at htie <;> exact lt_irrefl _ htie

/-- A little more than half way from one to the next float: the double is half way, and the
float that is stored is one. -/
theorem token_above_half_way_becomes_one :
    let text := ascii "1.0000000596046447753906250000000001"
    let p : Parts := ⟨ascii "1", ascii "0000000596046447753906250000000001", false, []⟩
    let frame : Frame Arena :=
      ⟨.start .checked [.pointer 0x10000], (Arena.empty.allocate 4).2, .initial⟩
    let result := scan (TextSource.mk text) (ascii "%f") frame
    Spells .decimal text p ∧ binary32.IsNearest p.number 0x3f800001 ∧
      result.1 = .ok ⟨1, 36, .complete, none⟩ ∧
      ∀ negative single, binary32.IsNearest p.number single →
        result.2.2.memory.bytes ≠ littleEndian 4 (binary32.withSign negative single) := by
  intro text p frame result
  have hspells : Spells .decimal text p := by
    refine ⟨by decide +kernel, by decide, ascii ".0000000596046447753906250000000001", [],
      by decide +kernel, ?_, .absent⟩
    exact .point _
  have hdigits : digitsValue 10 (p.whole ++ p.fraction) =
      10000000596046447753906250000000001 := by decide +kernel
  have hplaces : p.fraction.length = 34 := by decide +kernel
  have hpower : p.power = 0 := rfl
  have hnumber : p.number = 10000000596046447753906250000000001 / 10 ^ 34 := by
    rw [Parts.number, hdigits, hplaces, hpower]
    norm_num
  have hbinade : ∀ steps : Nat, binary32.fractions ≤ steps → steps < 2 * binary32.fractions →
      binary32.halfway (126 * binary32.fractions + steps) = (steps + 1 / 2) * 2 ^ (-23 : ℤ) :=
    fun steps hlow hhigh => FloatFormat.halfway_eq (.inr hlow) hhigh
  have habove : binary32.halfway 0x3f800001 = ((8388609 : ℕ) + 1 / 2) * 2 ^ (-23 : ℤ) :=
    hbinade 8388609 (by decide) (by decide)
  have hbelow : binary32.halfway 0x3f800000 = ((8388608 : ℕ) + 1 / 2) * 2 ^ (-23 : ℤ) :=
    hbinade 8388608 (by decide) (by decide)
  have hnearest : binary32.IsNearest p.number 0x3f800001 := by
    have hrounds : binary32.RoundsTo p.number 0x3f800001 := by
      refine FloatFormat.roundsTo_iff.2 ⟨.inl ?_, fun below hcount => ?_⟩
      · rw [habove, hnumber]
        norm_num
      · obtain rfl : below = 0x3f800000 := by omega
        refine FloatFormat.not_roundsWithin_iff.2 (.inl ?_)
        rw [hbelow, hnumber]
        norm_num
    exact hrounds.isNearest
  refine ⟨hspells, hnearest, ok_of_toOption (by decide +kernel), ?_⟩
  intro negative single h
  obtain rfl := h.unique hnearest
  cases negative <;> decide +kernel

end Scan
end CheckedFormat
