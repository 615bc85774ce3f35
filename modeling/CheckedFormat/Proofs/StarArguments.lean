import CheckedFormat.Proofs.DrawnSlots
import CheckedFormat.Proofs.FieldWidth
import CheckedFormat.Proofs.FormatWriting
import CheckedFormat.Proofs.PrintJoining
/-! Stars and the numbers that stand for them.

A star takes its number from the arguments, where it could as well stand in the format. A
width that is written out may be read as something else: a minus in front of it is a flag,
and so is a zero alone. But what is then printed is the same (`Layout.SameFields`), since a
negative argument asks for the left side, too, and where no field is wider than its body,
zeros fill nothing. So a call with a star and its argument can be replaced by one with the
number in the format (`stars_as_numbers`). -/
namespace CheckedFormat

/-! ### Numbers for stars -/

/-- An int as a width: its digits, behind a minus if it is negative. -/
def spelledWidth (w : Int) : List Byte :=
  (if w < 0 then ascii "-" else []) ++ Radix.decimal.numeral w.natAbs

/-- An int as a precision: its digits behind a point, or nothing if it is negative. -/
def spelledPrecision (p : Int) : List Byte :=
  if p < 0 then [] else ascii "." ++ Radix.decimal.numeral p.natAbs

/-- The width, with an int in the place of a star. -/
def WrittenWidth.spelled (w : Int) : WrittenWidth → List Byte
  | star => spelledWidth w
  | width => width.text

/-- The precision, with an int in the place of a star. -/
def WrittenPrecision.spelled (p : Int) : WrittenPrecision → List Byte
  | star => spelledPrecision p
  | precision => precision.text

/-- The opening with ints in the place of its stars. -/
def PrintOpening.spelled (o : PrintOpening) (w p : Int) : List Byte :=
  o.flags ++ (o.width.spelled w ++ (o.precision.spelled p ++ ascii o.length.spelling))

/-- The directive with ints in the place of its stars. -/
def WrittenDirective.spelled (d : WrittenDirective) (w p : Int) : List Byte :=
  opener :: (d.opening.spelled w p ++ [d.conversion.letter])

/-- The argument that a star takes. -/
def Quantity.stars (n : Int) : Quantity → List Slot
  | fromArgument => [.int n]
  | _ => []

namespace Layout

/-- The arguments that the stars of a layout take, the width's first. -/
def stars (layout : Layout) (w p : Int) : List Slot :=
  layout.width.stars w ++ layout.precision.stars p

/-- The layout with an int for the star of its width. -/
def fillWidth (layout : Layout) (w : Int) : Layout :=
  if layout.width = .fromArgument then Print.withWidth layout w else layout

/-- The layout with an int for the star of its precision. -/
def fillPrecision (layout : Layout) (p : Int) : Layout :=
  if layout.precision = .fromArgument then Print.withPrecision layout p else layout

theorem precision_fillWidth (layout : Layout) (w : Int) :
    (layout.fillWidth w).precision = layout.precision := by
  unfold fillWidth Print.withWidth
  split
  · split <;> rfl
  · rfl

/-! ### Layouts that print the same -/

/-- The layouts differ at most in how they spell that there is no width, and in the `0` flag
where there is none. -/
structure SameFields (a b : Layout) : Prop where
  precision : a.precision = b.precision
  width : a.width.getD 0 = b.width.getD 0
  marks : { a.flags with zero := false } = { b.flags with zero := false }
  zero : a.width.getD 0 = 0 ∨ a.flags.zero = b.flags.zero

namespace SameFields
variable {a b : Layout} (h : a.SameFields b)
include h

theorem sign_eq (negative : Bool) : a.flags.sign negative = b.flags.sign negative := by
  have hplus : a.flags.plus = b.flags.plus := congrArg (·.plus) h.marks
  have hblank : a.flags.blank = b.flags.blank := congrArg (·.blank) h.marks
  unfold Flags.sign
  rw [hplus, hblank]

theorem alternative_eq : a.flags.alternative = b.flags.alternative :=
  congrArg (·.alternative) h.marks

theorem placeIn_eq (body : Body) : body.placeIn a = body.placeIn b := by
  unfold Body.placeIn
  rw [← h.width]
  rcases h.zero with hnone | hzero
  · rw [hnone, Body.place_zero, Body.place_zero]
  · have hleft : a.flags.left = b.flags.left := congrArg (·.left) h.marks
    unfold Body.place
    rw [hleft, hzero]

open CheckedFormat.Field (Content)

/-- The bodies of the fields are the same. -/
theorem body_eq (content : Content) : content.body a = content.body b := by
  cases content with
  | signed value =>
    show Field.signedBody value a = Field.signedBody value b
    unfold Field.signedBody
    rw [h.precision, h.sign_eq]
  | unsigned value radix =>
    show Field.unsignedBody value radix a = Field.unsignedBody value radix b
    unfold Field.unsignedBody Field.leastDigits
    rw [h.precision, h.alternative_eq]
  | float bits form =>
    show Field.floatBody bits form a = Field.floatBody bits form b
    unfold Field.floatBody
    rw [h.precision, h.alternative_eq]
    simp only [h.sign_eq]
  | string text =>
    show Body.plain (text.take (a.precision.getD text.length)) = _
    rw [h.precision]
    rfl
  | character | pointer => rfl

theorem field_eq (content : Content) : content.field a = content.field b := by
  have hplace := h.placeIn_eq (content.body a)
  rw [content.field_eq, content.field_eq, ← h.body_eq content]
  exact hplace

theorem withinLimits_eq : Print.withinLimits a = Print.withinLimits b := by
  unfold Print.withinLimits
  rw [h.width, h.precision]

/-- A directive prints the same value the same way in both. -/
theorem renderOperand_eq {M : Type} [Memory M] (spec : PrintSpec) (written : Nat)
    (operand : Operand) :
    Print.renderOperand (M := M) spec a written operand =
      Print.renderOperand spec b written operand := by
  cases operand with
  | signed value => exact congrArg pure (h.field_eq (.signed value))
  | unsigned value => exact congrArg pure (h.field_eq (.unsigned value _))
  | float bits => exact congrArg pure (h.field_eq (.float bits _))
  | character byte => exact congrArg pure (h.field_eq (.character byte))
  | pointer address => exact congrArg pure (h.field_eq (.pointer address))
  | count address => rfl
  | string address =>
    have hstring (text : List Byte) : Field.string text a = Field.string text b :=
      h.field_eq (.string text)
    have hnull : Field.stringAtNull a = Field.stringAtNull b := by
      unfold Field.stringAtNull
      rw [h.precision]
      cases b.precision <;> exact hstring _
    have hread : Print.readString (M := M) address a = Print.readString address b := by
      funext frame
      unfold Print.readString
      rw [h.precision]
    simp only [Print.renderOperand, hstring, hnull, hread]

end SameFields
end Layout

/-! ### Reading the numbers -/

/-- The codes of the flag characters. -/
theorem Flags.codes : '-'.toUInt8 = 45 ∧ '+'.toUInt8 = 43 ∧ ' '.toUInt8 = 32 ∧
    '#'.toUInt8 = 35 ∧ '0'.toUInt8 = 48 := by decide

theorem Flags.settle_ofBytes_minus (flags : List Byte) :
    (ofBytes (flags ++ ascii "-")).settle =
      { (ofBytes flags).settle with left := true, zero := false } := by
  have hminus : ascii "-" = [45] := rfl
  simp [ofBytes, settle, hminus, codes]

theorem Flags.settle_ofBytes_zero (flags : List Byte) :
    (ofBytes (flags ++ ascii "0")).settle =
      { (ofBytes flags).settle with zero := !(ofBytes flags).left } := by
  have hzero : ascii "0" = [48] := rfl
  simp [ofBytes, settle, hzero, codes]

theorem natAbs_toInt_le (n : Int32) : n.toInt.natAbs ≤ wordMax := by
  have hlow := n.le_toInt
  have hhigh := n.toInt_lt
  unfold wordMax
  omega

/-- The digits of a number that is not zero are read as a width. -/
theorem WrittenWidth.exists_numeral {n : Nat} (hpositive : 0 < n) (hword : n ≤ wordMax) :
    ∃ width : WrittenWidth, width.text = Radix.decimal.numeral n ∧ width.quantity = .given n := by
  refine (PrintFormat.WritesWidth.given (isNumeral_numeral n)
    (Radix.decimal.head?_numeral_ne hpositive)).exists_written fun w hw => ?_
  cases hw
  exact ⟨hpositive, hword⟩

/-- A width with an int for its star is read as flags and a width without a star. -/
theorem WrittenWidth.exists_spelled (width : WrittenWidth) (w : Int32) :
    ∃ (more : List Byte) (written : WrittenWidth), (∀ b ∈ more, Flags.isFlag b) ∧
      more ++ written.text = width.spelled w.toInt ∧ written.quantity ≠ .fromArgument ∧
      ∀ flags precision,
        (Layout.fillWidth ⟨(Flags.ofBytes flags).settle, width.quantity, precision⟩
          w.toInt).SameFields
            ⟨(Flags.ofBytes (flags ++ more)).settle, written.quantity, precision⟩ := by
  cases width with
  | absent =>
    refine ⟨[], .absent, List.forall_mem_nil _, rfl, nofun, fun flags _ => ?_⟩
    rw [List.append_nil]
    exact ⟨rfl, rfl, rfl, .inr rfl⟩
  | digits first rest positive all =>
    refine ⟨[], .digits first rest positive all, List.forall_mem_nil _, rfl, nofun, ?_⟩
    intro flags _
    rw [List.append_nil]
    exact ⟨rfl, rfl, rfl, .inr rfl⟩
  | star =>
    have hword := natAbs_toInt_le w
    rcases Int.lt_trichotomy w.toInt 0 with hnegative | hzero | hpositive
    · -- The minus is a flag, and sets aside the flag for zeros.
      obtain ⟨written, htext, hquantity⟩ := WrittenWidth.exists_numeral (by omega) hword
      refine ⟨ascii "-", written, by decide +kernel, ?_, by rw [hquantity]; nofun,
        fun flags precision => ?_⟩
      · rw [htext, spelled, spelledWidth, if_pos hnegative]
      · show (Print.withWidth ⟨_, .fromArgument, precision⟩ w.toInt).SameFields _
        rw [Flags.settle_ofBytes_minus, hquantity, Print.withWidth, if_pos hnegative]
        exact ⟨rfl, rfl, rfl, .inr rfl⟩
    · -- The zero is a flag, and no width is left.
      refine ⟨ascii "0", .absent, by decide +kernel, by rw [spelled, hzero]; decide, nofun,
        fun flags precision => ?_⟩
      show (Print.withWidth ⟨_, .fromArgument, precision⟩ w.toInt).SameFields _
      rw [Flags.settle_ofBytes_zero, hzero]
      exact ⟨rfl, rfl, rfl, .inl rfl⟩
    · obtain ⟨written, htext, hquantity⟩ := WrittenWidth.exists_numeral (by omega) hword
      refine ⟨[], written, List.forall_mem_nil _, ?_, by rw [hquantity]; nofun,
        fun flags precision => ?_⟩
      · rw [htext, spelled, spelledWidth, if_neg (by omega)]
      · show (Print.withWidth ⟨_, .fromArgument, precision⟩ w.toInt).SameFields _
        rw [List.append_nil, hquantity, Print.withWidth, if_neg (by omega)]
        exact ⟨rfl, rfl, rfl, .inr rfl⟩

/-- A precision with an int for its star is read as one without a star. -/
theorem WrittenPrecision.exists_spelled (precision : WrittenPrecision) (p : Int32) :
    ∃ written : WrittenPrecision, written.text = precision.spelled p.toInt ∧
      written.quantity ≠ .fromArgument ∧
      ∀ layout : Layout, layout.precision = precision.quantity →
        layout.fillPrecision p.toInt = { layout with precision := written.quantity } := by
  cases precision with
  | absent =>
    refine ⟨.absent, rfl, nofun, fun layout hlayout => ?_⟩
    rw [Layout.fillPrecision, hlayout, if_neg nofun]
    exact congrArg (Layout.mk _ _) hlayout
  | digits run all =>
    refine ⟨.digits run all, rfl, nofun, fun layout hlayout => ?_⟩
    rw [Layout.fillPrecision, hlayout, if_neg nofun]
    exact congrArg (Layout.mk _ _) hlayout
  | star =>
    have hstar (layout : Layout) (hlayout : layout.precision = .fromArgument) :
        layout.fillPrecision p.toInt = Print.withPrecision layout p.toInt := if_pos hlayout
    by_cases hnegative : p.toInt < 0
    · refine ⟨.absent, ?_, nofun, fun layout hlayout => ?_⟩
      · rw [spelled, spelledPrecision, if_pos hnegative]
        rfl
      · rw [hstar layout hlayout, Print.withPrecision, if_pos hnegative]
        rfl
    · have hnumeral := isNumeral_numeral p.toInt.natAbs
      refine ⟨.digits _ hnumeral.all, ?_, nofun, fun layout hlayout => ?_⟩
      · rw [spelled, spelledPrecision, if_neg hnegative]
        rfl
      · rw [hstar layout hlayout, Print.withPrecision, if_neg hnegative, quantity,
          hnumeral.saturatingDecimal_eq (natAbs_toInt_le p)]

namespace PrintOpening

/-- An opening with ints for its stars is read as one without stars, which prints what the
stars print with the ints. -/
theorem exists_spelled (o : PrintOpening) (w p : Int32) :
    ∃ o' : PrintOpening, o'.text = o.spelled w.toInt p.toInt ∧ o'.length = o.length ∧
      o'.layout.width ≠ .fromArgument ∧ o'.layout.precision ≠ .fromArgument ∧
      ((o.layout.fillWidth w.toInt).fillPrecision p.toInt).SameFields o'.layout := by
  obtain ⟨more, width, hmore, hwidth, hgiven, hsame⟩ := o.width.exists_spelled w
  obtain ⟨precision, hprecision, hprecise, hfill⟩ := o.precision.exists_spelled p
  refine ⟨⟨o.flags ++ more, width, precision, o.length, fun b hb => ?_⟩, ?_, rfl, hgiven,
    hprecise, ?_⟩
  · exact (List.mem_append.1 hb).elim (o.areFlags b) (hmore b)
  · rw [spelled, ← hwidth, ← hprecision]
    simp [text]
  · obtain ⟨-, hsameWidth, hmarks, hzero⟩ := hsame o.flags o.precision.quantity
    rw [hfill _ (Layout.precision_fillWidth _ _)]
    exact ⟨rfl, hsameWidth, hmarks, hzero⟩

end PrintOpening

namespace WrittenDirective

/-- A directive with ints for its stars is a directive. -/
theorem exists_spelled (d : WrittenDirective) (w p : Int32) :
    ∃ d' : WrittenDirective, d'.text = d.spelled w.toInt p.toInt ∧ d'.length = d.length ∧
      d'.conversion = d.conversion ∧ d'.spec.layout.width ≠ .fromArgument ∧
      d'.spec.layout.precision ≠ .fromArgument ∧
      ((d.spec.layout.fillWidth w.toInt).fillPrecision p.toInt).SameFields d'.spec.layout := by
  obtain ⟨o, htext, hlength, hwidth, hprecision, hsame⟩ := d.opening.exists_spelled w p
  let d' : WrittenDirective := ⟨o.flags, o.width, o.precision, o.length, d.conversion, o.areFlags,
    d.printable, by rw [hlength]; exact d.fits⟩
  refine ⟨d', ?_, hlength, rfl, hwidth, hprecision, hsame⟩
  rw [spelled, ← htext]
  exact congrArg (opener :: ·) d'.body_eq

end WrittenDirective

/-! ### Steps without the arguments of stars -/

namespace Print
variable {M : Type}

/-- The second list is the first without the `slots` that stand behind the next `n`, and all
else is the same. -/
structure Without (n : Nat) (slots : List Slot) (a b : Frame M) : Prop where
  level : b.arguments.level = a.arguments.level
  ended : b.arguments.ended = a.arguments.ended
  memory : a.memory = b.memory
  left : ∃ taken later, taken.length = n ∧ a.arguments.left = taken ++ (slots ++ later) ∧
    b.arguments.left = taken ++ later

/-- The frames go on in the same way. -/
def Level (a b : Frame M) : Prop := ∀ n, Beside Eq n a b

/-- What draws leaves frames that go on in the same way. -/
theorem Draws.level {α : Type} {n : Nat} {f : Step M α} (hf : Draws Eq n f) {a b : Frame M}
    (h : Level a b) : Follows Level (f a) (f b) :=
  (hf a b (h n)).mono fun _ _ hdrawn k => hdrawn.behind (h (n + k))

namespace Without
variable {n k : Nat} {slots : List Slot} {a b : Frame M}

theorem level_of_none (h : Without 0 [] a b) : Level a b := by
  obtain ⟨taken, later, htaken, ha, hb⟩ := h.left
  exact fun _ => ⟨h.level, h.ended, h.memory, by rw [ha, hb]; rfl⟩

theorem note (h : Without n slots a b) (f g : Telemetry → Telemetry) :
    Without n slots (a.note f) (b.note g) := ⟨h.level, h.ended, h.memory, h.left⟩

/-- The slots in front are the same. -/
theorem beside (h : Without n slots a b) : Beside Eq n a b := by
  obtain ⟨taken, later, rfl, ha, hb⟩ := h.left
  exact ⟨h.level, h.ended, h.memory, by rw [ha, hb, List.take_left, List.take_left]⟩

/-- What draws from the slots in front leaves as many less in front. -/
theorem of_drawn {a' b' : Frame M} (h : Without (k + n) slots a b) (hdrawn : Drawn Eq k a b a' b') :
    Without n slots a' b' := by
  obtain ⟨taken, later, htaken, ha, hb⟩ := h.left
  refine ⟨hdrawn.beside.level, hdrawn.beside.ended, hdrawn.beside.memory, taken.drop k, later, ?_,
    ?_, ?_⟩
  · rw [List.length_drop, htaken, Nat.add_sub_cancel_left]
  · rw [hdrawn.first, ha, List.drop_append_of_le_length (by omega)]
  · rw [hdrawn.second, hb, List.drop_append_of_le_length (by omega)]

/-- Taking the int of a star, or knowing it. -/
theorem fetch_follows {w : Int32} (h : Without 0 (.int w.toInt :: slots) a b) :
    Follows (fun s t => Without 0 slots s t) (fetch .int a)
      ((pure (Slot.int w.toInt).bits : Step M Word) b) := by
  obtain ⟨taken, later, htaken, ha, hb⟩ := h.left
  obtain rfl := List.length_eq_zero_iff.1 htaken
  unfold fetch Frame.fetch
  rcases a.arguments.next_cases .int with ⟨e, hnext⟩ | hnext
  · rw [hnext]
    exact .refused e _ _
  · have hbits : a.arguments.nextBits = (Slot.int w.toInt).bits := by
      rw [ArgumentList.nextBits, ArgumentList.nextSlot?_eq_head?, ha]
      rfl
    rw [hnext, hbits]
    refine .done _ ⟨h.level, h.ended, h.memory, [], later, rfl, ?_, hb⟩
    rw [ArgumentList.left_advance, ha]
    rfl

end Without

theorem asInt_int (w : Int32) : (Slot.int w.toInt).bits.asInt = w.toInt := by
  have hlow := w.le_toInt
  have hhigh := w.toInt_lt
  unfold Word.asInt Slot.int
  rw [BitVec.toInt_setWidth, BitVec.toNat_ofInt]
  simp only [Int.bmod_def]
  omega

/-- A layout that is filled with the int of a star. -/
theorem fill_follows {fill : Int → Layout} {w : Int32} {slots : List Slot} {a b : Frame M}
    (h : Without 0 (.int w.toInt :: slots) a b) :
    Follows (Without 0 slots) ((do return fill (← fetch .int).asInt : Step M Layout) a)
      ((pure (fill w.toInt) : Step M Layout) b) := by
  have hfetch : Follows (Without 0 slots)
      ((fetch .int >>= fun bits => pure (fill bits.asInt) : Step M Layout) a)
      ((pure (Slot.int w.toInt).bits >>= fun bits => pure (fill bits.asInt) : Step M Layout) b) :=
    h.fetch_follows.bind fun _ _ _ _ hleft => .done _ hleft
  rwa [pure_bind, asInt_int] at hfetch

theorem stars_of_ne {quantity : Quantity} (h : quantity ≠ .fromArgument) (n : Int) :
    quantity.stars n = [] := by
  cases quantity with
  | fromArgument => exact absurd rfl h
  | absent | given => rfl

theorem resolveWidth_follows (layout : Layout) (w : Int32) {slots : List Slot} {a b : Frame M}
    (h : Without 0 (layout.width.stars w.toInt ++ slots) a b) :
    Follows (Without 0 slots) (resolveWidth layout a)
      ((pure (layout.fillWidth w.toInt) : Step M Layout) b) := by
  unfold resolveWidth Layout.fillWidth
  by_cases hstar : layout.width = .fromArgument
  · rw [hstar] at h
    rw [if_pos hstar, if_pos hstar]
    exact fill_follows h
  · rw [stars_of_ne hstar] at h
    rw [if_neg hstar, if_neg hstar]
    exact .done _ h

theorem resolvePrecision_follows (layout : Layout) (p : Int32) {slots : List Slot} {a b : Frame M}
    (h : Without 0 (layout.precision.stars p.toInt ++ slots) a b) :
    Follows (Without 0 slots) (resolvePrecision layout a)
      ((pure (layout.fillPrecision p.toInt) : Step M Layout) b) := by
  unfold resolvePrecision Layout.fillPrecision
  by_cases hstar : layout.precision = .fromArgument
  · rw [hstar] at h
    rw [if_pos hstar, if_pos hstar]
    exact fill_follows h
  · rw [stars_of_ne hstar] at h
    rw [if_neg hstar, if_neg hstar]
    exact .done _ h

/-- Resolving the stars of a layout with their arguments, or knowing the ints. -/
theorem resolve_follows (layout : Layout) (w p : Int32) {a b : Frame M}
    (h : Without 0 (layout.stars w.toInt p.toInt) a b) :
    Follows Level (resolve layout a)
      ((pure ((layout.fillWidth w.toInt).fillPrecision p.toInt) : Step M Layout) b) := by
  have hboth : Follows Level (resolve layout a)
      ((pure (layout.fillWidth w.toInt) >>= fun wide => pure (wide.fillPrecision p.toInt) :
        Step M Layout) b) := by
    refine (resolveWidth_follows layout w h).bind fun wide s t hstep hleft => ?_
    have hprecision := precision_of_resolveWidth hstep
    have hbehind : Without 0 (wide.precision.stars p.toInt ++ []) s t := by
      rwa [hprecision, List.append_nil]
    exact (resolvePrecision_follows wide p hbehind).mono fun _ _ => Without.level_of_none
  rwa [pure_bind] at hboth

/-- A layout without stars is resolved. -/
theorem resolve_eq_pure {layout : Layout} (hwidth : layout.width ≠ .fromArgument)
    (hprecision : layout.precision ≠ .fromArgument) :
    resolve (M := M) layout = pure layout := by
  unfold resolve resolveWidth
  rw [if_neg hwidth, pure_bind]
  unfold resolvePrecision
  rw [if_neg hprecision]

variable [Memory M]

/-- A directive with stars prints what the one with the ints prints. -/
theorem renderDirective_follows {d d' : WrittenDirective} {w p : Int32}
    (hlength : d'.length = d.length) (hconversion : d'.conversion = d.conversion)
    (hwidth : d'.spec.layout.width ≠ .fromArgument)
    (hprecision : d'.spec.layout.precision ≠ .fromArgument)
    (hsame : ((d.spec.layout.fillWidth w.toInt).fillPrecision p.toInt).SameFields d'.spec.layout)
    (written : Nat) {a b : Frame M} (h : Without 0 (d.spec.layout.stars w.toInt p.toInt) a b) :
    Follows Level (renderDirective d.spec written a) (renderDirective d'.spec written b) := by
  have hresolved : renderResolved (M := M) d'.spec written d'.spec.layout =
      renderResolved d.spec written ((d.spec.layout.fillWidth w.toInt).fillPrecision p.toInt) := by
    have hfetch : fetchOperand (M := M) d'.spec = fetchOperand d.spec := by
      unfold fetchOperand WrittenDirective.spec
      rw [hlength, hconversion]
    have hrender : renderOperand (M := M) d'.spec d'.spec.layout written =
        renderOperand d.spec d'.spec.layout written := by
      funext operand
      cases operand with
      | signed | character | pointer | string => rfl
      | unsigned | float =>
        show pure _ = pure _
        rw [show d'.spec.conversion = d.spec.conversion from hconversion]
      | count =>
        simp only [renderOperand]
        rw [show d'.spec.length = d.spec.length from hlength]
    unfold renderResolved
    rw [hfetch, hrender, hsame.withinLimits_eq, funext (hsame.renderOperand_eq d.spec written)]
  rw [renderDirective_eq, renderDirective_eq, resolve_eq_pure hwidth hprecision, pure_bind,
    hresolved]
  have hfollows : Follows Level ((resolve d.spec.layout >>= renderResolved d.spec written) a)
      ((pure ((d.spec.layout.fillWidth w.toInt).fillPrecision p.toInt) >>=
        renderResolved d.spec written) b) :=
    (resolve_follows d.spec.layout w p h).bind fun layout s t _ hlevel =>
      (renderResolved_draws d.spec written layout).level hlevel
  rwa [pure_bind] at hfollows

/-! ### Segments -/

section Segments
variable {x y : PrintSegment} {slots : List Slot} {a b : Frame M}

/-- One segment and those behind it follow, where the segment does and those do. -/
theorem renderFrom_cons_follows {Q Q' : Frame M → Frame M → Prop} {rest rest' : List PrintSegment}
    {written : Nat} (hpiece : Follows Q (renderSegment written x a) (renderSegment written y b))
    (hrest : ∀ written s t, Q s t →
      Follows Q' (renderFrom written rest s) (renderFrom written rest' t)) :
    Follows Q' (renderFrom written (x :: rest) a) (renderFrom written (y :: rest') b) := by
  rw [renderFrom_cons, renderFrom_cons]
  refine hpiece.bind fun piece s t _ hleft => ?_
  split
  · exact .failed _ s t
  · exact (hrest _ s t hleft).bind fun output _ _ _ hlast => .done _ hlast

/-- A segment in the place of another, without the slots that the other one took. -/
theorem renderFrom_follows {before : List PrintSegment} (after : List PrintSegment)
    (hsegment : ∀ written a b, Without 0 slots a b →
      Follows Level (renderSegment (M := M) written x a) (renderSegment written y b))
    (written : Nat) (h : Without (PrintFormat.demands before).length slots a b) :
    Follows Level (renderFrom written (before ++ x :: after) a)
      (renderFrom written (before ++ y :: after) b) := by
  induction before generalizing written a b with
  | nil =>
    exact renderFrom_cons_follows (hsegment written a b h) fun written _ _ hlevel =>
      (renderFrom_draws after written).level hlevel
  | cons segment before ih =>
    rw [PrintFormat.demands, List.flatMap_cons, List.length_append] at h
    have hdraws := renderSegment_draws written segment a b (h.beside.mono (Nat.le_add_right _ _))
    exact renderFrom_cons_follows hdraws fun written _ _ hdrawn => ih written (h.of_drawn hdrawn)

end Segments

/-! ### Calls -/

/-- The second call gives the output of the first and leaves the same memory; and where the
first is too long, or its width or precision is, so is the second. -/
def GivesSame (text text' : List Byte) (a b : Frame M) : Prop :=
  (∀ output s, format text a = (.ok output, s) →
    ∃ t, format text' b = (.ok output, t) ∧ t.memory = s.memory) ∧
  ∀ s, format text a = (.error .overflow, s) → ∃ t, format text' b = (.error .overflow, t)

/-- Calls give the same where their segments follow. -/
theorem givesSame_of_follows {text text' : List Byte} {segments segments' : List PrintSegment}
    {a b : Frame M} (hparse : PrintFormat.parse text = .ok segments)
    (hparse' : PrintFormat.parse text' = .ok segments')
    (h : Follows (Beside Eq 0) (renderFrom 0 segments (a.note (·.count .printCalls)))
      (renderFrom 0 segments' (b.note (·.count .printCalls)))) :
    GivesSame text text' a b := by
  constructor
  · intro output s hformat
    obtain ⟨_, last, hparsed, hrender, rfl⟩ := format_eq_ok_iff.1 hformat
    cases hparse.symm.trans hparsed
    rw [hrender] at h
    obtain ⟨t, hrender', hbeside⟩ := h.exists_ok
    exact ⟨_, format_eq_ok_iff.2 ⟨segments', t, hparse', hrender', rfl⟩, hbeside.memory.symm⟩
  · intro s hformat
    unfold format render at hformat ⊢
    rw [hparse] at hformat
    rw [hparse']
    dsimp only at hformat ⊢
    generalize renderFrom 0 segments (a.note (·.count .printCalls)) = result at h hformat
    cases result with
    | ok output last => cases hformat
    | error e last =>
      cases hformat
      obtain ⟨t, hrender'⟩ := h.exists_error nofun
      rw [hrender']
      exact ⟨_, rfl⟩

/-- A call that is refused for its format gives nothing to compare. -/
theorem givesSame_of_refused {text : List Byte} {e : FormatError}
    (h : PrintFormat.parse text = .error e) (text' : List Byte) (a b : Frame M) :
    GivesSame text text' a b := by
  obtain ⟨left, hformat, -⟩ := exists_format_of_refused h a
  constructor
  · intro output s hok
    rw [hformat] at hok
    cases hok
  · intro s hoverflow
    rw [hformat] at hoverflow
    cases hoverflow

omit [Memory M] in
/-- A directive between two formats is read between their segments. -/
theorem parse_around {front body behind : List Byte} {segment : PrintSegment}
    {before after : List PrintSegment} (hfront : PrintFormat.parse front = .ok before)
    (hsource : PrintGrammar.IsSource segment body)
    (hbehind : PrintFormat.parse behind = .ok after) :
    PrintFormat.parse (front ++ opener :: (body ++ behind)) =
      .ok (before ++ segment :: after) := by
  have htiles : PrintGrammar.grammar.Tiles (segment :: after)
      (opener :: (body ++ behind)) :=
    .directive hsource (PrintGrammar.reads.ok_iff.1 hbehind)
  obtain ⟨all, hall, hjoined⟩ :=
    PrintGrammar.joins.tiles_append PrintGrammar.reads (PrintGrammar.reads.ok_iff.1 hfront) htiles
  generalize hmore : segment :: after = more at hjoined
  cases hjoined with
  | apart => exact PrintGrammar.reads.ok_iff.2 (hmore ▸ hall)
  | merged hmerged =>
    -- A directive is no literal that another could be joined with.
    cases hmerged
    cases hmore
    cases hsource

/-- Two texts with directives in the same place give the same where the directives do, or
where what stands behind them is no format. -/
theorem givesSame_around {front body body' behind : List Byte} {x y : PrintSegment}
    {before : List PrintSegment} {a b : Frame M} (hfront : PrintFormat.parse front = .ok before)
    (hbody : PrintGrammar.IsSource x body) (hbody' : PrintGrammar.IsSource y body')
    (h : ∀ after, PrintFormat.parse behind = .ok after →
      Follows (Beside Eq 0) (renderFrom 0 (before ++ x :: after) (a.note (·.count .printCalls)))
        (renderFrom 0 (before ++ y :: after) (b.note (·.count .printCalls)))) :
    GivesSame (front ++ opener :: body ++ behind)
      (front ++ opener :: body' ++ behind) a b := by
  cases hbehind : PrintFormat.parse behind with
  | ok after =>
    rw [List.append_assoc, List.append_assoc, List.cons_append, List.cons_append]
    exact givesSame_of_follows (parse_around hfront hbody hbehind)
      (parse_around hfront hbody' hbehind) (h after hbehind)
  | error e =>
    have hnothing : PrintFormat.parse [] = .ok [] := PrintGrammar.reads.ok_iff.2 .nil
    have hdirective := parse_around hfront hbody hnothing
    rw [List.append_nil] at hdirective
    exact givesSame_of_refused (PrintGrammar.reads.parse_append_error hdirective hbehind) _ a b

/-- **A star is its argument written out.** Take a format with a directive anywhere in it,
and a list that holds the ints for its stars where it takes them. With the ints in the
format, and out of the list, the call gives the same output and leaves the same memory;
and where the first call fails because the output, or a width or precision, is too large,
so does the second. A percent sign that is spelled as a directive takes no argument for its
stars, so the same holds of it where no directive behind it could take them. -/
theorem stars_as_numbers {front behind : List Byte} {before : List PrintSegment}
    (hfront : PrintFormat.parse front = .ok before) (w p : Int32) (a b : Frame M) :
    (∀ d : WrittenDirective,
      Without (PrintFormat.demands before).length (d.spec.layout.stars w.toInt p.toInt) a b →
      GivesSame (front ++ d.text ++ behind) (front ++ d.spelled w.toInt p.toInt ++ behind) a b) ∧
    ∀ o : PrintOpening, Without 0 (o.layout.stars w.toInt p.toInt) a b →
      PrintFormat.demands before = [] →
      (∀ after, PrintFormat.parse behind = .ok after → PrintFormat.demands after = []) →
      GivesSame (front ++ opener :: (o.text ++ [opener]) ++ behind)
        (front ++ opener :: (o.spelled w.toInt p.toInt ++ [opener]) ++
          behind) a b := by
  constructor
  · intro d hwithout
    obtain ⟨d', htext, hlength, hconversion, hwidth, hprecision, hsame⟩ := d.exists_spelled w p
    rw [← htext]
    refine givesSame_around hfront (.directive d) (.directive d') fun after _ => ?_
    have hdirective (written : Nat) (s t : Frame M)
        (hst : Without 0 (d.spec.layout.stars w.toInt p.toInt) s t) :
        Follows Level (renderSegment written (.directive d.spec) s)
          (renderSegment written (.directive d'.spec) t) :=
      renderDirective_follows hlength hconversion hwidth hprecision hsame written hst
    exact (renderFrom_follows after hdirective 0 (hwithout.note _ _)).mono fun _ _ h => h 0
  · intro o hwithout hbefore hafter
    obtain ⟨o', htext, -⟩ := o.exists_spelled w p
    rw [← htext]
    refine givesSame_around hfront (.percent o) (.percent o') fun after hbehind => ?_
    -- Nothing takes an argument, so what the lists hold does not matter.
    have hnothing : PrintFormat.demands (before ++ .percent :: after) = [] := by
      have hboth : PrintFormat.demands before ++ PrintFormat.demands after = [] := by
        rw [hbefore, hafter after hbehind, List.nil_append]
      simpa [PrintFormat.demands, PrintSegment.demands] using hboth
    have hdraws := renderFrom_draws (M := M) (before ++ .percent :: after) 0
    rw [hnothing] at hdraws
    exact (hdraws _ _ ((hwithout.note _ _).beside)).mono fun _ _ hdrawn => hdrawn.beside

/-- A negative width and a negative precision behind a flag for zeros, which the minus sets
aside; and a width of zero in front of a percent sign. -/
theorem negative_stars_as_numbers :
    let frame (slots : List Slot) : Frame Arena := ⟨.start .checked slots, .empty, .initial⟩
    let a := frame [.int 65, .int (-6), .int (-1), .int 42]
    let b := frame [.int 65, .int 42]
    (format (ascii "%c%0*.*d|") a).1 = .ok (ascii "A42    |") ∧
      GivesSame (ascii "%c%0*.*d|") (ascii "%c%0-6d|") a b ∧
      GivesSame (ascii "<%*%>") (ascii "<%0%>") (frame [.int 0]) (frame []) := by
  intro frame a b
  let d : WrittenDirective := ⟨ascii "0", .star, .star, .plain, .d, by decide +kernel, rfl, rfl⟩
  let o : PrintOpening := ⟨[], .star, .absent, .plain, List.forall_mem_nil _⟩
  have hfront : PrintFormat.parse (ascii "%c") =
      .ok [.directive ⟨⟨.none, .absent, .absent⟩, .plain, .c⟩] := ok_of_toOption (by decide +kernel)
  have hliteral : PrintFormat.parse (ascii "<") = .ok [.literal (ascii "<")] :=
    ok_of_toOption (by decide +kernel)
  have hbehind : PrintFormat.parse (ascii ">") = .ok [.literal (ascii ">")] :=
    ok_of_toOption (by decide +kernel)
  have hwithout : Without 1 (d.spec.layout.stars (-6 : Int32).toInt (-1 : Int32).toInt) a b :=
    ⟨rfl, rfl, rfl, [.int 65], [.int 42], rfl, by decide +kernel, rfl⟩
  have hpercent : Without 0 (o.layout.stars (0 : Int32).toInt (0 : Int32).toInt)
      (frame [.int 0]) (frame []) := ⟨rfl, rfl, rfl, [], [], rfl, by decide +kernel, rfl⟩
  have hdirective : GivesSame (ascii "%c" ++ d.text ++ ascii "|")
      (ascii "%c" ++ d.spelled (-6 : Int32).toInt (-1 : Int32).toInt ++ ascii "|") a b :=
    (stars_as_numbers hfront (-6) (-1) a b).1 d hwithout
  have hsign : GivesSame
      (ascii "<" ++ opener :: (o.text ++ [opener]) ++ ascii ">")
      (ascii "<" ++ opener :: (o.spelled (0 : Int32).toInt (0 : Int32).toInt ++
        [opener]) ++ ascii ">") (frame [.int 0]) (frame []) := by
    refine (stars_as_numbers hliteral 0 0 _ _).2 o hpercent rfl fun after hafter => ?_
    cases hbehind.symm.trans hafter
    rfl
  have hspelled : ascii "%c" ++ d.spelled (-6 : Int32).toInt (-1 : Int32).toInt ++ ascii "|" =
      ascii "%c%0-6d|" := by decide +kernel
  rw [hspelled] at hdirective
  exact ⟨ok_of_toOption (by decide +kernel), hdirective, hsign⟩

end Print
end CheckedFormat
