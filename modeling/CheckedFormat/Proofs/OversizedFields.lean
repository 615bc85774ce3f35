import CheckedFormat.Proofs.StarArguments
/-! Widths and precisions beyond the largest `int`.

A number in a format may have any number of digits. Reading it stops at the largest word and
never wraps, so a number that is too large stays too large. A directive takes the ints of
its stars, looks at the sizes, and only then takes its value. If its width or its precision
is too large (`WrittenDirective.Oversized`), the call therefore fails with nothing taken
behind the stars and nothing stored (`oversized_fields_overflow`). -/
namespace CheckedFormat

/-! ### Sizes that are too large -/

namespace WrittenDirective

/-- The arguments that the stars of the directive demand. -/
def starDemands (d : WrittenDirective) : List ArgumentType :=
  d.width.quantity.demands ++ d.precision.quantity.demands

/-- The width or the precision is a number beyond the largest `int`, or the width is a star
and the `int` that stands next among the arguments has a magnitude beyond it. -/
inductive Oversized (d : WrittenDirective) (next : Int) : Prop where
  | width (digits : ∀ b ∈ d.width.text, b.isDigit)
      (large : intMax < digitsValue 10 d.width.text)
  | precision {run : List Byte} (written : d.precision.text = ascii "." ++ run)
      (digits : ∀ b ∈ run, b.isDigit) (large : intMax < digitsValue 10 run)
  | star (written : d.width.text = ascii "*") (large : intMax < next.natAbs)

end WrittenDirective

/-- A number beyond the largest `int` is read as such a number. -/
theorem lt_saturatingDecimal {run : List Byte} (digits : ∀ b ∈ run, b.isDigit)
    (large : intMax < digitsValue 10 run) : intMax < saturatingDecimal run := by
  have hword : intMax < wordMax := by decide
  rw [saturatingDecimal_eq digits]
  exact Nat.lt_min.2 ⟨large, hword⟩

theorem WrittenWidth.lt_quantity {width : WrittenWidth} (digits : ∀ b ∈ width.text, b.isDigit)
    (large : intMax < digitsValue 10 width.text) :
    width.quantity ≠ .fromArgument ∧ intMax < width.quantity.getD 0 := by
  cases width with
  | absent => exact absurd large (by decide)
  | star => exact absurd (digits 42 List.mem_cons_self) (by decide)
  | digits first rest => exact ⟨nofun, lt_saturatingDecimal digits large⟩

theorem WrittenPrecision.lt_quantity {precision : WrittenPrecision} {run : List Byte}
    (written : precision.text = ascii "." ++ run) (digits : ∀ b ∈ run, b.isDigit)
    (large : intMax < digitsValue 10 run) :
    precision.quantity ≠ .fromArgument ∧ intMax < precision.quantity.getD 0 := by
  have hpoint : ascii "." = [46] := rfl
  rw [hpoint, List.singleton_append] at written
  cases precision with
  | absent => cases written
  | star =>
    cases written
    exact absurd (digits 42 List.mem_cons_self) (by decide)
  | digits run' =>
    cases written
    exact ⟨nofun, lt_saturatingDecimal digits large⟩

namespace Layout

theorem width_fillPrecision (layout : Layout) (p : Int) :
    (layout.fillPrecision p).width = layout.width := by
  unfold fillPrecision Print.withPrecision
  split <;> rfl

theorem getD_width_withWidth (layout : Layout) (w : Int) :
    (Print.withWidth layout w).width.getD 0 = w.natAbs := by
  unfold Print.withWidth
  split <;> rfl

theorem withinLimits_eq_false_of_width {layout : Layout} (h : intMax < layout.width.getD 0) :
    Print.withinLimits layout = false := by
  rw [Print.withinLimits, decide_eq_false (Nat.not_le.2 h), Bool.false_and]

theorem withinLimits_eq_false_of_precision {layout : Layout}
    (h : intMax < layout.precision.getD 0) : Print.withinLimits layout = false := by
  rw [Print.withinLimits, decide_eq_false (Nat.not_le.2 h), Bool.and_false]

end Layout

/-- Whatever int a star of the precision takes, the sizes are beyond the limits. -/
theorem WrittenDirective.Oversized.withinLimits {d : WrittenDirective} {next : Int}
    (h : d.Oversized next) (p : Int) :
    Print.withinLimits ((d.spec.layout.fillWidth next).fillPrecision p) = false := by
  cases h with
  | width digits large =>
    obtain ⟨hgiven, hlarge⟩ := WrittenWidth.lt_quantity digits large
    refine Layout.withinLimits_eq_false_of_width ?_
    rw [Layout.width_fillPrecision, Layout.fillWidth,
      if_neg (show d.spec.layout.width ≠ .fromArgument from hgiven)]
    exact hlarge
  | precision written digits large =>
    obtain ⟨hgiven, hlarge⟩ := WrittenPrecision.lt_quantity written digits large
    have hprecision := d.spec.layout.precision_fillWidth next
    refine Layout.withinLimits_eq_false_of_precision ?_
    rw [Layout.fillPrecision, if_neg (by rw [hprecision]; exact hgiven), hprecision]
    exact hlarge
  | star written large =>
    have hstar : d.spec.layout.width = .fromArgument := by
      cases hwidth : d.width with
      | absent => rw [hwidth] at written; cases written
      | star => exact congrArg WrittenWidth.quantity hwidth
      | digits first rest positive all =>
        rw [hwidth] at written
        obtain rfl : first = 42 := (List.cons.inj written).1
        exact absurd positive.1 (by decide)
    refine Layout.withinLimits_eq_false_of_width ?_
    rw [Layout.width_fillPrecision, Layout.fillWidth, if_pos hstar, Layout.getD_width_withWidth]
    exact large

/-! ### Reads that go through -/

namespace ArgumentList

/-- The list supplies what is demanded, and it may be used if anything is. -/
structure Yields (l : ArgumentList) (demands : List ArgumentType) : Prop where
  usable : demands ≠ [] → l.refusesUse = false
  supplies : l.Supplies demands

/-- Nothing is demanded of the list, so it may have been ended. -/
theorem yields_nil (l : ArgumentList) : l.Yields [] := ⟨fun h => absurd rfl h, l.supplies_nil⟩

/-- Behind the first of the demands the list yields the others. -/
theorem Yields.skip {l : ArgumentList} {first later : List ArgumentType}
    (h : l.Yields (first ++ later)) : (l.skip first.length).Yields later where
  usable hlater := h.usable fun hnil => hlater (List.append_eq_nil_iff.1 hnil).2
  supplies := ((supplies_append _ _ _).1 h.supplies).2

/-- A read at a type that is yielded takes the next slot, at either level. -/
theorem Yields.next {l : ArgumentList} {type : ArgumentType} {later : List ArgumentType}
    (h : l.Yields (type :: later)) : l.next type = .ok (l.nextBits, l.advance) := by
  obtain ⟨slot, hslot, htype⟩ := h.supplies 0 type rfl
  have hallowed : l.violation? type = none :=
    violation?_eq_none_iff.2 ⟨h.usable (List.cons_ne_nil _ _), slot, hslot, htype⟩
  rw [ArgumentList.next, hallowed]

end ArgumentList

namespace Print
variable {M : Type}

/-- On the way to the second frame `n` slots were taken, and nothing was stored. -/
structure Took (n : Nat) (a b : Frame M) : Prop where
  arguments : b.arguments = a.arguments.skip n
  memory : b.memory = a.memory

theorem Took.trans {m n : Nat} {a b c : Frame M} (h : Took m a b) (h' : Took n b c) :
    Took (m + n) a c where
  arguments := by rw [h'.arguments, h.arguments, ArgumentList.skip_skip]
  memory := h'.memory.trans h.memory

/-- A read that is supplied goes through and takes one slot. -/
theorem fetch_of_yields {frame : Frame M} {type : ArgumentType} {later : List ArgumentType}
    (h : frame.arguments.Yields (type :: later)) :
    ∃ left, fetch type frame = .ok frame.arguments.nextBits left ∧ Took 1 frame left := by
  unfold fetch Frame.fetch
  rw [h.next]
  exact ⟨_, rfl, rfl, rfl⟩

/-- A star that is supplied takes its int, and any other quantity takes nothing. -/
theorem fill_of_yields {frame : Frame M} {quantity : Quantity} {later : List ArgumentType}
    (layout : Layout) (fill : Int → Layout) (h : frame.arguments.Yields (quantity.demands ++ later)) :
    ∃ left, (if quantity = .fromArgument then (do return fill (← fetch .int).asInt)
        else return layout : Step M Layout) frame =
        .ok (if quantity = .fromArgument then fill frame.arguments.nextBits.asInt else layout) left ∧
      Took quantity.demands.length frame left := by
  cases quantity with
  | fromArgument =>
    obtain ⟨left, hfetch, htook⟩ := fetch_of_yields h
    rw [if_pos rfl, if_pos rfl, bind_of_ok hfetch]
    exact ⟨left, rfl, htook⟩
  | absent | given => exact ⟨frame, rfl, rfl, rfl⟩

/-- Stars that are supplied take the next ints. -/
theorem resolve_of_yields {frame : Frame M} {layout : Layout}
    (h : frame.arguments.Yields (layout.width.demands ++ layout.precision.demands)) :
    ∃ p left, resolve layout frame =
        .ok ((layout.fillWidth frame.arguments.nextBits.asInt).fillPrecision p) left ∧
      Took (layout.width.demands ++ layout.precision.demands).length frame left := by
  obtain ⟨middle, hwidth, htook⟩ := fill_of_yields layout (withWidth layout) h
  let wide := layout.fillWidth frame.arguments.nextBits.asInt
  have hprecision : wide.precision = layout.precision := layout.precision_fillWidth _
  have hbehind : middle.arguments.Yields (wide.precision.demands ++ []) := by
    rw [htook.arguments, hprecision, List.append_nil]
    exact h.skip
  obtain ⟨left, hresolved, htook'⟩ := fill_of_yields wide (withPrecision wide) hbehind
  rw [hprecision] at htook'
  refine ⟨_, left, (bind_of_ok hwidth).trans hresolved, ?_⟩
  rw [List.length_append]
  exact htook.trans htook'

variable [Memory M]

/-- An oversized directive fails with the ints of its stars taken. -/
theorem renderDirective_of_oversized {frame : Frame M} {d : WrittenDirective}
    (h : frame.arguments.Yields d.starDemands)
    (hlarge : d.Oversized frame.arguments.nextBits.asInt) (written : Nat) :
    ∃ left, renderDirective d.spec written frame = .error .overflow left ∧
      Took d.starDemands.length frame left := by
  have hstars : frame.arguments.Yields
      (d.spec.layout.width.demands ++ d.spec.layout.precision.demands) := h
  obtain ⟨p, left, hresolve, htook⟩ := resolve_of_yields hstars
  refine ⟨left, ?_, htook⟩
  rw [renderDirective_eq, bind_of_ok hresolve, renderResolved, hlarge.withinLimits, if_neg nofun]
  rfl

/-! ### Segments -/

section Segments
variable {frame middle left : Frame M} {e : PrintError} {segment : PrintSegment}
  {before more : List PrintSegment} {written : Nat} {first : List Byte}

theorem renderFrom_cons_of_error (h : renderSegment written segment frame = .error e left)
    (rest : List PrintSegment) : renderFrom written (segment :: rest) frame = .error e left := by
  rw [renderFrom_cons, bind_of_error h]

/-- Segments that fail behind others that print make all of them fail. -/
theorem renderFrom_append_of_error (hbefore : renderFrom written before frame = .ok first middle)
    (hmore : renderFrom (written + first.length) more middle = .error e left) :
    renderFrom written (before ++ more) frame = .error e left := by
  induction before generalizing written frame first with
  | nil =>
    cases hbefore
    exact hmore
  | cons segment rest ih =>
    obtain ⟨piece, later, text, hpiece, hbound, htext, rfl⟩ := renderFrom_cons_eq_ok_iff.1 hbefore
    rw [List.length_append, ← Nat.add_assoc] at hmore
    rw [List.cons_append, renderFrom_cons, bind_of_ok hpiece, if_neg (Nat.not_lt.2 hbound),
      bind_of_error (ih htext hmore)]

end Segments
end Print

/-! ### Formats around a directive -/

/-- Every directive of a format that is read stands in it as it is written, between two
formats. -/
theorem PrintFormat.exists_around {text : List Byte} {before after : List PrintSegment}
    {spec : PrintSpec} (h : parse text = .ok (before ++ .directive spec :: after)) :
    ∃ (front : List Byte) (d : WrittenDirective) (behind : List Byte),
      text = front ++ d.text ++ behind ∧ d.spec = spec ∧ parse front = .ok before ∧
      parse behind = .ok after := by
  have htiles : PrintGrammar.grammar.Tiles (before ++ .directive spec :: after) text :=
    PrintGrammar.reads.ok_iff.1 h
  clear h
  suffices hparts : ∃ (front : List Byte) (d : WrittenDirective) (behind : List Byte),
      text = front ++ d.text ++ behind ∧ d.spec = spec ∧ PrintGrammar.grammar.Tiles before front ∧
      PrintGrammar.grammar.Tiles after behind by
    obtain ⟨front, d, behind, htext, hspec, hbefore, hafter⟩ := hparts
    exact ⟨front, d, behind, htext, hspec, PrintGrammar.reads.ok_iff.2 hbefore,
      PrintGrammar.reads.ok_iff.2 hafter⟩
  induction before generalizing text with
  | nil =>
    cases htiles with
    | run source => cases source
    | directive source hafter =>
      cases source with
      | directive d => exact ⟨[], d, _, rfl, rfl, .nil, hafter⟩
  | cons segment before ih =>
    cases htiles with
    | run source hrest =>
      obtain ⟨front, d, behind, rfl, hspec, hbefore, hafter⟩ := ih hrest
      -- Where a run ends shows at the percent sign already.
      have hrun : PrintGrammar.grammar.Run segment _ front :=
        PrintGrammar.reads.run_before.1 (by simpa [WrittenDirective.text] using source)
      exact ⟨_, d, behind, by simp only [List.append_assoc], hspec, .run hrun hbefore, hafter⟩
    | directive source hrest =>
      obtain ⟨front, d, behind, rfl, hspec, hbefore, hafter⟩ := ih hrest
      exact ⟨_, d, behind, by simp only [List.cons_append, List.append_assoc], hspec,
        .directive source hbefore, hafter⟩

namespace Print
variable {M : Type} [Memory M]

/-- A call fails where a directive does whose format prints up to it. -/
theorem format_of_directive_error {front behind output : List Byte} {after : List PrintSegment}
    {d : WrittenDirective} {frame middle : Frame M} {e : PrintError} {n : Nat}
    (hfront : format front frame = (.ok output, middle))
    (hbehind : PrintFormat.parse behind = .ok after)
    (hfails : ∀ written seam, seam.Agree middle →
      ∃ left, renderDirective d.spec written seam = .error e left ∧ Took n seam left) :
    ∃ left, format (front ++ d.text ++ behind) frame = (.error e, left) ∧ Took n middle left := by
  obtain ⟨before, seam, hparse, hbefore, rfl⟩ := format_eq_ok_iff.1 hfront
  have hagree : seam.Agree (seam.note (·.countMany .bytesRendered output.length)) := ⟨rfl, rfl⟩
  obtain ⟨left, hdirective, htook⟩ := hfails (0 + output.length) seam hagree
  have hwhole : PrintFormat.parse (front ++ d.text ++ behind) =
      .ok (before ++ .directive d.spec :: after) := by
    rw [List.append_assoc, WrittenDirective.text, List.cons_append]
    exact parse_around hparse (.directive d) hbehind
  have hsegment : renderSegment (0 + output.length) (.directive d.spec) seam = .error e left :=
    hdirective
  have hrender : renderFrom 0 (before ++ .directive d.spec :: after)
      (frame.note (·.count .printCalls)) = .error e left :=
    renderFrom_append_of_error hbefore (renderFrom_cons_of_error hsegment after)
  have hkept := agree_noteFailure e left
  refine ⟨noteFailure e left, ?_, hkept.arguments.trans htook.arguments,
    hkept.memory.trans htook.memory⟩
  unfold format render
  rw [hwhole]
  dsimp only
  rw [hrender]

/-- **Oversized widths and precisions are refused, never wrapped.** Digits are read as the
number that they denote or, beyond it, the largest word. Every directive of a format stands
in it as it is written, between two formats. Where the first of them prints, and the
directive's stars find ints among the arguments that are left, a directive that is oversized
makes the call fail for the size: the ints of the stars are taken and no more, and nothing is
stored behind what the first format stored. -/
theorem oversized_fields_overflow :
    (∀ digits : List Byte, (∀ b ∈ digits, b.isDigit) →
      saturatingDecimal digits = min (digitsValue 10 digits) wordMax) ∧
    (∀ (text : List Byte) (before after : List PrintSegment) (spec : PrintSpec),
      PrintFormat.parse text = .ok (before ++ .directive spec :: after) →
      ∃ (front : List Byte) (d : WrittenDirective) (behind : List Byte),
        text = front ++ d.text ++ behind ∧ d.spec = spec ∧
        PrintFormat.parse front = .ok before ∧ PrintFormat.parse behind = .ok after) ∧
    ∀ (front behind output : List Byte) (after : List PrintSegment) (d : WrittenDirective)
      (frame middle : Frame M), format front frame = (.ok output, middle) →
      PrintFormat.parse behind = .ok after → middle.arguments.Yields d.starDemands →
      d.Oversized middle.arguments.nextBits.asInt →
      ∃ left, format (front ++ d.text ++ behind) frame = (.error .overflow, left) ∧
        left.arguments = middle.arguments.skip d.starDemands.length ∧
        left.memory = middle.memory := by
  refine ⟨fun _ => saturatingDecimal_eq, fun _ _ _ _ => PrintFormat.exists_around, ?_⟩
  intro front behind output after d frame middle hfront hbehind hyields hlarge
  obtain ⟨left, hformat, htook⟩ := format_of_directive_error (d := d) hfront hbehind
    fun written seam hagree => by
      rw [← hagree.arguments] at hyields hlarge
      exact renderDirective_of_oversized hyields hlarge written
  exact ⟨left, hformat, htook.arguments, htook.memory⟩

/-- Behind a count, a star for the least int at another count, which is not stored; and a
width that would wrap to one. -/
theorem oversized_fields_overflow_behind_count :
    let frame : Frame Arena :=
      ⟨.start .checked [.pointer 0x10000, .int (-2147483648), .pointer 0x10000],
        (Arena.empty.allocate 8).2, .initial⟩
    let middle := (format (ascii "ab%n") frame).2
    format (ascii "ab%n") frame = (.ok (ascii "ab"), middle) ∧
      middle.arguments = frame.arguments.skip 1 ∧
      (∃ left, format (ascii "ab%n%*nc") frame = (.error .overflow, left) ∧
        left.arguments = middle.arguments.skip 1 ∧ left.memory = middle.memory) ∧
      ∃ left, format (ascii "ab%n%18446744073709551617dc") frame = (.error .overflow, left) ∧
        left.arguments = middle.arguments.skip 0 ∧ left.memory = middle.memory := by
  intro frame middle
  let star : WrittenDirective := ⟨[], .star, .absent, .plain, .n, List.forall_mem_nil _, rfl, rfl⟩
  let wide : WrittenDirective :=
    ⟨[], .digits 49 (ascii "8446744073709551617") (by decide) (by decide +kernel), .absent, .plain,
      .d, List.forall_mem_nil _, rfl, rfl⟩
  have hcount : (format (ascii "ab%n") frame).1 = .ok (ascii "ab") :=
    ok_of_toOption (by decide +kernel)
  have hfront : format (ascii "ab%n") frame = (.ok (ascii "ab"), middle) := Prod.ext hcount rfl
  have hbehind : PrintFormat.parse (ascii "c") = .ok [.literal (ascii "c")] :=
    ok_of_toOption (by decide +kernel)
  have harguments : middle.arguments = frame.arguments.skip 1 := by decide +kernel
  have hstar : middle.arguments.Yields star.starDemands := by
    refine ⟨fun _ => by decide +kernel, fun k type hk => ?_⟩
    cases k with
    | zero =>
      cases hk
      exact ⟨.int (-2147483648), by decide +kernel, rfl⟩
    | succ k => cases hk
  have hleast : star.Oversized middle.arguments.nextBits.asInt := .star rfl (by decide +kernel)
  have hwide : wide.Oversized middle.arguments.nextBits.asInt :=
    .width (by decide +kernel) (by decide +kernel)
  have hoversized := (oversized_fields_overflow (M := Arena)).2.2
  exact ⟨hfront, harguments,
    hoversized _ _ _ _ star frame middle hfront hbehind hstar hleast,
    hoversized _ _ _ _ wide frame middle hfront hbehind (ArgumentList.yields_nil _) hwide⟩

end Print
end CheckedFormat
