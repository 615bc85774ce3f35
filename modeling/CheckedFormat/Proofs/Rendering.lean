import CheckedFormat.Proofs.CheckLevels
/-! Segments printed one after the other.

A printing call that goes through has put its output together segment by segment, and no
part of the output was ever longer than the largest `int` (`renderFrom_cons_eq_ok_iff`,
`length_le_of_renderFrom`). What a segment adds follows from its own directive, the
arguments and the memory: the observations do not matter (`renderFrom_lockstep`), and the
length of the output so far matters to counts alone (`renderFrom_further`). -/
namespace CheckedFormat

namespace Print
variable {M : Type}

/-! ### Steps in frames that agree -/

theorem fetch_lockstep (type : ArgumentType) :
    Lockstep Frame.Agree (fetch (M := M) type) (fetch type) := by
  intro a b h
  unfold fetch Frame.fetch
  rw [h.arguments]
  cases b.arguments.next type with
  | ok granted => exact .ok _ ⟨rfl, h.memory⟩
  | error e => exact .error _ ⟨rfl, h.memory⟩

theorem resolveWidth_lockstep (layout : Layout) :
    Lockstep Frame.Agree (resolveWidth (M := M) layout) (resolveWidth layout) := by
  unfold resolveWidth
  split
  · exact .bind (fetch_lockstep _) fun bits => .pure _
  · exact .pure _

theorem resolvePrecision_lockstep (layout : Layout) :
    Lockstep Frame.Agree (resolvePrecision (M := M) layout) (resolvePrecision layout) := by
  unfold resolvePrecision
  split
  · exact .bind (fetch_lockstep _) fun bits => .pure _
  · exact .pure _

theorem fetchOperand_lockstep (spec : PrintSpec) :
    Lockstep Frame.Agree (fetchOperand (M := M) spec) (fetchOperand spec) := by
  rw [fetchOperand_eq]
  exact .bind (fetch_lockstep _) fun bits => .pure _

variable [Memory M]

theorem readString_lockstep (address : Nat) (layout : Layout) :
    Lockstep Frame.Agree (readString (M := M) address layout) (readString address layout) := by
  intro a b h
  unfold readString
  dsimp only
  rw [h.memory]
  cases Memory.readString b.memory address _ with
  | ok text => exact .ok _ h
  | error e => exact .error _ h

theorem storeCount_lockstep (address count size : Nat) :
    Lockstep Frame.Agree (storeCount (M := M) address count size)
      (storeCount address count size) := by
  intro a b h
  unfold storeCount
  rw [h.memory]
  cases Memory.writeInteger b.memory address _ size with
  | ok memory => exact .ok _ ⟨h.arguments, rfl⟩
  | error e => exact .error _ h

theorem renderOperand_lockstep (spec : PrintSpec) (layout : Layout) (written : Nat)
    (operand : Operand) :
    Lockstep Frame.Agree (renderOperand (M := M) spec layout written operand)
      (renderOperand spec layout written operand) := by
  cases operand with
  | string address =>
    simp only [renderOperand]
    split
    · exact .pure _
    · exact .bind (readString_lockstep _ _) fun text => .pure _
  | count address => exact .bind (storeCount_lockstep _ _ _) fun _ => .pure _
  | _ => exact .pure _

theorem renderSegment_lockstep (written : Nat) (segment : PrintSegment) :
    Lockstep Frame.Agree (renderSegment (M := M) written segment)
      (renderSegment written segment) := by
  cases segment with
  | literal bytes => exact .pure _
  | percent => exact .pure _
  | directive spec =>
    refine .bind (.bind (resolveWidth_lockstep _) fun wide => resolvePrecision_lockstep wide)
      fun layout => ?_
    split
    · exact .bind (fetchOperand_lockstep spec) fun operand => renderOperand_lockstep _ _ _ operand
    · exact .throw _

theorem renderFrom_lockstep (segments : List PrintSegment) (written : Nat) :
    Lockstep Frame.Agree (renderFrom (M := M) written segments) (renderFrom written segments) := by
  induction segments generalizing written with
  | nil => exact .pure _
  | cons segment rest ih =>
    refine .bind (renderSegment_lockstep written segment) fun piece => ?_
    dsimp only
    split
    · exact .throw _
    · exact .bind (ih _) fun later => .pure _

/-- What prints in one frame prints the same in a frame that agrees with it. -/
theorem exists_renderFrom_of_agree {a b left : Frame M} {output : List Byte} {written : Nat}
    {segments : List PrintSegment} (hagree : a.Agree b)
    (h : renderFrom written segments a = .ok output left) :
    ∃ left', renderFrom written segments b = .ok output left' ∧ left.Agree left' := by
  have halike := renderFrom_lockstep segments written a b hagree
  rw [h] at halike
  generalize renderFrom written segments b = result at halike
  cases halike with
  | ok _ hleft => exact ⟨_, rfl, hleft⟩

/-! ### Segment by segment -/

section Segments
variable {frame left : Frame M} {output : List Byte} {written : Nat} {segment : PrintSegment}
  {rest segments more : List PrintSegment}

theorem renderFrom_cons (written : Nat) (segment : PrintSegment) (rest : List PrintSegment) :
    renderFrom (M := M) written (segment :: rest) = (do
      let piece ← renderSegment written segment
      if intMax < written + piece.length then throw .overflow
      else return piece ++ (← renderFrom (written + piece.length) rest)) := rfl

/-- What is printed is what the first segment prints and then what the rest does. -/
theorem renderFrom_cons_eq_ok_iff :
    renderFrom written (segment :: rest) frame = .ok output left ↔
      ∃ piece middle text, renderSegment written segment frame = .ok piece middle ∧
        written + piece.length ≤ intMax ∧
        renderFrom (written + piece.length) rest middle = .ok text left ∧
        output = piece ++ text := by
  rw [renderFrom_cons]
  constructor
  · intro h
    obtain ⟨piece, middle, hpiece, h⟩ := ok_of_bind h
    refine ⟨piece, middle, ?_⟩
    by_cases hover : intMax < written + piece.length
    · rw [if_pos hover] at h
      cases h
    · rw [if_neg hover] at h
      obtain ⟨text, last, htext, h⟩ := ok_of_bind h
      cases h
      exact ⟨text, hpiece, Nat.not_lt.1 hover, htext, rfl⟩
  · intro h
    obtain ⟨piece, middle, text, hpiece, hbound, htext, rfl⟩ := h
    rw [bind_of_ok hpiece, if_neg (Nat.not_lt.2 hbound), bind_of_ok htext]
    rfl

/-- No output is longer than the largest `int`. -/
theorem length_le_of_renderFrom (hwritten : written ≤ intMax)
    (h : renderFrom written segments frame = .ok output left) :
    written + output.length ≤ intMax := by
  induction segments generalizing written frame output with
  | nil =>
    cases h
    exact hwritten
  | cons segment rest ih =>
    obtain ⟨piece, middle, text, _, hbound, hrest, rfl⟩ := renderFrom_cons_eq_ok_iff.1 h
    have hlength := ih hbound hrest
    rw [List.length_append]
    omega

theorem renderFrom_append_eq_ok_iff :
    renderFrom written (segments ++ more) frame = .ok output left ↔
      ∃ first middle second, renderFrom written segments frame = .ok first middle ∧
        renderFrom (written + first.length) more middle = .ok second left ∧
        output = first ++ second := by
  induction segments generalizing written frame output with
  | nil =>
    constructor
    · intro h
      exact ⟨[], frame, output, rfl, h, rfl⟩
    · intro h
      obtain ⟨first, middle, second, hfirst, hsecond, rfl⟩ := h
      cases hfirst
      exact hsecond
  | cons segment rest ih =>
    rw [List.cons_append]
    constructor
    · intro h
      obtain ⟨piece, middle, text, hpiece, hbound, htext, rfl⟩ := renderFrom_cons_eq_ok_iff.1 h
      obtain ⟨first, later, second, hfirst, hsecond, rfl⟩ := ih.1 htext
      refine ⟨piece ++ first, later, second,
        renderFrom_cons_eq_ok_iff.2 ⟨piece, middle, first, hpiece, hbound, hfirst, rfl⟩, ?_,
        (List.append_assoc _ _ _).symm⟩
      rwa [List.length_append, ← Nat.add_assoc]
    · intro h
      obtain ⟨whole, later, second, hwhole, hsecond, rfl⟩ := h
      obtain ⟨piece, middle, first, hpiece, hbound, hfirst, rfl⟩ :=
        renderFrom_cons_eq_ok_iff.1 hwhole
      rw [List.length_append, ← Nat.add_assoc] at hsecond
      exact renderFrom_cons_eq_ok_iff.2 ⟨piece, middle, first ++ second, hpiece, hbound,
        ih.2 ⟨first, later, second, hfirst, hsecond, rfl⟩, List.append_assoc _ _ _⟩

/-- A literal may be printed in two parts. -/
theorem renderFrom_literal_append (run run' : List Byte) :
    renderFrom written (.literal (run ++ run') :: rest) frame = .ok output left ↔
      renderFrom written (.literal run :: .literal run' :: rest) frame = .ok output left := by
  constructor
  · intro h
    obtain ⟨piece, middle, text, hpiece, hbound, htext, rfl⟩ := renderFrom_cons_eq_ok_iff.1 h
    cases hpiece
    rw [List.length_append, ← Nat.add_assoc] at hbound htext
    exact renderFrom_cons_eq_ok_iff.2 ⟨run, frame, run' ++ text, rfl, by omega,
      renderFrom_cons_eq_ok_iff.2 ⟨run', frame, text, rfl, hbound, htext, rfl⟩,
      List.append_assoc _ _ _⟩
  · intro h
    obtain ⟨piece, middle, later, hpiece, _, hlater, rfl⟩ := renderFrom_cons_eq_ok_iff.1 h
    cases hpiece
    obtain ⟨piece', middle', text, hpiece', hbound, htext, rfl⟩ :=
      renderFrom_cons_eq_ok_iff.1 hlater
    cases hpiece'
    rw [Nat.add_assoc, ← List.length_append] at hbound htext
    exact renderFrom_cons_eq_ok_iff.2 ⟨run ++ run', frame, text, rfl, hbound, htext,
      (List.append_assoc _ _ _).symm⟩

/-! ### Counts -/

/-- Only a count sees how long the output is. -/
theorem renderDirective_eq_of_ne_count {spec : PrintSpec}
    (h : OperandKind.ofConversion spec.conversion ≠ .count) (written further : Nat) :
    renderDirective (M := M) spec further = renderDirective spec written := by
  unfold renderDirective
  simp only [fetchOperand_eq, bind_assoc, pure_bind]
  refine congrArg _ (funext fun layout => ?_)
  split
  · refine congrArg _ (funext fun bits => ?_)
    generalize OperandKind.ofConversion spec.conversion = kind at h ⊢
    cases kind with
    | count => exact absurd rfl h
    | _ => rfl
  · rfl

/-- Without counts, what is printed further on is the same as long as there is room. -/
theorem renderFrom_further {further : Nat} (hfurther : written ≤ further)
    (hroom : further ≤ intMax)
    (hcounts : ∀ spec, .directive spec ∈ segments →
      OperandKind.ofConversion spec.conversion ≠ .count) :
    renderFrom further segments frame = .ok output left ↔
      renderFrom written segments frame = .ok output left ∧ further + output.length ≤ intMax := by
  induction segments generalizing written further frame output with
  | nil =>
    constructor
    · intro h
      cases h
      exact ⟨rfl, hroom⟩
    · exact fun h => h.1
  | cons segment rest ih =>
    have hrest : ∀ spec, .directive spec ∈ rest →
        OperandKind.ofConversion spec.conversion ≠ .count := fun spec hspec =>
      hcounts spec (List.mem_cons_of_mem segment hspec)
    have hsame : renderSegment (M := M) further segment = renderSegment written segment := by
      cases segment with
      | directive spec => exact renderDirective_eq_of_ne_count (hcounts spec List.mem_cons_self) _ _
      | _ => rfl
    constructor
    · intro h
      obtain ⟨piece, middle, text, hpiece, hbound, htext, rfl⟩ := renderFrom_cons_eq_ok_iff.1 h
      have hpast : written + piece.length ≤ further + piece.length :=
        Nat.add_le_add_right hfurther _
      obtain ⟨hlater, hlength⟩ := (ih hpast hbound hrest).1 htext
      refine ⟨renderFrom_cons_eq_ok_iff.2
        ⟨piece, middle, text, hsame ▸ hpiece, by omega, hlater, rfl⟩, ?_⟩
      rw [List.length_append]
      omega
    · intro h
      obtain ⟨h, hlength⟩ := h
      obtain ⟨piece, middle, text, hpiece, _, htext, rfl⟩ := renderFrom_cons_eq_ok_iff.1 h
      rw [List.length_append] at hlength
      exact renderFrom_cons_eq_ok_iff.2 ⟨piece, middle, text, hsame ▸ hpiece, by omega,
        (ih (by omega) (by omega) hrest).2 ⟨htext, by omega⟩, rfl⟩

end Segments

/-! ### Whole calls -/

/-- A call that gives an output has printed the segments of its format. -/
theorem format_eq_ok_iff {text output : List Byte} {frame left : Frame M} :
    format text frame = (.ok output, left) ↔
      ∃ segments last, PrintFormat.parse text = .ok segments ∧
        renderFrom 0 segments (frame.note (·.count .printCalls)) = .ok output last ∧
        left = last.note (·.countMany .bytesRendered output.length) := by
  unfold format render
  cases PrintFormat.parse text with
  | error e =>
    constructor
    · intro h
      cases h
    · intro h
      obtain ⟨_, _, h, _⟩ := h
      cases h
  | ok segments =>
    dsimp only
    constructor
    · intro h
      split at h
      · rename_i output' last hrender
        cases h
        exact ⟨segments, last, rfl, hrender, rfl⟩
      · cases h
    · intro h
      obtain ⟨_, last, hparse, hrender, rfl⟩ := h
      cases hparse
      rw [hrender]

end Print
end CheckedFormat
