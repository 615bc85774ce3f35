import CheckedFormat.Memory.Arena
import CheckedFormat.Proofs.ReaderPairs
import CheckedFormat.Proofs.Steps
/-! Scans side by side.

Two scans under one format stay together if each of their reads does, and what they take from
the arguments and store is the same: then so does every step (`Paired`), and in the end they
give the same result. Readers whose relation both of their calls keep are enough for that
(`paired_of_coupling`). -/
namespace CheckedFormat
namespace Scan

variable {S₁ S₂ M : Type} [ByteSource S₁] [ByteSource S₂] {R : State S₁ M → State S₂ M → Prop}

variable (R) in
/-- What two scans in related states owe for their steps to stay together. -/
structure Paired : Prop where
  skipSpace : Lockstep R (Scan.reading (Reader.skipSpace (S := S₁)))
    (Scan.reading (Reader.skipSpace (S := S₂)))
  takeWhile : ∀ keep width, Lockstep R (Scan.reading (Reader.takeWhile (S := S₁) keep width))
    (Scan.reading (Reader.takeWhile (S := S₂) keep width))
  expect : ∀ bytes, Lockstep R (Scan.reading (Reader.expect (S := S₁) bytes))
    (Scan.reading (Reader.expect (S := S₂) bytes))
  token : ∀ {σ : Type} (l : Recogniser σ) (width : Option Nat),
    Lockstep R (Scan.reading (Reader.token (S := S₁) l width))
      (Scan.reading (Reader.token (S := S₂) l width))
  fetchAddress : Lockstep R (Scan.fetchAddress (S := S₁)) (Scan.fetchAddress (S := S₂))
  storing : ∀ f : M → Except MemoryError M,
    Lockstep R (Scan.storing (S := S₁) f) (Scan.storing (S := S₂) f)

namespace Paired
variable (P : Paired R)
include P

theorem storeNumber (suppress : Bool) (store : M → Nat → Except MemoryError M) :
    Lockstep R (Scan.storeNumber (S := S₁) suppress store)
      (Scan.storeNumber (S := S₂) suppress store) := by
  unfold Scan.storeNumber
  cases suppress with
  | true => exact .pure _
  | false =>
    exact .bind P.fetchAddress fun address => .bind (P.storing _) fun _ => .pure _

theorem afterSpace {f₁ : Step S₁ M Progress} {f₂ : Step S₂ M Progress}
    (h : Lockstep R f₁ f₂) : Lockstep R (Scan.afterSpace f₁) (Scan.afterSpace f₂) := by
  unfold Scan.afterSpace
  refine .bind P.skipSpace fun found => ?_
  cases found with
  | true => exact h
  | false => exact .pure _

variable [Memory M]

theorem storeText (suppress terminate : Bool) (bytes : List Byte) :
    Lockstep R (Scan.storeText (S := S₁) suppress terminate bytes)
      (Scan.storeText (S := S₂) suppress terminate bytes) := by
  unfold Scan.storeText
  cases suppress with
  | true => exact .pure _
  | false =>
    refine .bind P.fetchAddress fun address => .bind (P.storing _) fun _ => ?_
    cases terminate with
    | true => exact .bind (P.storing _) fun _ => .pure _
    | false => exact .pure _

/-! ### Directives -/

/-- Only counts see how many bytes were consumed. -/
theorem convertCount (hconsumed : Lockstep R (consumed (S := S₁)) (consumed (S := S₂)))
    (spec : ScanSpec) :
    Lockstep R (Scan.convertCount (S := S₁) spec) (Scan.convertCount (S := S₂) spec) := by
  unfold Scan.convertCount
  cases spec.suppress with
  | true => exact .pure _
  | false =>
    exact .bind P.fetchAddress fun address => .bind hconsumed fun count =>
      .bind (P.storing _) fun _ => .pure _

theorem convertCharacters (spec : ScanSpec) :
    Lockstep R (Scan.convertCharacters (S := S₁) spec)
      (Scan.convertCharacters (S := S₂) spec) := by
  unfold Scan.convertCharacters
  refine .bind (P.takeWhile _ _) fun run => ?_
  cases run.bytes.isEmpty with
  | true => exact .pure _
  | false => exact P.storeText _ _ _

theorem convertString (spec : ScanSpec) :
    Lockstep R (Scan.convertString (S := S₁) spec) (Scan.convertString (S := S₂) spec) :=
  P.afterSpace (.bind (P.takeWhile _ _) fun _ => P.storeText _ _ _)

theorem convertSet (spec : ScanSpec) (members : ByteSet) :
    Lockstep R (Scan.convertSet (S := S₁) spec members)
      (Scan.convertSet (S := S₂) spec members) := by
  unfold Scan.convertSet
  refine .bind (P.takeWhile _ _) fun run => ?_
  cases run.bytes.isEmpty with
  | true => exact .pure _
  | false => exact P.storeText _ _ _

theorem convertInteger (spec : ScanSpec) (base : IntegerToken.Base) (signed : Bool)
    (size : Nat) :
    Lockstep R (Scan.convertInteger (S := S₁) spec base signed size)
      (Scan.convertInteger (S := S₂) spec base signed size) := by
  refine P.afterSpace (.bind (P.token _ _) fun token => ?_)
  cases token with
  | none => exact .pure _
  | some token => exact P.storeNumber _ _

theorem convertFloat (spec : ScanSpec) :
    Lockstep R (Scan.convertFloat (S := S₁) spec) (Scan.convertFloat (S := S₂) spec) := by
  refine P.afterSpace (.bind (P.token _ _) fun token => ?_)
  cases token with
  | none => exact .pure _
  | some token => exact P.storeNumber _ _

theorem convert (spec : ScanSpec)
    (hcount : spec.conversion = .letter .n →
      Lockstep R (consumed (S := S₁)) (consumed (S := S₂))) :
    Lockstep R (Scan.convert (S := S₁) spec) (Scan.convert (S := S₂) spec) := by
  unfold Scan.convert
  split
  · exact P.convertSet _ _
  · rename_i hconversion
    exact P.convertCount (hcount hconversion) _
  · exact P.convertCharacters _
  · exact P.convertString _
  -- Seven letters of whole numbers, then the floats.
  iterate 7 exact P.convertInteger _ _ _ _
  all_goals exact P.convertFloat _

theorem matchSegment (segment : ScanSegment)
    (hcount : ∀ spec, segment = .directive spec → spec.conversion = .letter .n →
      Lockstep R (consumed (S := S₁)) (consumed (S := S₂))) :
    Lockstep R (Scan.matchSegment (S := S₁) segment) (Scan.matchSegment (S := S₂) segment) := by
  cases segment with
  | space =>
    exact .bind P.skipSpace fun _ => .pure _
  | literal bytes =>
    exact .bind (P.expect _) fun _ => .pure _
  | percent =>
    exact P.afterSpace (.bind (P.expect _) fun _ => .pure _)
  | directive spec => exact P.convert spec (hcount spec rfl)

theorem runFrom {segments : List ScanSegment}
    (hcount : ∀ spec, .directive spec ∈ segments → spec.conversion = .letter .n →
      Lockstep R (consumed (S := S₁)) (consumed (S := S₂))) (assigned : Nat) :
    Lockstep R (Scan.runFrom (S := S₁) assigned segments)
      (Scan.runFrom (S := S₂) assigned segments) := by
  induction segments generalizing assigned with
  | nil => exact .pure _
  | cons segment rest ih =>
    have hrest := ih fun spec hspec => hcount spec (List.mem_cons_of_mem segment hspec)
    have hfirst := P.matchSegment segment fun spec hspec =>
      hcount spec (hspec ▸ List.mem_cons_self)
    unfold Scan.runFrom
    refine .bind hfirst fun progress => ?_
    cases progress with
    | assigned => exact hrest _
    | skipped => exact hrest _
    | stopped status => exact .pure _

theorem run (hconsumed : Lockstep R (consumed (S := S₁)) (consumed (S := S₂)))
    (format : List Byte) :
    Lockstep R (Scan.run (S := S₁) format) (Scan.run (S := S₂) format) := by
  unfold Scan.run
  split
  · exact .throw _
  · exact P.runFrom (fun _ _ _ => hconsumed) _

end Paired

/-! ### Coupled readers -/

/-- The frames are equal, and the readers are related. -/
structure Beside (Q : List Byte → Reader S₁ → Reader S₂ → Prop) (s : State S₁ M) (t : State S₂ M) :
    Prop where
  frame : s.frame = t.frame
  readers : ∃ held, Q held s.reader t.reader

variable {Q : List Byte → Reader S₁ → Reader S₂ → Prop}

omit [ByteSource S₁] [ByteSource S₂] in
theorem reading_of_coupled {α : Type} {f₁ : Reader S₁ → α × Reader S₁}
    {f₂ : Reader S₂ → α × Reader S₂}
    (hfailure : ∀ {held r₁ r₂}, Q held r₁ r₂ → r₁.failure = r₂.failure)
    (h : Reader.Coupled Q f₁ f₂) :
    Lockstep (Beside (M := M) Q) (Scan.reading f₁) (Scan.reading f₂) := by
  intro s t hbeside
  obtain ⟨hframe, held, hreaders⟩ := hbeside
  obtain ⟨hsame, taken, hlater⟩ := h hreaders
  rw [reading_eq, reading_eq, hsame]
  refine .ok _ ⟨?_, _, hlater⟩
  unfold afterReading noteRead
  rw [hfailure hreaders, hfailure hlater, hframe]

/-- Scans whose readers are coupled stay together, if their read errors are the same. -/
theorem paired_of_coupling (C : Reader.Coupling Q)
    (hfailure : ∀ {held r₁ r₂}, Q held r₁ r₂ → r₁.failure = r₂.failure) :
    Paired (Beside (M := M) Q) where
  skipSpace := reading_of_coupled hfailure fun h => C.skipSpace h
  takeWhile keep width := reading_of_coupled hfailure fun h => C.takeWhile keep width h
  expect bytes := reading_of_coupled hfailure fun h => C.expect bytes h
  token l width := reading_of_coupled hfailure (C.tokenFrom l l.start width)
  fetchAddress := by
    intro s t h
    unfold fetchAddress
    rw [← h.frame]
    split
    · exact .ok _ ⟨rfl, h.readers⟩
    · exact .error _ ⟨rfl, h.readers⟩
  storing f := by
    intro s t h
    unfold storing
    rw [← h.frame]
    split
    · exact .ok _ ⟨rfl, h.readers⟩
    · exact .error _ h

omit [ByteSource S₁] [ByteSource S₂] in
theorem consumed_of_coupling
    (hconsumed : ∀ {held r₁ r₂}, Q held r₁ r₂ → r₁.consumed = r₂.consumed) :
    Lockstep (Beside (M := M) Q) (consumed (S := S₁)) (consumed (S := S₂)) := by
  intro s t h
  obtain ⟨held, hreaders⟩ := h.readers
  show Alike _ (.ok s.reader.consumed s) (.ok t.reader.consumed t)
  rw [hconsumed hreaders]
  exact .ok _ h

/-- Scans of coupled sources give the same result and leave the same frame and coupled readers. -/
theorem scan_of_coupling [Memory M] (C : Reader.Coupling Q)
    (hfailure : ∀ {held r₁ r₂}, Q held r₁ r₂ → r₁.failure = r₂.failure)
    (hconsumed : ∀ {held r₁ r₂}, Q held r₁ r₂ → r₁.consumed = r₂.consumed) {s₁ : S₁} {s₂ : S₂}
    (hstart : Q [] (.start s₁) (.start s₂)) (format : List Byte) (frame : Frame M) :
    (scan s₁ format frame).1 = (scan s₂ format frame).1 ∧
      (scan s₁ format frame).2.2 = (scan s₂ format frame).2.2 ∧
      ∃ held r₁ r₂, Q held r₁ r₂ ∧ (scan s₁ format frame).2.1 = r₁.source ∧
        (scan s₂ format frame).2.1 = r₂.source ∧
        ∀ outcome, (scan s₁ format frame).1 = .ok outcome → outcome.consumed = r₁.consumed := by
  have hpaired : Paired (Beside (M := M) Q) := paired_of_coupling C hfailure
  have hrun := hpaired.run (consumed_of_coupling hconsumed) format
    (State.mk (.start s₁) (frame.note (·.count .scanCalls)))
    (State.mk (.start s₂) (frame.note (·.count .scanCalls))) ⟨rfl, [], hstart⟩
  unfold scan
  generalize run format (State.mk (.start s₁) (frame.note (·.count .scanCalls))) = left at hrun
  generalize run format (State.mk (.start s₂) (frame.note (·.count .scanCalls))) = right at hrun
  cases hrun with
  | @ok s t result h =>
    obtain ⟨hframe, held, hreaders⟩ := h
    dsimp only
    rw [hframe, hconsumed hreaders, hfailure hreaders]
    refine ⟨rfl, rfl, held, s.reader, t.reader, hreaders, rfl, rfl, fun outcome houtcome => ?_⟩
    cases houtcome
    exact (hconsumed hreaders).symm
  | @error s t e h =>
    obtain ⟨hframe, held, hreaders⟩ := h
    dsimp only
    rw [hframe]
    exact ⟨rfl, rfl, held, s.reader, t.reader, hreaders, rfl, rfl, nofun⟩

end Scan
end CheckedFormat
