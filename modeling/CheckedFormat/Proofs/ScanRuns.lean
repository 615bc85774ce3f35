import CheckedFormat.Proofs.Steps
/-! Segments scanned one after the other.

Only the end of the format completes a scan: a segment that stops it says that the input
does not match, or is at its end (`matchSegment_unfinished`). So a run over two lists of
segments is a run over the first, and over the second where the first completes
(`runFrom_append`), and the number of fields that a run starts from is only added to
(`runFrom_add`). A call that does not complete comes, through segments that it
completes, to the one that fails or stops it (`Reaches`). -/
namespace CheckedFormat
namespace Scan

variable {S M : Type}

/-! ### What stops a scan -/

/-- The step never stops a scan with this status. -/
def Avoids (status : ScanStatus) (f : Step S M Progress) : Prop :=
  ∀ s t, f s ≠ .ok (.stopped status) t

namespace Avoids
variable {status : ScanStatus}

theorem pure {progress : Progress} (h : progress ≠ .stopped status) :
    Avoids (S := S) (M := M) status (Pure.pure progress) := by
  intro s t hstep
  cases hstep
  exact h rfl

theorem bind {α : Type} (f : Step S M α) {g : α → Step S M Progress}
    (h : ∀ a, Avoids status (g a)) : Avoids status (f >>= g) := by
  intro s t hstep
  obtain ⟨a, u, _, hrest⟩ := ok_of_bind hstep
  exact h a u t hrest

/-- What only stores never stops a scan. -/
theorem storeNumber (suppress : Bool) (store : M → Nat → Except MemoryError M) :
    Avoids (S := S) status (Scan.storeNumber suppress store) := by
  unfold Scan.storeNumber
  cases suppress with
  | true => exact .pure nofun
  | false => exact .bind _ fun address => .bind _ fun _ => .pure nofun

variable [Memory M]

theorem storeText (suppress terminate : Bool) (text : List Byte) :
    Avoids (S := S) (M := M) status (Scan.storeText suppress terminate text) := by
  unfold Scan.storeText
  cases suppress with
  | true => exact .pure nofun
  | false =>
    refine .bind _ fun address => .bind _ fun _ => ?_
    cases terminate with
    | true => exact .bind _ fun _ => .pure nofun
    | false => exact .pure nofun

theorem convertCount (spec : ScanSpec) :
    Avoids (S := S) (M := M) status (Scan.convertCount spec) := by
  unfold Scan.convertCount
  cases spec.suppress with
  | true => exact .pure nofun
  | false => exact .bind _ fun address => .bind _ fun count => .bind _ fun _ => .pure nofun

end Avoids

/-- The step does not end a scan as complete. -/
def Unfinished (f : Step S M Progress) : Prop := ∀ s t, f s ≠ .ok (.stopped .complete) t

namespace Unfinished

theorem pure {progress : Progress} (h : progress ≠ .stopped .complete) :
    Unfinished (S := S) (M := M) (Pure.pure progress) := Avoids.pure h

theorem bind {α : Type} (f : Step S M α) {g : α → Step S M Progress} (h : ∀ a, Unfinished (g a)) :
    Unfinished (f >>= g) := Avoids.bind f h

variable [Memory M]

variable [ByteSource S]

omit [Memory M] in
theorem afterSpace {f : Step S M Progress} (h : Unfinished f) : Unfinished (Scan.afterSpace f) := by
  refine .bind _ fun found => ?_
  cases found with
  | true => exact h
  | false => exact .pure nofun

theorem convertCharacters (spec : ScanSpec) :
    Unfinished (Scan.convertCharacters (S := S) (M := M) spec) := by
  refine .bind _ fun run => ?_
  cases run.bytes.isEmpty with
  | true => exact .pure nofun
  | false => exact Avoids.storeText _ _ _

theorem convertSet (spec : ScanSpec) (members : ByteSet) :
    Unfinished (Scan.convertSet (S := S) (M := M) spec members) := by
  refine .bind _ fun run => ?_
  cases run.bytes.isEmpty with
  | true => cases run.atEnd <;> exact .pure nofun
  | false => exact Avoids.storeText _ _ _

theorem convertInteger (spec : ScanSpec) (base : IntegerToken.Base) (signed : Bool) (size : Nat) :
    Unfinished (Scan.convertInteger (S := S) (M := M) spec base signed size) := by
  refine .afterSpace (.bind _ fun token => ?_)
  cases token with
  | none => exact .pure nofun
  | some token => exact Avoids.storeNumber _ _

theorem convertFloat (spec : ScanSpec) :
    Unfinished (Scan.convertFloat (S := S) (M := M) spec) := by
  refine .afterSpace (.bind _ fun token => ?_)
  cases token with
  | none => exact .pure nofun
  | some token => exact Avoids.storeNumber _ _

theorem convert (spec : ScanSpec) : Unfinished (Scan.convert (S := S) (M := M) spec) := by
  unfold Scan.convert
  split
  · exact .convertSet _ _
  · exact Avoids.convertCount _
  · exact .convertCharacters _
  · exact .afterSpace (.bind _ fun _ => Avoids.storeText _ _ _)
  -- Seven letters of whole numbers, then the floats.
  iterate 7 exact .convertInteger _ _ _ _
  all_goals exact .convertFloat _

omit [Memory M] [ByteSource S] in
theorem ofMatch (found : Reader.Match) :
    Unfinished (S := S) (M := M) (Pure.pure (Scan.ofMatch found)) := by
  cases found <;> exact .pure nofun

end Unfinished

section Runs
variable [Memory M] [ByteSource S]

/-- A segment never completes a scan. -/
theorem matchSegment_unfinished (segment : ScanSegment) :
    Unfinished (matchSegment (S := S) (M := M) segment) := by
  cases segment with
  | space => exact .bind _ fun _ => .pure nofun
  | literal bytes => exact .bind _ fun found => .ofMatch found
  | percent => exact .afterSpace (.bind _ fun found => .ofMatch found)
  | directive spec => exact .convert spec

/-! ### Runs -/

variable {segment : ScanSegment} {s t : State S M} {progress : Progress} {status : ScanStatus}

/-- A run goes on behind a segment, with one field more if it was assigned. -/
theorem runFrom_of_goesOn (hstep : matchSegment segment s = .ok progress t)
    (hgoes : ∀ status, progress ≠ .stopped status) (n : Nat) (rest : List ScanSegment) :
    runFrom n (segment :: rest) s =
      runFrom (n + if progress = .assigned then 1 else 0) rest t := by
  rw [runFrom, bind_of_ok hstep]
  cases progress with
  | assigned => rfl
  | skipped => rfl
  | stopped status => exact absurd rfl (hgoes status)

/-- A run ends with the segment that stops it. -/
theorem runFrom_of_stop (hstep : matchSegment segment s = .ok (.stopped status) t) (n : Nat)
    (rest : List ScanSegment) : runFrom n (segment :: rest) s = .ok (n, status) t := by
  rw [runFrom, bind_of_ok hstep]
  rfl

theorem runFrom_of_error {e : ScanError} (hstep : matchSegment segment s = .error e t) (n : Nat)
    (rest : List ScanSegment) : runFrom n (segment :: rest) s = .error e t := by
  rw [runFrom, bind_of_error hstep]

/-- A run goes on over more segments where it is complete, and else stays as it ended. -/
def onward (more : List ScanSegment) :
    EStateM.Result ScanError (State S M) (Nat × ScanStatus) →
      EStateM.Result ScanError (State S M) (Nat × ScanStatus)
  | .ok (n, .complete) s => runFrom n more s
  | result => result

/-- A run over two lists of segments is a run over the first, and on over the second. -/
theorem runFrom_append (n : Nat) (segments more : List ScanSegment) (s : State S M) :
    runFrom n (segments ++ more) s = onward more (runFrom n segments s) := by
  induction segments generalizing n s with
  | nil => rfl
  | cons segment rest ih =>
    rw [List.cons_append]
    cases hstep : matchSegment segment s with
    | error e t =>
      rw [runFrom_of_error hstep, runFrom_of_error hstep]
      rfl
    | ok progress t =>
      cases progress with
      | assigned | skipped =>
        rw [runFrom_of_goesOn hstep nofun, runFrom_of_goesOn hstep nofun, ih]
      | stopped status =>
        rw [runFrom_of_stop hstep, runFrom_of_stop hstep]
        cases status with
        | complete => exact absurd hstep (matchSegment_unfinished segment s t)
        | matchingFailure | inputFailure => rfl

/-- A run that fails completes some segments and fails at the one behind them. -/
theorem exists_error_of_runFrom {e : ScanError} {n : Nat} {segments : List ScanSegment}
    (h : runFrom n segments s = .error e t) :
    ∃ front segment behind m u, segments = front ++ segment :: behind ∧
      runFrom n front s = .ok (m, .complete) u ∧ matchSegment segment u = .error e t := by
  induction segments generalizing n s with
  | nil => cases h
  | cons segment rest ih =>
    cases hstep : matchSegment segment s with
    | error e' u =>
      rw [runFrom_of_error hstep] at h
      cases h
      exact ⟨[], segment, rest, n, s, rfl, rfl, hstep⟩
    | ok progress u =>
      cases progress with
      | assigned | skipped =>
        rw [runFrom_of_goesOn hstep nofun] at h
        obtain ⟨front, last, behind, m, v, rfl, hfront, hlast⟩ := ih h
        exact ⟨segment :: front, last, behind, m, v, rfl,
          (runFrom_of_goesOn hstep nofun n front).trans hfront, hlast⟩
      | stopped status =>
        rw [runFrom_of_stop hstep] at h
        cases h

/-- A run that is stopped completes some segments and is stopped by the one behind
them. -/
theorem exists_stop_of_runFrom {n assigned : Nat} {segments : List ScanSegment}
    (h : runFrom n segments s = .ok (assigned, status) t) (hstatus : status ≠ .complete) :
    ∃ front segment behind u, segments = front ++ segment :: behind ∧
      runFrom n front s = .ok (assigned, .complete) u ∧
      matchSegment segment u = .ok (.stopped status) t := by
  induction segments generalizing n s with
  | nil =>
    cases h
    exact absurd rfl hstatus
  | cons segment rest ih =>
    cases hstep : matchSegment segment s with
    | error e u =>
      rw [runFrom_of_error hstep] at h
      cases h
    | ok progress u =>
      cases progress with
      | assigned | skipped =>
        rw [runFrom_of_goesOn hstep nofun] at h
        obtain ⟨front, last, behind, v, rfl, hfront, hlast⟩ := ih h
        exact ⟨segment :: front, last, behind, v, rfl,
          (runFrom_of_goesOn hstep nofun n front).trans hfront, hlast⟩
      | stopped status' =>
        rw [runFrom_of_stop hstep] at h
        cases h
        exact ⟨[], segment, rest, s, rfl, rfl, hstep⟩

/-- A run starts from some fields and adds its own. -/
theorem runFrom_add (k n : Nat) (segments : List ScanSegment) :
    runFrom (S := S) (M := M) (k + n) segments = (do
      let (assigned, status) ← runFrom n segments
      return (k + assigned, status)) := by
  induction segments generalizing n with
  | nil => rfl
  | cons segment rest ih =>
    rw [runFrom, runFrom, bind_assoc]
    refine congrArg _ (funext fun progress => ?_)
    cases progress with
    | assigned => exact ih (n + 1)
    | skipped => exact ih n
    | stopped status => rfl

/-! ### Where a call stops -/

/-- A call completes the segments before this one and comes to it in a state. -/
def Reaches (source : S) (format : List Byte) (frame : Frame M) (segment : ScanSegment)
    (met : State S M) : Prop :=
  ∃ front behind assigned, ScanFormat.parse format = .ok (front ++ segment :: behind) ∧
    runFrom 0 front ⟨.start source, frame.note (·.count .scanCalls)⟩ = .ok (assigned, .complete) met

variable {source : S} {format : List Byte} {frame : Frame M}

/-- A call that fails, on a format that can be read, comes to a segment that fails. -/
theorem exists_reached_of_error {e : ScanError} (hformat : ∀ cause, e ≠ .format cause)
    (h : run format ⟨.start source, frame.note (·.count .scanCalls)⟩ = .error e t) :
    ∃ segment met, Reaches source format frame segment met ∧
      matchSegment segment met = .error e t := by
  unfold run at h
  cases hparse : ScanFormat.parse format with
  | error cause =>
    rw [hparse] at h
    cases h
    exact absurd rfl (hformat cause)
  | ok segments =>
    rw [hparse] at h
    obtain ⟨front, segment, behind, assigned, met, rfl, hfront, hfails⟩ :=
      exists_error_of_runFrom h
    exact ⟨segment, met, ⟨front, behind, assigned, hparse, hfront⟩, hfails⟩

/-- A call that does not complete comes to a segment that stops it. -/
theorem exists_reached_of_stop {assigned : Nat}
    (h : run format ⟨.start source, frame.note (·.count .scanCalls)⟩ = .ok (assigned, status) t)
    (hstatus : status ≠ .complete) :
    ∃ segment met, Reaches source format frame segment met ∧
      matchSegment segment met = .ok (.stopped status) t := by
  unfold run at h
  cases hparse : ScanFormat.parse format with
  | error cause =>
    rw [hparse] at h
    cases h
  | ok segments =>
    rw [hparse] at h
    obtain ⟨front, segment, behind, met, rfl, hfront, hstops⟩ := exists_stop_of_runFrom h hstatus
    exact ⟨segment, met, ⟨front, behind, assigned, hparse, hfront⟩, hstops⟩

/-- A segment that stops the call that came to it stops it as it says. -/
theorem run_of_reached {met : State S M} (h : Reaches source format frame segment met)
    (hstops : matchSegment segment met = .ok (.stopped status) t) :
    ∃ assigned, run format ⟨.start source, frame.note (·.count .scanCalls)⟩ =
      .ok (assigned, status) t := by
  obtain ⟨front, behind, assigned, hparse, hfront⟩ := h
  refine ⟨assigned, ?_⟩
  unfold run
  rw [hparse]
  dsimp only
  rw [runFrom_append, hfront]
  exact runFrom_of_stop hstops assigned behind

end Runs

end Scan
end CheckedFormat
