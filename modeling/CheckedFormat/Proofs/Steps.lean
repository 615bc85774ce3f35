import CheckedFormat.Proofs.Arguments
import CheckedFormat.Scan.Engine
/-! Single steps of a scan.

Reading moves the reader and leaves arguments and memory alone (`reading_eq`,
`sameStores_afterReading`). Taking an address either moves the arguments on by one
or fails and moves nothing (`fetchAddress_cases`). Storing changes the memory and
nothing else. Everything proved about whole scans rests on these.

Before them stands what holds of any computation that may fail: how a sequence of two
ends, and when two computations go in lockstep. -/
namespace CheckedFormat

/-! ### Sequences -/

/-- A result that gives a value is a success. -/
theorem ok_of_toOption {ε α : Type} {result : Except ε α} {a : α}
    (h : result.toOption = some a) : result = .ok a := by
  cases result with
  | ok b => exact congrArg Except.ok (Option.some.inj h)
  | error e => cases h

/-- A result that gives no value is a failure. -/
theorem error_of_no_value {ε α : Type} {result : Except ε α} {e : ε}
    (h : (match result with | .ok _ => none | .error e => some e) = some e) : result = .error e := by
  cases result with
  | ok a => cases h
  | error e' => exact congrArg Except.error (Option.some.inj h)

/-- A step that gives a value leaves a state. -/
theorem exists_ok_of_value {ε σ α : Type} {result : EStateM.Result ε σ α} {a : α}
    (h : (match result with | .ok a _ => some a | .error _ _ => none) = some a) :
    ∃ s, result = .ok a s := by
  cases result with
  | ok b s => exact ⟨s, congrArg (EStateM.Result.ok · s) (Option.some.inj h)⟩
  | error e s => cases h

/-- A step that gives an error leaves a state, too. -/
theorem exists_error_of_error {ε σ α : Type} {result : EStateM.Result ε σ α} {e : ε}
    (h : (match result with | .ok _ _ => none | .error e _ => some e) = some e) :
    ∃ s, result = .error e s := by
  cases result with
  | ok a s => cases h
  | error e' s => exact ⟨s, congrArg (EStateM.Result.error · s) (Option.some.inj h)⟩

section Sequences
variable {ε σ α β : Type} {f : EStateM ε σ α} {g : α → EStateM ε σ β} {s t : σ}

theorem bind_of_ok {a : α} (h : f s = .ok a t) : (f >>= g) s = g a t := by
  show EStateM.bind f g s = g a t
  unfold EStateM.bind
  rw [h]

theorem bind_of_error {e : ε} (h : f s = .error e t) : (f >>= g) s = .error e t := by
  show EStateM.bind f g s = .error e t
  unfold EStateM.bind
  rw [h]

/-- A sequence that succeeds is two steps that succeed. -/
theorem ok_of_bind {b : β} (h : (f >>= g) s = .ok b t) :
    ∃ a u, f s = .ok a u ∧ g a u = .ok b t := by
  cases hstep : f s with
  | ok a u =>
    rw [bind_of_ok hstep] at h
    exact ⟨a, u, rfl, h⟩
  | error e u =>
    rw [bind_of_error hstep] at h
    cases h

end Sequences

/-! ### Computations in lockstep -/

/-- Both values or both errors, the same, and related states. -/
inductive Alike {ε σ₁ σ₂ α : Type} (R : σ₁ → σ₂ → Prop) :
    EStateM.Result ε σ₁ α → EStateM.Result ε σ₂ α → Prop where
  | ok {s₁ : σ₁} {s₂ : σ₂} (a : α) : R s₁ s₂ → Alike R (.ok a s₁) (.ok a s₂)
  | error {s₁ : σ₁} {s₂ : σ₂} (e : ε) : R s₁ s₂ → Alike R (.error e s₁) (.error e s₂)

/-- From related states the two computations give the same and leave related states. -/
def Lockstep {ε σ₁ σ₂ α : Type} (R : σ₁ → σ₂ → Prop) (f₁ : EStateM ε σ₁ α)
    (f₂ : EStateM ε σ₂ α) : Prop :=
  ∀ (s₁ : σ₁) (s₂ : σ₂), R s₁ s₂ → Alike R (f₁ s₁) (f₂ s₂)

namespace Lockstep

variable {ε σ₁ σ₂ α β : Type} {R : σ₁ → σ₂ → Prop}

theorem pure (a : α) : Lockstep (ε := ε) R (Pure.pure a) (Pure.pure a) :=
  fun _ _ h => .ok a h

theorem throw (e : ε) :
    Lockstep R (MonadExcept.throw e : EStateM ε σ₁ α) (MonadExcept.throw e) :=
  fun _ _ h => .error e h

theorem bind {f₁ : EStateM ε σ₁ α} {f₂ : EStateM ε σ₂ α} {g₁ : α → EStateM ε σ₁ β}
    {g₂ : α → EStateM ε σ₂ β} (hf : Lockstep R f₁ f₂) (hg : ∀ a, Lockstep R (g₁ a) (g₂ a)) :
    Lockstep R (f₁ >>= g₁) (f₂ >>= g₂) := by
  intro s₁ s₂ h
  have hfirst := hf s₁ s₂ h
  show Alike R (EStateM.bind f₁ g₁ s₁) (EStateM.bind f₂ g₂ s₂)
  unfold EStateM.bind
  generalize f₁ s₁ = r₁ at hfirst
  generalize f₂ s₂ = r₂ at hfirst
  cases hfirst with
  | ok a h => exact hg a _ _ h
  | error e h => exact .error e h

end Lockstep

/-! ### Frames -/

/-- The same arguments and the same memory; what was observed may differ. -/
structure Frame.Agree {M : Type} (a b : Frame M) : Prop where
  arguments : a.arguments = b.arguments
  memory : a.memory = b.memory

theorem Frame.agree_note {M : Type} (frame : Frame M) (f : Telemetry → Telemetry) :
    (frame.note f).Agree frame := ⟨rfl, rfl⟩

theorem Frame.Agree.symm {M : Type} {a b : Frame M} (h : a.Agree b) : b.Agree a :=
  ⟨h.arguments.symm, h.memory.symm⟩

theorem Frame.Agree.trans {M : Type} {a b c : Frame M} (h : a.Agree b) (h' : b.Agree c) :
    a.Agree c := ⟨h.arguments.trans h'.arguments, h.memory.trans h'.memory⟩

namespace Scan

variable {S M α β : Type}

/-- The state that a step leaves, also when it fails. -/
def after : EStateM.Result ScanError (State S M) α → State S M
  | .ok _ s => s
  | .error _ s => s

/-- Arguments and memory are the same. -/
def SameStores (s t : State S M) : Prop :=
  t.frame.arguments = s.frame.arguments ∧ t.frame.memory = s.frame.memory

theorem SameStores.refl (s : State S M) : SameStores s s := ⟨rfl, rfl⟩

theorem SameStores.trans {s t u : State S M} (h₁ : SameStores s t) (h₂ : SameStores t u) :
    SameStores s u := ⟨h₂.1.trans h₁.1, h₂.2.trans h₁.2⟩

/-! ### Reading -/

/-- The state after reading. -/
def afterReading (f : Reader S → α × Reader S) (s : State S M) : State S M :=
  ⟨(f s.reader).2, noteRead s.reader (f s.reader).2 s.frame⟩

theorem reading_eq (f : Reader S → α × Reader S) (s : State S M) :
    reading f s = .ok (f s.reader).1 (afterReading f s) := rfl

theorem bind_reading (f : Reader S → α × Reader S) (g : α → Step S M β) (s : State S M) :
    (reading f >>= g) s = g (f s.reader).1 (afterReading f s) := rfl

theorem noteRead_of_no_failure {before later : Reader S} (frame : Frame M)
    (h : later.failure = none) : noteRead before later frame = frame := by
  unfold noteRead
  rw [h]
  split <;> simp_all

theorem sameStores_afterReading (f : Reader S → α × Reader S) (s : State S M) :
    SameStores s (afterReading f s) := by
  unfold SameStores afterReading noteRead
  split <;> exact ⟨rfl, rfl⟩

/-! ### Arguments -/

/-- An address is taken from the next slot, or nothing moves. -/
theorem fetchAddress_cases (s : State S M) :
    (∃ e t, fetchAddress s = .error e t ∧ SameStores s t) ∨
      ∃ t, fetchAddress s = .ok s.frame.arguments.nextBits.asAddress t ∧
        t.frame.arguments = s.frame.arguments.advance ∧ t.frame.memory = s.frame.memory ∧
        t.reader = s.reader := by
  unfold fetchAddress Frame.fetch
  rcases s.frame.arguments.next_cases .pointer with ⟨e, hnext⟩ | hnext
  · rw [hnext]
    exact .inl ⟨_, _, rfl, rfl, rfl⟩
  · rw [hnext]
    exact .inr ⟨_, rfl, rfl, rfl, rfl⟩

end Scan
end CheckedFormat
