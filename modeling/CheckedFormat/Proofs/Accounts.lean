import CheckedFormat.Proofs.LatestFaults
import CheckedFormat.Proofs.StepRules
/-! Accounts of what is reported.

A call reports to the journal and to two counters. `Telemetry.Gains` says what they took
between two readings, and `Journal.Gains` which entries the journal has from it. A read of
an argument reports nothing when it is granted and its cause when it is refused
(`Frame.fetch_reports`); an engine whose steps keep account of what they reported
(`Accounting.Tells`) does so one step after another. -/
namespace CheckedFormat

/-! ### What there is to report -/

/-- What a list or a process of a level lets into the journal. -/
def CheckLevel.journaled : CheckLevel → Fault → List Fault
  | .checked, fault => [fault]
  | .unchecked, _ => []

namespace StreamError

/-- Whether a transfer that fails so raises the error indicator. -/
def raises : StreamError → Bool
  | .closed => false
  | _ => true

/-- What a failed transfer reports in a process of a level. -/
def faults (process : CheckLevel) (e : StreamError) : List Fault :=
  if e.raises then process.journaled ⟨.streamError, "stream", e.message⟩ else []

end StreamError

namespace PrintError

/-- What a failed call reports on a list of a level. That has no say in what streams
report, for which the level of the process counts. -/
def faults (process level : CheckLevel) : PrintError → List Fault
  | .format e => level.journaled ⟨.formatError, "printf", e.message⟩
  | .overflow => level.journaled ⟨.formatError, "printf", overflow.message⟩
  | .argument e => level.journaled ⟨e.kind, "va_arg", e.message⟩
  | .memory e => level.journaled ⟨.memoryError, "printf", e.message⟩
  | .stream e => e.faults process

/-- Whether the call failed for its stream and raised the error indicator. -/
def raises : PrintError → Bool
  | .stream e => e.raises
  | _ => false

/-- How many formats were malformed: one, if that is the error. -/
def malformed : PrintError → Nat
  | .format _ => 1
  | _ => 0

end PrintError

namespace ScanError

/-- What a failed call reports on a list of a level. -/
def faults (level : CheckLevel) : ScanError → List Fault
  | .format e => level.journaled ⟨.formatError, "scanf", e.message⟩
  | .argument e => level.journaled ⟨e.kind, "va_arg", e.message⟩
  | .memory e => level.journaled ⟨.memoryError, "scanf", e.message⟩

/-- How many formats were malformed: one, if that is the error. -/
def malformed : ScanError → Nat
  | .format _ => 1
  | _ => 0

end ScanError

/-! ### Growth of the journal -/

namespace Journal

/-- How many more entries fit without an eviction. One is held in any case. -/
def room (j : Journal) : Nat := max j.capacity 1 - j.entries.length

/-- From one reading to a later one a journal took these faults, in this order. It has an
entry for each behind the old ones, and they carry on the numbering; only the oldest
entries made room where there was none. -/
structure Gains (j later : Journal) (faults : List Fault) : Prop where
  journal : later = j.recordAll faults
  recorded : later.recorded = j.recorded + faults.length
  entries : later.entries =
    (j.entries ++ numbered (j.recorded + 1) faults).drop (faults.length - j.room)

theorem capacity_record (j : Journal) (fault : Fault) :
    (j.record fault).capacity = j.capacity := by
  unfold record evict
  split <;> rfl

theorem capacity_recordAll (j : Journal) (faults : List Fault) :
    (j.recordAll faults).capacity = j.capacity := by
  induction faults generalizing j with
  | nil => rfl
  | cons fault rest ih => exact (ih (j.record fault)).trans (j.capacity_record fault)

theorem recorded_record (j : Journal) (fault : Fault) :
    (j.record fault).recorded = j.recorded + 1 := by
  unfold record evict
  split <;> rfl

/-- One more fault is the last entry, and the first one is evicted for it or none. -/
theorem entries_record (j : Journal) (fault : Fault) :
    (j.record fault).entries =
      (j.entries ++ [(⟨j.recorded + 1, fault⟩ : Entry)]).drop (1 - j.room) := by
  by_cases hroom : j.entries.length < j.capacity
  · have hnone : 1 - j.room = 0 := by unfold room; omega
    rw [record_of_room hroom, hnone, List.drop_zero]
  · rw [record_of_full hroom]
    cases hentries : j.entries with
    | nil =>
      have hnone : 1 - j.room = 0 := by
        unfold room
        rw [hentries, List.length_nil]
        omega
      rw [hnone]
      rfl
    | cons first rest =>
      have hone : 1 - j.room = 1 := by
        rw [hentries, List.length_cons] at hroom
        unfold room
        rw [hentries, List.length_cons]
        omega
      rw [hone]
      rfl

theorem Gains.refl (j : Journal) : j.Gains j [] := ⟨rfl, rfl, by simp [numbered]⟩

theorem Gains.record {j later : Journal} {faults : List Fault} (h : j.Gains later faults)
    (fault : Fault) : j.Gains (later.record fault) (faults ++ [fault]) := by
  have hnumbered : numbered (j.recorded + 1) (faults ++ [fault]) =
      numbered (j.recorded + 1) faults ++ [⟨later.recorded + 1, fault⟩] := by
    rw [numbered_append, h.recorded, Nat.add_right_comm]
    rfl
  have hcapacity : later.capacity = j.capacity := by
    rw [h.journal, capacity_recordAll]
  have hlength : later.entries.length = j.entries.length + faults.length -
      (faults.length - j.room) := by
    rw [h.entries, List.length_drop, List.length_append, length_numbered]
  have hfits : faults.length - j.room ≤ (j.entries ++ numbered (j.recorded + 1) faults).length := by
    rw [List.length_append, length_numbered]
    omega
  refine ⟨?_, ?_, ?_⟩
  · rw [h.journal, recordAll, recordAll, List.foldl_concat]
  · rw [recorded_record, h.recorded, List.length_append, List.length_singleton, Nat.add_assoc]
  · have hevicted : (faults ++ [fault]).length - j.room =
        faults.length - j.room + (1 - later.room) := by
      rw [List.length_append, List.length_singleton]
      unfold room at hlength ⊢
      rw [hcapacity]
      omega
    rw [entries_record, h.entries, hevicted, hnumbered, ← List.append_assoc, ← List.drop_drop,
      List.drop_append_of_le_length hfits]

/-- What a journal has from the faults that it is told. -/
theorem gains_recordAll (j : Journal) (faults : List Fault) :
    j.Gains (j.recordAll faults) faults := by
  induction faults using List.reverseRecOn with
  | nil => exact .refl j
  | append_singleton faults fault ih =>
    rw [recordAll, List.foldl_concat]
    exact ih.record fault

theorem Gains.trans {j later last : Journal} {faults more : List Fault}
    (h : j.Gains later faults) (h' : later.Gains last more) : j.Gains last (faults ++ more) := by
  have hall : last = j.recordAll (faults ++ more) := by
    rw [h'.journal, h.journal, recordAll, recordAll, recordAll, List.foldl_append]
  rw [hall]
  exact gains_recordAll j _

end Journal

/-! ### Growth of the telemetry -/

namespace Telemetry

/-- From one reading to a later one the journal took these faults, in this order; so many
failed transfers raised an error indicator, and so many formats were malformed. -/
structure Gains (t later : Telemetry) (faults : List Fault) (raised malformed : Nat) :
    Prop where
  level : later.level = t.level
  journal : t.journal.Gains later.journal faults
  streamErrors : later.counts.get .streamErrors =
    t.counts.get .streamErrors + raised.toUInt64
  formatErrors : later.counts.get .formatErrors =
    t.counts.get .formatErrors + malformed.toUInt64

namespace Gains

variable {t u v : Telemetry} {faults more : List Fault} {k l m n : Nat} {c : Counter}

theorem refl (t : Telemetry) : t.Gains t [] 0 0 where
  level := rfl
  journal := .refl _
  streamErrors := (UInt64.add_zero _).symm
  formatErrors := (UInt64.add_zero _).symm

theorem trans (h : t.Gains u faults k m) (h' : u.Gains v more l n) :
    t.Gains v (faults ++ more) (k + l) (m + n) where
  level := h'.level.trans h.level
  journal := h.journal.trans h'.journal
  streamErrors := by
    rw [h'.streamErrors, h.streamErrors, UInt64.add_assoc]
    exact congrArg _ (UInt64.ofNat_add _ _).symm
  formatErrors := by
    rw [h'.formatErrors, h.formatErrors, UInt64.add_assoc]
    exact congrArg _ (UInt64.ofNat_add _ _).symm

/-- A counter of something else grows. -/
theorem countMany (t : Telemetry) (n : Nat) (hstream : c ≠ .streamErrors)
    (hformat : c ≠ .formatErrors) : t.Gains (t.countMany c n) [] 0 0 where
  level := rfl
  journal := .refl _
  streamErrors := by
    rw [Telemetry.countMany, Counts.get_add_of_ne _ _ hstream]
    exact (UInt64.add_zero _).symm
  formatErrors := by
    rw [Telemetry.countMany, Counts.get_add_of_ne _ _ hformat]
    exact (UInt64.add_zero _).symm

theorem count (t : Telemetry) (hstream : c ≠ .streamErrors) (hformat : c ≠ .formatErrors) :
    t.Gains (t.count c) [] 0 0 :=
  countMany t 1 hstream hformat

/-- A malformed format is counted. -/
theorem countMalformed (t : Telemetry) : t.Gains (t.count .formatErrors) [] 0 1 where
  level := rfl
  journal := .refl _
  streamErrors := by
    rw [Telemetry.count, Counts.increment, Counts.get_add_of_ne _ _ (by decide)]
    exact (UInt64.add_zero _).symm
  formatErrors := Counts.get_add_self _ _ _

/-- A failed transfer is counted. -/
theorem countRaised (t : Telemetry) : t.Gains (t.count .streamErrors) [] 1 0 where
  level := rfl
  journal := .refl _
  streamErrors := Counts.get_add_self _ _ _
  formatErrors := by
    rw [Telemetry.count, Counts.increment, Counts.get_add_of_ne _ _ (by decide)]
    exact (UInt64.add_zero _).symm

/-- A fault is recorded where the level lets it through. -/
theorem recordAt (t : Telemetry) (level : CheckLevel) (fault : Fault) :
    t.Gains (if level.reportsFaults then t.record fault else t) (level.journaled fault) 0 0 := by
  cases level with
  | unchecked => exact refl t
  | checked =>
    exact ⟨rfl, (Journal.Gains.refl t.journal).record fault, (UInt64.add_zero _).symm,
      (UInt64.add_zero _).symm⟩

/-- A failed transfer is counted, and recorded where the process lets it through. -/
theorem noteStreamError (t : Telemetry) (e : StreamError) :
    t.Gains (t.noteStreamError e) (e.faults t.level) e.raises.toNat 0 := by
  have hnoted : t.Gains ((t.count .streamErrors).report e.fault) (t.level.journaled e.fault)
      1 0 := (countRaised t).trans (.recordAt _ t.level e.fault)
  cases e with
  | closed => exact refl t
  | _ => exact hnoted

end Gains
end Telemetry

/-! ### Reads of arguments -/

namespace ArgumentList

/-- The list may refuse a read for this reason. -/
structure Refuses (l : ArgumentList) (cause : ArgumentError) : Prop where
  checked : l.level = .checked
  ended : cause = .useAfterEnd → l.ended = true

theorem violation?_eq_useAfterEnd {l : ArgumentList} {requested : ArgumentType}
    (h : l.violation? requested = some .useAfterEnd) : l.ended = true := by
  unfold violation? inspect at h
  cases hrefuses : l.refusesUse with
  | true => exact ((Bool.and_eq_true _ _).mp hrefuses).1
  | false =>
    rw [hrefuses] at h
    cases hslot : l.nextSlot? with
    | none => simp [hslot] at h
    | some slot =>
      by_cases hfits : slot.type.compatible requested = true <;> simp [hslot, hfits] at h

theorem noteDelivery_gains (l : ArgumentList) (t : Telemetry) :
    t.Gains (l.noteDelivery t) [] 0 0 := by
  unfold noteDelivery
  split
  · exact .count t (by decide) (by decide)
  · exact .refl t

/-- A broken rule is counted, and journaled where the level lets it through. -/
theorem noteViolation_gains (l : ArgumentList) (e : ArgumentError) (t : Telemetry) :
    t.Gains (l.noteViolation e t) (l.level.journaled e.fault) 0 0 := by
  have hcount : t.Gains (t.count e.counter) [] 0 0 := by
    cases e <;> exact .count t (by simp [ArgumentError.counter]) (by simp [ArgumentError.counter])
  exact hcount.trans (.recordAt _ l.level e.fault)

/-- What was observed of a read, with its result. -/
theorem observe_next (l : ArgumentList) (requested : ArgumentType) (t : Telemetry) :
    (l.next requested = .ok (l.nextBits, l.advance) ∧
      t.Gains (l.observe requested t) [] 0 0) ∨
    ∃ cause, l.next requested = .error cause ∧ l.Refuses cause ∧
      t.Gains (l.observe requested t) [cause.fault] 0 0 := by
  unfold next observe
  cases hviolation : l.violation? requested with
  | none => exact .inl ⟨rfl, l.noteDelivery_gains t⟩
  | some cause =>
    have hgains := l.noteViolation_gains cause t
    cases hlevel : l.level with
    | checked =>
      rw [hlevel] at hgains
      exact .inr ⟨cause, rfl, ⟨hlevel, fun h => violation?_eq_useAfterEnd (h ▸ hviolation)⟩,
        hgains⟩
    | unchecked =>
      rw [hlevel] at hgains
      exact .inl ⟨rfl, hgains.trans (l.noteDelivery_gains _)⟩

end ArgumentList

namespace Frame

variable {M : Type}

/-- Between two states of a call the arguments only moved on, these faults were reported,
and so many failed transfers raised an error indicator. -/
structure Reports (s t : Frame M) (faults : List Fault) (raised : Nat) : Prop where
  arguments : t.arguments = { s.arguments with cursor := t.arguments.cursor }
  telemetry : s.telemetry.Gains t.telemetry faults raised 0

variable {s t u : Frame M} {faults more : List Fault} {k l : Nat}

namespace Reports

theorem refl (s : Frame M) : s.Reports s [] 0 := ⟨rfl, .refl _⟩

theorem trans (h : s.Reports u faults k) (h' : u.Reports t more l) :
    s.Reports t (faults ++ more) (k + l) where
  arguments := by
    rw [h'.arguments, h.arguments]
  telemetry := h.telemetry.trans h'.telemetry

theorem level_eq (h : s.Reports t faults k) : t.arguments.level = s.arguments.level := by
  rw [h.arguments]

theorem refuses {cause : ArgumentError} (h : s.Reports t faults k)
    (hrefuses : t.arguments.Refuses cause) : s.arguments.Refuses cause := by
  rw [h.arguments] at hrefuses
  exact ⟨hrefuses.checked, hrefuses.ended⟩

end Reports

/-- A read is granted and reports nothing, or it is refused and reports why. -/
theorem fetch_reports (s : Frame M) (requested : ArgumentType) :
    (∃ bits later, s.fetch requested = (.ok bits, later) ∧ s.Reports later [] 0) ∨
    ∃ cause later, s.fetch requested = (.error cause, later) ∧ s.arguments.Refuses cause ∧
      s.Reports later [cause.fault] 0 := by
  unfold fetch
  rcases s.arguments.observe_next requested s.telemetry with ⟨hnext, hgains⟩ |
    ⟨cause, hnext, hrefuses, hgains⟩
  · rw [hnext]
    exact .inl ⟨_, _, rfl, rfl, hgains⟩
  · rw [hnext]
    exact .inr ⟨cause, _, rfl, hrefuses, rfl, hgains⟩

/-- A fault that a call reports itself, where its list lets it through. -/
theorem record_gains (s : Frame M) (fault : Fault) :
    s.telemetry.Gains (if s.reportsFaults then s.note (·.record fault) else s).telemetry
      (s.arguments.level.journaled fault) 0 0 := by
  rw [apply_ite Frame.telemetry]
  exact .recordAt s.telemetry s.arguments.level fault

end Frame

/-! ### Accounts of steps -/

/-- How the steps of an engine account for what they report. -/
structure Accounting (ε σ : Type) where
  /-- These faults were reported between two states. -/
  reports : σ → σ → List Fault → Prop
  /-- The arguments may be refused for this reason. -/
  refuses : σ → ArgumentError → Prop
  /-- The error of a refused argument. -/
  argument : ArgumentError → ε
  /-- The call itself reports the error when it ends. -/
  pending : ε → Prop
  refl : ∀ s, reports s s []
  trans : ∀ {s t u : σ} {faults : List Fault}, reports s u [] → reports u t faults →
    reports s t faults
  refuses_of_reports : ∀ {s t : σ} {cause : ArgumentError}, reports s t [] → refuses t cause →
    refuses s cause

namespace Accounting

variable {ε σ α β : Type} {A : Accounting ε σ}

/-- What a step reported, told by its result: only a refused argument is reported. -/
inductive Told (A : Accounting ε σ) (s : σ) : EStateM.Result ε σ α → Prop where
  | ok {a : α} {t : σ} (reported : A.reports s t []) : Told A s (.ok a t)
  | refused {cause : ArgumentError} {t : σ} (refuses : A.refuses s cause)
      (reported : A.reports s t [cause.fault]) : Told A s (.error (A.argument cause) t)
  | failed {e : ε} {t : σ} (pending : A.pending e) (reported : A.reports s t []) :
      Told A s (.error e t)

/-- From every state the step reports what its result tells. -/
def Tells (A : Accounting ε σ) (f : EStateM ε σ α) : Prop := ∀ s, A.Told s (f s)

theorem tells_pure (a : α) : A.Tells (pure a : EStateM ε σ α) := fun s => .ok (A.refl s)

theorem tells_throw {e : ε} (h : A.pending e) : A.Tells (throw e : EStateM ε σ α) :=
  fun s => .failed h (A.refl s)

/-- What was silent so far does not change the account. -/
theorem Told.behind {s t : σ} {result : EStateM.Result ε σ α} (htold : A.Told t result)
    (h : A.reports s t []) : A.Told s result := by
  cases htold with
  | ok h' => exact .ok (A.trans h h')
  | refused hrefuses h' => exact .refused (A.refuses_of_reports h hrefuses) (A.trans h h')
  | failed hpending h' => exact .failed hpending (A.trans h h')

theorem tells_bind {f : EStateM ε σ α} {g : α → EStateM ε σ β} (hf : A.Tells f)
    (hg : ∀ a, A.Tells (g a)) : A.Tells (f >>= g) := by
  intro s
  have hfirst := hf s
  show A.Told s (EStateM.bind f g s)
  unfold EStateM.bind
  generalize f s = result at hfirst
  cases hfirst with
  | ok h => exact (hg _ _).behind h
  | refused hrefuses h => exact .refused hrefuses h
  | failed hpending h => exact .failed hpending h

end Accounting

end CheckedFormat
