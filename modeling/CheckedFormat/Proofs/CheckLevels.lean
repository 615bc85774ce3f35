import CheckedFormat.Memory.Arena
import CheckedFormat.Proofs.StepRules
/-! What checking changes.

A checked list refuses some reads; those that it grants give what an unchecked list
gives, and an unchecked list refuses none. Both engines reach the level through those
reads alone, so each of their steps `OnlyRejects`: if it succeeds, it does the same at the
unchecked level, and at the unchecked level it never fails for an argument.
`checking_only_rejects` says it of whole calls. -/
namespace CheckedFormat

/-! ### The same state at another level -/

/-- The same list, read at a level. -/
def ArgumentList.atLevel (level : CheckLevel) (l : ArgumentList) : ArgumentList := { l with level }

/-- The same frame, its arguments read at a level. -/
def Frame.atLevel {M : Type} (level : CheckLevel) (frame : Frame M) : Frame M :=
  { frame with arguments := frame.arguments.atLevel level }

/-- The same state of a scan, its arguments read at a level. -/
def Scan.State.atLevel {S M : Type} (level : CheckLevel) (s : State S M) : State S M :=
  { s with frame := s.frame.atLevel level }

theorem ArgumentList.atLevel_of_level {l : ArgumentList} {level : CheckLevel}
    (h : l.level = level) : l.atLevel level = l := by
  cases l
  cases h
  rfl

theorem Frame.note_atLevel {M : Type} (frame : Frame M) (level : CheckLevel)
    (f : Telemetry → Telemetry) : (frame.atLevel level).note f = (frame.note f).atLevel level := rfl

theorem Frame.level_of_atLevel {M : Type} {frame : Frame M} {level : CheckLevel}
    (h : frame.atLevel level = frame) : frame.arguments.level = level :=
  (congrArg (·.arguments.level) h).symm

/-! ### Reads -/

namespace ArgumentList

/-- A read breaks no rule just when the list may be used and the next slot is there and
matches. -/
theorem violation?_eq_none_iff {l : ArgumentList} {requested : ArgumentType} :
    l.violation? requested = none ↔
      l.refusesUse = false ∧ ∃ slot, l.nextSlot? = some slot ∧
        slot.type.compatible requested = true := by
  unfold violation? inspect
  cases l.refusesUse with
  | true => simp
  | false =>
    cases l.nextSlot? with
    | none => simp
    | some slot => by_cases h : slot.type.compatible requested = true <;> simp [h]

/-- An unchecked list grants every read. -/
theorem next_of_unchecked {l : ArgumentList} (h : l.level = .unchecked)
    (requested : ArgumentType) : l.next requested = .ok (l.nextBits, l.advance) := by
  unfold next
  rw [h]
  split <;> rfl

/-- A checked list grants only the reads that break no rule. -/
theorem violation?_of_next {l : ArgumentList} {requested : ArgumentType}
    {granted : Word × ArgumentList} (hlevel : l.level = .checked)
    (h : l.next requested = .ok granted) : l.violation? requested = none := by
  unfold next at h
  rw [hlevel] at h
  split at h
  · cases h
  · assumption

end ArgumentList

namespace Frame

variable {M : Type} {frame later : Frame M} {requested : ArgumentType} {bits : Word}

/-- What a read leaves that breaks no rule. -/
theorem fetch_of_no_violation (h : frame.arguments.violation? requested = none) :
    frame.fetch requested = (.ok frame.arguments.nextBits,
      { frame with
        arguments := frame.arguments.advance
        telemetry := frame.arguments.noteDelivery frame.telemetry }) := by
  unfold fetch ArgumentList.next ArgumentList.observe
  rw [h]

/-- An unchecked list hands out its next slot, or zero bits, and is unchecked still. -/
theorem fetch_of_unchecked (h : frame.arguments.level = .unchecked) (requested : ArgumentType) :
    ∃ later, frame.fetch requested = (.ok frame.arguments.nextBits, later) ∧
      later.arguments.level = .unchecked := by
  unfold fetch
  rw [ArgumentList.next_of_unchecked h]
  exact ⟨_, rfl, h⟩

/-- A read that is granted is granted at the unchecked level too, with the same bits and
the same observations. -/
theorem fetch_unchecked (h : frame.fetch requested = (.ok bits, later)) :
    (frame.atLevel .unchecked).fetch requested = (.ok bits, later.atLevel .unchecked) := by
  cases hlevel : frame.arguments.level with
  | unchecked =>
    obtain ⟨later', hfetch, hlater⟩ := fetch_of_unchecked hlevel requested
    rw [h] at hfetch
    cases hfetch
    rw [atLevel, atLevel, ArgumentList.atLevel_of_level hlevel,
      ArgumentList.atLevel_of_level hlater]
    exact h
  | checked =>
    have hallowed : frame.arguments.violation? requested = none := by
      cases hnext : frame.arguments.next requested with
      | ok granted => exact ArgumentList.violation?_of_next hlevel hnext
      | error e =>
        unfold fetch at h
        rw [hnext] at h
        cases h
    have hrelaxed : (frame.arguments.atLevel .unchecked).violation? requested = none := by
      rw [ArgumentList.violation?_eq_none_iff] at hallowed ⊢
      exact ⟨Bool.and_false _, hallowed.2⟩
    rw [fetch_of_no_violation hallowed] at h
    cases h
    exact fetch_of_no_violation hrelaxed

end Frame

/-! ### Steps -/

/-- What a step owes to the level. `relax` lifts the rules, and the errors that `refuses`
holds of come from the rules. -/
structure OnlyRejects {ε σ α : Type} (relax : σ → σ) (refuses : ε → Prop) (f : EStateM ε σ α) :
    Prop where
  /-- A success is the same success where the rules are lifted. -/
  same : ∀ {s t : σ} {a : α}, f s = .ok a t → f (relax s) = .ok a (relax t)
  /-- Where the rules are lifted nothing is refused. -/
  grants : ∀ {s t : σ} {e : ε}, relax s = s → f s = .error e t → ¬ refuses e

namespace OnlyRejects

variable {ε σ α β : Type} {relax : σ → σ} {refuses : ε → Prop} {f : EStateM ε σ α}

/-- Where the rules are lifted they stay lifted. -/
theorem stays (hf : OnlyRejects relax refuses f) {s t : σ} {a : α} (hs : relax s = s)
    (h : f s = .ok a t) : relax t = t := by
  have hrelaxed := hf.same h
  rw [hs, h] at hrelaxed
  injection hrelaxed with _ hstate
  exact hstate.symm

theorem pure (a : α) : OnlyRejects relax refuses (Pure.pure a : EStateM ε σ α) where
  same h := by cases h; rfl
  grants _ h := by cases h

theorem throw {e : ε} (he : ¬ refuses e) :
    OnlyRejects relax refuses (MonadExcept.throw e : EStateM ε σ α) where
  same h := by cases h
  grants _ h := by cases h; exact he

theorem bind {g : α → EStateM ε σ β} (hf : OnlyRejects relax refuses f)
    (hg : ∀ a, OnlyRejects relax refuses (g a)) : OnlyRejects relax refuses (f >>= g) where
  same h := by
    obtain ⟨a, u, hfirst, hsecond⟩ := ok_of_bind h
    rw [bind_of_ok (hf.same hfirst)]
    exact (hg a).same hsecond
  grants {s t e} hs h := by
    cases hfirst : f s with
    | ok a u =>
      rw [bind_of_ok hfirst] at h
      exact (hg a).grants (hf.stays hs hfirst) h
    | error e' u =>
      rw [bind_of_error hfirst] at h
      cases h
      exact hf.grants hs hfirst

end OnlyRejects

/-! ### Printing -/

/-- The error comes from the rules of arguments. -/
def PrintError.Refuses (e : PrintError) : Prop := ∃ cause, e = .argument cause

namespace Print

variable {M : Type}

/-- A step of a printing call that only rejects. -/
abbrev Lenient {α : Type} (f : Step M α) : Prop :=
  OnlyRejects (Frame.atLevel .unchecked) PrintError.Refuses f

theorem fetch_lenient (type : ArgumentType) : Lenient (fetch (M := M) type) where
  same {s t a} h := by
    unfold fetch at h ⊢
    split at h
    · rename_i bits later hfetch
      cases h
      rw [Frame.fetch_unchecked hfetch]
    · cases h
  grants {s t e} hs h := by
    obtain ⟨later, hfetch, _⟩ := Frame.fetch_of_unchecked (Frame.level_of_atLevel hs) type
    unfold fetch at h
    rw [hfetch] at h
    cases h

variable [Memory M]

theorem readString_lenient (address : Nat) (layout : Layout) :
    Lenient (readString (M := M) address layout) where
  same {s t a} h := by
    unfold readString at h ⊢
    dsimp only [Frame.atLevel] at h ⊢
    generalize Memory.readString s.memory address _ = result at h ⊢
    cases result <;> cases h
    rfl
  grants {s t e} _ h := by
    unfold readString at h
    dsimp only at h
    generalize Memory.readString s.memory address _ = result at h
    cases result <;> cases h
    rintro ⟨cause, hcause⟩
    cases hcause

theorem storeCount_lenient (address count size : Nat) :
    Lenient (storeCount (M := M) address count size) where
  same {s t a} h := by
    unfold storeCount at h ⊢
    dsimp only [Frame.atLevel] at h ⊢
    generalize Memory.writeInteger s.memory address _ size = result at h ⊢
    cases result <;> cases h
    rfl
  grants {s t e} _ h := by
    unfold storeCount at h
    generalize Memory.writeInteger s.memory address _ size = result at h
    cases result <;> cases h
    rintro ⟨cause, hcause⟩
    cases hcause

theorem lenient_rules : StepRules (@Lenient M) where
  pure := .pure
  bind := .bind
  malformed _ := .throw fun ⟨_, h⟩ => nomatch h
  overflow := .throw fun ⟨_, h⟩ => nomatch h
  fetch := fetch_lenient
  readString := readString_lenient
  storeCount := storeCount_lenient

/-- A call that succeeds does the same at the unchecked level. -/
theorem format_unchecked {text output : List Byte} {frame left : Frame M}
    (h : format text frame = (.ok output, left)) :
    format text (frame.atLevel .unchecked) = (.ok output, left.atLevel .unchecked) := by
  unfold format at h ⊢
  split at h
  · rename_i output' later hrender
    cases h
    rw [Frame.note_atLevel, (lenient_rules.render text).same hrender]
    rfl
  · cases h

/-- A call at the unchecked level does not fail for an argument. -/
theorem format_unchecked_grants (text : List Byte) (frame : Frame M) (e : ArgumentError) :
    (format text (frame.atLevel .unchecked)).1 ≠ .error (.argument e) := by
  intro h
  unfold format at h
  split at h
  · cases h
  · rename_i e' later hrender
    cases h
    exact (lenient_rules.render text).grants rfl hrender ⟨e, rfl⟩

end Print

/-! ### Scanning -/

/-- The error comes from the rules of arguments. -/
def ScanError.Refuses (e : ScanError) : Prop := ∃ cause, e = .argument cause

namespace Scan

variable {S M : Type}

/-- A step of a scanning call that only rejects. -/
abbrev Lenient {α : Type} (f : Step S M α) : Prop :=
  OnlyRejects (State.atLevel .unchecked) ScanError.Refuses f

/-- Reading does not see the arguments. -/
theorem reading_lenient {α : Type} (f : Reader S → α × Reader S) :
    Lenient (reading (M := M) f) where
  same {s t a} h := by
    cases h
    show EStateM.Result.ok _ (afterReading f (s.atLevel .unchecked)) = _
    unfold afterReading State.atLevel noteRead
    dsimp only
    split <;> rfl
  grants _ h := by cases h

theorem consumed_lenient : Lenient (consumed (S := S) (M := M)) where
  same h := by cases h; rfl
  grants _ h := by cases h

theorem fetchAddress_lenient : Lenient (fetchAddress (S := S) (M := M)) where
  same {s t a} h := by
    unfold fetchAddress at h ⊢
    split at h
    · rename_i bits later hfetch
      cases h
      have hsame : (s.atLevel .unchecked).frame.fetch .pointer = _ := Frame.fetch_unchecked hfetch
      rw [hsame]
      rfl
    · cases h
  grants {s t e} hs h := by
    have hframe : s.frame.atLevel .unchecked = s.frame := congrArg State.frame hs
    have hlevel := Frame.level_of_atLevel hframe
    obtain ⟨later, hfetch, _⟩ := Frame.fetch_of_unchecked hlevel .pointer
    unfold fetchAddress at h
    rw [hfetch] at h
    cases h

theorem storing_lenient (f : M → Except MemoryError M) : Lenient (storing (S := S) f) where
  same {s t a} h := by
    unfold storing at h ⊢
    dsimp only [State.atLevel, Frame.atLevel]
    generalize f s.frame.memory = result at h ⊢
    cases result <;> cases h
    rfl
  grants {s t e} _ h := by
    unfold storing at h
    generalize f s.frame.memory = result at h
    cases result <;> cases h
    rintro ⟨cause, hcause⟩
    cases hcause

variable [ByteSource S]

theorem lenient_rules : StepRules (@Lenient S M) where
  pure := .pure
  bind := .bind
  malformed _ := .throw fun ⟨_, h⟩ => nomatch h
  reading _ := reading_lenient _
  consumed := consumed_lenient
  fetchAddress := fetchAddress_lenient
  storing := storing_lenient

variable [Memory M]

/-- A call that succeeds does the same at the unchecked level. -/
theorem scan_unchecked {source rest : S} {text : List Byte} {frame left : Frame M}
    {outcome : ScanOutcome} (h : scan source text frame = (.ok outcome, rest, left)) :
    scan source text (frame.atLevel .unchecked) = (.ok outcome, rest, left.atLevel .unchecked) := by
  unfold scan at h ⊢
  split at h
  · rename_i assigned status reader later hrun
    cases h
    have hsame : run text ⟨.start source, (frame.note (·.count .scanCalls)).atLevel .unchecked⟩ = _ :=
      (lenient_rules.run text).same hrun
    rw [Frame.note_atLevel, hsame]
    rfl
  · cases h

/-- A call at the unchecked level does not fail for an argument. -/
theorem scan_unchecked_grants (source : S) (text : List Byte) (frame : Frame M)
    (e : ArgumentError) :
    (scan source text (frame.atLevel .unchecked)).1 ≠ .error (.argument e) := by
  intro h
  unfold scan at h
  split at h
  · cases h
  · rename_i e' reader later hrun
    cases h
    exact (lenient_rules.run text).grants rfl hrun ⟨e, rfl⟩

end Scan

/-! ### Calls -/

/-- **Checking only rejects.** A printing call that succeeds on a checked list gives the
same bytes on the unchecked list and leaves the same arguments, memory and
observations; a scanning call likewise, from any source, and it leaves the same of the
source. On an unchecked list neither call ever fails for an argument. -/
theorem checking_only_rejects {S M : Type} [ByteSource S] [Memory M] (text : List Byte)
    (source : S) (frame : Frame M) :
    (∀ output left, Print.format text (frame.atLevel .checked) = (.ok output, left) →
      Print.format text (frame.atLevel .unchecked) = (.ok output, left.atLevel .unchecked)) ∧
    (∀ outcome rest left,
      Scan.scan source text (frame.atLevel .checked) = (.ok outcome, rest, left) →
      Scan.scan source text (frame.atLevel .unchecked) =
        (.ok outcome, rest, left.atLevel .unchecked)) ∧
    ∀ e, (Print.format text (frame.atLevel .unchecked)).1 ≠ .error (.argument e) ∧
      (Scan.scan source text (frame.atLevel .unchecked)).1 ≠ .error (.argument e) := by
  refine ⟨fun output left h => ?_, fun outcome rest left h => ?_, fun e =>
    ⟨Print.format_unchecked_grants text frame e, Scan.scan_unchecked_grants source text frame e⟩⟩
  · have hprint := Print.format_unchecked h
    exact hprint
  · have hscan := Scan.scan_unchecked h
    exact hscan

/-- A frame in front of the second of three arguments. -/
def wordFrame : Frame Arena :=
  ⟨⟨[.int 7, .pointer 0x10000, .pointer 0x10008], .checked, 1, false⟩,
    ((Arena.empty.allocateString (ascii "ok")).2.allocate 8).2, .initial⟩

/-- A word printed from an argument and a word scanned to it, each counted through the
next one. -/
theorem checking_only_rejects_words :
    (∃ left, Print.format (ascii "%4s%n") (wordFrame.atLevel .checked) =
        (.ok (ascii "  ok"), left) ∧
      Print.format (ascii "%4s%n") (wordFrame.atLevel .unchecked) =
        (.ok (ascii "  ok"), left.atLevel .unchecked)) ∧
    ∃ rest left, Scan.scan (TextSource.mk (ascii " yes 1")) (ascii "%4s%n")
        (wordFrame.atLevel .checked) = (.ok ⟨1, 4, .complete, none⟩, rest, left) ∧
      Scan.scan (TextSource.mk (ascii " yes 1")) (ascii "%4s%n") (wordFrame.atLevel .unchecked) =
        (.ok ⟨1, 4, .complete, none⟩, rest, left.atLevel .unchecked) := by
  have hprint : (Print.format (ascii "%4s%n") (wordFrame.atLevel .checked)).1 =
      .ok (ascii "  ok") := ok_of_toOption (by decide +kernel)
  have hscan : (Scan.scan (TextSource.mk (ascii " yes 1")) (ascii "%4s%n")
      (wordFrame.atLevel .checked)).1 = .ok ⟨1, 4, .complete, none⟩ :=
    ok_of_toOption (by decide +kernel)
  obtain ⟨hprinted, hscanned, _⟩ :=
    checking_only_rejects (ascii "%4s%n") (TextSource.mk (ascii " yes 1")) wordFrame
  exact ⟨⟨_, Prod.ext hprint rfl, hprinted _ _ (Prod.ext hprint rfl)⟩,
    _, _, Prod.ext hscan rfl, hscanned _ _ _ (Prod.ext hscan rfl)⟩

end CheckedFormat
