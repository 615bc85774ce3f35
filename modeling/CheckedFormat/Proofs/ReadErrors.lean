import CheckedFormat.Memory.Arena
import CheckedFormat.Proofs.BreakingStreams
import CheckedFormat.Proofs.ScanGrammar
import CheckedFormat.Proofs.ScanRuns
/-! Scans that a read error ends.

A scan stops for good at a read error. Nearly everything that the error can strike stops
the scan as an input failure: white space, literal bytes, characters, words and sets. Only
a number that was begun and is none yet, such as a sign alone, stops it as a mismatch, as
if another byte had come (`convert_mismatch_iff`). `stops_as_input_failure_iff` says of
whole calls that this is the one exception. -/
namespace CheckedFormat

/-! ### Directives -/

/-- The text begins a number of the directive, there is none in front of it yet, and the
width does not end it. -/
structure ScanSpec.Begins (spec : ScanSpec) (text : List Byte) : Prop where
  some : text ≠ []
  begun : (∃ letter ∈ Scan.numberLetters, spec.conversion = .letter letter ∧
      (text = [43] ∨ text = [45])) ∨
    ∃ letter ∈ Scan.floatLetters, spec.conversion = .letter letter ∧
      FloatToken.Signed FloatToken.IsStart text
  room : ∀ w, spec.width = Option.some w → text.length < w

namespace ScanSpec
open Scan (numberLetters floatLetters)

variable {spec : ScanSpec} {letter : Conversion} {text : List Byte}

/-- No letter is one of both kinds of numbers. -/
theorem not_mem_floatLetters (hletter : letter ∈ numberLetters) : letter ∉ floatLetters := by
  revert letter
  decide

theorem begins_iff_of_number (hletter : letter ∈ numberLetters)
    (hconversion : spec.conversion = .letter letter) :
    spec.Begins text ↔ text ≠ [] ∧
      (IntegerToken.recogniser (Scan.baseOf letter)).Pending .start text ∧
      ∀ w, spec.width = some w → text.length < w := by
  rw [IntegerToken.pending_start]
  constructor
  · rintro ⟨hsome, ⟨-, -, -, hsign⟩ | ⟨letter', hletter', hconversion', -⟩, hroom⟩
    · exact ⟨hsome, .inr hsign, hroom⟩
    · obtain rfl := ScanConversion.letter.inj (hconversion.symm.trans hconversion')
      exact absurd hletter' (not_mem_floatLetters hletter)
  · rintro ⟨hsome, hsign, hroom⟩
    exact ⟨hsome, .inl ⟨letter, hletter, hconversion, hsign.resolve_left hsome⟩, hroom⟩

theorem begins_iff_of_float (hletter : letter ∈ floatLetters)
    (hconversion : spec.conversion = .letter letter) :
    spec.Begins text ↔ text ≠ [] ∧ FloatToken.recogniser.Pending .start text ∧
      ∀ w, spec.width = some w → text.length < w := by
  rw [FloatToken.pending_start]
  constructor
  · rintro ⟨hsome, ⟨letter', hletter', hconversion', -⟩ | ⟨-, -, -, hstart⟩, hroom⟩
    · obtain rfl := ScanConversion.letter.inj (hconversion.symm.trans hconversion')
      exact absurd hletter (not_mem_floatLetters hletter')
    · exact ⟨hsome, hstart, hroom⟩
  · rintro ⟨hsome, hstart, hroom⟩
    exact ⟨hsome, .inr ⟨letter, hletter, hconversion, hstart⟩, hroom⟩

/-- Only numbers are begun. -/
theorem exists_letter_of_begins (h : spec.Begins text) :
    ∃ letter, spec.conversion = .letter letter ∧
      (letter ∈ numberLetters ∨ letter ∈ floatLetters) := by
  obtain ⟨-, ⟨letter, hletter, hconversion, -⟩ | ⟨letter, hletter, hconversion, -⟩, -⟩ := h
  · exact ⟨letter, hconversion, .inl hletter⟩
  · exact ⟨letter, hconversion, .inr hletter⟩

end ScanSpec

namespace Scan

/-- A width that is left out of a format is none, so no directive has the width zero. -/
theorem width_ne_zero {format : List Byte} {segments : List ScanSegment} {spec : ScanSpec}
    (hparse : ScanFormat.parse format = .ok segments) (hmem : .directive spec ∈ segments) :
    spec.width ≠ some 0 := by
  have htiles := ScanGrammar.reads.ok_iff.1 hparse
  have hwidth (o : ScanOpening) : o.width ≠ some 0 := by
    intro h
    simp [ScanOpening.width, Option.filter_eq_some_iff] at h
  clear hparse
  induction htiles with
  | nil => cases hmem
  | run source _ ih =>
    rcases List.mem_cons.1 hmem with rfl | hmem
    · cases source
    · exact ih hmem
  | directive source _ ih =>
    rcases List.mem_cons.1 hmem with rfl | hmem
    · cases source with
      | letter o _ => exact hwidth o
      | set o _ _ _ => exact hwidth o
    · exact ih hmem

section Mismatches
variable {S M : Type} [ByteSource S]

/-- Where the step stops for a mismatch, no read error was met. -/
def MeetsMismatch (f : Step S M Progress) : Prop :=
  ∀ s t, f s = .ok (.stopped .matchingFailure) t → t.reader.failure = none

omit [ByteSource S] in
theorem Avoids.meetsMismatch {f : Step S M Progress} (h : Avoids .matchingFailure f) :
    MeetsMismatch f := fun s t hstep => absurd hstep (h s t)

theorem Avoids.afterSpace {f : Step S M Progress} (h : Avoids .matchingFailure f) :
    Avoids .matchingFailure (afterSpace f) := by
  refine .bind _ fun found => ?_
  cases found with
  | true => exact h
  | false => exact .pure nofun

/-- Literal bytes stop a scan where another byte stands. -/
theorem meetsMismatch_expect (bytes : List Byte) :
    MeetsMismatch (M := M) (do return ofMatch (← reading (S := S) (Reader.expect bytes))) := by
  intro s t hstep
  rw [bind_reading] at hstep
  cases hmatch : Reader.expect bytes s.reader with
  | mk found u =>
    rw [hmatch] at hstep
    cases found <;> cases hstep
    show (Reader.expect bytes s.reader).2.failure = none
    rw [hmatch]
    exact Reader.failure_of_expect hmatch

theorem MeetsMismatch.afterSpace {f : Step S M Progress} (h : MeetsMismatch f) :
    MeetsMismatch (Scan.afterSpace f) := by
  intro s t hstep
  unfold Scan.afterSpace at hstep
  rw [bind_reading] at hstep
  split at hstep
  · exact h _ _ hstep
  · cases hstep

variable [Memory M]

theorem meetsMismatch_set {spec : ScanSpec} (hwidth : spec.width ≠ some 0) (members : ByteSet) :
    MeetsMismatch (S := S) (M := M) (convertSet spec members) := by
  intro s t hstep
  unfold convertSet at hstep
  rw [bind_reading] at hstep
  split at hstep
  · rename_i hempty
    cases hends : (s.reader.takeWhile members.contains spec.width).1.atEnd with
    | true => rw [hends] at hstep; cases hstep
    | false =>
      rw [hends] at hstep
      cases hstep
      exact Reader.failure_of_takeWhile hwidth (List.isEmpty_iff.1 hempty) hends
  · exact absurd hstep (Avoids.storeText _ _ _ _ _)

theorem avoids_convertCharacters (spec : ScanSpec) :
    Avoids (S := S) (M := M) .matchingFailure (convertCharacters spec) := by
  refine .bind _ fun run => ?_
  cases run.bytes.isEmpty with
  | true => exact .pure nofun
  | false => exact .storeText _ _ _

/-- A directive that is no number's stops for a mismatch only where another byte stands. -/
theorem meetsMismatch_of_other {spec : ScanSpec} (hwidth : spec.width ≠ some 0)
    (hother : ∀ letter, spec.conversion = .letter letter →
      letter ∉ numberLetters ∧ letter ∉ floatLetters) :
    MeetsMismatch (S := S) (M := M) (convert spec) := by
  obtain ⟨suppress, width, length, conversion⟩ := spec
  cases conversion with
  | set members => exact meetsMismatch_set hwidth members
  | letter letter =>
    obtain ⟨hnumber, hfloat⟩ := hother letter rfl
    cases letter with
    | n => exact (Avoids.convertCount _).meetsMismatch
    | c => exact (avoids_convertCharacters _).meetsMismatch
    | s => exact (Avoids.afterSpace (.bind _ fun _ => .storeText _ _ _)).meetsMismatch
    | d | i | u | o | x | X | p => exact absurd (by decide) hnumber
    | f | F | e | E | g | G | a | A => exact absurd (by decide) hfloat

end Mismatches

section Streams
variable {T M : Type} [Transport T] {s : State (Stream T) M}

/-- A directive that reads a token behind white space takes a failure for a mismatch just
where it strikes a token that is begun. -/
theorem token_mismatch_iff {σ : Type} (l : Recogniser σ) (width : Option Nat)
    {take : List Byte → Step (Stream T) M Progress}
    (htake : ∀ token, Avoids .matchingFailure (take token)) :
    (∃ t e, afterSpace (do
        match ← reading (Reader.token l width) with
        | none => return .stopped .matchingFailure
        | some token => take token) s = .ok (.stopped .matchingFailure) t ∧
        t.reader.failure = some e) ↔
      ∃ ahead failure, s.reader.BreaksAfter ahead failure ∧ ahead.dropWhile Byte.isSpace ≠ [] ∧
        l.Pending l.start (ahead.dropWhile Byte.isSpace) ∧
        ∀ w, width = some w → (ahead.dropWhile Byte.isSpace).length < w := by
  unfold afterSpace
  rw [bind_reading]
  cases hspace : s.reader.skipSpace with
  | mk found u =>
    have hreader : (afterReading Reader.skipSpace s).reader = u := congrArg Prod.snd hspace
    constructor
    · rintro ⟨t, e, hstep, hfailure⟩
      cases found with
      | false => cases hstep
      | true =>
        rw [if_pos rfl, bind_reading, hreader] at hstep
        obtain ⟨hnone, hserves, hbehind⟩ := Reader.breaksAfter_of_skipSpace hspace
        cases htoken : u.token l width with
        | mk token v =>
          rw [htoken] at hstep
          cases token with
          | some token => exact absurd hstep (htake token _ _)
          | none =>
            cases hstep
            have hfailure' : (u.token l width).2.failure = some e := by
              rw [← hreader]
              exact hfailure
            rw [htoken] at hfailure'
            obtain ⟨text, failure, hbreaks, hpending, hroom⟩ :=
              Reader.pending_of_tokenFrom hserves hnone htoken hfailure'
            obtain ⟨hsome, ahead, hahead, rfl⟩ := hbehind hbreaks
            exact ⟨ahead, failure, hahead, hsome, hpending, hroom⟩
    · rintro ⟨ahead, failure, hbreaks, hsome, hpending, hroom⟩
      obtain ⟨u', hspace', hbehind⟩ := Reader.skipSpace_of_breaksAfter hbreaks hsome
      rw [hspace] at hspace'
      cases hspace'
      obtain ⟨v, htoken, hfailure⟩ := Reader.tokenFrom_of_pending hbehind hpending hroom
      rw [if_pos rfl, bind_reading, hreader, Reader.token, htoken]
      refine ⟨_, .transport failure, rfl, ?_⟩
      show (Reader.token l width (afterReading Reader.skipSpace s).reader).2.failure = _
      rw [hreader, Reader.token, htoken]
      exact hfailure

variable [Memory M]

/-- A directive takes a failure for a mismatch just where it strikes a number that is
begun. -/
theorem convert_mismatch_iff {spec : ScanSpec} (hwidth : spec.width ≠ some 0) :
    (∃ t e, convert spec s = .ok (.stopped .matchingFailure) t ∧ t.reader.failure = some e) ↔
      ∃ ahead failure, s.reader.BreaksAfter ahead failure ∧
        spec.Begins (ahead.dropWhile Byte.isSpace) := by
  by_cases hnumber : ∃ letter ∈ numberLetters, spec.conversion = .letter letter
  · obtain ⟨letter, hletter, hconversion⟩ := hnumber
    simp only [ScanSpec.begins_iff_of_number hletter hconversion]
    rw [convert_number hletter hconversion]
    exact token_mismatch_iff _ _ fun token => .storeNumber _ _
  · by_cases hfloat : ∃ letter ∈ floatLetters, spec.conversion = .letter letter
    · obtain ⟨letter, hletter, hconversion⟩ := hfloat
      simp only [ScanSpec.begins_iff_of_float hletter hconversion]
      rw [convert_float hletter hconversion]
      exact token_mismatch_iff _ _ fun token => .storeNumber _ _
    · constructor
      · rintro ⟨t, e, hstep, hfailure⟩
        have hseen := meetsMismatch_of_other (S := Stream T) (M := M) hwidth
          fun letter hletter => ⟨fun h => hnumber ⟨letter, h, hletter⟩,
            fun h => hfloat ⟨letter, h, hletter⟩⟩
        exact absurd ((hseen s t hstep).symm.trans hfailure) nofun
      · rintro ⟨ahead, failure, -, hbegins⟩
        obtain ⟨letter, hconversion, h | h⟩ := ScanSpec.exists_letter_of_begins hbegins
        · exact absurd ⟨letter, h, hconversion⟩ hnumber
        · exact absurd ⟨letter, h, hconversion⟩ hfloat

/-- What is no directive stops for a mismatch only where another byte stands. -/
theorem meetsMismatch_of_no_directive {S : Type} [ByteSource S] {segment : ScanSegment}
    (h : ∀ spec, segment ≠ .directive spec) :
    MeetsMismatch (S := S) (M := M) (matchSegment segment) := by
  cases segment with
  | space =>
    have havoids : Avoids .matchingFailure (matchSegment (S := S) (M := M) .space) :=
      .bind _ fun _ => .pure nofun
    exact havoids.meetsMismatch
  | literal bytes => exact meetsMismatch_expect bytes
  | percent => exact (meetsMismatch_expect _).afterSpace
  | directive spec => exact absurd rfl (h spec)

/-! ### Calls -/

/-- A call comes to a number, and what the stream delivers before it breaks is white space
and the beginning of a number that is none yet. -/
def CutsNumber (s : Stream T) (format : List Byte) (frame : Frame M) : Prop :=
  ∃ spec met ahead failure, Reaches s format frame (.directive spec) met ∧
    met.reader.BreaksAfter ahead failure ∧ spec.Begins (ahead.dropWhile Byte.isSpace)

/-- A call that a read error ends before its format is complete ends as an input failure,
and gives minus one when nothing was assigned, with one exception: where the error comes
behind the beginning of a number, it is taken for a mismatch. -/
theorem stops_as_input_failure_iff {s : Stream T} {format : List Byte} {frame : Frame M}
    {outcome : ScanOutcome} {e : StreamError} (hscan : (scan s format frame).1 = .ok outcome)
    (hfailure : outcome.failure = some e) (hstatus : outcome.status ≠ .complete) :
    (outcome.status = .inputFailure ↔ ¬ CutsNumber s format frame) ∧
      (outcome.assigned = 0 → (outcome.value = -1 ↔ ¬ CutsNumber s format frame)) := by
  have hiff : outcome.status = .inputFailure ↔ ¬ CutsNumber s format frame := by
    unfold scan at hscan
    cases hrun : run format ⟨.start s, frame.note (·.count .scanCalls)⟩ with
    | error e t =>
      rw [hrun] at hscan
      cases hscan
    | ok result t =>
      obtain ⟨assigned, status⟩ := result
      rw [hrun] at hscan
      cases hscan
      constructor
      · rintro rfl ⟨spec, met, ahead, failure, hreached, hbreaks, hbegins⟩
        obtain ⟨front, behind, -, hparse, -⟩ := id hreached
        obtain ⟨u, -, hstep, -⟩ := (convert_mismatch_iff (width_ne_zero hparse (by simp))).2
          ⟨ahead, failure, hbreaks, hbegins⟩
        obtain ⟨assigned', hrun'⟩ := run_of_reached hreached hstep
        rw [hrun] at hrun'
        cases hrun'
      · intro hcuts
        cases status with
        | complete => exact absurd rfl hstatus
        | inputFailure => rfl
        | matchingFailure =>
          obtain ⟨segment, met, hreached, hstops⟩ := exists_reached_of_stop hrun hstatus
          by_cases hdirective : ∃ spec, segment = .directive spec
          · obtain ⟨spec, rfl⟩ := hdirective
            obtain ⟨front, behind, -, hparse, -⟩ := id hreached
            obtain ⟨ahead, failure, hcut⟩ :=
              (convert_mismatch_iff (width_ne_zero hparse (by simp))).1 ⟨t, e, hstops, hfailure⟩
            exact absurd ⟨spec, met, ahead, failure, hreached, hcut⟩ hcuts
          · have hseen :=
              meetsMismatch_of_no_directive (fun spec h => hdirective ⟨spec, h⟩) _ _ hstops
            exact absurd (hseen.symm.trans hfailure) nofun
  refine ⟨hiff, fun hassigned => ?_⟩
  rw [← hiff, ScanOutcome.value, hassigned]
  cases outcome.status <;> simp [intMax]

end Streams

/-- A file that is read once, and then fails. -/
def brokenFile (text : String) : ScriptedFile :=
  ⟨ascii text, 0, ⟨none, none, some 1, none, false, false, false, ⟨.named "BrokenPipe", none⟩⟩, 0, 0⟩

/-- The number before the error is not stored, and white space is behind it. -/
theorem stops_as_input_failure_behind_space :
    let s := Stream.wrap (brokenFile "7 ") .readOnly
    let frame : Frame Arena :=
      ⟨.start .checked [.pointer 0x10000], (Arena.empty.allocate 4).2, .initial⟩
    let e : StreamError := .transport ⟨.named "BrokenPipe", none⟩
    (scan s (ascii "%*d%d") frame).1 = .ok ⟨0, 2, .inputFailure, some e⟩ ∧
      ¬ CutsNumber s (ascii "%*d%d") frame := by
  intro s frame e
  have hscan : (scan s (ascii "%*d%d") frame).1 = .ok ⟨0, 2, .inputFailure, some e⟩ :=
    ok_of_toOption (by decide +kernel)
  exact ⟨hscan, (stops_as_input_failure_iff hscan rfl nofun).1.1 rfl⟩

/-- A minus, and then the error: the call gives zero, as for a letter in its place. -/
theorem sign_before_error_is_mismatch :
    let file := brokenFile "-"
    let s := Stream.wrap file .readOnly
    let frame : Frame Arena :=
      ⟨.start .checked [.pointer 0x10000], (Arena.empty.allocate 4).2, .initial⟩
    let failure : TransportFailure := ⟨.named "BrokenPipe", none⟩
    Transport.Breaks file (ascii "-") failure ∧ s.closed = false ∧ s.flags.readable = true ∧
      ∃ outcome, (scan s (ascii "%d") frame).1 = .ok outcome ∧
        outcome.failure = some (.transport failure) ∧ outcome.assigned = 0 ∧
        outcome.status = .matchingFailure ∧ outcome.value = 0 := by
  intro file s frame failure
  have hbreaks : Transport.Breaks file (ascii "-" ++ []) failure :=
    .chunk rfl (by decide) (.fails rfl)
  exact ⟨hbreaks, rfl, rfl, ⟨0, 0, .matchingFailure, some (.transport failure)⟩,
    ok_of_toOption (by decide +kernel), rfl, rfl, rfl, rfl⟩

end Scan
end CheckedFormat
