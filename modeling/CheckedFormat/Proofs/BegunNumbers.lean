import CheckedFormat.Proofs.FloatFields
import CheckedFormat.Proofs.NumberFields
/-! Numbers that are begun.

A reader of tokens goes on as long as its recogniser does, also through texts that are no
tokens themselves. `Recogniser.Pending` says of a text that it leads on and that no front
of it is accepted, so that a reader which has to stop behind it has no token at all. Few
texts are like that: of whole numbers a sign alone (`IntegerToken.pending_start`), and of
floating-point numbers a sign, a point and the first letters of the words
(`FloatToken.pending_start`). -/
namespace CheckedFormat

namespace Recogniser
variable {σ : Type} (l : Recogniser σ)

/-- The bytes lead on from a state, and neither they nor any front of them is accepted: a
token is begun, and there is none yet. -/
inductive Pending : σ → List Byte → Prop where
  | nil {state : σ} : l.accepts state = false → Pending state []
  | cons {state next : σ} {b : Byte} {text : List Byte} : l.accepts state = false →
      l.step state b = some next → Pending next text → Pending state (b :: text)

variable {l} {state next : σ} {b : Byte} {text : List Byte}

theorem Pending.refused (h : l.Pending state text) : l.accepts state = false := by
  cases h <;> assumption

theorem pending_cons : l.Pending state (b :: text) ↔
    l.accepts state = false ∧ ∃ next, l.step state b = some next ∧ l.Pending next text :=
  ⟨fun | .cons hrefused hstep h => ⟨hrefused, _, hstep, h⟩, fun ⟨h, _, hstep, hrest⟩ =>
    .cons h hstep hrest⟩

theorem pending_cons_of_step (hrefused : l.accepts state = false)
    (hstep : l.step state b = some next) :
    l.Pending state (b :: text) ↔ l.Pending next text := by
  rw [pending_cons, hstep]
  simp [hrefused]

theorem not_pending_of_step (hstep : l.step state b = none) : ¬ l.Pending state (b :: text) := by
  rw [pending_cons, hstep]
  simp

theorem not_pending_of_accepts (haccepts : l.accepts state = true) : ¬ l.Pending state text :=
  fun h => absurd (h.refused.symm.trans haccepts) Bool.false_ne_true

end Recogniser

namespace IntegerToken
open Recogniser

variable {base : Base} {b : Byte} {text : List Byte}

/-- A first digit is a number. -/
theorem accepts_of_first {next : State} (h : first base b = some next) : accepts next = true := by
  have hdigit {n : Nat} (h : digitIn n b = some next) : accepts next = true := by
    obtain ⟨-, hnext⟩ := Option.ite_none_right_eq_some.1 h
    cases hnext
    rfl
  cases base with
  | fixed n => exact hdigit h
  | hex | detect =>
    by_cases hzero : (b == 48) = true
    · rw [first, if_pos hzero] at h
      cases h
      rfl
    · rw [first, if_neg hzero] at h
      exact hdigit h

theorem pending_signed : (recogniser base).Pending .signed text ↔ text = [] := by
  cases text with
  | nil => exact ⟨fun _ => rfl, fun _ => .nil rfl⟩
  | cons b text =>
    refine ⟨fun h => ?_, nofun⟩
    obtain ⟨-, next, hstep, hrest⟩ := pending_cons.1 h
    exact absurd hrest (not_pending_of_accepts (accepts_of_first hstep))

/-- Of whole numbers a sign alone is begun. -/
theorem pending_start :
    (recogniser base).Pending .start text ↔ text = [] ∨ text = [43] ∨ text = [45] := by
  cases text with
  | nil => exact ⟨fun _ => .inl rfl, fun _ => .nil rfl⟩
  | cons b text =>
    by_cases hb : b.isSign = true
    · rw [pending_cons_of_step rfl (if_pos hb), pending_signed]
      rcases Byte.isSign_iff.1 hb with rfl | rfl <;> simp
    · refine ⟨fun h => ?_, fun h => ?_⟩
      · obtain ⟨-, next, hstep, hrest⟩ := pending_cons.1 h
        have hfirst : first base b = some next := (if_neg hb).symm.trans hstep
        exact absurd hrest (not_pending_of_accepts (accepts_of_first hfirst))
      · rw [Byte.isSign_iff] at hb
        simp only [reduceCtorEq, List.cons.injEq, false_or] at h
        exact absurd (h.imp And.left And.left) hb

end IntegerToken

namespace FloatToken
open Recogniser

variable {b : Byte} {text : List Byte}

/-- What a floating-point number without its sign can start with before it is one: nothing,
a point, or the first letters of a word. -/
def IsStart (text : List Byte) : Prop :=
  text = [] ∨ text = [46] ∨ text.map Byte.lower ∈ [ascii "i", ascii "in", ascii "n", ascii "na"]

/-- Behind a letter of a word. -/
theorem pending_word_cons {want : Byte} {rest : List Byte} :
    recogniser.Pending (.word (want :: rest) false) text ↔
      text = [] ∨ ∃ b behind, text = b :: behind ∧ b.lower = want ∧
        recogniser.Pending (.word rest (rest.isEmpty || rest == ascii "inity")) behind := by
  cases text with
  | nil => exact ⟨fun _ => .inl rfl, fun _ => .nil rfl⟩
  | cons b text =>
    by_cases hb : b.lower = want
    · have hstep : recogniser.step (.word (want :: rest) false) b =
          some (.word rest (rest.isEmpty || rest == ascii "inity")) := if_pos (by simpa using hb)
      rw [pending_cons_of_step rfl hstep]
      simp [hb]
    · have hstep : recogniser.step (.word (want :: rest) false) b = none :=
        if_neg (by simpa using hb)
      simp [not_pending_of_step hstep, hb]

theorem not_pending_word_end {rest : List Byte} : ¬ recogniser.Pending (.word rest true) text :=
  not_pending_of_accepts rfl

theorem pending_infinity : recogniser.Pending (.word (ascii "nfinity") false) text ↔
    text.map Byte.lower ∈ [[], ascii "n"] := by
  have hword : ascii "nfinity" = 110 :: 102 :: ascii "inity" := by decide
  have hn : ascii "n" = [110] := by decide
  rw [hword, pending_word_cons, hn]
  simp only [List.isEmpty_cons, Bool.false_or, show ((102 :: ascii "inity") == ascii "inity") = false
    by decide, pending_word_cons, BEq.rfl, Bool.or_true, not_pending_word_end]
  cases text <;> simp [and_comm]

theorem pending_nan : recogniser.Pending (.word (ascii "an") false) text ↔
    text.map Byte.lower ∈ [[], ascii "a"] := by
  have hword : ascii "an" = [97, 110] := by decide
  have ha : ascii "a" = [97] := by decide
  rw [hword, pending_word_cons, ha]
  simp only [List.isEmpty_cons, Bool.false_or, show ([110] == ascii "inity") = false by decide,
    pending_word_cons, List.isEmpty_nil, Bool.true_or, not_pending_word_end]
  cases text <;> simp [and_comm]

/-- A point needs a digit behind it. -/
theorem pending_fraction : recogniser.Pending (.fraction .decimal false) text ↔ text = [] := by
  cases text with
  | nil => exact ⟨fun _ => rfl, fun _ => .nil rfl⟩
  | cons b text =>
    refine ⟨fun h => ?_, nofun⟩
    obtain ⟨-, next, hstep, hrest⟩ := pending_cons.1 h
    by_cases hb : b.isDigitOf Radix.decimal.base = true
    · have hdigit : some (.fraction .decimal true) = some next := (if_pos hb).symm.trans hstep
      cases hdigit
      exact absurd hrest (not_pending_of_accepts rfl)
    · have hnone : none = some next := (if_neg hb).symm.trans hstep
      cases hnone

/-- A first byte that is no letter and no point is a number itself, or starts none. -/
theorem not_pending_of_other (hletter : b.lower ≠ 105 ∧ b.lower ≠ 110) (hpoint : b ≠ 46) :
    ¬ recogniser.Pending .signed (b :: text) := by
  intro h
  obtain ⟨-, next, hstep, hrest⟩ := pending_cons.1 h
  have haccepts : accepts next = true := by
    replace hstep : first b = some next := hstep
    rw [first, if_neg (by simpa using hletter.1), if_neg (by simpa using hletter.2)] at hstep
    split at hstep
    · cases hstep
      rfl
    · split at hstep
      · cases hstep
        rfl
      · rw [if_neg (by simpa using hpoint)] at hstep
        cases hstep
  exact not_pending_of_accepts haccepts hrest

theorem pending_signed : recogniser.Pending .signed text ↔ IsStart text := by
  have hi : ascii "i" = [105] := by decide
  have hin : ascii "in" = 105 :: ascii "n" := by decide
  have hn : ascii "n" = [110] := by decide
  have hna : ascii "na" = 110 :: ascii "a" := by decide
  cases text with
  | nil => exact ⟨fun _ => .inl rfl, fun _ => .nil rfl⟩
  | cons b text =>
    have hstart : IsStart (b :: text) ↔ b = 46 ∧ text = [] ∨
        b.lower = 105 ∧ text.map Byte.lower ∈ [[], ascii "n"] ∨
        b.lower = 110 ∧ text.map Byte.lower ∈ [[], ascii "a"] := by
      rw [IsStart, List.map_cons, hi, hin, hna]
      simp only [hn, reduceCtorEq, List.cons.injEq, List.mem_cons, List.not_mem_nil, or_false,
        false_or]
      tauto
    rw [hstart]
    by_cases hinfinity : b.lower = 105
    · have hstep : recogniser.step .signed b = some (.word (ascii "nfinity") false) := by
        show first b = _
        rw [first, if_pos (by simpa using hinfinity), show ascii "infinity" = 105 :: ascii "nfinity"
          by decide]
        exact if_pos (by simpa using hinfinity)
      have hpoint : b ≠ 46 := by rintro rfl; revert hinfinity; decide
      rw [pending_cons_of_step rfl hstep, pending_infinity]
      simp [hinfinity, hpoint]
    · by_cases hnan : b.lower = 110
      · have hstep : recogniser.step .signed b = some (.word (ascii "an") false) := by
          show first b = _
          rw [first, if_neg (by simpa using hinfinity), if_pos (by simpa using hnan),
            show ascii "nan" = 110 :: ascii "an" by decide]
          exact if_pos (by simpa using hnan)
        have hpoint : b ≠ 46 := by rintro rfl; revert hnan; decide
        rw [pending_cons_of_step rfl hstep, pending_nan]
        simp [hnan, hpoint]
      · by_cases hpoint : b = 46
        · subst hpoint
          rw [pending_cons_of_step rfl rfl, pending_fraction]
          simp [hinfinity, hnan]
        · simp [not_pending_of_other ⟨hinfinity, hnan⟩ hpoint, hinfinity, hnan, hpoint]

/-- Of floating-point numbers these are begun. -/
theorem pending_start : recogniser.Pending .start text ↔ Signed IsStart text := by
  cases text with
  | nil => exact ⟨fun _ => .plain (.inl rfl), fun _ => .nil rfl⟩
  | cons b text =>
    by_cases hb : b.isSign = true
    · have hplain : ¬ IsStart (b :: text) := by
        rw [← pending_signed]
        refine not_pending_of_step ?_
        rcases Byte.isSign_iff.1 hb with rfl | rfl <;> rfl
      rw [pending_cons_of_step rfl (if_pos hb), pending_signed]
      exact ⟨.signed (Byte.isSign_iff.1 hb), fun | .plain h => absurd h hplain | .signed _ h => h⟩
    · have hstep : recogniser.step .start b = recogniser.step .signed b := if_neg hb
      have hsame :
          recogniser.Pending .start (b :: text) ↔ recogniser.Pending .signed (b :: text) := by
        rw [pending_cons, pending_cons, hstep]
        rfl
      rw [hsame, pending_signed]
      exact ⟨.plain, fun | .plain h => h | .signed hsign _ => absurd (Byte.isSign_iff.2 hsign) hb⟩

end FloatToken

end CheckedFormat
