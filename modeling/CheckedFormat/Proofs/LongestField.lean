import CheckedFormat.Proofs.Reading
import CheckedFormat.Proofs.Steps
import Mathlib.Data.List.Induction
import Mathlib.Data.List.TakeWhile
/-! Fields that take the longest text of a language.

Of a text, and of no more of it than a width lets in, a reader takes the longest front
that its recogniser accepts, and where none is accepted it takes nothing
(`TextReading.longest_spec`). So a directive that skips white space and reads a token
takes the longest text of the recogniser's language, from wherever it stands and whatever
the source (`Scan.takesLongest_of_recogniser`); what is left to say of a kind of field is
which texts its recogniser accepts, what they mean, and how the directive ends with one. -/
namespace CheckedFormat

/-! ### The longest front -/

/-- The longest front of a text that belongs to a language. -/
structure IsLongest (Belongs : List Byte → Prop) (text front : List Byte) : Prop where
  isFront : front <+: text
  belongs : Belongs front
  longest : ∀ other, other <+: text → Belongs other → other.length ≤ front.length

theorem IsLongest.unique {Belongs : List Byte → Prop} {text front other : List Byte}
    (h : IsLongest Belongs text front) (h' : IsLongest Belongs text other) : front = other := by
  have hlength : front.length = other.length :=
    Nat.le_antisymm (h'.longest _ h.isFront h.belongs) (h.longest _ h'.isFront h'.belongs)
  rw [List.prefix_iff_eq_take.1 h.isFront, List.prefix_iff_eq_take.1 h'.isFront, hlength]

theorem IsLongest.congr {Belongs Belongs' : List Byte → Prop} {text front : List Byte}
    (h : IsLongest Belongs text front) (hsame : ∀ other, Belongs other ↔ Belongs' other) :
    IsLongest Belongs' text front :=
  ⟨h.isFront, (hsame front).1 h.belongs, fun other hother hbelongs =>
    h.longest other hother ((hsame other).2 hbelongs)⟩

/-- Where some front belongs to the language there is a longest one. -/
theorem exists_isLongest_or (Belongs : List Byte → Prop) (text : List Byte) :
    (∃ front, IsLongest Belongs text front) ∨ ∀ front, front <+: text → ¬ Belongs front := by
  induction text using List.reverseRecOn with
  | nil =>
    by_cases h : Belongs []
    · refine .inl ⟨[], List.prefix_refl [], h, fun other hother _ => ?_⟩
      rw [List.prefix_nil.1 hother]
    · refine .inr fun front hfront hbelongs => ?_
      exact h (List.prefix_nil.1 hfront ▸ hbelongs)
  | append_singleton text b ih =>
    by_cases h : Belongs (text ++ [b])
    · exact .inl ⟨_, List.prefix_refl _, h, fun other hother _ => hother.length_le⟩
    · -- The whole text does not belong, so only the fronts without the last byte are left.
      have hshorter : ∀ front, front <+: text ++ [b] → Belongs front → front <+: text :=
        fun front hfront hbelongs => (List.prefix_concat_iff.1 hfront).resolve_left
          fun hwhole => h (hwhole ▸ hbelongs)
      rcases ih with ⟨front, hfront⟩ | hnone
      · exact .inl ⟨front, hfront.isFront.trans (List.prefix_append _ _), hfront.belongs,
          fun other hother hbelongs =>
            hfront.longest other (hshorter other hother hbelongs) hbelongs⟩
      · exact .inr fun front hfront hbelongs =>
          hnone front (hshorter front hfront hbelongs) hbelongs

/-- As much of a text as a width lets in; without a width all of it. -/
def within (width : Option Nat) (text : List Byte) : List Byte := (width.map text.take).getD text

theorem isFront_within (width : Option Nat) (text : List Byte) : within width text <+: text := by
  cases width with
  | none => exact List.prefix_refl text
  | some n => exact List.take_prefix n text

/-- A front within the width is what its length takes of the text. -/
theorem IsLongest.take_length {Belongs : List Byte → Prop} {width : Option Nat}
    {text front : List Byte} (h : IsLongest Belongs (within width text) front) :
    text.take front.length = front :=
  (List.prefix_iff_eq_take.1 (h.isFront.trans (isFront_within width text))).symm

theorem within_zero (text : List Byte) : within (some 0) text = [] := rfl

theorem within_nil (width : Option Nat) : within width [] = [] := by
  cases width <;> simp [within]

theorem within_cons {width : Option Nat} (hwidth : width ≠ some 0) (b : Byte) (text : List Byte) :
    within width (b :: text) = b :: within (Reader.lessOne width) text := by
  match width with
  | none => rfl
  | some 0 => exact absurd rfl hwidth
  | some (n + 1) => rfl

/-! ### Recognised texts -/

namespace Recogniser
variable {σ : Type} (l : Recogniser σ)

/-- From a state the bytes lead to one that accepts. -/
def Accepts (state : σ) (text : List Byte) : Prop :=
  ∃ final, l.run state text = some final ∧ l.accepts final = true

variable {l} {state next : σ} {b : Byte} {text : List Byte}

theorem accepts_nil : l.Accepts state [] ↔ l.accepts state = true := by
  simp [Accepts, run]

theorem accepts_cons :
    l.Accepts state (b :: text) ↔ ∃ next, l.step state b = some next ∧ l.Accepts next text := by
  simp only [Accepts, run, Option.bind_eq_some_iff]
  constructor
  · rintro ⟨final, ⟨next, hstep, hrun⟩, haccepts⟩
    exact ⟨next, hstep, final, hrun, haccepts⟩
  · rintro ⟨next, hstep, final, hrun, haccepts⟩
    exact ⟨final, ⟨next, hstep, hrun⟩, haccepts⟩

theorem accepts_cons_of_step (h : l.step state b = some next) :
    l.Accepts state (b :: text) ↔ l.Accepts next text := by
  rw [accepts_cons, h]
  simp only [Option.some.injEq, exists_eq_left']

/-- States that a byte leads on from alike accept the same texts that start with it. -/
theorem accepts_cons_congr {other : σ} (h : l.step state b = l.step other b) :
    l.Accepts state (b :: text) ↔ l.Accepts other (b :: text) := by
  rw [accepts_cons, accepts_cons, h]

theorem not_accepts_of_step (h : l.step state b = none) : ¬ l.Accepts state (b :: text) := by
  rw [accepts_cons, h]
  exact nofun

end Recogniser

namespace TextReading

/-- What a search for the longest front of a text has found. -/
def Finds (Belongs : List Byte → Prop) (text : List Byte) : Option (List Byte) → Prop
  | some front => IsLongest Belongs text front
  | none => ∀ front, front <+: text → ¬ Belongs front

section Finds
variable {σ : Type} {l : Recogniser σ} {state next : σ} {text : List Byte} {b : Byte}

/-- Where no longer front is accepted, only the empty one is left. -/
theorem finds_here (h : ∀ front, front <+: text → l.Accepts state front → front = []) :
    Finds (l.Accepts state) text (l.here state) := by
  unfold Recogniser.here
  split
  · rename_i haccepts
    refine ⟨List.nil_prefix, Recogniser.accepts_nil.2 haccepts, fun other hother hbelongs => ?_⟩
    exact Nat.le_of_eq (congrArg List.length (h other hother hbelongs))
  · rename_i hrefuses
    intro front hfront hbelongs
    rw [h front hfront hbelongs, Recogniser.accepts_nil] at hbelongs
    exact hrefuses hbelongs

/-- A front that is accepted behind one more byte is longer by that byte. -/
theorem finds_step (hstep : l.step state b = some next) :
    ∀ {found : Option (List Byte)}, Finds (l.Accepts next) text found →
      Finds (l.Accepts state) (b :: text)
        (match found with
          | some token => some (b :: token)
          | none => l.here state) := by
  have hbehind : ∀ c front, c :: front <+: b :: text → l.Accepts state (c :: front) →
      front <+: text ∧ l.Accepts next front := by
    intro c front hfront hbelongs
    obtain ⟨rfl, hbehind⟩ := List.cons_prefix_cons.1 hfront
    obtain ⟨next', hnext, hbelongs⟩ := Recogniser.accepts_cons.1 hbelongs
    obtain rfl := Option.some.inj (hstep.symm.trans hnext)
    exact ⟨hbehind, hbelongs⟩
  intro found h
  cases found with
  | some token =>
    refine ⟨List.cons_prefix_cons.2 ⟨rfl, h.isFront⟩,
      Recogniser.accepts_cons.2 ⟨next, hstep, h.belongs⟩, fun other hother hbelongs => ?_⟩
    cases other with
    | nil => exact Nat.zero_le _
    | cons c front =>
      obtain ⟨hfront, hbelongs⟩ := hbehind c front hother hbelongs
      exact Nat.succ_le_succ (h.longest front hfront hbelongs)
  | none =>
    refine finds_here fun front hfront hbelongs => ?_
    cases front with
    | nil => rfl
    | cons c front =>
      obtain ⟨hfront, hbelongs⟩ := hbehind c front hfront hbelongs
      exact absurd hbelongs (h front hfront)

end Finds

/-- A reader's longest token is the longest front within the width that is accepted. -/
theorem longest_spec {σ : Type} (l : Recogniser σ) (state : σ) (width : Option Nat)
    (text : List Byte) :
    Finds (l.Accepts state) (within width text) (longest l state width text) := by
  have hnothing {state : σ} {text : List Byte} (htext : text = []) :
      Finds (l.Accepts state) text (l.here state) :=
    finds_here fun front hfront _ => List.prefix_nil.1 (htext ▸ hfront)
  induction text generalizing state width with
  | nil =>
    rw [longest]
    exact hnothing (within_nil width)
  | cons b text ih =>
    by_cases hwidth : width = some 0
    · rw [longest, if_pos hwidth, hwidth]
      exact hnothing (within_zero _)
    · rw [longest, if_neg hwidth, within_cons hwidth]
      cases hstep : l.step state b with
      | none =>
        refine finds_here fun front hfront hbelongs => ?_
        cases front with
        | nil => rfl
        | cons c front =>
          obtain ⟨rfl, -⟩ := List.cons_prefix_cons.1 hfront
          exact absurd hbelongs (Recogniser.not_accepts_of_step hstep)
      | some next => exact finds_step hstep (ih next (Reader.lessOne width))

end TextReading

/-! ### Readers -/

namespace Reader
variable {S : Type} [ByteSource S] {V : SourceView S} {σ : Type} {l : Recogniser σ}
  {width : Option Nat} {r : Reader S} {behind ahead token : List Byte}

/-- The longest front that is accepted is taken, and everything behind it is unread. -/
theorem At.token_of_isLongest (h : r.At V behind ahead)
    (hlongest : IsLongest (l.Accepts l.start) (within width ahead) token) :
    (r.token l width).1 = some token ∧
      (r.token l width).2.At V (token.reverse ++ behind) (ahead.drop token.length) := by
  have hspec := TextReading.longest_spec l l.start width ahead
  obtain ⟨hresult, hplace⟩ := token_computes l width h
  cases hfound : TextReading.longest l l.start width ahead with
  | none =>
    rw [hfound] at hspec
    exact absurd hlongest.belongs (hspec token hlongest.isFront)
  | some found =>
    rw [hfound] at hspec
    obtain rfl := IsLongest.unique hspec hlongest
    simp only [TextReading.token, hfound, Option.getD_some, hlongest.take_length] at hresult hplace
    exact ⟨hresult, hplace⟩

/-- Where no front is accepted all that was looked at is unread again. -/
theorem At.token_of_none (h : r.At V behind ahead)
    (hnone : ∀ front, front <+: within width ahead → ¬ l.Accepts l.start front) :
    (r.token l width).1 = none ∧ (r.token l width).2.At V behind ahead := by
  have hspec := TextReading.longest_spec l l.start width ahead
  obtain ⟨hresult, hplace⟩ := token_computes l width h
  cases hfound : TextReading.longest l l.start width ahead with
  | none =>
    simp only [TextReading.token, hfound, Option.getD_none] at hresult hplace
    exact ⟨hresult, hplace⟩
  | some found =>
    rw [hfound] at hspec
    exact absurd hspec.belongs (hnone found hspec.isFront)

/-- White space is skipped up to what stands behind it. -/
theorem At.skipSpace (h : r.At V behind ahead) :
    r.skipSpace.1 = !(ahead.dropWhile Byte.isSpace).isEmpty ∧
      r.skipSpace.2.At V ((ahead.takeWhile Byte.isSpace).reverse ++ behind)
        (ahead.dropWhile Byte.isSpace) := by
  obtain ⟨hresult, hplace⟩ := skipSpace_computes h
  have hsplit := List.takeWhile_append_dropWhile (p := Byte.isSpace) (l := ahead)
  have htake : ahead.take (ahead.takeWhile Byte.isSpace).length = ahead.takeWhile Byte.isSpace :=
    (List.prefix_iff_eq_take.1 (List.takeWhile_prefix _)).symm
  have hdrop : ahead.drop (ahead.takeWhile Byte.isSpace).length = ahead.dropWhile Byte.isSpace :=
    (congrArg (List.drop _) hsplit).symm.trans List.drop_left
  refine ⟨hresult.trans ?_, ?_⟩
  · rw [Bool.eq_iff_iff]
    simp [TextReading.skipSpace, List.dropWhile_eq_nil_iff]
  · rw [TextReading.skipSpace, htake, hdrop] at hplace
    exact hplace

end Reader

/-! ### Directives -/

namespace Scan
variable {S M : Type} [ByteSource S] {α : Type}

/-- How a directive ends that has found a value, from the state behind the reading. -/
abbrev Ending (S M α : Type) :=
  α → State S M → EStateM.Result ScanError (State S M) Progress → Prop

/-- The directive takes the longest text of a language that stands behind white space, as
much of it as the width lets in, and ends as it does with what the text denotes. Where the
input ends behind the white space, or no front belongs to the language, it stops there,
having consumed the white space alone. One of the three is always the case
(`exists_isLongest_or`). Reading leaves the frame as it is. -/
structure TakesLongest (V : SourceView S) (Denotes : List Byte → α → Prop) (width : Option Nat)
    (directive : Step S M Progress) (Ends : Ending S M α) : Prop where
  atEnd : ∀ {s : State S M} {behind ahead : List Byte}, s.reader.At V behind ahead →
    ahead.dropWhile Byte.isSpace = [] →
    ∃ t, directive s = .ok (.stopped .inputFailure) t ∧ t.frame = s.frame ∧
      t.reader.At V ((ahead.takeWhile Byte.isSpace).reverse ++ behind) []
  mismatch : ∀ {s : State S M} {behind ahead : List Byte}, s.reader.At V behind ahead →
    ahead.dropWhile Byte.isSpace ≠ [] →
    (∀ front value, front <+: within width (ahead.dropWhile Byte.isSpace) → ¬ Denotes front value) →
    ∃ t, directive s = .ok (.stopped .matchingFailure) t ∧ t.frame = s.frame ∧
      t.reader.At V ((ahead.takeWhile Byte.isSpace).reverse ++ behind)
        (ahead.dropWhile Byte.isSpace)
  taken : ∀ {s : State S M} {behind ahead token : List Byte} {value : α},
    s.reader.At V behind ahead →
    IsLongest (fun front => ∃ value, Denotes front value)
      (within width (ahead.dropWhile Byte.isSpace)) token → Denotes token value →
    ∃ t, Ends value t (directive s) ∧ t.frame = s.frame ∧
      t.reader.At V (token.reverse ++ ((ahead.takeWhile Byte.isSpace).reverse ++ behind))
        ((ahead.dropWhile Byte.isSpace).drop token.length)

variable {V : SourceView S} {σ : Type}

theorem frame_afterReading {β : Type} {f : Reader S → β × Reader S} {s : State S M}
    {behind ahead : List Byte} (h : (f s.reader).2.At V behind ahead) :
    (afterReading f s).frame = s.frame :=
  noteRead_of_no_failure s.frame h.failure

/-- Behind the white space either the input ends, or the directive goes on. -/
theorem afterSpace_cases {s : State S M} {behind ahead : List Byte} (h : s.reader.At V behind ahead)
    (directive : Step S M Progress) :
    ∃ t : State S M, t.frame = s.frame ∧
      t.reader.At V ((ahead.takeWhile Byte.isSpace).reverse ++ behind)
        (ahead.dropWhile Byte.isSpace) ∧
      afterSpace directive s =
        if ahead.dropWhile Byte.isSpace = [] then .ok (.stopped .inputFailure) t
        else directive t := by
  obtain ⟨hresult, hplace⟩ := h.skipSpace
  refine ⟨afterReading Reader.skipSpace s, frame_afterReading hplace, hplace, ?_⟩
  unfold afterSpace
  rw [bind_reading, hresult]
  cases ahead.dropWhile Byte.isSpace <;> rfl

/-- A directive that reads a token behind white space takes the longest text that its
recogniser accepts. -/
theorem takesLongest_of_recogniser (l : Recogniser σ) (width : Option Nat)
    {Denotes : List Byte → α → Prop} {take : List Byte → Step S M Progress}
    {Ends : Ending S M α}
    (hlanguage : ∀ text, l.Accepts l.start text ↔ ∃ value, Denotes text value)
    (hempty : ∀ value, ¬ Denotes [] value)
    (hends : ∀ token value t, Denotes token value → Ends value t (take token t)) :
    TakesLongest V Denotes width
      (afterSpace do
        match ← reading (Reader.token l width) with
        | none => return .stopped .matchingFailure
        | some token => take token) Ends := by
  refine ⟨fun {s behind ahead} h hend => ?_, fun {s behind ahead} h hsome hnone => ?_,
    fun {s behind ahead token value} h hlongest hdenotes => ?_⟩
  · obtain ⟨t, hframe, hplace, hrun⟩ := afterSpace_cases h _
    exact ⟨t, hrun.trans (if_pos hend), hframe, hend ▸ hplace⟩
  · obtain ⟨t, hframe, hplace, hrun⟩ := afterSpace_cases h _
    have hrefused : ∀ front, front <+: within width (ahead.dropWhile Byte.isSpace) →
        ¬ l.Accepts l.start front := by
      intro front hfront haccepts
      obtain ⟨value, hvalue⟩ := (hlanguage front).1 haccepts
      exact hnone front value hfront hvalue
    obtain ⟨hresult, hback⟩ := hplace.token_of_none hrefused
    refine ⟨_, hrun.trans ?_, (frame_afterReading hback).trans hframe, hback⟩
    rw [if_neg hsome, bind_reading, hresult]
    rfl
  · obtain ⟨t, hframe, hplace, hrun⟩ := afterSpace_cases h _
    have hsome : ahead.dropWhile Byte.isSpace ≠ [] := by
      intro hnil
      have hfront := hlongest.isFront
      rw [hnil, within_nil, List.prefix_nil] at hfront
      exact hempty value (hfront ▸ hdenotes)
    have haccepts := hlongest.congr fun text => (hlanguage text).symm
    obtain ⟨hresult, hbehind⟩ := hplace.token_of_isLongest haccepts
    refine ⟨_, ?_, (frame_afterReading hbehind).trans hframe, hbehind⟩
    rw [hrun, if_neg hsome, bind_reading, hresult]
    exact hends token value _ hdenotes

end Scan
end CheckedFormat
