import CheckedFormat.Proofs.Sources
import CheckedFormat.Scan.Reader
/-! What readers read.

Whatever the source, the operations of a reader depend only on the text to come:
each is a function of that text, which gives the result and the number of bytes
consumed (`TextReading`). `Reader.Computes` ties an operation to its function: from
any place in any text it gives the function's result and moves the place by the
function's count, so the bytes that it looked at beyond are back in order. -/
namespace CheckedFormat

/-- A result of reading a text, and the number of bytes that it consumes. -/
abbrev TextReading (α : Type) := List Byte → α × Nat

namespace TextReading

/-- Skips white space and says whether anything stands behind it. -/
def skipSpace : TextReading Bool := fun text =>
  (text.any fun b => !b.isSpace, (text.takeWhile Byte.isSpace).length)

/-- The longest run of a class at the front of a text, within the width. -/
def run (keep : Byte → Bool) (width : Option Nat) (text : List Byte) : List Byte :=
  ((width.map text.take).getD text).takeWhile keep

/-- Takes a run. The input ended it when the text is all run and not all of the
width. -/
def takeWhile (keep : Byte → Bool) (width : Option Nat) : TextReading Reader.Run := fun text =>
  (⟨run keep width text, run keep width text = text ∧ width ≠ some text.length⟩,
    (run keep width text).length)

/-- Matches the same bytes up to the first that differs. -/
def expect : List Byte → TextReading Reader.Match
  | [], _ => (.complete, 0)
  | _ :: _, [] => (.atEnd, 0)
  | want :: rest, b :: text =>
    if b == want then ((expect rest text).1, (expect rest text).2 + 1) else (.mismatch, 0)

/-- The longest token at the front of a text that goes on from a state. -/
def longest {σ : Type} (l : Recogniser σ) : σ → Option Nat → List Byte → Option (List Byte)
  | state, _, [] => l.here state
  | state, width, b :: text =>
    if width = some 0 then l.here state
    else
      match l.step state b with
      | none => l.here state
      | some next =>
        match longest l next (Reader.lessOne width) text with
        | some token => some (b :: token)
        | none => l.here state

/-- Takes the longest token. -/
def token {σ : Type} (l : Recogniser σ) (state : σ) (width : Option Nat) :
    TextReading (Option (List Byte)) := fun text =>
  (longest l state width text, ((longest l state width text).getD []).length)

end TextReading

/-! ### Readers at a place -/

namespace Reader

variable {S : Type} [ByteSource S] (V : SourceView S)

/-- The reader stands at a place, has counted the bytes behind it, and met no error. -/
structure At (r : Reader S) (behind ahead : List Byte) : Prop where
  source : V.shows r.source behind ahead
  consumed : r.consumed = behind.length
  failure : r.failure = none

/-- From every place the operation gives the reading's result and consumes as many
bytes as the reading says. -/
def Computes {α : Type} (operation : Reader S → α × Reader S) (reading : TextReading α) : Prop :=
  ∀ {r : Reader S} {behind ahead : List Byte}, r.At V behind ahead →
    (operation r).1 = (reading ahead).1 ∧
      (operation r).2.At V ((ahead.take (reading ahead).2).reverse ++ behind)
        (ahead.drop (reading ahead).2)

variable {V}

theorem At.start {s : S} {text : List Byte} (h : V.shows s [] text) : (start s).At V [] text :=
  ⟨h, rfl, rfl⟩

theorem At.get_end {r : Reader S} {behind : List Byte} (h : r.At V behind []) :
    ∃ r', r.get = (none, r') ∧ r'.At V behind [] := by
  obtain ⟨s', hnext, hshows⟩ := V.next_end h.source
  refine ⟨{ r with source := s' }, ?_, hshows, h.consumed, h.failure⟩
  simp [get, h.failure, hnext]

theorem At.get_byte {r : Reader S} {behind ahead : List Byte} {b : Byte}
    (h : r.At V behind (b :: ahead)) : ∃ r', r.get = (some b, r') ∧ r'.At V (b :: behind) ahead := by
  obtain ⟨s', hnext, hshows⟩ := V.next_byte h.source
  refine ⟨{ r with source := s', consumed := r.consumed + 1 }, ?_, hshows, ?_, h.failure⟩
  · simp [get, h.failure, hnext]
  · rw [h.consumed, List.length_cons]

theorem At.unget {r : Reader S} {behind ahead : List Byte} {b : Byte}
    (h : r.At V (b :: behind) ahead) : (r.unget b).At V behind (b :: ahead) := by
  refine ⟨V.unread h.source, ?_, h.failure⟩
  show r.consumed - 1 = behind.length
  rw [h.consumed, List.length_cons, Nat.add_sub_cancel]

/-! ### White space -/

theorem skipSpace_end {r r' : Reader S} (h : r.get = (none, r')) : r.skipSpace = (false, r') := by
  rw [skipSpace]
  split <;> simp_all

theorem skipSpace_byte {r r' : Reader S} {b : Byte} (h : r.get = (some b, r')) :
    r.skipSpace = if b.isSpace then r'.skipSpace else (true, r'.unget b) := by
  rw [skipSpace]
  split <;> simp_all

theorem skipSpace_computes : Computes V skipSpace TextReading.skipSpace := by
  intro r behind ahead h
  induction ahead generalizing r behind with
  | nil =>
    obtain ⟨r', hget, hat⟩ := h.get_end
    rw [skipSpace_end hget]
    exact ⟨rfl, hat⟩
  | cons b text ih =>
    obtain ⟨r', hget, hat⟩ := h.get_byte
    rw [skipSpace_byte hget]
    cases hb : b.isSpace with
    | true => simpa [TextReading.skipSpace, hb] using ih hat
    | false => simpa [TextReading.skipSpace, hb] using hat.unget

/-! ### Runs -/

theorem takeWhile_full (keep : Byte → Bool) (r : Reader S) :
    r.takeWhile keep (some 0) = (⟨[], false⟩, r) := by
  rw [takeWhile, if_pos rfl]

theorem takeWhile_end {keep : Byte → Bool} {width : Option Nat} {r r' : Reader S}
    (hwidth : width ≠ some 0) (h : r.get = (none, r')) :
    r.takeWhile keep width = (⟨[], true⟩, r') := by
  rw [takeWhile, if_neg hwidth]
  split <;> simp_all

theorem takeWhile_byte {keep : Byte → Bool} {width : Option Nat} {r r' : Reader S} {b : Byte}
    (hwidth : width ≠ some 0) (h : r.get = (some b, r')) :
    r.takeWhile keep width =
      if keep b then
        (⟨b :: (r'.takeWhile keep (lessOne width)).1.bytes,
          (r'.takeWhile keep (lessOne width)).1.atEnd⟩, (r'.takeWhile keep (lessOne width)).2)
      else (⟨[], false⟩, r'.unget b) := by
  rw [takeWhile, if_neg hwidth]
  split <;> simp_all

/-- A run is no longer than its width, whatever the source. -/
theorem length_takeWhile_le (keep : Byte → Bool) (n : Nat) (r : Reader S) :
    (r.takeWhile keep (some n)).1.bytes.length ≤ n := by
  induction n generalizing r with
  | zero =>
    rw [takeWhile_full]
    exact Nat.le_refl 0
  | succ n ih =>
    have hwidth : some (n + 1) ≠ some 0 := by simp
    cases hget : r.get with
    | mk result r' =>
      cases result with
      | none =>
        rw [takeWhile_end hwidth hget]
        exact Nat.zero_le _
      | some b =>
        rw [takeWhile_byte hwidth hget]
        split
        · exact Nat.succ_le_succ (ih r')
        · exact Nat.zero_le _

end Reader

namespace TextReading

theorem run_full (keep : Byte → Bool) (text : List Byte) : run keep (some 0) text = [] := rfl

theorem run_nil (keep : Byte → Bool) (width : Option Nat) : run keep width [] = [] := by
  cases width <;> simp [run]

theorem run_cons (keep : Byte → Bool) {width : Option Nat} (b : Byte) (text : List Byte)
    (hwidth : width ≠ some 0) :
    run keep width (b :: text) =
      if keep b then b :: run keep (Reader.lessOne width) text else [] := by
  cases width with
  | none => rw [run, run, Option.map_none, Option.getD_none, List.takeWhile_cons]; rfl
  | some n =>
    cases n with
    | zero => exact absurd rfl hwidth
    | succ n => rw [run, Option.map_some, Option.getD_some, List.take_succ_cons,
        List.takeWhile_cons]; rfl

/-- A run that goes on behind one of its bytes ends with the input when the rest of
it does. -/
theorem takeWhile_cons (keep : Byte → Bool) {width : Option Nat} (b : Byte) (text : List Byte)
    (hwidth : width ≠ some 0) :
    takeWhile keep width (b :: text) =
      if keep b then
        (⟨b :: (takeWhile keep (Reader.lessOne width) text).1.bytes,
          (takeWhile keep (Reader.lessOne width) text).1.atEnd⟩,
          (takeWhile keep (Reader.lessOne width) text).2 + 1)
      else (⟨[], false⟩, 0) := by
  have hlength : width = some (text.length + 1) ↔ Reader.lessOne width = some text.length := by
    cases width with
    | none => simp [Reader.lessOne]
    | some n =>
      have : n ≠ 0 := fun h => hwidth (by rw [h])
      simp only [Reader.lessOne, Option.map_some, Option.some.injEq]
      omega
  simp only [takeWhile, run_cons keep b text hwidth]
  cases keep b <;> simp [hlength]

end TextReading

namespace Reader

variable {S : Type} [ByteSource S] {V : SourceView S}

theorem takeWhile_computes (keep : Byte → Bool) (width : Option Nat) :
    Computes V (takeWhile keep width) (TextReading.takeWhile keep width) := by
  intro r behind ahead h
  induction ahead generalizing r behind width with
  | nil =>
    by_cases hwidth : width = some 0
    · subst hwidth
      rw [takeWhile_full]
      exact ⟨by simp [TextReading.takeWhile, TextReading.run_nil], h⟩
    · obtain ⟨r', hget, hat⟩ := h.get_end
      rw [takeWhile_end hwidth hget]
      simpa [TextReading.takeWhile, TextReading.run_nil, hwidth] using hat
  | cons b text ih =>
    by_cases hwidth : width = some 0
    · subst hwidth
      rw [takeWhile_full]
      exact ⟨by simp [TextReading.takeWhile, TextReading.run_full], h⟩
    · obtain ⟨r', hget, hat⟩ := h.get_byte
      rw [takeWhile_byte hwidth hget, TextReading.takeWhile_cons keep b text hwidth]
      cases keep b with
      | true =>
        obtain ⟨hresult, hplace⟩ := ih (lessOne width) hat
        simpa [hresult] using hplace
      | false => simpa using hat.unget

/-! ### Literal bytes -/

theorem expect_computes (bytes : List Byte) :
    Computes V (expect bytes) (TextReading.expect bytes) := by
  intro r behind ahead h
  induction bytes generalizing r behind ahead with
  | nil => exact ⟨rfl, h⟩
  | cons want rest ih =>
    cases ahead with
    | nil =>
      obtain ⟨r', hget, hat⟩ := h.get_end
      simpa [expect, hget, TextReading.expect] using hat
    | cons b text =>
      obtain ⟨r', hget, hat⟩ := h.get_byte
      cases hb : b == want with
      | true => simpa [expect, hget, TextReading.expect, hb] using ih hat
      | false => simpa [expect, hget, TextReading.expect, hb] using hat.unget

/-! ### Tokens -/

section Tokens
variable {σ : Type} (l : Recogniser σ) {state next : σ} {width : Option Nat} {r r' : Reader S}
  {b : Byte}

theorem tokenFrom_full : tokenFrom l state (some 0) r = (l.here state, r) := by
  rw [tokenFrom, if_pos rfl]

theorem tokenFrom_end (hwidth : width ≠ some 0) (h : r.get = (none, r')) :
    tokenFrom l state width r = (l.here state, r') := by
  rw [tokenFrom, if_neg hwidth]
  split <;> simp_all

theorem tokenFrom_stop (hwidth : width ≠ some 0) (h : r.get = (some b, r'))
    (hstep : l.step state b = none) :
    tokenFrom l state width r = (l.here state, r'.unget b) := by
  rw [tokenFrom, if_neg hwidth]
  split <;> simp_all

theorem tokenFrom_extend {r'' : Reader S} {rest : List Byte} (hwidth : width ≠ some 0)
    (h : r.get = (some b, r')) (hstep : l.step state b = some next)
    (hrest : tokenFrom l next (lessOne width) r' = (some rest, r'')) :
    tokenFrom l state width r = (some (b :: rest), r'') := by
  rw [tokenFrom, if_neg hwidth]
  split <;> simp_all

theorem tokenFrom_retreat {r'' : Reader S} (hwidth : width ≠ some 0)
    (h : r.get = (some b, r')) (hstep : l.step state b = some next)
    (hrest : tokenFrom l next (lessOne width) r' = (none, r'')) :
    tokenFrom l state width r = (l.here state, r''.unget b) := by
  rw [tokenFrom, if_neg hwidth]
  split <;> simp_all

end Tokens

/-- A token is taken from any state on. Where the bytes looked at lead to none, all
of them are given back, so the place is moved by the token alone. -/
theorem tokenFrom_computes {σ : Type} (l : Recogniser σ) (state : σ) (width : Option Nat) :
    Computes V (tokenFrom l state width) (TextReading.token l state width) := by
  intro r behind ahead h
  have hhere : ∀ state, ((l.here state).getD []).length = 0 := by
    intro state
    unfold Recogniser.here
    split <;> rfl
  induction ahead generalizing r behind state width with
  | nil =>
    have hlongest : TextReading.longest l state width [] = l.here state := by
      rw [TextReading.longest]
    by_cases hwidth : width = some 0
    · subst hwidth
      rw [tokenFrom_full]
      simpa [TextReading.token, hlongest, hhere] using h
    · obtain ⟨r', hget, hat⟩ := h.get_end
      rw [tokenFrom_end l hwidth hget]
      simpa [TextReading.token, hlongest, hhere] using hat
  | cons b text ih =>
    by_cases hwidth : width = some 0
    · subst hwidth
      rw [tokenFrom_full]
      simpa [TextReading.token, TextReading.longest, hhere] using h
    · obtain ⟨r', hget, hat⟩ := h.get_byte
      cases hstep : l.step state b with
      | none =>
        rw [tokenFrom_stop l hwidth hget hstep]
        simpa [TextReading.token, TextReading.longest, hwidth, hstep, hhere] using hat.unget
      | some next =>
        obtain ⟨hresult, hplace⟩ := ih next (lessOne width) hat
        simp only [TextReading.token] at hresult hplace
        cases hrest : TextReading.longest l next (lessOne width) text with
        | none =>
          rw [hrest] at hplace
          rw [tokenFrom_retreat l hwidth hget hstep (Prod.ext (hresult.trans hrest) rfl)]
          simpa [TextReading.token, TextReading.longest, hwidth, hstep, hrest, hhere]
            using hplace.unget
        | some rest =>
          rw [hrest] at hplace
          rw [tokenFrom_extend l hwidth hget hstep (Prod.ext (hresult.trans hrest) rfl)]
          simpa [TextReading.token, TextReading.longest, hwidth, hstep, hrest] using hplace

theorem token_computes {σ : Type} (l : Recogniser σ) (width : Option Nat) :
    Computes V (token l width) (TextReading.token l l.start width) :=
  tokenFrom_computes l l.start width

end Reader

/-- A text that is accepted is the longest token where nothing behind it goes on. -/
theorem TextReading.longest_append {σ : Type} {l : Recogniser σ} {state final : σ}
    {token rest : List Byte} (hrun : l.run state token = some final)
    (haccepts : l.accepts final = true) (hrest : ∀ b, rest.head? = some b → l.step final b = none) :
    longest l state none (token ++ rest) = some token := by
  induction token generalizing state with
  | nil =>
    obtain rfl : state = final := Option.some.inj hrun
    have hhere : l.here state = some [] := if_pos haccepts
    cases rest with
    | nil => rw [List.append_nil, longest, hhere]
    | cons b rest => rw [List.nil_append, longest, hrest b rfl, if_neg (by simp), hhere]
  | cons b token ih =>
    obtain ⟨next, hstep, hnext⟩ := Option.bind_eq_some_iff.1 hrun
    rw [List.cons_append, longest, if_neg (by simp), hstep]
    show (match longest l next none (token ++ rest) with
      | some token => some (b :: token)
      | none => l.here state) = _
    rw [ih hnext]
end CheckedFormat
