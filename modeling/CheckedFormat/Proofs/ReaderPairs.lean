import CheckedFormat.Proofs.Reading
/-! Readers side by side.

The operations of a reader reach their source through two calls alone: they obtain a byte, and
they give back the byte that they obtained last. So a relation of readers that these two calls
keep is kept by every operation, and what the operations give is the same on both sides
(`Reader.Coupling`). The relation may speak of the bytes that are held, which are those that
were obtained and not given back. -/
namespace CheckedFormat
namespace Reader

variable {S₁ S₂ : Type} [ByteSource S₁] [ByteSource S₂]

/-- Related readers obtain the same, and they stay related when the byte that they obtained
last is given back. The bytes are those that both hold, the latest first. -/
structure Coupling (Q : List Byte → Reader S₁ → Reader S₂ → Prop) : Prop where
  result : ∀ {held r₁ r₂}, Q held r₁ r₂ → r₁.get.1 = r₂.get.1
  get : ∀ {held r₁ r₂}, Q held r₁ r₂ → Q (r₁.get.1.toList ++ held) r₁.get.2 r₂.get.2
  unget : ∀ {held b r₁ r₂}, Q (b :: held) r₁ r₂ → Q held (r₁.unget b) (r₂.unget b)

/-- From related readers the two operations give the same, and the readers that they leave
are related and hold more bytes, if any. -/
def Coupled {α : Type} (Q : List Byte → Reader S₁ → Reader S₂ → Prop)
    (f₁ : Reader S₁ → α × Reader S₁) (f₂ : Reader S₂ → α × Reader S₂) : Prop :=
  ∀ {held r₁ r₂}, Q held r₁ r₂ →
    (f₁ r₁).1 = (f₂ r₂).1 ∧ ∃ taken, Q (taken ++ held) (f₁ r₁).2 (f₂ r₂).2

namespace Coupling
variable {Q : List Byte → Reader S₁ → Reader S₂ → Prop}

/-- Either both sources are at an end, or both give the same byte. -/
theorem get_cases (C : Coupling Q) {held : List Byte} {r₁ : Reader S₁}
    {r₂ : Reader S₂} (h : Q held r₁ r₂) :
    (∃ r₁' r₂', r₁.get = (none, r₁') ∧ r₂.get = (none, r₂') ∧ Q held r₁' r₂') ∨
    ∃ b r₁' r₂', r₁.get = (some b, r₁') ∧ r₂.get = (some b, r₂') ∧ Q (b :: held) r₁' r₂' := by
  have hresult := C.result h
  have hget := C.get h
  rcases h₁ : r₁.get with ⟨result, r₁'⟩
  rcases h₂ : r₂.get with ⟨result', r₂'⟩
  rw [h₁, h₂] at hresult hget
  obtain rfl : result = result' := hresult
  cases result with
  | none => exact .inl ⟨r₁', r₂', rfl, rfl, hget⟩
  | some b => exact .inr ⟨b, r₁', r₂', rfl, rfl, hget⟩

theorem skipSpace (C : Coupling Q) {held : List Byte} {r₁ : Reader S₁}
    {r₂ : Reader S₂} (h : Q held r₁ r₂) :
    r₁.skipSpace.1 = r₂.skipSpace.1 ∧ ∃ taken, Q (taken ++ held) r₁.skipSpace.2 r₂.skipSpace.2 := by
  rcases C.get_cases h with ⟨r₁', r₂', h₁, h₂, hend⟩ | ⟨b, r₁', r₂', h₁, h₂, hbyte⟩
  · rw [skipSpace_end h₁, skipSpace_end h₂]
    exact ⟨rfl, [], hend⟩
  · rw [skipSpace_byte h₁, skipSpace_byte h₂]
    cases b.isSpace with
    | true =>
      obtain ⟨hsame, taken, hlater⟩ := C.skipSpace hbyte
      exact ⟨hsame, taken ++ [b], by rwa [List.append_assoc]⟩
    | false => exact ⟨rfl, [], C.unget hbyte⟩
termination_by r₁.size
decreasing_by exact size_get h₁

theorem takeWhile (C : Coupling Q) (keep : Byte → Bool) (width : Option Nat) {held : List Byte}
    {r₁ : Reader S₁} {r₂ : Reader S₂} (h : Q held r₁ r₂) :
    (r₁.takeWhile keep width).1 = (r₂.takeWhile keep width).1 ∧
      ∃ taken, Q (taken ++ held) (r₁.takeWhile keep width).2 (r₂.takeWhile keep width).2 := by
  by_cases hwidth : width = some 0
  · rw [hwidth, takeWhile_full, takeWhile_full]
    exact ⟨rfl, [], h⟩
  · rcases C.get_cases h with ⟨r₁', r₂', h₁, h₂, hend⟩ | ⟨b, r₁', r₂', h₁, h₂, hbyte⟩
    · rw [takeWhile_end hwidth h₁, takeWhile_end hwidth h₂]
      exact ⟨rfl, [], hend⟩
    · rw [takeWhile_byte hwidth h₁, takeWhile_byte hwidth h₂]
      cases keep b with
      | true =>
        obtain ⟨hsame, taken, hlater⟩ := C.takeWhile keep (lessOne width) hbyte
        simp only [if_true, hsame]
        exact ⟨trivial, taken ++ [b], by rwa [List.append_assoc]⟩
      | false => exact ⟨rfl, [], C.unget hbyte⟩
termination_by r₁.size
decreasing_by exact size_get h₁

theorem expect (C : Coupling Q) (bytes : List Byte) {held : List Byte} {r₁ : Reader S₁}
    {r₂ : Reader S₂} (h : Q held r₁ r₂) :
    (expect bytes r₁).1 = (expect bytes r₂).1 ∧
      ∃ taken, Q (taken ++ held) (expect bytes r₁).2 (expect bytes r₂).2 := by
  induction bytes generalizing held r₁ r₂ with
  | nil => exact ⟨rfl, [], h⟩
  | cons want rest ih =>
    rcases C.get_cases h with ⟨r₁', r₂', h₁, h₂, hend⟩ | ⟨b, r₁', r₂', h₁, h₂, hbyte⟩
    · simp only [Reader.expect, h₁, h₂]
      exact ⟨trivial, [], hend⟩
    · simp only [Reader.expect, h₁, h₂]
      cases b == want with
      | true =>
        obtain ⟨hsame, taken, hlater⟩ := ih hbyte
        exact ⟨hsame, taken ++ [b], by rwa [List.append_assoc]⟩
      | false => exact ⟨rfl, [], C.unget hbyte⟩

/-- A token is what is held of the bytes that were looked at. -/
theorem tokenFrom_held (C : Coupling Q) {σ : Type} (l : Recogniser σ) (state : σ) (width : Option Nat)
    {held : List Byte} {r₁ : Reader S₁} {r₂ : Reader S₂} (h : Q held r₁ r₂) :
    (tokenFrom l state width r₁).1 = (tokenFrom l state width r₂).1 ∧
      Q (((tokenFrom l state width r₁).1.getD []).reverse ++ held)
        (tokenFrom l state width r₁).2 (tokenFrom l state width r₂).2 := by
  have hhere : ((l.here state).getD []).reverse = [] := by
    unfold Recogniser.here
    split <;> rfl
  by_cases hwidth : width = some 0
  · rw [hwidth, tokenFrom_full, tokenFrom_full, hhere]
    exact ⟨rfl, h⟩
  · rcases C.get_cases h with ⟨r₁', r₂', h₁, h₂, hend⟩ | ⟨b, r₁', r₂', h₁, h₂, hbyte⟩
    · rw [tokenFrom_end l hwidth h₁, tokenFrom_end l hwidth h₂, hhere]
      exact ⟨rfl, hend⟩
    · cases hstep : l.step state b with
      | none =>
        rw [tokenFrom_stop l hwidth h₁ hstep, tokenFrom_stop l hwidth h₂ hstep, hhere]
        exact ⟨rfl, C.unget hbyte⟩
      | some next =>
        obtain ⟨hsame, hlater⟩ := C.tokenFrom_held l next (lessOne width) hbyte
        rcases hrest₁ : Reader.tokenFrom l next (lessOne width) r₁' with ⟨token, r₁''⟩
        rcases hrest₂ : Reader.tokenFrom l next (lessOne width) r₂' with ⟨token', r₂''⟩
        rw [hrest₁, hrest₂] at hsame hlater
        obtain rfl : token = token' := hsame
        cases token with
        | none =>
          rw [tokenFrom_retreat l hwidth h₁ hstep hrest₁,
            tokenFrom_retreat l hwidth h₂ hstep hrest₂, hhere]
          exact ⟨rfl, C.unget hlater⟩
        | some rest =>
          rw [tokenFrom_extend l hwidth h₁ hstep hrest₁, tokenFrom_extend l hwidth h₂ hstep hrest₂]
          refine ⟨rfl, ?_⟩
          rw [Option.getD_some, List.reverse_cons, List.append_assoc]
          exact hlater
termination_by r₁.size
decreasing_by exact size_get h₁

theorem tokenFrom (C : Coupling Q) {σ : Type} (l : Recogniser σ) (state : σ)
    (width : Option Nat) :
    Coupled Q (Reader.tokenFrom l state width) (Reader.tokenFrom l state width) :=
  fun h => ⟨(C.tokenFrom_held l state width h).1, _, (C.tokenFrom_held l state width h).2⟩

end Coupling
end Reader
end CheckedFormat
