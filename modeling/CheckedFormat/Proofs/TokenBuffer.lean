import CheckedFormat.Proofs.CharacterFields
import CheckedFormat.Proofs.FloatReading
import CheckedFormat.Proofs.SourceRecorder
/-! Tokens by a buffer.

`Reader.token` is a recursion: what it looked at behind the longest token is given back as the
calls return. A loop over a buffer (`TokenPoint`) gives it back at once in the end, and that is
what the recursion does (`TokenLaws.token`).

Loop and recursion come to the same states. At each of them the recursion still has to find how
the token goes on, and the loop has in its buffer what to fall back on (`Ready.rest`). So the laws
of the loop, which are of the buffer at every point (`TokenPoint.Sound`), are laws of the tokens
of a scan. -/
namespace CheckedFormat

/-! ### Buffers -/

namespace TokenBuffer
variable {S : Type} [ByteSource S]

theorem here_byte (front : List Byte) (b : Byte) (room : Option Nat) :
    here ⟨front ++ [b], room⟩ (some b) = front.length := by
  rw [here, List.length_append]
  rfl

theorem settle_of_le {keep : Nat} {bytes : List Byte} (h : bytes.length ≤ keep) (r : Reader S) :
    settle keep bytes r = (bytes, r) := by
  rw [settle, dif_neg (Nat.not_lt.2 h)]

theorem settle_concat {keep : Nat} {front : List Byte} (h : keep ≤ front.length) (b : Byte)
    (r : Reader S) : settle keep (front ++ [b]) r = settle keep front (r.unget b) := by
  have hlength : keep < (front ++ [b]).length := by
    rw [List.length_append, List.length_singleton]
    omega
  rw [settle, dif_pos hlength, List.dropLast_concat, List.getLast_concat]

/-- The first bytes are left, and the others are given back, the last first. -/
theorem settle_eq (keep : Nat) (bytes : List Byte) (r : Reader S) :
    settle keep bytes r = (bytes.take keep, (bytes.drop keep).reverse.foldl Reader.unget r) := by
  induction bytes using List.reverseRecOn generalizing r with
  | nil => rw [settle_of_le (Nat.zero_le _), List.take_nil, List.drop_nil]; rfl
  | append_singleton front b ih =>
    by_cases h : keep ≤ front.length
    · rw [settle_concat h, ih, List.take_append_of_le_length h, List.drop_append_of_le_length h,
        List.reverse_concat]
      rfl
    · have hlength : (front ++ [b]).length ≤ keep := by
        rw [List.length_append, List.length_singleton]
        omega
      rw [settle_of_le hlength, List.take_of_length_le hlength, List.drop_of_length_le hlength]
      rfl

end TokenBuffer

/-- No token is empty, or a sign alone. -/
structure Recogniser.NeedsMore {σ : Type} (l : Recogniser σ) : Prop where
  nil : l.recognises [] = false
  sign : ∀ {b}, b.isSign = true → l.recognises [b] = false

theorem IntegerToken.needsMore (base : Base) : (recogniser base).NeedsMore where
  nil := rfl
  sign {b} hsign := by
    show (((if b.isSign then some State.signed else first base b).bind fun next =>
      some next).map accepts).getD false = false
    rw [if_pos hsign]
    rfl

theorem FloatToken.needsMore : recogniser.NeedsMore where
  nil := rfl
  sign {b} hsign := by
    show (((if b.isSign then some State.signed else first b).bind fun next =>
      some next).map accepts).getD false = false
    rw [if_pos hsign]
    rfl

namespace Reader
variable {S : Type} [ByteSource S]

theorem close_concat {accepted : Nat} {front : List Byte} (h : accepted ≤ front.length) (b : Byte)
    (r : Reader S) : close accepted (front ++ [b]) r = close accepted front (r.unget b) := by
  rw [close, close, TokenBuffer.settle_concat h]

/-- What is left to do behind the front of a token: either the token goes on, or the front is
settled. -/
def finish (accepted : Nat) (front : List Byte) :
    Option (List Byte) × Reader S → Option (List Byte) × Reader S
  | (some rest, r) => (some (front ++ rest), r)
  | (none, r) => r.close accepted front

theorem Gives.concat {r u v : Reader S} {bytes : List Byte} {b : Byte} (h : r.Gives bytes u)
    (hget : u.get = (some b, v)) : r.Gives (bytes ++ [b]) v := by
  induction h with
  | nil => exact .cons hget (.nil _)
  | cons get _ ih => exact .cons get (ih hget)

end Reader

namespace TokenPoint
variable {σ S : Type} [ByteSource S]

/-! ### Points of the loop -/

/-- The points that the loop comes to from a reader. -/
inductive Reached (l : Recogniser σ) (width : Option Nat) (r : Reader S) :
    TokenPoint σ S → Prop where
  | start : Reached l width r (enter l l.start 0 ⟨[], width⟩ r)
  | next {p q : TokenPoint σ S} (h : Reached l width r p) (hnext : p.next? l = some q) :
      Reached l width r q

/-- How many of the bytes are a sign. -/
def signLength (bytes : List Byte) : Nat :=
  if bytes.head?.any Byte.isSign then 1 else 0

/-- What holds at every point of the loop. -/
structure Sound (l : Recogniser σ) (width : Option Nat) (r : Reader S) (p : TokenPoint σ S) :
    Prop where
  /-- The buffer has what the reader gave, and behind that at most the end. -/
  obtained : ∃ u, r.Gives p.buffer.bytes u ∧ (p.reader = u ∨ u.get = (none, p.reader))
  consumed : p.reader.consumed = r.consumed + p.buffer.bytes.length
  room : p.buffer.room = width.map (· - p.buffer.bytes.length)
  within : ∀ n, width = some n → p.buffer.bytes.length ≤ n
  current : ∀ b, p.current = some b → p.buffer.bytes.getLast? = some b
  /-- There is a byte in the buffer for the current one. -/
  here : p.current.toList.length ≤ p.buffer.bytes.length
  state : l.run l.start (p.buffer.bytes.take (p.buffer.here p.current)) = some p.state
  accepted_le : p.accepted ≤ p.buffer.here p.current
  token : p.accepted ≠ 0 → l.recognises (p.buffer.bytes.take p.accepted) = true
  sign : p.accepted ≠ 0 → signLength p.buffer.bytes < p.accepted

theorem Sound.accepted_le_length {l : Recogniser σ} {width : Option Nat} {r : Reader S}
    {p : TokenPoint σ S} (h : Sound l width r p) : p.accepted ≤ p.buffer.bytes.length :=
  h.accepted_le.trans (Nat.sub_le _ _)

/-! ### Coming to a state -/

section
variable {l : Recogniser σ} {state : σ} {accepted : Nat} {t : TokenBuffer} {u v : Reader S}

/-- The length of the longest token when a state is come to. -/
def longestAt (l : Recogniser σ) (state : σ) (accepted : Nat) (t : TokenBuffer) : Nat :=
  if l.accepts state then t.bytes.length else accepted

theorem enter_full (h : t.room = some 0) :
    enter l state accepted t u = ⟨state, none, t, longestAt l state accepted t, u⟩ := by
  rw [enter, TokenBuffer.advance, if_pos h]
  rfl

theorem enter_end (h : t.room ≠ some 0) (hget : u.get = (none, v)) :
    enter l state accepted t u = ⟨state, none, t, longestAt l state accepted t, v⟩ := by
  rw [enter, TokenBuffer.advance, if_neg h, hget]
  rfl

theorem enter_byte {b : Byte} (h : t.room ≠ some 0) (hget : u.get = (some b, v)) :
    enter l state accepted t u = ⟨state, some b, ⟨t.bytes ++ [b], Reader.lessOne t.room⟩,
      longestAt l state accepted t, v⟩ := by
  rw [enter, TokenBuffer.advance, if_neg h, hget]
  simp only [TokenBuffer.here_byte, longestAt]

/-- What there is to look at when a state is come to: nothing more within the width, the end of
the input, or a byte. -/
theorem enter_cases (l : Recogniser σ) (state : σ) (accepted : Nat) (t : TokenBuffer)
    (u : Reader S) :
    (t.room = some 0 ∧
      enter l state accepted t u = ⟨state, none, t, longestAt l state accepted t, u⟩) ∨
    (t.room ≠ some 0 ∧ ∃ v, u.get = (none, v) ∧
      enter l state accepted t u = ⟨state, none, t, longestAt l state accepted t, v⟩) ∨
    (t.room ≠ some 0 ∧ ∃ b v, u.get = (some b, v) ∧
      enter l state accepted t u = ⟨state, some b, ⟨t.bytes ++ [b], Reader.lessOne t.room⟩,
        longestAt l state accepted t, v⟩) := by
  by_cases hroom : t.room = some 0
  · exact .inl ⟨hroom, enter_full hroom⟩
  · rcases hget : u.get with ⟨_ | b, v⟩
    · exact .inr (.inl ⟨hroom, v, rfl, enter_end hroom hget⟩)
    · exact .inr (.inr ⟨hroom, b, v, rfl, enter_byte hroom hget⟩)

/-- A point with a byte at hand has just obtained it. -/
theorem enter_of_current {b : Byte} (h : (enter l state accepted t u).current = some b) :
    t.room ≠ some 0 ∧ ∃ v, u.get = (some b, v) ∧
      enter l state accepted t u = ⟨state, some b, ⟨t.bytes ++ [b], Reader.lessOne t.room⟩,
        longestAt l state accepted t, v⟩ := by
  rcases enter_cases l state accepted t u with
    ⟨-, henter⟩ | ⟨-, v, -, henter⟩ | ⟨hroom, c, v, hget, henter⟩
  · rw [henter] at h
    cases h
  · rw [henter] at h
    cases h
  · rw [henter] at h
    obtain rfl : c = b := Option.some.inj h
    exact ⟨hroom, v, hget, henter⟩

/-- A sign in front of a token is not all of it. -/
theorem signLength_lt (hl : l.NeedsMore) {bytes : List Byte} {n : Nat} (hsome : n ≠ 0)
    (htoken : l.recognises (bytes.take n) = true) : signLength bytes < n := by
  cases bytes with
  | nil =>
    rw [List.take_nil, hl.nil] at htoken
    cases htoken
  | cons b rest =>
    show (if b.isSign then 1 else 0) < n
    cases hsign : b.isSign with
    | false => exact Nat.pos_of_ne_zero hsome
    | true =>
      rw [if_pos rfl]
      have hone : n ≠ 1 := by
        rintro rfl
        rw [List.take_succ_cons, List.take_zero, hl.sign hsign] at htoken
        cases htoken
      omega

/-- What holds of a state and of all that it is come to with. -/
structure Ready (l : Recogniser σ) (width : Option Nat) (r : Reader S) (state : σ)
    (accepted : Nat) (t : TokenBuffer) (u : Reader S) : Prop where
  gives : r.Gives t.bytes u
  room : t.room = width.map (· - t.bytes.length)
  within : ∀ n, width = some n → t.bytes.length ≤ n
  run : l.run l.start t.bytes = some state
  accepted_le : accepted ≤ t.bytes.length
  token : accepted ≠ 0 → l.recognises (t.bytes.take accepted) = true
  /-- The whole token is what there is to find from here on, behind what was looked at. -/
  rest : r.token l width = Reader.finish accepted t.bytes (Reader.tokenFrom l state t.room u)

namespace Ready

theorem start (l : Recogniser σ) (width : Option Nat) (r : Reader S) :
    Ready l width r l.start 0 ⟨[], width⟩ r where
  gives := .nil r
  room := by cases width <;> rfl
  within _ _ := Nat.zero_le _
  run := rfl
  accepted_le := Nat.le_refl 0
  token h := absurd rfl h
  rest := by
    rw [Reader.token]
    rcases Reader.tokenFrom l l.start width r with ⟨_ | token, u⟩
    · rw [Reader.finish, Reader.close, TokenBuffer.settle_of_le (Nat.le_refl 0), if_pos rfl]
    · rfl

variable {width : Option Nat} {r : Reader S}

theorem longestAt_le (h : Ready l width r state accepted t u) :
    longestAt l state accepted t ≤ t.bytes.length := by
  unfold longestAt
  split
  · exact Nat.le_refl _
  · exact h.accepted_le

theorem recognises_longestAt (h : Ready l width r state accepted t u)
    (hsome : longestAt l state accepted t ≠ 0) :
    l.recognises (t.bytes.take (longestAt l state accepted t)) = true := by
  unfold longestAt at hsome ⊢
  split at hsome
  · next haccepts =>
    rw [if_pos haccepts, List.take_length, Recogniser.recognises, h.run]
    exact haccepts
  · next hrejects =>
    rw [if_neg hrejects]
    exact h.token hsome

theorem lt_width (h : Ready l width r state accepted t u) (hroom : t.room ≠ some 0) {n : Nat}
    (hwidth : width = some n) : t.bytes.length < n := by
  have hle := h.within n hwidth
  refine lt_of_le_of_ne hle fun hlength => hroom ?_
  rw [h.room, hwidth, hlength, Option.map_some, Nat.sub_self]

theorem lessOne_room (h : Ready l width r state accepted t u) :
    Reader.lessOne t.room = width.map (· - (t.bytes.length + 1)) := by
  rw [Reader.lessOne, h.room, Option.map_map]
  rfl

/-- Where no more can be taken, the front is settled on the longest token. -/
theorem finish_here (h : Ready l width r state accepted t u) (hnil : l.recognises [] = false) :
    Reader.finish accepted t.bytes (l.here state, v) =
      v.close (longestAt l state accepted t) t.bytes := by
  unfold Recogniser.here longestAt
  split
  · next haccepts =>
    have hbytes : t.bytes.length ≠ 0 := by
      intro hlength
      have hrun := h.run
      rw [List.length_eq_zero_iff.1 hlength] at hrun
      rw [Recogniser.recognises, hrun, Option.map_some, haccepts] at hnil
      cases hnil
    rw [Reader.finish, List.append_nil, Reader.close, if_neg hbytes,
      TokenBuffer.settle_of_le (Nat.le_refl _)]
  · rfl

/-- A byte that goes on leads to the next state. -/
theorem next {b : Byte} {state' : σ} (h : Ready l width r state accepted t u)
    (hnil : l.recognises [] = false) (hroom : t.room ≠ some 0) (hget : u.get = (some b, v))
    (hstep : l.step state b = some state') :
    Ready l width r state' (longestAt l state accepted t)
      ⟨t.bytes ++ [b], Reader.lessOne t.room⟩ v where
  gives := h.gives.concat hget
  room := by rw [h.lessOne_room, List.length_append, List.length_singleton]
  within n hwidth := by
    rw [List.length_append, List.length_singleton]
    exact h.lt_width hroom hwidth
  run := by
    rw [Recogniser.run_append, h.run, Option.bind_some, Recogniser.run, hstep]
    rfl
  accepted_le := by
    rw [List.length_append]
    exact Nat.le_add_right_of_le h.longestAt_le
  token hsome := by
    rw [List.take_append_of_le_length h.longestAt_le]
    exact h.recognises_longestAt hsome
  rest := by
    rw [h.rest]
    rcases hrest : Reader.tokenFrom l state' (Reader.lessOne t.room) v with ⟨_ | token, w⟩
    -- Nothing is found behind the byte, so the recursion gives it back, as settling will.
    · rw [Reader.tokenFrom_retreat l hroom hget hstep hrest, h.finish_here hnil]
      exact (Reader.close_concat h.longestAt_le b w).symm
    · rw [Reader.tokenFrom_extend l hroom hget hstep hrest]
      show (some (t.bytes ++ b :: token), w) = (some (t.bytes ++ [b] ++ token), w)
      rw [List.append_assoc]
      rfl

/-- A point without a byte at hand, at the end of the width or of the input. -/
theorem sound_end (h : Ready l width r state accepted t u) (hl : l.NeedsMore)
    (hreader : v = u ∨ u.get = (none, v)) (hconsumed : v.consumed = r.consumed + t.bytes.length) :
    Sound l width r ⟨state, none, t, longestAt l state accepted t, v⟩ where
  obtained := ⟨u, h.gives, hreader⟩
  consumed := hconsumed
  room := h.room
  within := h.within
  current _ hc := by cases hc
  here := Nat.zero_le _
  state := by
    show l.run l.start (t.bytes.take t.bytes.length) = some state
    rw [List.take_length, h.run]
  accepted_le := h.longestAt_le
  token := h.recognises_longestAt
  sign hsome := signLength_lt hl hsome (h.recognises_longestAt hsome)

/-- What a state is come to with, is what the point has. -/
theorem sound (h : Ready l width r state accepted t u) (hl : l.NeedsMore) :
    Sound l width r (enter l state accepted t u) := by
  rcases enter_cases l state accepted t u with
    ⟨-, henter⟩ | ⟨-, v, hget, henter⟩ | ⟨hroom, b, v, hget, henter⟩
  · rw [henter]
    exact h.sound_end hl (.inl rfl) h.gives.consumed
  · have hconsumed : v.consumed = r.consumed + t.bytes.length := by
      rw [Reader.consumed_of_get_none hget, h.gives.consumed]
    rw [henter]
    exact h.sound_end hl (.inr hget) hconsumed
  · rw [henter]
    have hgives := h.gives.concat hget
    have htoken : longestAt l state accepted t ≠ 0 →
        l.recognises ((t.bytes ++ [b]).take (longestAt l state accepted t)) = true := by
      rw [List.take_append_of_le_length h.longestAt_le]
      exact h.recognises_longestAt
    exact {
      obtained := ⟨v, hgives, .inl rfl⟩
      consumed := hgives.consumed
      room := by rw [h.lessOne_room, List.length_append, List.length_singleton]
      within := fun n hwidth => by
        rw [List.length_append, List.length_singleton]
        exact h.lt_width hroom hwidth
      current := fun c hc => by
        rw [List.getLast?_concat]
        exact hc
      here := by
        rw [List.length_append]
        exact Nat.le_add_left _ _
      state := by rw [TokenBuffer.here_byte, List.take_left, h.run]
      accepted_le := by
        rw [TokenBuffer.here_byte]
        exact h.longestAt_le
      token := htoken
      sign := fun hsome => signLength_lt hl hsome (htoken hsome) }

/-- Where the loop ends, the longest token is taken. -/
theorem token_eq_outcome (h : Ready l width r state accepted t u) (hl : l.NeedsMore)
    (hstop : (enter l state accepted t u).next? l = none) :
    r.token l width = (enter l state accepted t u).outcome := by
  rw [h.rest]
  rcases enter_cases l state accepted t u with
    ⟨hroom, henter⟩ | ⟨hroom, v, hget, henter⟩ | ⟨hroom, b, v, hget, henter⟩
  · rw [henter, hroom, Reader.tokenFrom_full, h.finish_here hl.nil]
    rfl
  · rw [henter, Reader.tokenFrom_end l hroom hget, h.finish_here hl.nil]
    rfl
  · rw [henter] at hstop ⊢
    have hstep : l.step state b = none := Option.map_eq_none_iff.1 hstop
    rw [Reader.tokenFrom_stop l hroom hget hstep, h.finish_here hl.nil]
    exact (Reader.close_concat h.longestAt_le b v).symm

end Ready

/-! ### Points that are come to -/

variable {width : Option Nat} {r : Reader S} {p q : TokenPoint σ S}

/-- A point that goes on had a byte at hand, and comes to the state behind it. -/
theorem next?_eq_some (h : p.next? l = some q) : ∃ b state', p.current = some b ∧
    l.step p.state b = some state' ∧ q = enter l state' p.accepted p.buffer p.reader := by
  obtain ⟨state', hstep, rfl⟩ := Option.map_eq_some_iff.1 h
  obtain ⟨b, hcurrent, hstep⟩ := Option.bind_eq_some_iff.1 hstep
  exact ⟨b, state', hcurrent, hstep, rfl⟩

/-- Wherever the loop comes to, it came to a state. -/
theorem Reached.ready (hl : l.NeedsMore) (h : Reached l width r p) :
    ∃ state accepted t u, Ready l width r state accepted t u ∧
      p = enter l state accepted t u := by
  induction h with
  | start => exact ⟨_, _, _, _, .start l width r, rfl⟩
  | next _ hnext ih =>
    obtain ⟨state, accepted, t, u, hready, rfl⟩ := ih
    obtain ⟨b, state', hcurrent, hstep, rfl⟩ := next?_eq_some hnext
    obtain ⟨hroom, v, hget, henter⟩ := enter_of_current hcurrent
    rw [henter] at hstep ⊢
    exact ⟨_, _, _, _, hready.next hl.nil hroom hget hstep, rfl⟩

/-- With every byte that is at hand anew, less is left of the input. -/
theorem size_next {b : Byte} (h : p.next? l = some q) (hcurrent : q.current = some b) :
    q.reader.size < p.reader.size := by
  obtain ⟨_, state', -, -, rfl⟩ := next?_eq_some h
  obtain ⟨-, v, hget, henter⟩ := enter_of_current hcurrent
  rw [henter]
  exact Reader.size_get hget

/-- The loop ends. -/
theorem Reached.exists_stopped {p : TokenPoint σ S} (h : Reached l width r p) :
    ∃ q, Reached l width r q ∧ q.next? l = none := by
  cases hnext : p.next? l with
  | none => exact ⟨p, h, hnext⟩
  | some q =>
    cases hcurrent : q.current with
    | none => exact ⟨q, h.next hnext, by rw [next?, hcurrent]; rfl⟩
    | some b => exact (h.next hnext).exists_stopped
termination_by p.reader.size
decreasing_by exact size_next hnext hcurrent

end

/-- What the loop for a token keeps to, from wherever a reader stands. -/
structure TokenLaws (l : Recogniser σ) (width : Option Nat) (r : Reader S) : Prop where
  sound : ∀ p, Reached l width r p → Sound l width r p
  stops : ∃ p, Reached l width r p ∧ p.next? l = none
  /-- The loop does what the recursion does. -/
  token : ∀ p, Reached l width r p → p.next? l = none → r.token l width = p.outcome
  /-- A token is the first of the bytes that were looked at, and the others are given back, the
  last first. -/
  settled : ∀ p, Reached l width r p → p.next? l = none →
    p.outcome = (if p.accepted = 0 then none else some (p.buffer.bytes.take p.accepted),
      (p.buffer.bytes.drop p.accepted).reverse.foldl Reader.unget p.reader)
  consumed : ∀ p, Reached l width r p → p.next? l = none →
    p.outcome.2.consumed = r.consumed + p.accepted
  /-- There is more to a token than its sign. -/
  sign : ∀ token, (r.token l width).1 = some token → signLength token < token.length

theorem consumed_foldl_unget (bytes : List Byte) (r : Reader S) :
    (bytes.foldl Reader.unget r).consumed = r.consumed - bytes.length := by
  induction bytes generalizing r with
  | nil => rfl
  | cons b bytes ih =>
    rw [List.foldl_cons, ih, List.length_cons, Nat.add_comm, Nat.sub_add_eq]
    rfl

theorem tokenLaws {l : Recogniser σ} (hl : l.NeedsMore) (width : Option Nat) (r : Reader S) :
    TokenLaws l width r := by
  have hsound : ∀ p, Reached l width r p → Sound l width r p := by
    intro p hp
    obtain ⟨state, accepted, t, u, hready, rfl⟩ := hp.ready hl
    exact hready.sound hl
  have hsettled : ∀ p : TokenPoint σ S,
      p.outcome = (if p.accepted = 0 then none else some (p.buffer.bytes.take p.accepted),
        (p.buffer.bytes.drop p.accepted).reverse.foldl Reader.unget p.reader) := by
    intro p
    rw [outcome, Reader.close, TokenBuffer.settle_eq]
  have htoken : ∀ p, Reached l width r p → p.next? l = none → r.token l width = p.outcome := by
    intro p hp hstop
    obtain ⟨state, accepted, t, u, hready, rfl⟩ := hp.ready hl
    exact hready.token_eq_outcome hl hstop
  have hstops : ∃ p, Reached l width r p ∧ p.next? l = none :=
    (Reached.start : Reached l width r _).exists_stopped
  refine ⟨hsound, hstops, htoken, fun p _ _ => hsettled p, fun p hp _ => ?_, fun token hsome => ?_⟩
  · have hle := (hsound p hp).accepted_le_length
    have hconsumed := (hsound p hp).consumed
    rw [hsettled p, consumed_foldl_unget, List.length_reverse, List.length_drop]
    omega
  · obtain ⟨p, hp, hstop⟩ := hstops
    rw [htoken p hp hstop, hsettled p] at hsome
    split at hsome
    · cases hsome
    · next haccepted =>
      obtain rfl := Option.some.inj hsome
      rw [List.length_take_of_le (hsound p hp).accepted_le_length]
      refine signLength_lt hl haccepted ?_
      rw [List.take_take, Nat.min_self]
      exact (hsound p hp).token haccepted

end TokenPoint

/-! ### Scans -/

/-- **The account of a scan is right at every point of it.** A buffer is settled on its first
bytes and the others are given back, the last first; the loops for the tokens of whole numbers and
of floating-point numbers keep to their laws from wherever a reader stands; and so does every scan
in its calls. -/
theorem Scan.accounts_for_every_byte {S M : Type} [ByteSource S] [Memory M] :
    (∀ keep bytes (r : Reader S), TokenBuffer.settle keep bytes r =
      (bytes.take keep, (bytes.drop keep).reverse.foldl Reader.unget r)) ∧
    (∀ base width (r : Reader S),
      TokenPoint.TokenLaws (IntegerToken.recogniser base) width r) ∧
    (∀ width (r : Reader S), TokenPoint.TokenLaws FloatToken.recogniser width r) ∧
    ∀ (source : S) format (frame : Frame M), CallLaws source format frame :=
  ⟨TokenBuffer.settle_eq,
    fun base => TokenPoint.tokenLaws (IntegerToken.needsMore base),
    TokenPoint.tokenLaws FloatToken.needsMore,
    callLaws⟩

end CheckedFormat
