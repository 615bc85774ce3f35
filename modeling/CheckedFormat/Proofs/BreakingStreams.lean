import CheckedFormat.Proofs.BegunNumbers
/-! Streams that break.

A transport delivers some bytes and then fails (`Transport.Breaks`), so a stream over it
holds these bytes and breaks behind them (`Stream.BreaksAfter`), and so does a reader of
the stream. Reading takes the bytes one by one up to the failure, and what is given back
comes before it again: white space is skipped in front of it, and a token that it strikes
is none just when it was begun (`Reader.tokenFrom_of_pending`,
`Reader.pending_of_tokenFrom`). -/
namespace CheckedFormat

/-! ### Transports and streams that break -/

/-- Reads deliver these bytes, in chunks of any size but zero, and then fail. -/
inductive Transport.Breaks {T : Type} [Transport T] : T → List Byte → TransportFailure → Prop where
  | fails {t t' : T} {failure : TransportFailure} :
      read t Stream.bufferSize = (.error failure, t') → Breaks t [] failure
  | chunk {t t' : T} {bytes rest : List Byte} {failure : TransportFailure} :
      read t Stream.bufferSize = (.ok bytes, t') → bytes ≠ [] → Breaks t' rest failure →
      Breaks t (bytes ++ rest) failure

namespace Transport

variable {T : Type} [Transport T] {t : T} {b : Byte} {ahead : List Byte} {failure : TransportFailure}

theorem read_of_breaks_nil (h : Breaks t [] failure) :
    ∃ t', read t Stream.bufferSize = (.error failure, t') := by
  generalize hnil : ([] : List Byte) = bytes at h
  cases h with
  | fails hread => exact ⟨_, hread⟩
  | chunk _ hne _ => exact absurd (List.append_eq_nil_iff.1 hnil.symm).1 hne

/-- What is to come starts with the next chunk. -/
theorem read_of_breaks_cons (h : Breaks t (b :: ahead) failure) :
    ∃ chunk rest t', read t Stream.bufferSize = (.ok (b :: chunk), t') ∧
      Breaks t' rest failure ∧ ahead = chunk ++ rest := by
  generalize hall : b :: ahead = all at h
  cases h with
  | fails => cases hall
  | @chunk _ t' first rest _ hread hne hrest =>
    cases first with
    | nil => exact absurd rfl hne
    | cons c chunk =>
      obtain ⟨rfl, rfl⟩ := List.cons.inj hall
      exact ⟨chunk, rest, t', hread, hrest, rfl⟩

end Transport

namespace Stream

variable {T : Type} [Transport T] {s s' : Stream T} {b : Byte} {ahead : List Byte}
  {failure : TransportFailure}

/-- Open, and open for reading. -/
def Serves (s : Stream T) : Prop := s.closed = false ∧ s.flags.readable = true

/-- A stream from which these bytes are to be read, and then comes the failure. -/
def BreaksAfter (s : Stream T) (ahead : List Byte) (failure : TransportFailure) : Prop :=
  s.Serves ∧ ∃ rest, Transport.Breaks s.transport rest failure ∧ ahead = s.unread ++ rest

/-- How a stream that serves answers when it is asked for a byte: it delivers one that it
holds, or else hands on what its transport says. -/
inductive Served (s : Stream T) : Except StreamError (Option Byte) × Stream T → Prop where
  | held {s' : Stream T} {b : Byte} {rest : List Byte} : s.unread = b :: rest →
      s'.unread = rest → s'.transport = s.transport → s'.Serves → Served s (.ok (some b), s')
  | fetched {s' : Stream T} {b : Byte} {rest : List Byte} : s.unread = [] →
      Transport.read s.transport bufferSize = (.ok (b :: rest), s'.transport) →
      s'.unread = rest → s'.Serves → Served s (.ok (some b), s')
  | atEnd {s' : Stream T} : s.unread = [] →
      Transport.read s.transport bufferSize = (.ok [], s'.transport) →
      Served s (.ok none, s')
  | failed {s' : Stream T} {failure : TransportFailure} : s.unread = [] →
      Transport.read s.transport bufferSize = (.error failure, s'.transport) →
      Served s (.error (.transport failure), s')

theorem served_getByte (h : s.Serves) : s.Served s.getByte := by
  obtain ⟨hopen, hreadable⟩ := h
  cases hpushback : s.pushback with
  | cons b pushback =>
    have hget : s.getByte = (.ok (some b), { s with pushback }) := by
      simp [getByte, hopen, hreadable, hpushback]
    have hunread : s.unread = b :: (pushback ++ s.buffer) := by rw [unread, hpushback]; rfl
    rw [hget]
    exact .held hunread rfl rfl ⟨hopen, hreadable⟩
  | nil =>
    cases hbuffer : s.buffer with
    | cons b buffer =>
      have hget : s.getByte = (.ok (some b), { s with buffer }) := by
        simp [getByte, hopen, hreadable, hpushback, hbuffer]
      have hunread : s.unread = b :: buffer := by rw [unread, hpushback, hbuffer]; rfl
      rw [hget]
      exact .held hunread (by simp [unread, hpushback]) rfl ⟨hopen, hreadable⟩
    | nil =>
      have hunread : s.unread = [] := by rw [unread, hpushback, hbuffer]; rfl
      rcases hread : Transport.read s.transport bufferSize with ⟨failure | bytes, transport⟩
      · have hget : s.getByte =
            (.error (.transport failure), { s with transport, error := true }) := by
          simp [getByte, hopen, hreadable, hpushback, hbuffer, hread]
        rw [hget]
        exact .failed hunread hread
      · cases bytes with
        | nil =>
          have hget : s.getByte = (.ok none, { s with transport, eof := true }) := by
            simp [getByte, hopen, hreadable, hpushback, hbuffer, hread]
          rw [hget]
          exact .atEnd hunread hread
        | cons b rest =>
          have hget : s.getByte = (.ok (some b), { s with transport, buffer := rest }) := by
            simp [getByte, hopen, hreadable, hpushback, hbuffer, hread]
          rw [hget]
          exact .fetched hunread hread (by simp [unread, hpushback]) ⟨hopen, hreadable⟩

/-- A byte comes only from a stream that serves. -/
theorem serves_of_getByte (h : s.getByte = (.ok (some b), s')) : s.Serves := by
  unfold getByte at h
  split at h
  · cases h
  · rename_i hclosed
    split at h
    · cases h
    · rename_i hreadable
      exact ⟨by simpa using hclosed, by simpa using hreadable⟩

theorem breaksAfter_nil_iff (h : s.Serves) :
    s.BreaksAfter [] failure ↔ ∃ s', s.getByte = (.error (.transport failure), s') := by
  have hserved := served_getByte h
  constructor
  · rintro ⟨-, rest, hrest, hall⟩
    obtain ⟨hunread, rfl⟩ := List.append_eq_nil_iff.1 hall.symm
    obtain ⟨t, hread⟩ := Transport.read_of_breaks_nil hrest
    generalize s.getByte = answer at hserved
    cases hserved with
    | held hsome => rw [hunread] at hsome; cases hsome
    | fetched _ hread' | atEnd _ hread' => rw [hread] at hread'; cases hread'
    | failed _ hread' =>
      rw [hread] at hread'
      cases hread'
      exact ⟨_, rfl⟩
  · rintro ⟨s', hget⟩
    rw [hget] at hserved
    cases hserved with
    | failed hunread hread => exact ⟨h, [], .fails hread, by rw [hunread]; rfl⟩

theorem breaksAfter_cons_iff (h : s.Serves) :
    s.BreaksAfter (b :: ahead) failure ↔
      ∃ s', s.getByte = (.ok (some b), s') ∧ s'.BreaksAfter ahead failure := by
  have hserved := served_getByte h
  constructor
  · rintro ⟨-, rest, hrest, hall⟩
    by_cases hunread : s.unread = []
    · rw [hunread] at hall
      replace hall : b :: ahead = rest := hall
      rw [← hall] at hrest
      obtain ⟨chunk, later, t, hread, hlater, rfl⟩ := Transport.read_of_breaks_cons hrest
      generalize s.getByte = answer at hserved
      cases hserved with
      | held hsome => rw [hunread] at hsome; cases hsome
      | fetched _ hread' hunread' hserves =>
        rw [hread] at hread'
        cases hread'
        exact ⟨_, rfl, hserves, later, hlater, by rw [hunread']⟩
      | atEnd _ hread' | failed _ hread' => rw [hread] at hread'; cases hread'
    · generalize s.getByte = answer at hserved
      cases hserved with
      | held hsome hunread' htransport hserves =>
        rw [hsome] at hall
        obtain ⟨rfl, rfl⟩ := List.cons.inj hall
        exact ⟨_, rfl, hserves, rest, htransport ▸ hrest, by rw [hunread']; rfl⟩
      | fetched hnone | atEnd hnone | failed hnone => exact absurd hnone hunread
  · rintro ⟨s', hget, -, rest, hrest, rfl⟩
    rw [hget] at hserved
    cases hserved with
    | held hunread hunread' htransport _ =>
      refine ⟨h, rest, htransport ▸ hrest, ?_⟩
      rw [hunread, hunread', List.cons_append]
    | fetched hunread hread hunread' _ =>
      refine ⟨h, _, .chunk hread nofun hrest, ?_⟩
      rw [hunread, hunread']
      rfl

omit [Transport T] in
theorem ungetByte_of_serves (h : s.Serves) (b : Byte) :
    (s.ungetByte b).2 = { s with pushback := b :: s.pushback, eof := false } := by
  simp [ungetByte, h.1, h.2]

theorem breaksAfter_ungetByte (h : s.Serves) :
    (s.ungetByte b).2.BreaksAfter ahead failure ↔
      ∃ behind, ahead = b :: behind ∧ s.BreaksAfter behind failure := by
  rw [ungetByte_of_serves h]
  constructor
  · rintro ⟨-, rest, hrest, rfl⟩
    exact ⟨s.unread ++ rest, rfl, h, rest, hrest, rfl⟩
  · rintro ⟨behind, rfl, -, rest, hrest, rfl⟩
    exact ⟨h, rest, hrest, rfl⟩

end Stream

/-! ### Readers of streams that break -/

namespace Reader

section Mismatches
variable {S : Type} [ByteSource S] {r r' u : Reader S} {b : Byte}

/-- Where a byte comes there was no read error. -/
theorem failure_of_get (h : r.get = (some b, r')) : r.failure = none ∧ r'.failure = none := by
  unfold get at h
  split at h
  · cases h
  · rename_i hnone
    split at h <;> cases h
    exact ⟨hnone, hnone⟩

theorem failure_of_expect {bytes : List Byte} (h : expect bytes r = (.mismatch, u)) :
    u.failure = none := by
  induction bytes generalizing r with
  | nil => cases h
  | cons want rest ih =>
    unfold expect at h
    split at h
    · cases h
    · rename_i b r' hget
      split at h
      · exact ih h
      · cases h
        exact (failure_of_get hget).2

theorem failure_of_takeWhile {keep : Byte → Bool} {width : Option Nat} (hwidth : width ≠ some 0)
    (hempty : (r.takeWhile keep width).1.bytes = [])
    (hends : (r.takeWhile keep width).1.atEnd = false) :
    (r.takeWhile keep width).2.failure = none := by
  cases hget : r.get with
  | mk result r' =>
    cases result with
    | none =>
      rw [takeWhile_end hwidth hget] at hends
      cases hends
    | some b =>
      rw [takeWhile_byte hwidth hget] at hempty ⊢
      split at hempty
      · cases hempty
      · rename_i hkeep
        rw [if_neg hkeep]
        exact (failure_of_get hget).2

end Mismatches

variable {T : Type} [Transport T] {r r' u : Reader (Stream T)} {b : Byte} {ahead : List Byte}
  {failure : TransportFailure} {e : StreamError}

/-- A reader that met no error, of a stream that breaks behind these bytes. -/
def BreaksAfter (r : Reader (Stream T)) (ahead : List Byte) (failure : TransportFailure) : Prop :=
  r.failure = none ∧ r.source.BreaksAfter ahead failure

theorem get_of_stream (h : r.failure = none) :
    r.get = match r.source.getByte with
      | (.ok (some b), source) => (some b, { r with source, consumed := r.consumed + 1 })
      | (.ok none, source) => (none, { r with source })
      | (.error e, source) => (none, { r with source, failure := some e }) := by
  have hnext : ByteSource.next r.source = r.source.getByte := rfl
  unfold get
  rw [h, hnext]
  obtain ⟨e | _ | b, source⟩ := r.source.getByte <;> rfl

theorem getByte_of_get (h : r.get = (some b, r')) :
    r.source.getByte = (.ok (some b), r'.source) := by
  rw [get_of_stream (failure_of_get h).1] at h
  split at h <;> cases h
  assumption

theorem get_of_breaksAfter_nil (h : r.BreaksAfter [] failure) :
    ∃ r', r.get = (none, r') ∧ r'.failure = some (.transport failure) := by
  obtain ⟨s', hget⟩ := (Stream.breaksAfter_nil_iff h.2.1).1 h.2
  rw [get_of_stream h.1, hget]
  exact ⟨_, rfl, rfl⟩

theorem get_of_breaksAfter_cons (h : r.BreaksAfter (b :: ahead) failure) :
    ∃ r', r.get = (some b, r') ∧ r'.BreaksAfter ahead failure := by
  obtain ⟨s', hget, hbreaks⟩ := (Stream.breaksAfter_cons_iff h.2.1).1 h.2
  rw [get_of_stream h.1, hget]
  exact ⟨_, rfl, h.1, hbreaks⟩

/-- A failure that a reader meets is its transport's. -/
theorem breaksAfter_of_get_end (hserves : r.source.Serves) (hnone : r.failure = none)
    (h : r.get = (none, r')) (hfailure : r'.failure = some e) :
    ∃ failure, r.BreaksAfter [] failure := by
  have hserved := Stream.served_getByte hserves
  rw [get_of_stream hnone] at h
  split at h <;> cases h
  · exact absurd (hnone.symm.trans hfailure) nofun
  · rename_i hget
    rw [hget] at hserved
    cases hserved
    exact ⟨_, hnone, (Stream.breaksAfter_nil_iff hserves).2 ⟨_, hget⟩⟩

theorem breaksAfter_of_get_byte (h : r.get = (some b, r')) (hbreaks : r'.BreaksAfter ahead failure) :
    r.BreaksAfter (b :: ahead) failure := by
  have hget := getByte_of_get h
  exact ⟨(failure_of_get h).1,
    (Stream.breaksAfter_cons_iff (Stream.serves_of_getByte hget)).2 ⟨_, hget, hbreaks.2⟩⟩

theorem serves_of_get (h : r.get = (some b, r')) : r'.source.Serves := by
  have hget := getByte_of_get h
  have hserved := Stream.served_getByte (Stream.serves_of_getByte hget)
  rw [hget] at hserved
  cases hserved <;> assumption

theorem breaksAfter_unget (hserves : r.source.Serves) :
    (r.unget b).BreaksAfter ahead failure ↔
      ∃ behind, ahead = b :: behind ∧ r.BreaksAfter behind failure := by
  have hstream : (r.source.ungetByte b).2.BreaksAfter ahead failure ↔
      ∃ behind, ahead = b :: behind ∧ r.source.BreaksAfter behind failure :=
    Stream.breaksAfter_ungetByte hserves
  constructor
  · rintro ⟨hnone, hbreaks⟩
    obtain ⟨behind, hahead, hbehind⟩ := hstream.1 hbreaks
    exact ⟨behind, hahead, hnone, hbehind⟩
  · rintro ⟨behind, hahead, hnone, hbehind⟩
    exact ⟨hnone, hstream.2 ⟨behind, hahead, hbehind⟩⟩

/-- White space is skipped before the failure, if anything stands behind it. -/
theorem skipSpace_of_breaksAfter (h : r.BreaksAfter ahead failure)
    (hsome : ahead.dropWhile Byte.isSpace ≠ []) :
    ∃ u, r.skipSpace = (true, u) ∧ u.BreaksAfter (ahead.dropWhile Byte.isSpace) failure := by
  induction ahead generalizing r with
  | nil => exact absurd rfl hsome
  | cons b ahead ih =>
    obtain ⟨r', hget, hbreaks⟩ := get_of_breaksAfter_cons h
    rw [skipSpace_byte hget]
    cases hb : b.isSpace with
    | true =>
      rw [List.dropWhile_cons_of_pos hb] at hsome ⊢
      exact ih hbreaks hsome
    | false =>
      rw [List.dropWhile_cons_of_neg (by simp [hb])]
      exact ⟨r'.unget b, rfl, (breaksAfter_unget (serves_of_get hget)).2 ⟨ahead, rfl, hbreaks⟩⟩

/-- Where something stands behind white space, the stream before it breaks where the one
behind it does. -/
theorem breaksAfter_of_skipSpace {r u : Reader (Stream T)} (h : r.skipSpace = (true, u)) :
    u.failure = none ∧ u.source.Serves ∧ ∀ {text failure}, u.BreaksAfter text failure →
      text ≠ [] ∧ ∃ ahead, r.BreaksAfter ahead failure ∧ ahead.dropWhile Byte.isSpace = text := by
  cases hget : r.get with
  | mk result r' =>
    cases result with
    | none =>
      rw [skipSpace_end hget] at h
      cases h
    | some b =>
      rw [skipSpace_byte hget] at h
      cases hb : b.isSpace with
      | true =>
        rw [if_pos hb] at h
        obtain ⟨hnone, hserves, hbehind⟩ := breaksAfter_of_skipSpace h
        refine ⟨hnone, hserves, fun hbreaks => ?_⟩
        obtain ⟨hsome, ahead, hahead, htext⟩ := hbehind hbreaks
        exact ⟨hsome, b :: ahead, breaksAfter_of_get_byte hget hahead,
          by rw [List.dropWhile_cons_of_pos hb, htext]⟩
      | false =>
        rw [if_neg (by simp [hb])] at h
        cases h
        have hserves := serves_of_get hget
        refine ⟨(failure_of_get hget).2, ?_, fun hbreaks => ?_⟩
        · show ((r'.source.ungetByte b).2).Serves
          rw [Stream.ungetByte_of_serves hserves]
          exact hserves
        · obtain ⟨ahead, rfl, hahead⟩ := (breaksAfter_unget hserves).1 hbreaks
          exact ⟨nofun, b :: ahead, breaksAfter_of_get_byte hget hahead,
            List.dropWhile_cons_of_neg (by simp [hb])⟩
termination_by r.size
decreasing_by exact size_get hget

section Tokens
variable {σ : Type} {l : Recogniser σ} {state : σ} {width : Option Nat}

theorem here_eq_none_iff : l.here state = none ↔ l.accepts state = false := by
  unfold Recogniser.here
  cases l.accepts state <;> simp

theorem lessOne_room {n : Nat} (h : ∀ w, width = some w → n + 1 < w) :
    ∀ w, lessOne width = some w → n < w := by
  cases width with
  | none => exact nofun
  | some k =>
    intro w hw
    have hk := h k rfl
    have hless : k - 1 = w := Option.some.inj hw
    omega

theorem room_of_lessOne {n : Nat} (hwidth : width ≠ some 0)
    (h : ∀ w, lessOne width = some w → n < w) : ∀ w, width = some w → n + 1 < w := by
  rintro w rfl
  have hw := h (w - 1) rfl
  omega

/-- Where the failure strikes a token that is begun there is none. -/
theorem tokenFrom_of_pending (h : r.BreaksAfter ahead failure) (hpending : l.Pending state ahead)
    (hroom : ∀ w, width = some w → ahead.length < w) :
    ∃ u, tokenFrom l state width r = (none, u) ∧ u.failure = some (.transport failure) := by
  have hwidth : width ≠ some 0 := fun h0 => absurd (hroom 0 h0) (Nat.not_lt_zero _)
  induction hpending generalizing r width with
  | nil hrefused =>
    obtain ⟨r', hget, hfailure⟩ := get_of_breaksAfter_nil h
    rw [tokenFrom_end l hwidth hget, here_eq_none_iff.2 hrefused]
    exact ⟨r', rfl, hfailure⟩
  | @cons state next b text hrefused hstep hrest ih =>
    obtain ⟨r', hget, hbreaks⟩ := get_of_breaksAfter_cons h
    have hless := lessOne_room hroom
    obtain ⟨u, htoken, hfailure⟩ :=
      ih hbreaks hless fun h0 => absurd (hless 0 h0) (Nat.not_lt_zero _)
    rw [tokenFrom_retreat l hwidth hget hstep htoken, here_eq_none_iff.2 hrefused]
    exact ⟨u.unget b, rfl, hfailure⟩

/-- Where there is no token, and a failure came, it struck one that was begun. -/
theorem pending_of_tokenFrom {r u : Reader (Stream T)} {state : σ} {width : Option Nat}
    (hserves : r.source.Serves) (hnone : r.failure = none)
    (h : tokenFrom l state width r = (none, u)) (hfailure : u.failure = some e) :
    ∃ ahead failure, r.BreaksAfter ahead failure ∧ l.Pending state ahead ∧
      ∀ w, width = some w → ahead.length < w := by
  by_cases hwidth : width = some 0
  · rw [hwidth, tokenFrom_full] at h
    obtain ⟨-, rfl⟩ := Prod.ext_iff.1 h
    exact absurd (hnone.symm.trans hfailure) nofun
  · cases hget : r.get with
    | mk result r' =>
      cases result with
      | none =>
        rw [tokenFrom_end l hwidth hget] at h
        obtain ⟨hhere, rfl⟩ := Prod.ext_iff.1 h
        obtain ⟨failure, hbreaks⟩ := breaksAfter_of_get_end hserves hnone hget hfailure
        refine ⟨[], failure, hbreaks, .nil (here_eq_none_iff.1 hhere), fun w hw => ?_⟩
        exact Nat.pos_of_ne_zero fun h0 => hwidth (h0 ▸ hw)
      | some b =>
        cases hstep : l.step state b with
        | none =>
          rw [tokenFrom_stop l hwidth hget hstep] at h
          obtain ⟨-, rfl⟩ := Prod.ext_iff.1 h
          exact absurd ((failure_of_get hget).2.symm.trans hfailure) nofun
        | some next =>
          cases htoken : tokenFrom l next (lessOne width) r' with
          | mk token r'' =>
            cases token with
            | some rest =>
              rw [tokenFrom_extend l hwidth hget hstep htoken] at h
              cases h
            | none =>
              rw [tokenFrom_retreat l hwidth hget hstep htoken] at h
              obtain ⟨hhere, rfl⟩ := Prod.ext_iff.1 h
              obtain ⟨ahead, failure, hbreaks, hpending, hroom⟩ :=
                pending_of_tokenFrom (serves_of_get hget) (failure_of_get hget).2 htoken hfailure
              exact ⟨b :: ahead, failure, breaksAfter_of_get_byte hget hbreaks,
                .cons (here_eq_none_iff.1 hhere) hstep hpending, room_of_lessOne hwidth hroom⟩
termination_by r.size
decreasing_by exact size_get hget

end Tokens
end Reader

end CheckedFormat
