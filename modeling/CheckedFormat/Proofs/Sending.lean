import CheckedFormat.Proofs.Recorder
import CheckedFormat.Stream.Scripted
/-! What writes bring to a transport.

A transport may take any part of what a write gives it, and the stream sends the rest again.
What the transport received, over all writes, is a front of the bytes, each once and in
order (`send_received`); and all of them where every write takes some (`TakesSome`). A
stream that is written to first moves its transport back over the bytes that were not yet
read (`write_recorded`). -/
namespace CheckedFormat

namespace TransportCall

/-- The bytes that a call brought to the transport: those that a write took. -/
def received : TransportCall → List Byte
  | write bytes (.ok n) => bytes.take n
  | _ => []

def isWrite : TransportCall → Bool
  | write .. => true
  | _ => false

end TransportCall

namespace Transport
variable {T : Type} [Transport T]

/-- The transport after writes of these bytes. -/
def afterWrites : List (List Byte) → T → T
  | [], t => t
  | bytes :: rest, t => afterWrites rest (write t bytes).2

/-- Every write that is given something takes some of it, now and ever after. -/
def TakesSome (t : T) : Prop :=
  ∀ earlier : List (List Byte), (∀ bytes ∈ earlier, bytes ≠ []) → ∀ bytes ≠ [],
    ∃ n, 0 < n ∧ n ≤ bytes.length ∧ (write (afterWrites earlier t) bytes).1 = .ok n

theorem TakesSome.write {t : T} (h : TakesSome t) {bytes : List Byte} (hbytes : bytes ≠ []) :
    ∃ n t', Transport.write t bytes = (.ok (n + 1), t') ∧ n + 1 ≤ bytes.length ∧ TakesSome t' := by
  obtain ⟨n, hpos, hle, hresult⟩ := h [] nofun bytes hbytes
  obtain ⟨n, rfl⟩ := Nat.exists_eq_add_one.2 hpos
  refine ⟨n, _, Prod.ext hresult rfl, hle, fun earlier hearlier => ?_⟩
  exact h (bytes :: earlier) (List.forall_mem_cons.2 ⟨hbytes, hearlier⟩)

end Transport

namespace Stream
open Transport (TakesSome)

variable {T : Type} [Transport T]

/-- Sending makes writes only, and what they took are the bytes up to where it came. -/
theorem send_received (r : Recorder T) (bytes : List Byte) :
    ∃ writes, (send r bytes).2.2.calls = r.calls ++ writes ∧
      (∀ call ∈ writes, call.isWrite = true) ∧
      writes.flatMap TransportCall.received = bytes.take (send r bytes).1 := by
  induction hsize : bytes.length using Nat.strongRecOn generalizing r bytes with
  | ind size ih =>
    cases bytes with
    | nil => exact ⟨[], by simp [send]⟩
    | cons b rest =>
      rw [send]
      simp only [Recorder.write_eq, Recorder.behind]
      obtain ⟨result, inner⟩ := Transport.write r.inner (b :: rest)
      obtain failure | _ | n := result
      · exact ⟨[.write (b :: rest) (.error failure)], rfl, by simp [TransportCall.isWrite], rfl⟩
      · exact ⟨[.write (b :: rest) (.ok 0)], rfl, by simp [TransportCall.isWrite], rfl⟩
      · obtain ⟨writes, hcalls, hwrites, hreceived⟩ := ih (rest.drop n).length
          (by simp only [List.length_drop, List.length_cons] at hsize ⊢; omega)
          ⟨inner, r.calls ++ [.write (b :: rest) (.ok (n + 1))]⟩ (rest.drop n) rfl
        refine ⟨.write (b :: rest) (.ok (n + 1)) :: writes, ?_,
          List.forall_mem_cons.2 ⟨rfl, hwrites⟩, ?_⟩
        · rw [hcalls, List.append_assoc, List.singleton_append]
        · rw [List.flatMap_cons, hreceived, List.take_add]
          rfl

/-- Where every write takes some, all is sent. -/
theorem send_of_takesSome {t : T} (h : TakesSome t) (bytes : List Byte) :
    ∃ t', send t bytes = (bytes.length, none, t') := by
  induction hsize : bytes.length using Nat.strongRecOn generalizing t bytes with
  | ind size ih =>
    cases bytes with
    | nil => exact ⟨t, by rw [send, ← hsize]; rfl⟩
    | cons b rest =>
      obtain ⟨n, t', hwrite, hle, hlater⟩ := h.write (List.cons_ne_nil b rest)
      obtain ⟨t'', hrest⟩ := ih (rest.drop n).length
        (by simp only [List.length_drop, List.length_cons] at hsize ⊢; omega) hlater
        (rest.drop n) rfl
      refine ⟨t'', ?_⟩
      rw [send, hwrite]
      dsimp only
      rw [hrest, List.length_drop, ← hsize, List.length_cons]
      rw [List.length_cons] at hle
      have hlength : n + 1 + (rest.length - n) = rest.length + 1 := by omega
      rw [hlength]

/-- A write whose transport does not go back sends nothing. -/
theorem writePartial_of_stuck {s t : Stream T} {e : StreamError} (hopen : s.closed = false)
    (hwritable : s.flags.writable = true) (hback : s.stepBack = (.error e, t))
    (bytes : List Byte) : s.writePartial bytes = (0, some e, t.raiseError) := by
  rw [writePartial, hopen, hwritable, hback]
  rfl

/-- A write whose transport went back sends the bytes. -/
theorem writePartial_of_stepBack {s t : Stream T} {bytes : List Byte} {sent : Nat}
    {failure : Option TransportFailure} {last : T} (hopen : s.closed = false)
    (hwritable : s.flags.writable = true) (hback : s.stepBack = (.ok (), t))
    (hsend : send t.transport bytes = (sent, failure, last)) :
    s.writePartial bytes = (sent, failure.map .transport,
      { t with transport := last, error := t.error || failure.isSome }) := by
  rw [writePartial, hopen, hwritable, hback]
  dsimp only
  rw [hsend]
  cases failure with
  | none => simp
  | some failure => simp [raiseError]

/-- A stream that everything can be written to: it is open for writing, its transport goes
back over what is unread, and takes something with every write. -/
structure TakesWrites (s : Stream T) : Prop where
  opened : s.closed = false
  writable : s.flags.writable = true
  takes : TakesSome s.transport
  goesBack : ∃ offset t,
    Transport.seek s.transport (.current (-s.unread.length)) = (.ok offset, t) ∧ TakesSome t

/-- The calls before a write: none, or one back over what is unread. -/
def CallsBack (s : Stream T) (calls : List TransportCall) : Prop :=
  s.unread = [] ∧ calls = [] ∨
    s.unread ≠ [] ∧ ∃ offset, calls = [.seek (.current (-s.unread.length)) (.ok offset)]

/-- How a stream goes back over what is unread, and what its transport sees of that. -/
inductive GoesBack (s : Stream T) : Except StreamError Unit × Stream (Recorder T) → Prop where
  | nothing : s.unread = [] → GoesBack s (.ok (), (s.withTransport ⟨s.transport, []⟩).dropUnread)
  | moved {offset : Nat} {t : T} : s.unread ≠ [] →
      Transport.seek s.transport (.current (-s.unread.length)) = (.ok offset, t) →
      GoesBack s (.ok (), (s.withTransport
        ⟨t, [.seek (.current (-s.unread.length)) (.ok offset)]⟩).dropUnread)
  | stuck {failure : TransportFailure} {t : T} : s.unread ≠ [] →
      Transport.seek s.transport (.current (-s.unread.length)) = (.error failure, t) →
      GoesBack s (.error (.transport failure), s.withTransport
        ⟨t, [.seek (.current (-s.unread.length)) (.error failure)]⟩)

theorem stepBack_recorded (s : Stream T) : s.GoesBack s.recorded.stepBack := by
  by_cases hunread : s.unread = []
  · obtain ⟨hpushback, hbuffer⟩ := List.append_eq_nil_iff.1 hunread
    have hnone : s.recorded.unread.isEmpty = true := List.isEmpty_iff.2 hunread
    have hback : s.recorded.stepBack =
        (.ok (), (s.withTransport ⟨s.transport, []⟩).dropUnread) := by
      rw [Stream.stepBack, if_pos hnone]
      simp only [recorded, withTransport, dropUnread, hpushback, hbuffer]
    rw [hback]
    exact .nothing hunread
  · have hsome : ¬ s.recorded.unread.isEmpty = true := fun hnone =>
      hunread (List.isEmpty_iff.1 hnone)
    rcases hseek : Transport.seek s.transport (.current (-s.unread.length)) with ⟨result, t⟩
    have hcall : Transport.seek s.recorded.transport (.current (-s.recorded.unread.length)) =
        (result, ⟨t, [.seek (.current (-s.unread.length)) result]⟩) := by
      show Recorder.behind _ _ (Transport.seek s.transport (.current (-s.unread.length))) = _
      rw [hseek]
      rfl
    rw [Stream.stepBack, if_neg hsome, hcall]
    cases result with
    | ok offset => exact .moved hunread hseek
    | error failure => exact .stuck hunread hseek

/-- Going back leaves the stream without unread bytes, in front of a transport that takes
something with every write. -/
theorem TakesWrites.stepBack {s : Stream T} (h : s.TakesWrites) :
    ∃ r : Recorder T, s.recorded.stepBack = (.ok (), (s.withTransport r).dropUnread) ∧
      s.CallsBack r.calls ∧ TakesSome r.inner := by
  have hback := s.stepBack_recorded
  generalize s.recorded.stepBack = result at hback
  obtain ⟨offset, t, hgoes, htakes⟩ := h.goesBack
  cases hback with
  | nothing hunread => exact ⟨_, rfl, .inl ⟨hunread, rfl⟩, h.takes⟩
  | moved hunread hseek =>
    rw [hgoes] at hseek
    cases hseek
    exact ⟨_, rfl, .inr ⟨hunread, offset, rfl⟩, htakes⟩
  | stuck _ hseek =>
    rw [hgoes] at hseek
    cases hseek

/-- Writing to such a stream brings all bytes to the transport, once and in order. -/
theorem write_recorded {s : Stream T} (h : s.TakesWrites) (bytes : List Byte) :
    ∃ r : Recorder T, s.recorded.write bytes =
        (.ok bytes.length, (s.withTransport r).dropUnread) ∧
      ∃ back writes, r.calls = back ++ writes ∧ s.CallsBack back ∧
        (∀ call ∈ writes, call.isWrite = true) ∧
        writes.flatMap TransportCall.received = bytes := by
  obtain ⟨r, hback, hcalls, htakes⟩ := h.stepBack
  obtain ⟨t', hinner⟩ := send_of_takesSome htakes bytes
  obtain ⟨writes, hwrites, hall, hreceived⟩ := send_received r bytes
  rw [send_bare] at hinner
  rcases hsend : send r bytes with ⟨n, failure, last⟩
  rw [hsend] at hinner hwrites hreceived
  obtain ⟨rfl, hnone⟩ : n = bytes.length ∧ failure = none :=
    ⟨congrArg Prod.fst hinner, congrArg (·.2.1) hinner⟩
  subst hnone
  have hopen : s.recorded.closed = false := h.opened
  have hwritable : s.recorded.flags.writable = true := h.writable
  have hpartial : s.recorded.writePartial bytes =
      (bytes.length, none, (s.withTransport last).dropUnread) := by
    rw [writePartial, hopen, hwritable, hback]
    simp only [Bool.false_eq_true, if_false, Bool.not_true, withTransport, dropUnread, hsend]
  refine ⟨last, ?_, r.calls, writes, hwrites, hcalls, hall, ?_⟩
  · rw [write, hpartial]
  · rw [hreceived, List.take_length]

end Stream

/-! ### Scripted files -/

namespace ScriptedFile

/-- A script without write failures and without a capacity takes some of every write. -/
theorem takesSome {f : ScriptedFile} (hwrites : f.script.writesUntilFailure = none)
    (hcapacity : f.script.capacity = none) (hchunk : f.script.chunk ≠ some 0) :
    Transport.TakesSome f := by
  have hwrite : ∀ g : ScriptedFile, g.script = f.script → ∀ bytes,
      (Transport.write g bytes).1 = .ok (atMost f.script.chunk bytes.length) ∧
        (Transport.write g bytes).2.script = f.script := by
    intro g hscript bytes
    show (g.write bytes).1 = _ ∧ (g.write bytes).2.script = _
    simp [ScriptedFile.write, hscript, hwrites, accepted, hcapacity, atMost]
  have hscript : ∀ (earlier : List (List Byte)) (g : ScriptedFile), g.script = f.script →
      (Transport.afterWrites earlier g).script = f.script := by
    intro earlier
    induction earlier with
    | nil => exact fun g hg => hg
    | cons bytes rest ih => exact fun g hg => ih _ (hwrite g hg bytes).2
  intro earlier _ bytes hbytes
  have hlength := List.length_pos_iff.2 hbytes
  refine ⟨_, ?_, ?_, (hwrite _ (hscript earlier f rfl) bytes).1⟩
  all_goals
    cases hc : f.script.chunk with
    | none => simp [atMost, hlength]
    | some c =>
      have hpos : c ≠ 0 := fun hzero => hchunk (by rw [hc, hzero])
      simp only [atMost, Option.map_some, Option.getD_some]
      omega

end ScriptedFile
end CheckedFormat
