import CheckedFormat.Proofs.ScanPairs
import CheckedFormat.Scan.Engine
/-! Sources that keep their calls.

A `SourceRecorder` is a source with the calls that were made to it and what each of them gave. It
answers as the source inside it does, so a scan does over the recorder what it does over the
source (`scan_bare`). A reader over a recorder makes its calls one by one: each point of a run is
where the calls so far lead (`Trail`). At each of them the calls have given back no byte but the
latest that was held, and the reader has counted those that are held (`Trail.accounts`). -/
namespace CheckedFormat

/-- A call of a source, and what it gave. -/
inductive SourceCall where
  | next (result : Except StreamError (Option Byte))
  | unread (b : Byte)

namespace SourceCall

/-- The byte that the call obtained, if it did. -/
def obtained? : SourceCall → Option Byte
  | next (.ok result) => result
  | _ => none

/-- The byte that the call gave back, if it did. -/
def unread? : SourceCall → Option Byte
  | unread b => some b
  | next _ => none

end SourceCall

/-- The bytes that the calls obtained. -/
def obtained (calls : List SourceCall) : List Byte := calls.filterMap (·.obtained?)

/-- The bytes that the calls gave back. -/
def givenBack (calls : List SourceCall) : List Byte := calls.filterMap (·.unread?)

/-- The calls give back only what they hold, the latest byte first. The list is what they hold
in the end, the latest first. -/
inductive Keeps : List SourceCall → List Byte → Prop where
  | nil : Keeps [] []
  | next {calls : List SourceCall} {held : List Byte} (result : Except StreamError (Option Byte))
      (h : Keeps calls held) :
      Keeps (calls ++ [.next result]) ((SourceCall.next result).obtained?.toList ++ held)
  | unread {calls : List SourceCall} {held : List Byte} {b : Byte} (h : Keeps calls (b :: held)) :
      Keeps (calls ++ [.unread b]) held

/-- What was obtained is held or was given back. -/
theorem Keeps.balance {calls : List SourceCall} {held : List Byte} (h : Keeps calls held) :
    (obtained calls).length = held.length + (givenBack calls).length := by
  induction h with
  | nil => rfl
  | next result _ ih =>
    unfold obtained givenBack at ih ⊢
    rw [List.filterMap_append, List.filterMap_append, List.length_append, List.length_append, ih,
      List.length_append]
    cases hbyte : (SourceCall.next result).obtained? with
    | none => simp [hbyte, SourceCall.unread?]
    | some b =>
      simp only [List.filterMap_cons, List.filterMap_nil, hbyte, SourceCall.unread?]
      simp only [Option.toList_some, List.length_cons, List.length_nil]
      omega
  | unread _ ih =>
    unfold obtained givenBack at ih ⊢
    rw [List.filterMap_append, List.filterMap_append, List.length_append, List.length_append, ih]
    show _ + 0 = _ + (_ + 1)
    rw [List.length_cons]
    omega

/-! ### Recorders -/

/-- A source and the calls made to it, the oldest first. -/
structure SourceRecorder (S : Type) where
  inner : S
  calls : List SourceCall

instance {S : Type} [ByteSource S] : ByteSource (SourceRecorder S) where
  next s := ((ByteSource.next s.inner).1,
    ⟨(ByteSource.next s.inner).2, s.calls ++ [.next (ByteSource.next s.inner).1]⟩)
  unread s b := ⟨ByteSource.unread s.inner b, s.calls ++ [.unread b]⟩
  size s := ByteSource.size s.inner
  size_next h := by
    obtain ⟨hresult, hlater⟩ := Prod.mk.inj h
    rw [← hlater]
    exact ByteSource.size_next (Prod.ext hresult rfl)

namespace Reader
variable {S : Type}

/-- The reader over the source inside the recorder. -/
def bare (r : Reader (SourceRecorder S)) : Reader S := ⟨r.source.inner, r.consumed, r.failure⟩

variable [ByteSource S]

theorem get_bare (r : Reader (SourceRecorder S)) : r.bare.get = (r.get.1, r.get.2.bare) := by
  cases hfailure : r.failure with
  | some e => simp [get, bare, hfailure]
  | none =>
    rcases hnext : ByteSource.next r.source.inner with ⟨_ | _ | b, inner⟩ <;>
      simp [get, bare, hfailure, ByteSource.next, hnext]

/-- A reader that met no error calls its source for a byte. -/
theorem get_of_no_failure (r : Reader (SourceRecorder S)) (h : r.failure = none) :
    r.get.1 = (SourceCall.next (ByteSource.next r.source).1).obtained? ∧
      r.get.2.source.calls = r.source.calls ++ [.next (ByteSource.next r.source).1] ∧
      r.get.2.consumed = r.consumed + r.get.1.toList.length := by
  unfold get
  rw [h]
  rcases hnext : ByteSource.next r.source.inner with ⟨_ | _ | b, inner⟩ <;>
    simp [ByteSource.next, hnext, SourceCall.obtained?]

/-- Does what the call says. -/
def perform (r : Reader S) : SourceCall → Reader S
  | .next _ => r.get.2
  | .unread b => r.unget b

/-- Does what the calls say, one after the other. -/
def follow (r : Reader S) (calls : List SourceCall) : Reader S := calls.foldl perform r

/-- The calls that lead from the start of a run over a recorder to a reader, and the bytes that
it holds then, the latest first. -/
inductive Trail (source : S) : List SourceCall → List Byte → Reader (SourceRecorder S) → Prop where
  | start : Trail source [] [] (start ⟨source, []⟩)
  | next {calls : List SourceCall} {held : List Byte} {r : Reader (SourceRecorder S)}
      (h : Trail source calls held r) (going : r.failure = none) :
      Trail source (calls ++ [.next (ByteSource.next r.source).1]) (r.get.1.toList ++ held) r.get.2
  | unread {calls : List SourceCall} {held : List Byte} {b : Byte} {r : Reader (SourceRecorder S)}
      (h : Trail source calls (b :: held) r) : Trail source (calls ++ [.unread b]) held (r.unget b)

/-- What the calls so far and the reader say of each other. -/
structure Accounts (r : Reader (SourceRecorder S)) (calls : List SourceCall) (held : List Byte) :
    Prop where
  recorded : r.source.calls = calls
  keeps : Keeps calls held
  consumed : r.consumed = held.length
  /-- The count is what was obtained less what was given back. -/
  balance : (obtained calls).length = r.consumed + (givenBack calls).length

namespace Trail
variable {source : S} {calls before : List SourceCall} {held : List Byte}
  {r : Reader (SourceRecorder S)}

/-- Wherever the calls lead, the reader has counted what they hold. -/
theorem accounts (h : Trail source calls held r) : r.Accounts calls held := by
  have hparts : r.source.calls = calls ∧ Keeps calls held ∧ r.consumed = held.length := by
    induction h with
    | start => exact ⟨rfl, .nil, rfl⟩
    | @next calls held r _ going ih =>
      obtain ⟨hrecorded, hkeeps, hconsumed⟩ := ih
      obtain ⟨hresult, hcalls, hcount⟩ := get_of_no_failure r going
      refine ⟨by rw [hcalls, hrecorded], ?_, ?_⟩
      · rw [hresult]
        exact .next _ hkeeps
      · rw [hcount, hconsumed, List.length_append, Nat.add_comm]
    | @unread calls held b r _ ih =>
      obtain ⟨hrecorded, hkeeps, hconsumed⟩ := ih
      refine ⟨by rw [← hrecorded]; rfl, .unread hkeeps, ?_⟩
      show r.consumed - 1 = held.length
      rw [hconsumed, List.length_cons, Nat.add_sub_cancel]
  obtain ⟨hrecorded, hkeeps, hconsumed⟩ := hparts
  exact ⟨hrecorded, hkeeps, hconsumed, by rw [hkeeps.balance, hconsumed]⟩

/-- The calls say which reader they lead to. -/
theorem follow_eq (h : Trail source calls held r) :
    (Reader.start ⟨source, []⟩).follow calls = r := by
  unfold follow
  induction h with
  | start => rfl
  | next _ _ ih => rw [List.foldl_append, ih]; rfl
  | unread _ ih => rw [List.foldl_append, ih]; rfl

/-- The first calls of a trail lead somewhere, too. -/
theorem exists_before (h : Trail source calls held r) (hbefore : before <+: calls) :
    ∃ held' r', Trail source before held' r' := by
  induction h with
  | start =>
    obtain rfl := List.prefix_nil.1 hbefore
    exact ⟨_, _, .start⟩
  | next h going ih =>
    rcases List.prefix_concat_iff.1 hbefore with rfl | hbefore
    · exact ⟨_, _, .next h going⟩
    · exact ih hbefore
  | unread h ih =>
    rcases List.prefix_concat_iff.1 hbefore with rfl | hbefore
    · exact ⟨_, _, .unread h⟩
    · exact ih hbefore

/-- What is given back next is what was held last. -/
theorem of_unread {b : Byte} (h : Trail source (calls ++ [.unread b]) held r) :
    ∃ r', Trail source calls (b :: held) r' := by
  generalize hcalls : calls ++ [SourceCall.unread b] = all at h
  cases h with
  | start => simp at hcalls
  | next _ _ => simp at hcalls
  | unread h =>
    obtain ⟨rfl, hlast⟩ := List.append_inj' hcalls rfl
    cases hlast
    exact ⟨_, h⟩

end Trail

/-! ### Recorders beside their sources -/

/-- A reader over a recorder on its way, and the same reader over the source. -/
structure Recorded (source : S) (held : List Byte) (r : Reader (SourceRecorder S)) (t : Reader S) :
    Prop where
  trail : ∃ calls, Trail source calls held r
  bare : t = r.bare

theorem coupling_recorded (source : S) : Coupling (Recorded source) where
  result h := by rw [h.bare, get_bare]
  get := by
    intro held r t h
    obtain ⟨⟨calls, htrail⟩, rfl⟩ := h
    refine ⟨?_, by rw [get_bare]⟩
    cases hfailure : r.failure with
    | none => exact ⟨_, .next htrail hfailure⟩
    | some e =>
      have hget : r.get = (none, r) := by simp [get, hfailure]
      rw [hget]
      exact ⟨calls, htrail⟩
  unget h := ⟨h.trail.imp' _ fun _ htrail => .unread htrail, by rw [h.bare]; rfl⟩

end Reader

/-! ### Scans over recorders -/

namespace Scan
variable {S M : Type} [ByteSource S]

variable [Memory M]

/-- The calls that a scan makes to its source, the oldest first. -/
def calls (source : S) (format : List Byte) (frame : Frame M) : List SourceCall :=
  (scan (SourceRecorder.mk source []) format frame).2.1.calls

/-- A scan over a recorder does what the scan over its source does, and its calls lead to where
it ends. -/
theorem scan_bare (source : S) (format : List Byte) (frame : Frame M) :
    (scan (SourceRecorder.mk source []) format frame).1 = (scan source format frame).1 ∧
      (scan (SourceRecorder.mk source []) format frame).2.1.inner =
        (scan source format frame).2.1 ∧
      (scan (SourceRecorder.mk source []) format frame).2.2 = (scan source format frame).2.2 ∧
      ∃ held r, Reader.Trail source (calls source format frame) held r ∧
        ∀ outcome, (scan source format frame).1 = .ok outcome → outcome.consumed = r.consumed := by
  have hstart : Reader.Recorded source [] (.start ⟨source, []⟩) (.start source) :=
    ⟨⟨[], .start⟩, rfl⟩
  obtain ⟨hresult, hframe, held, r, t, ⟨⟨made, htrail⟩, rfl⟩, hrecorder, hsource, hconsumed⟩ :=
    scan_of_coupling (Reader.coupling_recorded source) (fun h => by rw [h.bare]; rfl)
      (fun h => by rw [h.bare]; rfl) hstart format frame
  rw [calls, hrecorder, hsource]
  refine ⟨hresult, rfl, hframe, held, r, ?_, ?_⟩
  · rw [htrail.accounts.recorded]
    exact htrail
  · rw [← hresult]
    exact hconsumed

/-- What a scan keeps to in its calls. -/
structure CallLaws (source : S) (format : List Byte) (frame : Frame M) : Prop where
  /-- The scan over the recorder, which shows the calls, is the scan over the source. -/
  recorded : (scan (SourceRecorder.mk source []) format frame).1 = (scan source format frame).1 ∧
    (scan (SourceRecorder.mk source []) format frame).2.1.inner = (scan source format frame).2.1 ∧
    (scan (SourceRecorder.mk source []) format frame).2.2 = (scan source format frame).2.2
  /-- At every point the reader has counted the bytes obtained less those given back. -/
  accounts : ∀ before, before <+: calls source format frame →
    ∃ held, ((Reader.start ⟨source, []⟩).follow before).Accounts before held
  /-- A byte that is given back is the latest of those that are counted. -/
  unread : ∀ before b, before ++ [.unread b] <+: calls source format frame →
    ∃ held, ((Reader.start ⟨source, []⟩).follow before).Accounts before (b :: held)
  outcome : ∀ outcome, (scan source format frame).1 = .ok outcome →
    (obtained (calls source format frame)).length =
      outcome.consumed + (givenBack (calls source format frame)).length

theorem callLaws (source : S) (format : List Byte) (frame : Frame M) :
    CallLaws source format frame := by
  obtain ⟨hresult, hsource, hframe, held, r, htrail, hconsumed⟩ := scan_bare source format frame
  refine ⟨⟨hresult, hsource, hframe⟩, fun before hbefore => ?_, fun before b hbefore => ?_,
    fun outcome houtcome => ?_⟩
  · obtain ⟨held', r', htrail'⟩ := htrail.exists_before hbefore
    rw [htrail'.follow_eq]
    exact ⟨held', htrail'.accounts⟩
  · obtain ⟨held', _, hlater⟩ := htrail.exists_before hbefore
    obtain ⟨r', htrail'⟩ := hlater.of_unread
    rw [htrail'.follow_eq]
    exact ⟨held', htrail'.accounts⟩
  · rw [hconsumed outcome houtcome]
    exact htrail.accounts.balance

end Scan
end CheckedFormat
