import CheckedFormat.Check.Fault
import Mathlib.Data.List.DropRight
import Mathlib.Data.List.Induction
/-! The journal keeps the latest faults.

All faults that a journal was ever told make up a register (`register`), in which the
number of a fault says how many had been recorded with it. A journal holds the end of that
register: as much of what was recorded since the last clearing as it has room for
(`journal_keeps_latest`). So a reader who remembers the latest number gets all that was
recorded later, unless it was cleared or is more than the journal can hold. -/
namespace CheckedFormat
namespace Journal

/-- What is done to a journal. -/
inductive Call where
  | record (fault : Fault)
  | clear
  deriving DecidableEq, Repr

namespace Call

def perform (j : Journal) : Call → Journal
  | record fault => j.record fault
  | clear => j.clear

/-- The fault that a call records. -/
def fault? : Call → Option Fault
  | record fault => some fault
  | clear => none

end Call

def performAll (j : Journal) (calls : List Call) : Journal := calls.foldl Call.perform j

/-- The faults that calls record, in order. -/
def recordedBy (calls : List Call) : List Fault := calls.filterMap Call.fault?

/-- The calls behind the last clearing. -/
def sinceClear (calls : List Call) : List Call := calls.rtakeWhile (· ≠ .clear)

/-- Faults as entries, numbered from `first` on. -/
def numbered (first : Nat) : List Fault → List Entry
  | [] => []
  | fault :: rest => ⟨first, fault⟩ :: numbered (first + 1) rest

/-- Every fault that calls record, with its number. -/
def register (calls : List Call) : List Entry := numbered 1 (recordedBy calls)

/-- How many faults a journal of a capacity holds behind calls. -/
def held (capacity : Nat) (calls : List Call) : Nat :=
  min (max capacity 1) (recordedBy (sinceClear calls)).length

/-! ### Numbered faults -/

section Numbered
variable (first : Nat) (faults : List Fault)

@[simp] theorem length_numbered : (numbered first faults).length = faults.length := by
  induction faults generalizing first with
  | nil => rfl
  | cons fault rest ih => rw [numbered, List.length_cons, ih, List.length_cons]

theorem numbered_append (more : List Fault) :
    numbered first (faults ++ more) =
      numbered first faults ++ numbered (first + faults.length) more := by
  induction faults generalizing first with
  | nil => rfl
  | cons fault rest ih =>
    have hnext : first + 1 + rest.length = first + (rest.length + 1) := by omega
    rw [List.cons_append, numbered, ih, hnext]
    rfl

theorem drop_numbered (n : Nat) :
    (numbered first faults).drop n = numbered (first + n) (faults.drop n) := by
  induction n generalizing first faults with
  | zero => rfl
  | succ n ih =>
    cases faults with
    | nil => rfl
    | cons fault rest =>
      have hnext : first + 1 + n = first + (n + 1) := by omega
      rw [numbered, List.drop_succ_cons, ih, hnext, List.drop_succ_cons]

theorem map_fault_numbered : (numbered first faults).map (·.fault) = faults := by
  induction faults generalizing first with
  | nil => rfl
  | cons fault rest ih => rw [numbered, List.map_cons, ih]

theorem map_sequence_numbered :
    (numbered first faults).map (·.sequence) = List.range' first faults.length := by
  induction faults generalizing first with
  | nil => rfl
  | cons fault rest ih => rw [numbered, List.map_cons, ih, List.length_cons, List.range'_succ]

/-- Above a number stand the entries behind as many as were numbered up to it. -/
theorem filter_numbered (sequence : Nat) :
    (numbered first faults).filter (sequence < ·.sequence) =
      (numbered first faults).drop (sequence + 1 - first) := by
  induction faults generalizing first with
  | nil => simp [numbered]
  | cons fault rest ih =>
    rw [numbered]
    by_cases habove : sequence < first
    · have hall : sequence + 1 - (first + 1) = 0 := by omega
      have hnone : sequence + 1 - first = 0 := by omega
      rw [List.filter_cons_of_pos (by simpa using habove), ih, hall, hnone]
      rfl
    · have hone : sequence + 1 - first = sequence + 1 - (first + 1) + 1 := by omega
      rw [List.filter_cons_of_neg (by simpa using habove), ih, hone, List.drop_succ_cons]

end Numbered

/-! ### Histories -/

section Histories
variable (calls : List Call) (fault : Fault)

theorem recordedBy_append (more : List Call) :
    recordedBy (calls ++ more) = recordedBy calls ++ recordedBy more := List.filterMap_append

theorem sinceClear_record :
    sinceClear (calls ++ [.record fault]) = sinceClear calls ++ [.record fault] :=
  List.rtakeWhile_concat_pos _ _ _ (by simp)

theorem sinceClear_clear : sinceClear (calls ++ [.clear]) = [] :=
  List.rtakeWhile_concat_neg _ _ _ (by simp)

/-- Behind calls without a clearing, all that they recorded counts. -/
theorem sinceClear_append {more : List Call} (h : .clear ∉ more) :
    sinceClear (calls ++ more) = sinceClear calls ++ more := by
  induction more using List.reverseRecOn with
  | nil => simp
  | append_singleton more call ih =>
    simp only [List.mem_append, List.mem_singleton, not_or] at h
    cases call with
    | clear => exact absurd rfl h.2
    | record fault => rw [← List.append_assoc, sinceClear_record, ih h.1, List.append_assoc]

/-- The faults since the last clearing are the end of all. -/
theorem recordedBy_sinceClear_suffix : recordedBy (sinceClear calls) <:+ recordedBy calls :=
  List.IsSuffix.filterMap _ (List.rtakeWhile_suffix _ _)

end Histories

/-! ### Runs -/

section Runs
variable (capacity : Nat) (calls : List Call)

theorem length_register : (register calls).length = (recordedBy calls).length :=
  length_numbered 1 _

theorem register_append (more : List Call) :
    register (calls ++ more) =
      register calls ++ numbered ((recordedBy calls).length + 1) (recordedBy more) := by
  rw [register, recordedBy_append, numbered_append, Nat.add_comm 1]
  rfl

theorem held_le : held capacity calls ≤ (recordedBy calls).length :=
  Nat.le_trans (Nat.min_le_right _ _) (recordedBy_sinceClear_suffix calls).length_le

theorem performAll_concat (j : Journal) (call : Call) :
    j.performAll (calls ++ [call]) = call.perform (j.performAll calls) :=
  List.foldl_concat _ _ _ _

end Runs

theorem record_of_room {j : Journal} (h : j.entries.length < j.capacity) (fault : Fault) :
    j.record fault = { j with
      entries := j.entries ++ [⟨j.recorded + 1, fault⟩]
      recorded := j.recorded + 1 } := by
  have hevict : j.evict = j := if_pos h
  rw [record, hevict]

theorem record_of_full {j : Journal} (h : ¬ j.entries.length < j.capacity) (fault : Fault) :
    j.record fault = { j with
      entries := j.entries.drop 1 ++ [⟨j.recorded + 1, fault⟩]
      recorded := j.recorded + 1
      dropped := j.dropped + 1 } := by
  have hevict : j.evict = { j with entries := j.entries.drop 1, dropped := j.dropped + 1 } :=
    if_neg h
  rw [record, hevict]

/-- The journal of a capacity behind calls: it holds the end of the register, and counts
what it evicted from there. -/
structure Follows (j : Journal) (size : Nat) (calls : List Call) : Prop where
  capacity : j.capacity = max size 1
  entries : j.entries = (register calls).drop ((recordedBy calls).length - held size calls)
  recorded : j.recorded = (recordedBy calls).length
  dropped : j.dropped + held size calls = (recordedBy (sinceClear calls)).length

namespace Follows
variable {j : Journal} {size : Nat} {calls : List Call}

theorem length_entries (h : j.Follows size calls) : j.entries.length = held size calls := by
  have hheld := held_le size calls
  rw [h.entries, List.length_drop, length_register]
  omega

theorem clear (h : j.Follows size calls) : j.clear.Follows size (calls ++ [.clear]) := by
  have hnone : held size (calls ++ [.clear]) = 0 := by
    rw [held, sinceClear_clear]
    exact Nat.min_zero _
  have hall : recordedBy (calls ++ [.clear]) = recordedBy calls := by
    rw [recordedBy_append]
    exact List.append_nil _
  refine ⟨h.capacity, ?_, ?_, ?_⟩
  · rw [hnone, Nat.sub_zero, ← length_register, List.drop_length]
    rfl
  · rw [hall, ← h.recorded]
    rfl
  · rw [hnone, sinceClear_clear]
    rfl

theorem record (h : j.Follows size calls) (fault : Fault) :
    (j.record fault).Follows size (calls ++ [.record fault]) := by
  have hlength := h.length_entries
  have hle := held_le size calls
  have hcount : (recordedBy (sinceClear (calls ++ [.record fault]))).length =
      (recordedBy (sinceClear calls)).length + 1 := by
    rw [sinceClear_record, recordedBy_append, List.length_append]
    rfl
  have htotal : (recordedBy (calls ++ [.record fault])).length = (recordedBy calls).length + 1 := by
    rw [recordedBy_append, List.length_append]
    rfl
  have hregister : register (calls ++ [.record fault]) =
      register calls ++ [⟨j.recorded + 1, fault⟩] := by
    rw [register_append, h.recorded]
    rfl
  have hdropped := h.dropped
  by_cases hroom : j.entries.length < j.capacity
  · -- There is room: one more fault is held.
    have hheld : held size (calls ++ [.record fault]) = held size calls + 1 := by
      rw [hlength, h.capacity] at hroom
      unfold held at hroom ⊢
      omega
    rw [record_of_room hroom]
    refine ⟨h.capacity, ?_, ?_, ?_⟩
    · rw [hregister, htotal, hheld, Nat.add_sub_add_right, List.drop_append_of_le_length,
        ← h.entries]
      rw [length_register]
      omega
    · rw [htotal, ← h.recorded]
    · rw [hheld, hcount]
      dsimp only
      omega
  · -- The journal is full: the oldest entry makes room for the new one.
    have hheld : held size (calls ++ [.record fault]) = held size calls ∧ 0 < held size calls := by
      rw [hlength, h.capacity] at hroom
      unfold held at hroom ⊢
      omega
    obtain ⟨hheld, hsome⟩ := hheld
    rw [record_of_full hroom]
    refine ⟨h.capacity, ?_, ?_, ?_⟩
    · have hnext : (recordedBy calls).length + 1 - held size calls =
          (recordedBy calls).length - held size calls + 1 := by omega
      rw [hregister, htotal, hheld, hnext, List.drop_append_of_le_length, ← List.drop_drop,
        ← h.entries]
      rw [length_register]
      omega
    · rw [htotal, ← h.recorded]
    · rw [hheld, hcount]
      dsimp only
      omega

theorem perform (h : j.Follows size calls) (call : Call) :
    (call.perform j).Follows size (calls ++ [call]) := by
  cases call with
  | record fault => exact h.record fault
  | clear => exact h.clear

end Follows

theorem performAll_follows (size : Nat) (calls : List Call) :
    ((empty size).performAll calls).Follows size calls := by
  induction calls using List.reverseRecOn with
  | nil =>
    have hnone : held size [] = 0 := Nat.min_zero _
    exact ⟨rfl, List.drop_nil.symm, rfl, by rw [hnone]; rfl⟩
  | append_singleton calls call ih =>
    rw [performAll_concat]
    exact ih.perform call

/-- What a journal that holds at most `size` faults shows of the calls made to it. -/
structure KeepsLatest (size : Nat) (calls : List Call) (j : Journal) : Prop where
  /-- The entries are the latest of the faults recorded since the last clearing, the oldest
  first. -/
  faults : j.entries.map (·.fault) =
    (recordedBy (sinceClear calls)).drop
      ((recordedBy (sinceClear calls)).length - held size calls)
  /-- They are numbered one after the other, up to the latest number. -/
  sequences : j.entries.map (·.sequence) =
    List.range' (j.recorded + 1 - held size calls) (held size calls)
  /-- The latest number is the number of all faults ever recorded. -/
  recorded : j.recorded = (recordedBy calls).length
  /-- Every fault since the last clearing was evicted or is held. -/
  accounted : j.dropped + j.entries.length = (recordedBy (sinceClear calls)).length
  /-- Above a number stand the faults that were recorded when the latest number was that
  one already, as far as they are held. -/
  since : ∀ sequence, j.since sequence =
    (register calls).drop (max sequence (j.recorded - held size calls))
  /-- Behind any part of the calls that is followed by no clearing and by no more faults
  than there is room for, they are all there. -/
  complete : ∀ before after, calls = before ++ after → .clear ∉ after →
    (recordedBy after).length ≤ max size 1 →
    j.since ((empty size).performAll before).recorded =
      numbered (((empty size).performAll before).recorded + 1) (recordedBy after)

namespace Follows
variable {j : Journal} {size : Nat} {calls : List Call}

theorem since (h : j.Follows size calls) (sequence : Nat) :
    j.since sequence = (register calls).drop (max sequence (j.recorded - held size calls)) := by
  rw [Journal.since, h.entries, register, drop_numbered, filter_numbered, drop_numbered,
    drop_numbered, List.drop_drop, h.recorded]
  congr 1
  · omega
  · congr 1
    omega

end Follows

/-- **A journal keeps the latest faults.** -/
theorem journal_keeps_latest (size : Nat) (calls : List Call) :
    ((empty size).performAll calls).KeepsLatest size calls := by
  have h := performAll_follows size calls
  have hle := held_le size calls
  have hlatest : held size calls ≤ (recordedBy (sinceClear calls)).length := Nat.min_le_right _ _
  have hdrop : (recordedBy calls).drop ((recordedBy calls).length - held size calls) =
      (recordedBy (sinceClear calls)).drop
        ((recordedBy (sinceClear calls)).length - held size calls) := by
    obtain ⟨earlier, hall⟩ := recordedBy_sinceClear_suffix calls
    rw [← hall, List.length_append, Nat.add_sub_assoc hlatest, List.drop_length_add_append]
  refine ⟨?_, ?_, h.recorded, ?_, h.since, ?_⟩
  · rw [h.entries, register, drop_numbered, map_fault_numbered, hdrop]
  · have hfirst : 1 + ((recordedBy calls).length - held size calls) =
        (recordedBy calls).length + 1 - held size calls := by omega
    rw [h.entries, register, drop_numbered, map_sequence_numbered, h.recorded, List.length_drop,
      Nat.sub_sub_self hle, hfirst]
  · rw [h.length_entries, h.dropped]
  · rintro before after rfl hclear hroom
    have hbefore := (performAll_follows size before).recorded
    have hall : (recordedBy (before ++ after)).length =
        (recordedBy before).length + (recordedBy after).length := by
      rw [recordedBy_append, List.length_append]
    have hheld : (recordedBy after).length ≤ held size (before ++ after) := by
      rw [held, sinceClear_append before hclear, recordedBy_append, List.length_append]
      omega
    have hfirst : max (recordedBy before).length
        ((recordedBy (before ++ after)).length - held size (before ++ after)) =
          (register before).length := by
      rw [length_register]
      omega
    rw [hbefore, h.since, h.recorded, hfirst, register_append, List.drop_left]

end Journal
end CheckedFormat
