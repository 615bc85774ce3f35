import CheckedFormat.Proofs.Finding
import CheckedFormat.Proofs.ScanRuns
import CheckedFormat.Proofs.PrintedFields
import Mathlib.Algebra.Group.Nat.Defs
/-! Suppressed directives and counts.

Two scans whose readers stand at the same place go on alike, whatever each of them stores
(`Finding`). So suppressing directives of a scan that goes through, or leaving its counts
out, takes their addresses out of the arguments and their fields out of the count, and
changes nothing else (`suppression_invisible`). -/
namespace CheckedFormat
namespace Scan
variable {S M : Type} [Memory M]

/-! ### Runs -/

/-- What became of a segment that a scan came to: how it ended, and the slots that it
took. -/
structure Visit where
  segment : ScanSegment
  progress : Progress
  taken : List Slot

/-- The segments that a scan comes to, in order. -/
def visits [ByteSource S] : List ScanSegment → State S M → List Visit
  | [], _ => []
  | segment :: rest, s =>
    match matchSegment segment s with
    | .error _ _ => []
    | .ok progress t =>
      ⟨segment, progress, s.frame.arguments.upTo t.frame.arguments⟩ ::
        match progress with
        | .stopped _ => []
        | _ => visits rest t

/-- The slots that were taken, but for the marked segments. -/
def spared (marks : List Bool) (reached : List Visit) : List Slot :=
  (reached.zip marks).flatMap fun (visit, mark) => if mark then [] else visit.taken

/-- How many of the marked segments were assigned. -/
def lost (marks : List Bool) (reached : List Visit) : Nat :=
  (reached.zip marks).countP fun (visit, mark) => mark && visit.progress == .assigned

/-- Some segments are marked; of those, some are suppressed, and some that only count
are left out. -/
inductive Muted : List ScanSegment → List Bool → List ScanSegment → Prop where
  | nil : Muted [] [] []
  | keep {segment : ScanSegment} {segments others : List ScanSegment} {marks : List Bool} :
    Muted segments marks others → Muted (segment :: segments) (false :: marks) (segment :: others)
  | suppress {segment : ScanSegment} {segments others : List ScanSegment} {marks : List Bool} :
    Muted segments marks others →
      Muted (segment :: segments) (true :: marks) (segment.starred true :: others)
  | leave {segment : ScanSegment} {segments others : List ScanSegment} {marks : List Bool} :
    segment.isCount = true → Muted segments marks others →
      Muted (segment :: segments) (true :: marks) others

theorem spared_cons (mark : Bool) (marks : List Bool) (visit : Visit) (reached : List Visit) :
    spared (mark :: marks) (visit :: reached) =
      (if mark then [] else visit.taken) ++ spared marks reached := rfl

theorem lost_cons (mark : Bool) (marks : List Bool) (visit : Visit) (reached : List Visit) :
    lost (mark :: marks) (visit :: reached) =
      lost marks reached + if (mark && visit.progress == .assigned) = true then 1 else 0 :=
  List.countP_cons ..

theorem muted_goesOn {progress : Progress} (h : ∀ status, progress ≠ .stopped status)
    (status : ScanStatus) : muted progress ≠ .stopped status := by
  cases progress with
  | stopped other => exact absurd rfl (h other)
  | _ => exact nofun

section Runs
variable [ByteSource S] {segment : ScanSegment} {s s' t left : State S M} {progress : Progress}
  {n m : Nat} {status : ScanStatus}

/-- A run that goes through came to its first segment, and then ended or went on. -/
theorem runFrom_cons {segments : List ScanSegment} {result : Nat × ScanStatus}
    (h : runFrom n (segment :: segments) s = .ok result left) :
    ∃ progress t, matchSegment segment s = .ok progress t ∧
      ((∃ status, progress = .stopped status ∧ result = (n, status) ∧ left = t ∧
        visits (segment :: segments) s =
          [⟨segment, progress, s.frame.arguments.upTo t.frame.arguments⟩]) ∨
      (∀ status, progress ≠ .stopped status) ∧
        runFrom (n + if progress = .assigned then 1 else 0) segments t = .ok result left ∧
        visits (segment :: segments) s =
          ⟨segment, progress, s.frame.arguments.upTo t.frame.arguments⟩ :: visits segments t) := by
  have hfirst := h
  rw [runFrom] at hfirst
  obtain ⟨progress, t, hstep, -⟩ := ok_of_bind hfirst
  refine ⟨progress, t, hstep, ?_⟩
  cases progress with
  | stopped status =>
    rw [runFrom_of_stop hstep] at h
    obtain ⟨rfl, rfl⟩ := EStateM.Result.ok.inj h
    exact .inl ⟨status, rfl, rfl, rfl, by simp only [visits, hstep]⟩
  | assigned | skipped =>
    rw [runFrom_of_goesOn hstep (by simp)] at h
    exact .inr ⟨by simp, h, by simp only [visits, hstep]⟩

variable [Memory.Steady M]

/-- The slots that a run took, and then those that it left, are those it had. -/
theorem taken_append_left {segments : List ScanSegment} {result : Nat × ScanStatus}
    (h : runFrom n segments s = .ok result left) :
    (visits segments s).flatMap (·.taken) ++ left.frame.arguments.left =
      s.frame.arguments.left := by
  induction segments generalizing n s with
  | nil =>
    obtain ⟨-, rfl⟩ := EStateM.Result.ok.inj h
    rfl
  | cons segment rest ih =>
    obtain ⟨progress, t, hstep, ⟨status, -, -, rfl, hvisits⟩ | ⟨-, hrest, hvisits⟩⟩ := runFrom_cons h
    · rw [hvisits, List.flatMap_singleton]
      exact (matched hstep).left
    · rw [hvisits, List.flatMap_cons, List.append_assoc, ih hrest]
      exact (matched hstep).left

omit [Memory M] [ByteSource S] [Memory.Steady M] in
theorem spared_sublist (marks : List Bool) (reached : List Visit) :
    (spared marks reached).Sublist (reached.flatMap (·.taken)) := by
  induction reached generalizing marks with
  | nil => exact List.Sublist.refl _
  | cons visit rest ih =>
    cases marks with
    | nil => exact List.nil_sublist _
    | cons mark marks =>
      refine List.Sublist.append ?_ (ih marks)
      cases mark with
      | true => exact List.nil_sublist _
      | false => exact List.Sublist.refl _

/-- Where no slots are left, none are spared. -/
theorem spared_of_left_nil {segments : List ScanSegment} {result : Nat × ScanStatus}
    (h : runFrom n segments s = .ok result left) (marks : List Bool)
    (hnone : s.frame.arguments.left = []) :
    spared marks (visits segments s) ++ left.frame.arguments.left = [] := by
  have hall := taken_append_left h
  rw [hnone, List.append_eq_nil_iff] at hall
  rw [List.append_eq_nil_iff]
  exact ⟨List.sublist_nil.1 (hall.1 ▸ spared_sublist marks _), hall.2⟩

/-- **Muting some segments of a scan that goes through** lets the others do what they
did: the readers end the same, and so do the scans, with the fields lost that were
muted. -/
theorem runFrom_muted {segments others : List ScanSegment} {marks : List Bool} {k : Nat}
    (hmuted : Muted segments marks others) (hshadows : Shadows s s')
    (hrun : runFrom n segments s = .ok (m, status) left)
    (hslots : s'.frame.arguments.left =
      spared marks (visits segments s) ++ left.frame.arguments.left) :
    ∃ m' left', runFrom k others s' = .ok (m', status) left' ∧ left'.reader = left.reader ∧
      m' + n + lost marks (visits segments s) = m + k := by
  induction hmuted generalizing s s' n k with
  | nil =>
    obtain ⟨hresult, rfl⟩ := EStateM.Result.ok.inj hrun
    obtain ⟨rfl, rfl⟩ := Prod.mk.inj hresult
    exact ⟨k, s', rfl, hshadows.reader, Nat.add_comm k n⟩
  | @keep segment segments others marks _ ih =>
    obtain ⟨progress, t, hstep, ⟨_, rfl, hresult, rfl, hvisits⟩ | ⟨hgoes, hrest, hvisits⟩⟩ :=
      runFrom_cons hrun
    · obtain ⟨rfl, rfl⟩ := Prod.mk.inj hresult
      rw [hvisits] at hslots ⊢
      obtain ⟨t', hstep', hshadows', -⟩ := (matched hstep).kept hshadows
        (by simpa [spared] using hslots) id
      exact ⟨k, t', runFrom_of_stop hstep' k others, hshadows'.reader, Nat.add_comm k _⟩
    · rw [hvisits, spared_cons, List.append_assoc] at hslots
      obtain ⟨t', hstep', hshadows', hslots'⟩ := (matched hstep).kept hshadows hslots
        (spared_of_left_nil hrest marks)
      rw [runFrom_of_goesOn hstep' hgoes, hvisits, lost_cons]
      obtain ⟨m', left', hrun', hreader, hcount⟩ := ih hshadows' hrest hslots'
      refine ⟨m', left', hrun', hreader, ?_⟩
      simp only [Bool.false_and, Bool.false_eq_true, if_false]
      omega
  | @suppress segment segments others marks _ ih =>
    obtain ⟨progress, t, hstep, ⟨_, rfl, hresult, rfl, hvisits⟩ | ⟨hgoes, hrest, hvisits⟩⟩ :=
      runFrom_cons hrun
    all_goals obtain ⟨t', hstep', hshadows', hsame⟩ := (matched hstep).suppressed hshadows
    · obtain ⟨rfl, rfl⟩ := Prod.mk.inj hresult
      rw [hvisits]
      exact ⟨k, t', runFrom_of_stop hstep' k others, hshadows'.reader, Nat.add_comm k _⟩
    · rw [hvisits, spared_cons, if_pos rfl, List.nil_append, ← hsame.1] at hslots
      rw [runFrom_of_goesOn hstep' (muted_goesOn hgoes), hvisits, lost_cons]
      obtain ⟨m', left', hrun', hreader, hcount⟩ := ih hshadows' hrest hslots
      refine ⟨m', left', hrun', hreader, ?_⟩
      cases progress with
      | stopped status => exact absurd rfl (hgoes status)
      | assigned | skipped =>
        simp [muted] at hcount ⊢
        omega
  | @leave segment segments others marks hleave _ ih =>
    obtain ⟨progress, t, hstep, hend⟩ := runFrom_cons hrun
    obtain ⟨rfl, hreader⟩ := matchSegment_count hleave hstep
    obtain ⟨status, hstop, -⟩ | ⟨-, hrest, hvisits⟩ := hend
    · cases hstop
    · rw [hvisits, spared_cons, if_pos rfl, List.nil_append] at hslots
      rw [hvisits, lost_cons]
      obtain ⟨m', left', hrun', hreader, hcount⟩ :=
        ih ((matched hstep).leftOut hreader hshadows) hrest hslots
      exact ⟨m', left', hrun', hreader, by simpa using hcount⟩

/-- A run over suppressed segments leaves arguments and memory alone. -/
theorem sameStores_of_starred {segments : List ScanSegment} {result : Nat × ScanStatus}
    (hstarred : ∀ segment ∈ segments, segment.starred true = segment)
    (hrun : runFrom n segments s = .ok result left) : SameStores s left := by
  induction segments generalizing n s with
  | nil =>
    obtain ⟨-, rfl⟩ := EStateM.Result.ok.inj hrun
    exact .refl s
  | cons segment rest ih =>
    obtain ⟨hfirst, hrest⟩ := List.forall_mem_cons.1 hstarred
    obtain ⟨progress, t, hstep, hend⟩ := runFrom_cons hrun
    have hsame : SameStores s t := by
      cases matched hstep with
      | nothing hsame _ _ => exact hsame
      | stored _ _ _ _ hmutes =>
        obtain ⟨v, hv, -, hsame⟩ := hmutes s rfl
        rw [hfirst, hstep] at hv
        obtain ⟨-, rfl⟩ := EStateM.Result.ok.inj hv
        exact hsame
    obtain ⟨_, -, -, rfl, -⟩ | ⟨-, hbehind, -⟩ := hend
    · exact hsame
    · exact hsame.trans (ih hrest hbehind)

omit [Memory.Steady M] in
/-- No count is a field. -/
theorem lost_counts {segments : List ScanSegment} {result : Nat × ScanStatus}
    (hrun : runFrom n segments s = .ok result left) :
    lost (segments.map (·.isCount)) (visits segments s) = 0 := by
  induction segments generalizing n s with
  | nil => rfl
  | cons segment rest ih =>
    obtain ⟨progress, t, hstep, hend⟩ := runFrom_cons hrun
    have hfield : ¬(segment.isCount && progress == .assigned) = true := by
      intro h
      obtain ⟨hcount, hassigned⟩ := Bool.and_eq_true_iff.1 h
      obtain ⟨rfl, -⟩ := matchSegment_count hcount hstep
      cases hassigned
    obtain ⟨_, -, -, -, hvisits⟩ | ⟨-, hrest, hvisits⟩ := hend <;>
      rw [hvisits, List.map_cons, lost_cons, if_neg hfield]
    · rfl
    · exact ih hrest

end Runs

/-! ### Suppression and counts -/

/-- The segments, with the chosen ones suppressed. -/
def suppressing (chosen : List Bool) (segments : List ScanSegment) : List ScanSegment :=
  segments.zipWith (fun segment choice => if choice then segment.starred true else segment) chosen

theorem muted_suppressing {segments : List ScanSegment} {chosen : List Bool}
    (h : chosen.length = segments.length) : Muted segments chosen (suppressing chosen segments) := by
  induction segments generalizing chosen with
  | nil =>
    rw [List.length_eq_zero_iff.1 h]
    exact .nil
  | cons segment rest ih =>
    cases chosen with
    | nil => cases h
    | cons choice chosen =>
      have hrest := ih (Nat.succ.inj h)
      cases choice with
      | true => exact .suppress hrest
      | false => exact .keep hrest

theorem starred_of_mem_suppressing {segments : List ScanSegment} {chosen : List Bool}
    (h : ∀ choice ∈ chosen, choice = true) :
    ∀ segment ∈ suppressing chosen segments, segment.starred true = segment := by
  induction segments generalizing chosen with
  | nil => exact fun _ hmem => nomatch hmem
  | cons segment rest ih =>
    cases chosen with
    | nil => exact fun _ hmem => nomatch hmem
    | cons choice chosen =>
      obtain ⟨rfl, hrest⟩ := List.forall_mem_cons.1 h
      refine List.forall_mem_cons.2 ⟨?_, ih hrest⟩
      cases segment <;> rfl

theorem muted_filter (segments : List ScanSegment) :
    Muted segments (segments.map (·.isCount))
      (segments.filter fun segment => !segment.isCount) := by
  induction segments with
  | nil => exact .nil
  | cons segment rest ih =>
    cases hcount : segment.isCount with
    | true => simpa [hcount] using Muted.leave hcount ih
    | false => simpa [hcount] using Muted.keep ih

/-- A number's low bytes are those of the number in as many bits. -/
theorem littleEndian_ofNat_mod {size : Nat} (hsize : size ≤ 8) (n : Nat) :
    littleEndian size (BitVec.ofNat 64 n).toNat = littleEndian size (n % 2 ^ (8 * size)) := by
  refine littleEndian_congr fun i hi => ?_
  rw [BitVec.toNat_ofNat, Nat.testBit_mod_two_pow, Nat.testBit_mod_two_pow]
  simp [hi, show i < 64 by omega]

variable [ByteSource S] [Memory.Steady M]

/-- A call that offers these slots from the cursor on. -/
def offering (source : S) (frame : Frame M) (slots : List Slot) : State S M :=
  ⟨.start source, { frame with arguments := frame.arguments.withLeft slots }⟩

/-- **Suppression and counts do not bear on matching.** Take any scan that goes through.
With any of its directives suppressed, and the slots that those took out of the list, it
still goes through: with the same status, bytes consumed, read error and source, and with
as many fields less as the suppressed directives had been assigned. With all of them
suppressed, memory and arguments stay as they are. With all counts left out, and the
slots that they took, not even the fields are less. And a count that the scan comes to
stores how many bytes the segments before it consumed, in as many bits as it has. -/
theorem suppression_invisible {segments : List ScanSegment} {source : S} {frame : Frame M}
    {assigned : Nat} {status : ScanStatus} {left : State S M}
    (hrun : runFrom 0 segments ⟨.start source, frame⟩ = .ok (assigned, status) left) :
    let reached := visits segments ⟨.start source, frame⟩
    let without (marks : List Bool) : State S M :=
      offering source frame (spared marks reached ++ left.frame.arguments.left)
    (∀ chosen : List Bool, chosen.length = segments.length →
      ∃ left', runFrom 0 (suppressing chosen segments) (without chosen) =
          .ok (assigned - lost chosen reached, status) left' ∧
        lost chosen reached ≤ assigned ∧ left'.reader = left.reader ∧
        ((∀ choice ∈ chosen, choice = true) → left'.frame.memory = frame.memory ∧
          left'.frame.arguments = (without chosen).frame.arguments)) ∧
    (∃ left', runFrom 0 (segments.filter fun segment => !segment.isCount)
          (without (segments.map (·.isCount))) = .ok (assigned, status) left' ∧
        left'.reader = left.reader) ∧
    ∀ before spec behind, segments = before ++ .directive spec :: behind →
      spec.conversion = .letter .n → spec.suppress = false →
      ∀ k t, runFrom 0 before ⟨.start source, frame⟩ = .ok (k, .complete) t →
        ∃ u, Memory.writeBytes t.frame.memory t.frame.arguments.nextBits.asAddress
            (littleEndian spec.length.integerSize
              (t.reader.consumed % 2 ^ (8 * spec.length.integerSize))) = .ok u.frame.memory ∧
          u.reader = t.reader ∧ runFrom k behind u = .ok (assigned, status) left := by
  intro reached without
  have hshadows (marks : List Bool) : Shadows ⟨.start source, frame⟩ (without marks) :=
    ⟨rfl, rfl, rfl, .refl _⟩
  have hslots (marks : List Bool) : (without marks).frame.arguments.left =
      spared marks reached ++ left.frame.arguments.left :=
    ArgumentList.left_withLeft (spared_of_left_nil hrun marks)
  refine ⟨fun chosen hlength => ?_, ?_, ?_⟩
  · obtain ⟨m, left', hmuted, hreader, hcount⟩ :=
      runFrom_muted (k := 0) (muted_suppressing hlength) (hshadows chosen) hrun (hslots chosen)
    have hcount : m + lost chosen reached = assigned := hcount
    obtain rfl : m = assigned - lost chosen reached := by omega
    refine ⟨left', hmuted, by omega, hreader, fun hall => ?_⟩
    have hsame := sameStores_of_starred (starred_of_mem_suppressing hall) hmuted
    exact ⟨hsame.2, hsame.1⟩
  · obtain ⟨m, left', hmuted, hreader, hcount⟩ :=
      runFrom_muted (k := 0) (muted_filter segments) (hshadows _) hrun (hslots _)
    rw [lost_counts hrun] at hcount
    obtain rfl : m = assigned := hcount
    exact ⟨left', hmuted, hreader⟩
  · intro before spec behind hsegments hconversion hsuppress k t hbefore
    rw [hsegments, runFrom_append, hbefore] at hrun
    obtain ⟨progress, u, hstep, hend⟩ := runFrom_cons hrun
    have hcount : convertCount spec t = .ok progress u := by
      simpa only [matchSegment, convert, hconversion] using hstep
    obtain ⟨rfl, hreader, hstored⟩ := ok_of_convertCount hsuppress hcount
    obtain ⟨_, hstop, -⟩ | ⟨-, hrest, -⟩ := hend
    · cases hstop
    · refine ⟨u, ?_, hreader, hrest⟩
      have hsize : integerSizes.contains spec.length.integerSize = true ∧
          spec.length.integerSize ≤ 8 := by
        cases spec.length <;> decide
      rwa [Memory.writeInteger, if_pos hsize.1, littleEndian_ofNat_mod hsize.2] at hstored

/-- A number, a count and a word; the number is suppressed. -/
theorem suppression_invisible_of_number :
    let segments : List ScanSegment :=
      [.directive ⟨false, none, .plain, .letter .d⟩, .directive ⟨false, none, .short, .letter .n⟩,
        .directive ⟨false, some 1, .plain, .letter .s⟩]
    let chosen := [true, false, false]
    let source := TextSource.mk (ascii "12 ab")
    let frame : Frame Arena :=
      ⟨.start .checked [.pointer 0x10000, .pointer 0x10008, .pointer 0x10010],
        (Arena.empty.allocate 32).2, .initial⟩
    let reached := visits segments ⟨.start source, frame⟩
    ∃ left, runFrom 0 segments ⟨.start source, frame⟩ = .ok (2, .complete) left ∧
      lost chosen reached = 1 ∧ spared chosen reached = [.pointer 0x10008, .pointer 0x10010] ∧
      ∃ left', runFrom 0 (suppressing chosen segments)
          (offering source frame (spared chosen reached ++ left.frame.arguments.left)) =
            .ok (2 - lost chosen reached, .complete) left' ∧ left'.reader = left.reader := by
  intro segments chosen source frame reached
  have hrun : ∃ left, runFrom 0 segments ⟨.start source, frame⟩ = .ok (2, .complete) left :=
    exists_ok_of_value (by decide +kernel)
  obtain ⟨left, hleft⟩ := hrun
  obtain ⟨left', hmuted, -, hreader, -⟩ := (suppression_invisible hleft).1 chosen rfl
  exact ⟨left, hleft, by decide +kernel, by decide +kernel, left', hmuted, hreader⟩

end Scan
end CheckedFormat
