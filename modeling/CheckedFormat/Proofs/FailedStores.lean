import CheckedFormat.Proofs.Destinations
import CheckedFormat.Proofs.ScanRuns
import CheckedFormat.Proofs.StoredFields
/-! What a failed store leaves behind.

A store that fails changes nothing, and nearly every directive makes a single one
(`FailsClean`). A string makes two, its field and then the zero byte behind it, so it
can fail between them: where the field has room and the zero byte has none, the field
stays at its address (`Remains.field`). `memory_of_failed_store` says for whole calls
that this is all a failing directive ever leaves. -/
namespace CheckedFormat

namespace ScanSpec

/-- The directive stores a string: its field, and a zero byte behind it. -/
def terminates (spec : ScanSpec) : Bool :=
  match spec.conversion with
  | .letter .s | .set _ => true
  | _ => false

end ScanSpec

namespace Scan

variable {S M α β : Type}

/-! ### Steps that fail clean -/

/-- The step leaves the memory alone. -/
def LeavesMemory (f : Step S M α) : Prop :=
  ∀ s, (after (f s)).frame.memory = s.frame.memory

/-- Where the step fails on the memory, it leaves the memory alone. -/
def FailsClean (f : Step S M α) : Prop :=
  ∀ s t e, f s = .error (.memory e) t → t.frame.memory = s.frame.memory

theorem leavesMemory_reading (f : Reader S → α × Reader S) :
    LeavesMemory (reading (M := M) f) := fun s => (sameStores_afterReading f s).2

theorem leavesMemory_fetchAddress : LeavesMemory (fetchAddress (S := S) (M := M)) := by
  intro s
  rcases fetchAddress_cases s with ⟨e, t, hfetch, hsame⟩ | ⟨t, hfetch, _, hmemory, _⟩
  · rw [hfetch]
    exact hsame.2
  · rw [hfetch]
    exact hmemory

theorem leavesMemory_consumed : LeavesMemory (consumed (S := S) (M := M)) := fun _ => rfl

theorem LeavesMemory.of_ok {f : Step S M α} {s t : State S M} {a : α} (hf : LeavesMemory f)
    (h : f s = .ok a t) : t.frame.memory = s.frame.memory := by
  have hmemory := hf s
  rwa [h] at hmemory

namespace FailsClean

theorem pure (a : α) : FailsClean (S := S) (M := M) (Pure.pure a) :=
  fun _ _ _ h => nomatch h

theorem storing (f : M → Except MemoryError M) : FailsClean (S := S) (Scan.storing f) := by
  intro s t e h
  unfold Scan.storing at h
  split at h <;> cases h
  rfl

/-- A step that leaves the memory alone, and one that fails clean behind it. -/
theorem behind {f : Step S M α} {g : α → Step S M β} (hf : LeavesMemory f)
    (hg : ∀ a, FailsClean (g a)) : FailsClean (f >>= g) := by
  intro s t e h
  cases hstep : f s with
  | ok a u =>
    rw [bind_of_ok hstep] at h
    exact (hg a u t e h).trans (hf.of_ok hstep)
  | error e' u =>
    rw [bind_of_error hstep] at h
    cases h
    have hmemory := hf s
    rwa [hstep] at hmemory

/-- A step that fails clean, and nothing behind it that could fail. -/
theorem last {f : Step S M α} (hf : FailsClean f) (b : β) :
    FailsClean (f >>= fun _ => Pure.pure b) := by
  intro s t e h
  cases hstep : f s with
  | ok a u =>
    rw [bind_of_ok hstep] at h
    cases h
  | error e' u =>
    rw [bind_of_error hstep] at h
    cases h
    exact hf s t e hstep

theorem storeNumber (suppress : Bool) (store : M → Nat → Except MemoryError M) :
    FailsClean (Scan.storeNumber (S := S) suppress store) := by
  unfold Scan.storeNumber
  cases suppress with
  | true => exact .pure _
  | false => exact .behind leavesMemory_fetchAddress fun address => .last (.storing _) _

variable [Memory M]

theorem storeField (suppress : Bool) (field : List Byte) :
    FailsClean (Scan.storeText (S := S) (M := M) suppress false field) := by
  unfold Scan.storeText
  cases suppress with
  | true => exact .pure _
  | false => exact .behind leavesMemory_fetchAddress fun address => .last (.storing _) _

theorem convertCount (spec : ScanSpec) :
    FailsClean (Scan.convertCount (S := S) (M := M) spec) := by
  unfold Scan.convertCount
  cases spec.suppress with
  | true => exact .pure _
  | false =>
    exact .behind leavesMemory_fetchAddress fun address =>
      .behind leavesMemory_consumed fun count => .last (.storing _) _

variable [ByteSource S]

omit [Memory M] in
theorem afterSpace {f : Step S M Progress} (h : FailsClean f) : FailsClean (Scan.afterSpace f) := by
  refine .behind (leavesMemory_reading _) fun found => ?_
  cases found with
  | true => exact h
  | false => exact .pure _

theorem convertCharacters (spec : ScanSpec) :
    FailsClean (Scan.convertCharacters (S := S) (M := M) spec) := by
  refine .behind (leavesMemory_reading _) fun run => ?_
  cases run.bytes.isEmpty with
  | true => exact .pure _
  | false => exact .storeField _ _

theorem convertInteger (spec : ScanSpec) (base : IntegerToken.Base) (signed : Bool) (size : Nat) :
    FailsClean (Scan.convertInteger (S := S) (M := M) spec base signed size) := by
  refine .afterSpace (.behind (leavesMemory_reading _) fun token => ?_)
  cases token with
  | none => exact .pure _
  | some token => exact .storeNumber _ _

theorem convertFloat (spec : ScanSpec) :
    FailsClean (Scan.convertFloat (S := S) (M := M) spec) := by
  refine .afterSpace (.behind (leavesMemory_reading _) fun token => ?_)
  cases token with
  | none => exact .pure _
  | some token => exact .storeNumber _ _

/-- Every directive fails clean but one that stores a string. -/
theorem convert {spec : ScanSpec} (h : spec.terminates = false) :
    FailsClean (Scan.convert (S := S) (M := M) spec) := by
  obtain ⟨suppress, width, length, conversion⟩ := spec
  cases conversion with
  | set members => cases h
  | letter conversion =>
    cases conversion with
    | s => cases h
    | n => exact .convertCount _
    | c => exact .convertCharacters _
    | d | i | u | o | x | X | p => exact .convertInteger _ _ _ _
    | f | F | e | E | g | G | a | A => exact .convertFloat _

end FailsClean

/-! ### Strings -/

/-- What a store that failed at an address leaves of an arena: all of it, or, when the
field of a string has room there and the zero byte behind it has none, the arena with
the field in it. -/
inductive Remains (terminates : Bool) (address : Nat) (field : List Byte) (before : Arena) :
    Arena → Prop where
  | untouched : (terminates = true → ¬ before.InBounds address field.length) →
    Remains terminates address field before before
  | field {left : Arena} : terminates = true → before.InBounds address field.length →
    ¬ before.InBounds address (field.length + 1) → before.writeBytes address field = .ok left →
    Remains terminates address field before left

/-- Where the zero byte behind a stored field has no room, the string had none. -/
theorem not_inBounds_of_terminator {before later : Arena} {address : Nat} {field : List Byte}
    {e : MemoryError} (hfield : before.writeBytes address field = .ok later)
    (h : later.writeBytes (address + field.length) [0] = .error e) :
    ¬ before.InBounds address (field.length + 1) := by
  rintro ⟨hnull, hbase, hend⟩
  obtain ⟨-, hbase', hsize', -⟩ := Arena.writeBytes_spec hfield
  have hfits : later.InBounds (address + field.length) [(0 : Byte)].length :=
    ⟨by omega, by omega, by rw [hbase', hsize', List.length_singleton]; omega⟩
  obtain ⟨left, hleft⟩ := Arena.writeBytes_of_inBounds hfits
  rw [hleft] at h
  cases h

theorem not_inBounds_of_failed {before : Arena} {address : Nat} {field : List Byte}
    {e : MemoryError} (h : before.writeBytes address field = .error e) :
    ¬ before.InBounds address field.length := by
  intro hin
  obtain ⟨left, hleft⟩ := Arena.writeBytes_of_inBounds hin
  rw [hleft] at h
  cases h

/-- A string that is not stored whole fails at its field or at its zero byte. -/
theorem storeString_remains {suppress : Bool} {field : List Byte} {s t : State S Arena}
    {e : MemoryError} (h : storeText suppress true field s = .error (.memory e) t) :
    Remains true s.frame.arguments.nextBits.asAddress field s.frame.memory t.frame.memory := by
  have hdeposits : Deposits suppress [field, [0]] s _ := storeText_deposits suppress true field s
  rw [h] at hdeposits
  cases hdeposits with
  | unwritten wanted next writes =>
    rw [← ArgumentList.eq_nextBits_of_next next]
    cases writes with
    | refused write => exact .untouched fun _ => not_inBounds_of_failed write
    | cons write behind =>
      cases behind with
      | refused write' =>
        exact .field rfl (Arena.writeBytes_spec write).1
          (not_inBounds_of_terminator write write') write
      | cons _ behind => cases behind

/-! ### Directives -/

variable [ByteSource S]

omit [ByteSource S] in
/-- Reading before a string changes neither the address nor the memory. -/
theorem remains_of_afterReading {f : Reader S → α × Reader S} {field : List Byte}
    {s : State S Arena} {left : Arena}
    (h : Remains true (afterReading f s).frame.arguments.nextBits.asAddress field
      (afterReading f s).frame.memory left) :
    Remains true s.frame.arguments.nextBits.asAddress field s.frame.memory left := by
  obtain ⟨harguments, hmemory⟩ := sameStores_afterReading f s
  rwa [harguments, hmemory] at h

theorem convertString_remains {spec : ScanSpec} {s t : State S Arena} {e : MemoryError}
    (h : convertString spec s = .error (.memory e) t) :
    Remains true s.frame.arguments.nextBits.asAddress
      (s.reader.skipSpace.2.takeWhile (fun b => !b.isSpace) spec.width).1.bytes
      s.frame.memory t.frame.memory := by
  unfold convertString afterSpace at h
  rw [bind_reading] at h
  split at h
  · rw [bind_reading] at h
    exact remains_of_afterReading (remains_of_afterReading (storeString_remains h))
  · cases h

theorem convertSet_remains {spec : ScanSpec} {members : ByteSet} {s t : State S Arena}
    {e : MemoryError} (h : convertSet spec members s = .error (.memory e) t) :
    Remains true s.frame.arguments.nextBits.asAddress
      (s.reader.takeWhile members.contains spec.width).1.bytes s.frame.memory t.frame.memory := by
  unfold convertSet at h
  rw [bind_reading] at h
  split at h
  · cases h
  · exact remains_of_afterReading (storeString_remains h)

/-- What a directive leaves of the arena when its store fails. -/
theorem convert_remains {spec : ScanSpec} {s t : State S Arena} {e : MemoryError}
    (h : convert spec s = .error (.memory e) t) :
    Remains spec.terminates s.frame.arguments.nextBits.asAddress (fieldOf spec s.reader)
      s.frame.memory t.frame.memory := by
  cases hterminates : spec.terminates with
  | false =>
    rw [FailsClean.convert hterminates _ _ _ h]
    exact .untouched nofun
  | true =>
    obtain ⟨suppress, width, length, conversion⟩ := spec
    cases conversion with
    | set members => exact convertSet_remains h
    | letter conversion =>
      cases conversion with
      | s => exact convertString_remains h
      | _ => cases hterminates

/-- Only directives store, so only they fail. -/
theorem exists_directive_of_error {segment : ScanSegment} {s t : State S Arena} {e : ScanError}
    (h : matchSegment segment s = .error e t) : ∃ spec, segment = .directive spec := by
  cases segment with
  | directive spec => exact ⟨spec, rfl⟩
  | space | literal bytes => cases h
  | percent =>
    replace h : afterSpace _ s = .error e t := h
    unfold afterSpace at h
    rw [bind_reading] at h
    split at h <;> cases h

/-! ### Calls -/

/-- A call that fails to store leaves of the arena what the directives completed before
the failing one have made of it. The failing one adds nothing, unless it stores a string
whose field has room and whose zero byte has none: then it adds the field. -/
theorem memory_of_failed_store {source : S} {format : List Byte} {frame : Frame Arena}
    {e : MemoryError} (h : (scan source format frame).1 = .error (.memory e)) :
    ∃ spec met, Reaches source format frame (.directive spec) met ∧
      (∃ t, convert spec met = .error (.memory e) t) ∧
      Remains spec.terminates met.frame.arguments.nextBits.asAddress (fieldOf spec met.reader)
        met.frame.memory (scan source format frame).2.2.memory := by
  unfold scan at h ⊢
  cases hrun : run format ⟨.start source, frame.note (·.count .scanCalls)⟩ with
  | ok result t =>
    rw [hrun] at h
    cases h
  | error e' t =>
    rw [hrun] at h
    cases h
    obtain ⟨segment, met, hreached, hfails⟩ := exists_reached_of_error (fun _ h => by cases h) hrun
    obtain ⟨spec, rfl⟩ := exists_directive_of_error hfails
    refine ⟨spec, met, hreached, ⟨t, hfails⟩, ?_⟩
    dsimp only
    rw [(noteFailure_stores _ _).2]
    exact convert_remains hfails

/-- A call with these addresses over an arena of so many zero bytes. -/
def frameOf (size : Nat) (addresses : List Nat) : Frame Arena :=
  ⟨.start .checked (addresses.map .pointer), ⟨0x10000, List.replicate size 0⟩, .initial⟩

/-- The number is stored, and then the word behind it has room for its letters only. -/
theorem memory_of_failed_store_behind_number :
    let source := TextSource.mk (ascii "7 abc")
    let frame := frameOf 7 [0x10000, 0x10004]
    (scan source (ascii "%d%s") frame).1 = .error (.memory (.outOfBounds 0x10007 1)) ∧
      ∃ spec met, Reaches source (ascii "%d%s") frame (.directive spec) met ∧
        (∃ t, convert spec met = .error (.memory (.outOfBounds 0x10007 1)) t) ∧
        Remains spec.terminates met.frame.arguments.nextBits.asAddress (fieldOf spec met.reader)
          met.frame.memory (scan source (ascii "%d%s") frame).2.2.memory := by
  intro source frame
  have hfails : (scan source (ascii "%d%s") frame).1 =
      .error (.memory (.outOfBounds 0x10007 1)) := error_of_no_value (by decide +kernel)
  exact ⟨hfails, memory_of_failed_store hfails⟩

/-- Three letters and room for three bytes: nothing comes before the word, it fails for
its zero byte, and the arena is no more what it was. -/
theorem field_without_terminator_is_stored :
    let source := TextSource.mk (ascii "abc")
    let frame := frameOf 3 [0x10000]
    let result := scan source (ascii "%s") frame
    ∃ spec met, Reaches source (ascii "%s") frame (.directive spec) met ∧
      (∃ t, convert spec met = .error (.memory (.outOfBounds 0x10003 1)) t) ∧
      spec.conversion = .letter .s ∧ met.frame.memory = frame.memory ∧
      met.frame.memory.InBounds 0x10000 (fieldOf spec met.reader).length ∧
      result.1 = .error (.memory (.outOfBounds 0x10003 1)) ∧
      result.2.2.memory ≠ met.frame.memory := by
  intro source frame result
  have hparse : ScanFormat.parse (ascii "%s") =
      .ok [.directive ⟨false, none, .plain, .letter .s⟩] := ok_of_toOption (by decide +kernel)
  refine ⟨_, _, ⟨[], [], 0, hparse, rfl⟩, exists_error_of_error (by decide +kernel), rfl, rfl,
    ?_, ?_, ?_⟩
  · exact ⟨by decide, by decide, by decide +kernel⟩
  · exact error_of_no_value (by decide +kernel)
  · decide +kernel

end Scan
end CheckedFormat
