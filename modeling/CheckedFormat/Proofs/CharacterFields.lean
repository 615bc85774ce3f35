import CheckedFormat.Proofs.FailedStores
import CheckedFormat.Proofs.Finding
import CheckedFormat.Proofs.ReadErrors
/-! Fields of so many characters.

A character directive asks for as many bytes as its width says and takes what there is.
Where the input ends first, or cannot be read on, it stores the bytes in front of that and
is counted all the same; only where there is no byte at all it stops the scan. So a counted
field has between one and so many bytes, and it has all of them just where the input does
not end within the field (`character_fields_whole_iff`). -/
namespace CheckedFormat

/-! ### What a reader gives -/

namespace Reader
variable {S : Type} [ByteSource S]

/-- The reader gives these bytes, one after the other, and is then the second reader. -/
inductive Gives : Reader S → List Byte → Reader S → Prop where
  | nil (r : Reader S) : Gives r [] r
  | cons {r u v : Reader S} {b : Byte} {bytes : List Byte} (get : r.get = (some b, u))
      (rest : Gives u bytes v) : Gives r (b :: bytes) v

/-- The reader gives fewer than `n` bytes before its input ends or fails. -/
def EndsWithin (n : Nat) (r : Reader S) : Prop :=
  ∃ bytes u v, bytes.length < n ∧ r.Gives bytes u ∧ u.get = (none, v)

theorem consumed_of_get {r u : Reader S} {b : Byte} (h : r.get = (some b, u)) :
    u.consumed = r.consumed + 1 := by
  unfold get at h
  split at h
  · cases h
  · split at h <;> cases h
    rfl

theorem consumed_of_get_none {r u : Reader S} (h : r.get = (none, u)) :
    u.consumed = r.consumed := by
  unfold get at h
  split at h
  · cases h
    rfl
  · split at h <;> cases h <;> rfl

theorem Gives.consumed {r u : Reader S} {bytes : List Byte} (h : r.Gives bytes u) :
    u.consumed = r.consumed + bytes.length := by
  induction h with
  | nil => rfl
  | cons get _ ih =>
    rw [ih, consumed_of_get get, List.length_cons]
    omega

/-- A reader that gives `n` bytes does not end within them. -/
theorem Gives.not_endsWithin {r u : Reader S} {bytes : List Byte} (h : r.Gives bytes u) :
    ¬ r.EndsWithin bytes.length := by
  induction h with
  | nil r =>
    rintro ⟨_, _, _, hlength, _⟩
    exact absurd hlength (Nat.not_lt_zero _)
  | cons get _ ih =>
    rintro ⟨shorter, v, w, hlength, hgives, hend⟩
    cases hgives with
    | nil =>
      rw [get] at hend
      cases hend
    | cons get' rest' =>
      rw [get] at get'
      cases get'
      exact ih ⟨_, v, w, Nat.lt_of_succ_lt_succ hlength, rest', hend⟩

/-- A run of any bytes is as long as it may be, or the input ended it. -/
theorem takeWhile_any (n : Nat) (r : Reader S) :
    let run := (r.takeWhile (fun _ => true) (some n)).1.bytes
    let left := (r.takeWhile (fun _ => true) (some n)).2
    (run.length = n ∧ r.Gives run left) ∨
      ∃ u, run.length < n ∧ r.Gives run u ∧ u.get = (none, left) := by
  induction n generalizing r with
  | zero =>
    rw [takeWhile_full]
    exact .inl ⟨rfl, .nil r⟩
  | succ n ih =>
    have hwidth : some (n + 1) ≠ some 0 := by simp
    cases hget : r.get with
    | mk result u =>
      cases result with
      | none =>
        rw [takeWhile_end hwidth hget]
        exact .inr ⟨r, Nat.succ_pos n, .nil r, hget⟩
      | some b =>
        rw [takeWhile_byte hwidth hget, if_pos rfl]
        rcases ih u with ⟨hlength, hgives⟩ | ⟨v, hlength, hgives, hend⟩
        · exact .inl ⟨congrArg (· + 1) hlength, .cons hget hgives⟩
        · exact .inr ⟨v, Nat.succ_lt_succ hlength, .cons hget hgives, hend⟩

end Reader

/-! ### Character directives -/

namespace ScanSpec

/-- How many characters a character directive asks for: its width, or one. -/
def count (spec : ScanSpec) : Nat := spec.width.getD 1

end ScanSpec

namespace Scan
variable {S M : Type} [ByteSource S] [Memory M]

/-- On the way from the first state to the second the next `n` bytes of the input were
consumed, and they and nothing else were stored at the next address. -/
def StoresExactly (n : Nat) (s t : State S M) : Prop :=
  ∃ field u, field.length = n ∧ s.reader.Gives field u ∧
    t.reader.consumed = s.reader.consumed + n ∧
    Memory.writeBytes s.frame.memory s.frame.arguments.nextBits.asAddress field =
      .ok t.frame.memory

omit [ByteSource S] in
/-- A text that is stored without a zero byte is stored at the next address. -/
theorem storeText_assigned {text : List Byte} {s t : State S M}
    (h : storeText false false text s = .ok .assigned t) :
    t.reader = s.reader ∧
      Memory.writeBytes s.frame.memory s.frame.arguments.nextBits.asAddress text =
        .ok t.frame.memory := by
  have hdeposits : Deposits false [text] s _ := storeText_deposits false false text s
  rw [h] at hdeposits
  cases hdeposits with
  | assigned _ next writes =>
    rw [← ArgumentList.eq_nextBits_of_next next]
    cases writes with
    | cons write behind =>
      cases behind
      exact ⟨rfl, write⟩

/-- A field that is assigned is the run that the reader gives. -/
theorem convertCharacters_assigned {spec : ScanSpec} {s t : State S M}
    (hstar : spec.suppress = false) (h : convertCharacters spec s = .ok .assigned t) :
    let run := (s.reader.takeWhile (fun _ => true) (some spec.count)).1.bytes
    run ≠ [] ∧ t.reader = (s.reader.takeWhile (fun _ => true) (some spec.count)).2 ∧
      Memory.writeBytes s.frame.memory s.frame.arguments.nextBits.asAddress run =
        .ok t.frame.memory := by
  unfold convertCharacters at h
  rw [bind_reading] at h
  split at h
  · cases h
  · rename_i hsome
    rw [hstar] at h
    obtain ⟨hreader, hwritten⟩ := storeText_assigned h
    obtain ⟨harguments, hmemory⟩ := sameStores_afterReading
      (Reader.takeWhile (fun _ => true) (some (spec.width.getD 1))) s
    rw [harguments, hmemory] at hwritten
    exact ⟨fun hempty => hsome (List.isEmpty_iff.2 hempty), hreader, hwritten⟩

/-- An assigned field has all its characters just where the input does not end within it,
and at least one in any case. -/
theorem convertCharacters_whole_iff {spec : ScanSpec} {s t : State S M}
    (hstar : spec.suppress = false) (h : convertCharacters spec s = .ok .assigned t) :
    (StoresExactly spec.count s t ↔ ¬ s.reader.EndsWithin spec.count) ∧
      ∃ n, 1 ≤ n ∧ n ≤ spec.count ∧ StoresExactly n s t := by
  obtain ⟨hsome, hreader, hwritten⟩ := convertCharacters_assigned hstar h
  have hpositive := List.length_pos_iff.2 hsome
  rcases Reader.takeWhile_any spec.count s.reader with
    ⟨hlength, hgives⟩ | ⟨u, hlength, hgives, hend⟩
  · have hwhole : StoresExactly spec.count s t :=
      ⟨_, _, hlength, hgives, by rw [hreader, hgives.consumed, hlength], hwritten⟩
    rw [hlength] at hpositive
    exact ⟨iff_of_true hwhole (hlength ▸ hgives.not_endsWithin),
      spec.count, hpositive, Nat.le_refl _, hwhole⟩
  · have hshort : s.reader.EndsWithin spec.count := ⟨_, u, _, hlength, hgives, hend⟩
    refine ⟨iff_of_false ?_ (not_not_intro hshort), _, hpositive, Nat.le_of_lt hlength,
      _, u, rfl, hgives, ?_, hwritten⟩
    · rintro ⟨field, v, hfield, hwhole, -⟩
      exact hwhole.not_endsWithin (hfield ▸ hshort)
    · rw [hreader, Reader.consumed_of_get_none hend, hgives.consumed]

/-! ### Calls -/

/-- A call comes to a character directive that is not suppressed, and counts it as
assigned. -/
structure CountsCharacters (source : S) (format : List Byte) (frame : Frame M) (spec : ScanSpec)
    (met t : State S M) : Prop where
  reached : Reaches source format frame (.directive spec) met
  letter : spec.conversion = .letter .c
  stores : spec.suppress = false
  counted : convert spec met = .ok .assigned t

/-- **A counted field of characters is whole just where the input does not end in it.** Then
as many bytes as the directive asks for were consumed, and they and nothing else were stored
at its address. Otherwise the field is shorter, though never empty: what there was before the
end or the read error is consumed, stored and counted. -/
theorem character_fields_whole_iff {source : S} {format : List Byte} {frame : Frame M}
    {spec : ScanSpec} {met t : State S M} (h : CountsCharacters source format frame spec met t) :
    (StoresExactly spec.count met t ↔ ¬ met.reader.EndsWithin spec.count) ∧
      ∃ n, 1 ≤ n ∧ n ≤ spec.count ∧ StoresExactly n met t := by
  have hcounted := h.counted
  simp only [convert, h.letter] at hcounted
  exact convertCharacters_whole_iff h.stores hcounted

/-- The number is taken, and then all three characters that stand before the error, white
space among them. -/
theorem characters_before_error_are_whole :
    let s := Stream.wrap (brokenFile "7 ab") .readOnly
    let frame := frameOf 7 [0x10000, 0x10004]
    let spec : ScanSpec := ⟨false, some 3, .plain, .letter .c⟩
    (scan s (ascii "%d%3c") frame).1 = .ok ⟨2, 4, .complete, none⟩ ∧
      ∃ met t, CountsCharacters s (ascii "%d%3c") frame spec met t ∧
        (StoresExactly 3 met t ↔ ¬ met.reader.EndsWithin 3) ∧
        ∃ n, 1 ≤ n ∧ n ≤ 3 ∧ StoresExactly n met t := by
  intro s frame spec
  let number : ScanSegment := .directive ⟨false, none, .plain, .letter .d⟩
  have hparse : ScanFormat.parse (ascii "%d%3c") = .ok ([number] ++ .directive spec :: []) :=
    ok_of_toOption (by decide +kernel)
  let both : Step (Stream ScriptedFile) Arena ((Nat × ScanStatus) × Progress) := do
    let counted ← runFrom 0 [number]
    return (counted, ← convert spec)
  obtain ⟨u, hboth⟩ : ∃ u, both ⟨.start s, frame.note (·.count .scanCalls)⟩ =
      .ok ((1, .complete), .assigned) u := exists_ok_of_value (by decide +kernel)
  obtain ⟨_, met, hnumber, hrest⟩ := ok_of_bind hboth
  obtain ⟨_, t, hcounted, hlast⟩ := ok_of_bind hrest
  cases hlast
  have hcounts : CountsCharacters s (ascii "%d%3c") frame spec met u :=
    ⟨⟨[number], [], 1, hparse, hnumber⟩, rfl, rfl, hcounted⟩
  exact ⟨ok_of_toOption (by decide +kernel), met, u, hcounts, character_fields_whole_iff hcounts⟩

/-- Two bytes for three characters: the field is short, and the directive is counted. -/
theorem short_field_of_characters_is_counted :
    let source := TextSource.mk (ascii "ab")
    let frame := frameOf 3 [0x10000]
    let spec : ScanSpec := ⟨false, some 3, .plain, .letter .c⟩
    (scan source (ascii "%3c") frame).1 = .ok ⟨1, 2, .complete, none⟩ ∧
      ∃ met t, CountsCharacters source (ascii "%3c") frame spec met t ∧
        ¬ StoresExactly 3 met t := by
  intro source frame spec
  have hparse : ScanFormat.parse (ascii "%3c") = .ok [.directive spec] :=
    ok_of_toOption (by decide +kernel)
  let met : State TextSource Arena := ⟨.start source, frame.note (·.count .scanCalls)⟩
  obtain ⟨t, hcounted⟩ : ∃ t, convertCharacters spec met = .ok .assigned t :=
    exists_ok_of_value (by decide +kernel)
  have hends : met.reader.EndsWithin 3 :=
    ⟨ascii "ab", _, _, by decide, .cons rfl (.cons rfl (.nil _)), rfl⟩
  have hshort : ¬ StoresExactly 3 met t := fun hwhole =>
    (convertCharacters_whole_iff rfl hcounted).1.1 hwhole hends
  exact ⟨ok_of_toOption (by decide +kernel), met, t,
    ⟨⟨[], [], 0, hparse, rfl⟩, rfl, rfl, hcounted⟩, hshort⟩

end Scan
end CheckedFormat
