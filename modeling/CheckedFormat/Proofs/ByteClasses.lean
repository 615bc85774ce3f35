import CheckedFormat.Directive.Print
/-! Classes of bytes as ranges of codes, and runs of a class in a text.

The classes are told apart by their codes, so what no two of them share is
arithmetic. A run of a class ends where the text `StopsAt` it. -/
namespace CheckedFormat
namespace Byte

theorem isDigit_iff {b : Byte} : b.isDigit = true ↔ 48 ≤ b.toNat ∧ b.toNat ≤ 57 := by
  simp [isDigit, UInt8.le_iff_toNat_le]

theorem isUpper_iff {b : Byte} : b.isUpper = true ↔ 65 ≤ b.toNat ∧ b.toNat ≤ 90 := by
  simp [isUpper, UInt8.le_iff_toNat_le]

theorem isLower_iff {b : Byte} : b.isLower = true ↔ 97 ≤ b.toNat ∧ b.toNat ≤ 122 := by
  simp [isLower, UInt8.le_iff_toNat_le]

theorem isSpace_iff {b : Byte} :
    b.isSpace = true ↔ b.toNat = 32 ∨ (9 ≤ b.toNat ∧ b.toNat ≤ 13) := by
  simp [isSpace, UInt8.le_iff_toNat_le, ← UInt8.toNat_inj]

/-- A lower-case letter is the lower-case form of itself and of its upper-case form. -/
theorem lower_eq_iff {b letter : Byte} (h : letter.isLower = true) :
    b.lower = letter ↔ b = letter ∨ b = letter.upper := by
  have hletter := isLower_iff.1 h
  have hupper : (letter - 32).toNat = letter.toNat - 32 := by
    have hle : (32 : Byte) ≤ letter :=
      UInt8.le_iff_toNat_le.2 (by simp only [UInt8.reduceToNat]; omega)
    exact UInt8.toNat_sub_of_le letter 32 hle
  unfold lower upper
  rw [if_pos h, ← UInt8.toNat_inj, ← UInt8.toNat_inj, ← UInt8.toNat_inj, hupper]
  split
  · rename_i hb
    rw [isUpper_iff] at hb
    rw [UInt8.toNat_add]
    simp only [UInt8.reduceToNat]
    omega
  · rename_i hb
    rw [isUpper_iff] at hb
    omega

end Byte

theorem Flags.isFlag_iff {b : Byte} :
    isFlag b = true ↔
      b.toNat = 45 ∨ b.toNat = 43 ∨ b.toNat = 32 ∨ b.toNat = 35 ∨ b.toNat = 48 := by
  have hcharacters : characters = [45, 43, 32, 35, 48] := by decide
  simp [isFlag, hcharacters, ← UInt8.toNat_inj]

/-! ### Runs -/

/-- The text does not go on with a byte of the class. -/
def StopsAt (p : Byte → Bool) (text : List Byte) : Prop := ∀ b, text.head? = some b → p b = false

theorem StopsAt.nil (p : Byte → Bool) : StopsAt p [] := fun _ h => nomatch h

theorem StopsAt.cons {p : Byte → Bool} {b : Byte} (rest : List Byte) (h : p b = false) :
    StopsAt p (b :: rest) := fun c hc => by
  cases hc
  exact h

theorem StopsAt.append {p : Byte → Bool} {front rest : List Byte} (hfront : StopsAt p front)
    (hrest : StopsAt p rest) : StopsAt p (front ++ rest) := by
  cases front with
  | nil => exact hrest
  | cons b front => exact .cons _ (hfront b rfl)

theorem stopsAt_dropWhile (p : Byte → Bool) (text : List Byte) :
    StopsAt p (text.dropWhile p) := by
  intro b hb
  have hsome := List.head?_dropWhile_not p text
  rw [hb] at hsome
  simpa using hsome

theorem of_mem_takeWhile (p : Byte → Bool) (text : List Byte) : ∀ b ∈ text.takeWhile p, p b :=
  List.all_eq_true.1 List.all_takeWhile

theorem takeWhile_of_stopsAt {p : Byte → Bool} {front rest : List Byte} (hfront : ∀ b ∈ front, p b)
    (hrest : StopsAt p rest) : (front ++ rest).takeWhile p = front := by
  rw [List.takeWhile_append_of_pos hfront]
  cases rest with
  | nil => simp
  | cons b rest => simp [hrest b rfl]

theorem dropWhile_of_stopsAt {p : Byte → Bool} {front rest : List Byte} (hfront : ∀ b ∈ front, p b)
    (hrest : StopsAt p rest) : (front ++ rest).dropWhile p = rest := by
  rw [List.dropWhile_append_of_pos hfront]
  cases rest with
  | nil => rfl
  | cons b rest => simp [hrest b rfl]

/-- A run of bytes of the class, as long as the text allows. -/
structure MaximalRun (p : Byte → Bool) (run rest : List Byte) : Prop where
  nonempty : run ≠ []
  all : ∀ b ∈ run, p b
  stops : StopsAt p rest

/-- A byte of the class starts a run. -/
theorem maximalRun_of_first {p : Byte → Bool} {b : Byte} (hb : p b = true) (after : List Byte) :
    MaximalRun p (b :: after.takeWhile p) (after.dropWhile p) :=
  ⟨nofun, List.forall_mem_cons.2 ⟨hb, of_mem_takeWhile p after⟩, stopsAt_dropWhile p after⟩

theorem MaximalRun.ne {p : Byte → Bool} {b : Byte} {run rest : List Byte} (h : MaximalRun p run rest)
    (hb : p b = false) : ∀ c ∈ run, c ≠ b := by
  rintro c hc rfl
  rw [h.all c hc] at hb
  cases hb

/-- Whether a run ends does not hang on what stands behind a byte of another class. -/
theorem MaximalRun.before_iff {p : Byte → Bool} {b : Byte} {run rest after : List Byte}
    (hb : p b = false) : MaximalRun p run (rest ++ b :: after) ↔ MaximalRun p run rest := by
  have hstops : StopsAt p (rest ++ b :: after) ↔ StopsAt p rest := by
    cases rest with
    | nil => exact ⟨fun _ => .nil p, fun _ => .cons after hb⟩
    | cons c rest => rfl
  exact ⟨fun ⟨hrun, hall, h⟩ => ⟨hrun, hall, hstops.1 h⟩,
    fun ⟨hrun, hall, h⟩ => ⟨hrun, hall, hstops.2 h⟩⟩

end CheckedFormat
