import CheckedFormat.Memory.Arena
/-! What accesses do to an arena, byte by byte.

An arena is seen through the byte at each address (`byteAt?`). A store that succeeds
puts its bytes at the addresses of its range and leaves every other byte, the base
and the size (`writeBytes_spec`); one that fails gives no arena at all. What lies in
a range of addresses (`Holds`) follows from the bytes there, so it survives every
store outside the range; and so does a string, which depends on no more bytes than are
looked at to find its end (`readString_of_same`). -/
namespace CheckedFormat

/-! ### Bytes up to a zero byte -/

theorem upToNul_cons {b : Byte} (h : b ≠ 0) (rest : List Byte) :
    upToNul (b :: rest) = b :: upToNul rest := by simp [upToNul, h]

theorem upToNul_congr {window window' : List Byte} (hlength : window'.length = window.length)
    (h : ∀ i ≤ (upToNul window).length, window'[i]? = window[i]?) :
    upToNul window' = upToNul window := by
  induction window generalizing window' with
  | nil =>
    rw [List.length_eq_zero_iff.1 hlength]
  | cons b rest ih =>
    cases window' with
    | nil => cases hlength
    | cons b' rest' =>
      obtain rfl : b' = b := Option.some.inj (h 0 (Nat.zero_le _))
      by_cases hzero : b' = 0
      · simp [upToNul, hzero]
      · rw [upToNul_cons hzero, upToNul_cons hzero, ih (Nat.succ.inj hlength) fun i hi => ?_]
        rw [upToNul_cons hzero, List.length_cons] at h
        exact h (i + 1) (Nat.succ_le_succ hi)

/-- A string is the front of its bytes. -/
theorem getElem?_upToNul {bytes : List Byte} {i : Nat} (h : i < (upToNul bytes).length) :
    (upToNul bytes)[i]? = bytes[i]? := by
  obtain ⟨rest, hrest⟩ : upToNul bytes <+: bytes := List.takeWhile_prefix _
  have hfront : (upToNul bytes ++ rest)[i]? = (upToNul bytes)[i]? := List.getElem?_append_left h
  rw [hrest] at hfront
  exact hfront.symm

/-- There is no zero byte in it. -/
theorem getElem?_upToNul_ne_zero {bytes : List Byte} {i : Nat} (h : i < (upToNul bytes).length) :
    bytes[i]? ≠ some 0 := by
  rw [← getElem?_upToNul h]
  intro hzero
  have hmem := List.mem_of_getElem? hzero
  simpa using List.all_eq_true.1 List.all_takeWhile 0 hmem

/-- If it is not all of them, a zero byte comes behind it. -/
theorem getElem?_length_upToNul {bytes : List Byte} (h : (upToNul bytes).length < bytes.length) :
    bytes[(upToNul bytes).length]? = some 0 := by
  induction bytes with
  | nil => exact absurd h (Nat.lt_irrefl 0)
  | cons b rest ih =>
    by_cases hzero : b = 0
    · simp [upToNul, hzero]
    · rw [upToNul_cons hzero, List.length_cons, List.length_cons] at h
      rw [upToNul_cons hzero, List.length_cons, List.getElem?_cons_succ]
      exact ih (Nat.lt_of_succ_lt_succ h)

namespace Arena

/-- The byte at an address in use. -/
def byteAt? (a : Arena) (address : Nat) : Option Byte :=
  if address < a.base then none else a.bytes[address - a.base]?

/-- The range lies within the arena, and does not start at zero. -/
def InBounds (a : Arena) (address length : Nat) : Prop :=
  address ≠ 0 ∧ a.base ≤ address ∧ address + length ≤ a.base + a.size

/-- These bytes lie at an address. -/
def Holds (a : Arena) (address : Nat) (bytes : List Byte) : Prop :=
  a.readBytes address bytes.length = .ok bytes

theorem locate_eq_ok_iff {a : Arena} {address length offset : Nat} :
    a.locate address length = .ok offset ↔ a.InBounds address length ∧ offset = address - a.base := by
  unfold locate InBounds
  constructor
  · intro h
    split at h
    · cases h
    · split at h
      · cases h
      · split at h
        · cases h
        · cases h
          refine ⟨⟨?_, ?_, ?_⟩, rfl⟩ <;> omega
  · rintro ⟨⟨hnull, hbase, hend⟩, rfl⟩
    rw [if_neg hnull, if_neg (by omega), if_neg (by omega)]

/-! ### Stores -/

theorem size_store {a : Arena} {offset : Nat} {bytes : List Byte}
    (h : offset + bytes.length ≤ a.size) : (a.store offset bytes).size = a.size := by
  simp only [store, size] at h ⊢
  rw [List.length_append, List.length_take, length_overlay, List.length_drop]
  omega

theorem getElem?_store {a : Arena} {offset : Nat} {bytes : List Byte}
    (h : offset + bytes.length ≤ a.size) (i : Nat) :
    (a.store offset bytes).bytes[i]? =
      if offset ≤ i ∧ i < offset + bytes.length then bytes[i - offset]? else a.bytes[i]? := by
  simp only [store, size] at h ⊢
  have htake : (a.bytes.take offset).length = offset := by
    rw [List.length_take]
    omega
  by_cases hbefore : i < offset
  · rw [List.getElem?_append_left (by omega), List.getElem?_take_of_lt hbefore,
      if_neg (by omega)]
  · rw [List.getElem?_append_right (by omega), htake, overlay]
    by_cases hinside : i < offset + bytes.length
    · rw [List.getElem?_append_left (by omega), if_pos (by omega)]
    · rw [List.getElem?_append_right (by omega), if_neg (by omega), List.getElem?_drop,
        List.getElem?_drop]
      congr 1
      omega

theorem byteAt?_store {a : Arena} {offset : Nat} {bytes : List Byte}
    (h : offset + bytes.length ≤ a.size) (x : Nat) :
    (a.store offset bytes).byteAt? x =
      if a.base + offset ≤ x ∧ x < a.base + offset + bytes.length
      then bytes[x - (a.base + offset)]? else a.byteAt? x := by
  by_cases hx : x < a.base
  · rw [if_neg (by omega), byteAt?, byteAt?, if_pos hx]
    exact if_pos hx
  · have hafter : (a.store offset bytes).byteAt? x = (a.store offset bytes).bytes[x - a.base]? :=
      if_neg hx
    rw [hafter, getElem?_store h, byteAt?, if_neg hx]
    by_cases hinside : a.base + offset ≤ x ∧ x < a.base + offset + bytes.length
    · rw [if_pos hinside, if_pos (by omega), Nat.sub_sub]
    · rw [if_neg hinside, if_neg (by omega)]

/-- A store that succeeds lies in bounds, keeps base and size, and changes exactly
the bytes of its range. -/
theorem writeBytes_spec {a b : Arena} {address : Nat} {bytes : List Byte}
    (h : a.writeBytes address bytes = .ok b) :
    a.InBounds address bytes.length ∧ b.base = a.base ∧ b.size = a.size ∧
      ∀ x, b.byteAt? x =
        if address ≤ x ∧ x < address + bytes.length then bytes[x - address]? else a.byteAt? x := by
  unfold writeBytes at h
  cases hlocate : a.locate address bytes.length with
  | error e =>
    rw [hlocate] at h
    cases h
  | ok offset =>
    rw [hlocate] at h
    cases h
    obtain ⟨hin, rfl⟩ := locate_eq_ok_iff.1 hlocate
    obtain ⟨hnull, hbase, hend⟩ := hin
    have hfits : address - a.base + bytes.length ≤ a.size := by omega
    refine ⟨⟨hnull, hbase, hend⟩, rfl, size_store hfits, fun x => ?_⟩
    have hbyte := byteAt?_store hfits x
    rwa [Nat.add_sub_cancel' hbase] at hbyte

/-- A store in bounds succeeds. -/
theorem writeBytes_of_inBounds {a : Arena} {address : Nat} {bytes : List Byte}
    (h : a.InBounds address bytes.length) : ∃ b, a.writeBytes address bytes = .ok b := by
  refine ⟨a.store (address - a.base) bytes, ?_⟩
  unfold writeBytes
  rw [locate_eq_ok_iff.2 ⟨h, rfl⟩]
  rfl

/-! ### What lies in a range -/

theorem holds_iff {a : Arena} {address : Nat} {bytes : List Byte} :
    a.Holds address bytes ↔ a.InBounds address bytes.length ∧
      ∀ i, i < bytes.length → a.byteAt? (address + i) = bytes[i]? := by
  unfold Holds readBytes
  constructor
  · intro h
    cases hlocate : a.locate address bytes.length with
    | error e =>
      rw [hlocate] at h
      cases h
    | ok offset =>
      rw [hlocate] at h
      obtain ⟨hin, rfl⟩ := locate_eq_ok_iff.1 hlocate
      refine ⟨hin, fun i hi => ?_⟩
      have hbytes : (a.bytes.drop (address - a.base)).take bytes.length = bytes := Except.ok.inj h
      obtain ⟨_, hbase, _⟩ := hin
      rw [byteAt?, if_neg (by omega)]
      have hget := congrArg (fun l => l[i]?) hbytes
      simp only [List.getElem?_take_of_lt hi, List.getElem?_drop] at hget
      rw [← hget]
      congr 1
      omega
  · rintro ⟨hin, hget⟩
    rw [locate_eq_ok_iff.2 ⟨hin, rfl⟩]
    obtain ⟨_, hbase, hend⟩ := hin
    show Except.ok ((a.bytes.drop (address - a.base)).take bytes.length) = _
    congr 1
    have hsize : a.size = a.bytes.length := rfl
    apply List.ext_getElem?
    intro i
    by_cases hi : i < bytes.length
    · rw [List.getElem?_take_of_lt hi, List.getElem?_drop, ← hget i hi, byteAt?, if_neg (by omega)]
      congr 1
      omega
    · rw [List.getElem?_eq_none (by rw [List.length_take]; omega),
        List.getElem?_eq_none (by omega)]

/-- What was stored lies there. -/
theorem holds_of_writeBytes {a b : Arena} {address : Nat} {bytes : List Byte}
    (h : a.writeBytes address bytes = .ok b) : b.Holds address bytes := by
  obtain ⟨⟨hnull, hbase, hend⟩, hb, hsize, hbyte⟩ := writeBytes_spec h
  refine holds_iff.2 ⟨⟨hnull, by omega, by omega⟩, fun i hi => ?_⟩
  rw [hbyte, if_pos (by omega), Nat.add_sub_cancel_left]

/-- Two ranges one behind the other are one. -/
theorem holds_append {a : Arena} {address : Nat} {first second : List Byte}
    (h₁ : a.Holds address first) (h₂ : a.Holds (address + first.length) second) :
    a.Holds address (first ++ second) := by
  obtain ⟨⟨hnull, hbase, _⟩, hget₁⟩ := holds_iff.1 h₁
  obtain ⟨⟨_, _, hend⟩, hget₂⟩ := holds_iff.1 h₂
  refine holds_iff.2 ⟨⟨hnull, hbase, by rw [List.length_append]; omega⟩, fun i hi => ?_⟩
  by_cases hfirst : i < first.length
  · rw [hget₁ i hfirst, List.getElem?_append_left hfirst]
  · rw [List.length_append] at hi
    have := hget₂ (i - first.length) (by omega)
    rw [List.getElem?_append_right (by omega), ← this]
    congr 1
    omega

/-! ### Strings -/

theorem readString_eq {a : Arena} {address offset : Nat} (h : a.locate address 0 = .ok offset)
    (limit : Option Nat) :
    a.readString address limit =
      let window := (limit.map (a.bytes.drop offset).take).getD (a.bytes.drop offset)
      if (upToNul window).length < window.length ∨ limit = some window.length then
        .ok (upToNul window)
      else .error (.outOfBounds address (window.length + 1)) := by
  unfold readString
  rw [h]
  dsimp only [bind, Except.bind]
  generalize (limit.map (a.bytes.drop offset).take).getD (a.bytes.drop offset) = window
  by_cases hend : (upToNul window).length < window.length ∨ limit = some window.length
  · rw [if_pos hend, if_pos (by simpa using hend)]
    rfl
  · rw [if_neg hend, if_neg (by simpa using hend)]

/-- A string that is read to its end is the same under any limit that does not cut
it. -/
theorem readString_of_length_le {a : Arena} {address : Nat} {text : List Byte}
    (h : a.readString address none = .ok text) :
    address ≠ 0 ∧ (∀ b ∈ text, b ≠ 0) ∧
      ∀ limit, text.length ≤ limit → a.readString address (some limit) = .ok text := by
  cases hlocate : a.locate address 0 with
  | error e =>
    unfold readString at h
    rw [hlocate] at h
    cases h
  | ok offset =>
    obtain ⟨⟨hnull, _, _⟩, _⟩ := locate_eq_ok_iff.1 hlocate
    rw [readString_eq hlocate] at h
    replace h : (if (upToNul (a.bytes.drop offset)).length < (a.bytes.drop offset).length ∨
        none = some (a.bytes.drop offset).length then
        Except.ok (upToNul (a.bytes.drop offset)) else _) = Except.ok text := h
    split at h
    · rename_i hend
      have hshort := hend.resolve_right nofun
      obtain rfl := Except.ok.inj h
      have hnonzero : ∀ b ∈ upToNul (a.bytes.drop offset), b ≠ 0 := fun b hb => by
        simpa using List.all_eq_true.1 List.all_takeWhile b hb
      refine ⟨hnull, hnonzero, fun limit hlimit => ?_⟩
      have hcut : upToNul ((a.bytes.drop offset).take limit) = upToNul (a.bytes.drop offset) := by
        unfold upToNul at hlimit ⊢
        rw [← List.take_takeWhile, List.take_of_length_le hlimit]
      rw [readString_eq hlocate, Option.map_some, Option.getD_some]
      dsimp only
      rw [hcut, if_pos]
      -- Either the limit is all of the window, or the window is all there is.
      rw [List.length_take, Option.some.injEq]
      omega
    · cases h

/-- The bytes that a string may be made of: those behind the offset, up to the limit. -/
def window (a : Arena) (offset : Nat) (limit : Option Nat) : List Byte :=
  (limit.map (a.bytes.drop offset).take).getD (a.bytes.drop offset)

theorem length_window (a : Arena) (offset : Nat) (limit : Option Nat) :
    (a.window offset limit).length =
      (limit.map (min · (a.size - offset))).getD (a.size - offset) := by
  cases limit with
  | none => exact List.length_drop
  | some n => exact List.length_take.trans (congrArg (min n) List.length_drop)

theorem length_window_congr {a b : Arena} (h : b.size = a.size) (offset : Nat)
    (limit : Option Nat) : (b.window offset limit).length = (a.window offset limit).length := by
  rw [length_window, length_window, h]

theorem length_window_le (a : Arena) (offset : Nat) {limit : Option Nat} {n : Nat}
    (h : limit = some n) : (a.window offset limit).length ≤ n := by
  rw [length_window, h]
  exact Nat.min_le_left _ _

theorem getElem?_window {a : Arena} {offset i : Nat} {limit : Option Nat}
    (h : i < (a.window offset limit).length) :
    (a.window offset limit)[i]? = a.byteAt? (a.base + offset + i) := by
  have hbyte : a.byteAt? (a.base + offset + i) = a.bytes[offset + i]? := by
    rw [byteAt?, if_neg (by omega)]
    congr 1
    omega
  rw [hbyte]
  cases limit with
  | none => exact List.getElem?_drop
  | some n =>
    have hn := Nat.lt_of_lt_of_le h (a.length_window_le offset rfl)
    show ((a.bytes.drop offset).take n)[i]? = _
    rw [List.getElem?_take_of_lt hn, List.getElem?_drop]

/-- How many bytes are looked at to read a string: its own, and one to end it where the limit
does not. -/
def extent (limit : Option Nat) (text : List Byte) : Nat :=
  if limit = some text.length then text.length else text.length + 1

/-- A string is read where it ends within its window, or fills what the limit lets it have. -/
theorem readString_eq_ok_iff {a : Arena} {address : Nat} {limit : Option Nat} {text : List Byte} :
    a.readString address limit = .ok text ↔ ∃ offset, a.locate address 0 = .ok offset ∧
      upToNul (a.window offset limit) = text ∧
      (text.length < (a.window offset limit).length ∨
        limit = some (a.window offset limit).length) := by
  cases hlocate : a.locate address 0 with
  | error e =>
    unfold readString
    rw [hlocate]
    exact iff_of_false nofun nofun
  | ok offset =>
    have hread : a.readString address limit =
        if (upToNul (a.window offset limit)).length < (a.window offset limit).length ∨
          limit = some (a.window offset limit).length
        then .ok (upToNul (a.window offset limit))
        else .error (.outOfBounds address ((a.window offset limit).length + 1)) :=
      readString_eq hlocate limit
    rw [hread]
    constructor
    · intro h
      split at h
      · rename_i hends
        obtain rfl := Except.ok.inj h
        exact ⟨offset, rfl, rfl, hends⟩
      · cases h
    · rintro ⟨_, hoffset, rfl, hends⟩
      cases hoffset
      exact if_pos hends

/-- Reading a string depends on the bytes that are looked at, and on no others. -/
theorem readString_of_same {a b : Arena} {address : Nat} {limit : Option Nat} {text : List Byte}
    (h : a.readString address limit = .ok text) (hbase : b.base = a.base) (hsize : b.size = a.size)
    (hsame : ∀ x, address ≤ x → x < address + extent limit text → b.byteAt? x = a.byteAt? x) :
    b.readString address limit = .ok text := by
  obtain ⟨offset, hlocate, rfl, hends⟩ := readString_eq_ok_iff.1 h
  obtain ⟨hin, hoffset⟩ := locate_eq_ok_iff.1 hlocate
  have hlocate' : b.locate address 0 = .ok offset := by
    refine locate_eq_ok_iff.2 ⟨?_, by rw [hbase]; exact hoffset⟩
    unfold InBounds
    rw [hbase, hsize]
    exact hin
  have hlength := length_window_congr hsize offset limit
  have hbytes (i : Nat) (hi : i ≤ (upToNul (a.window offset limit)).length) :
      (b.window offset limit)[i]? = (a.window offset limit)[i]? := by
    by_cases hinside : i < (a.window offset limit).length
    · have hlooked : i < extent limit (upToNul (a.window offset limit)) := by
        unfold extent
        split
        · rename_i hlimit
          exact Nat.lt_of_lt_of_le hinside (a.length_window_le offset hlimit)
        · omega
      obtain ⟨-, hlow, -⟩ := hin
      rw [getElem?_window hinside, getElem?_window (by rwa [hlength]), hbase]
      exact hsame _ (by omega) (by omega)
    · rw [List.getElem?_eq_none (by omega), List.getElem?_eq_none (by omega)]
  exact readString_eq_ok_iff.2 ⟨offset, hlocate', upToNul_congr hlength hbytes, by rwa [hlength]⟩

/-! ### Changes within a set of addresses -/

/-- The second arena differs from the first at most at the given addresses. -/
structure ChangesWithin (touched : Nat → Prop) (a b : Arena) : Prop where
  base : b.base = a.base
  size : b.size = a.size
  outside : ∀ x, ¬ touched x → b.byteAt? x = a.byteAt? x

theorem ChangesWithin.refl (touched : Nat → Prop) (a : Arena) : ChangesWithin touched a a :=
  ⟨rfl, rfl, fun _ _ => rfl⟩

theorem ChangesWithin.trans {touched : Nat → Prop} {a b c : Arena} (h₁ : ChangesWithin touched a b)
    (h₂ : ChangesWithin touched b c) : ChangesWithin touched a c :=
  ⟨h₂.base.trans h₁.base, h₂.size.trans h₁.size,
    fun x hx => (h₂.outside x hx).trans (h₁.outside x hx)⟩

theorem ChangesWithin.mono {touched wider : Nat → Prop} {a b : Arena}
    (h : ChangesWithin touched a b) (hwider : ∀ x, touched x → wider x) : ChangesWithin wider a b :=
  ⟨h.base, h.size, fun x hx => h.outside x fun ht => hx (hwider x ht)⟩

theorem InBounds.of_changesWithin {a b : Arena} {touched : Nat → Prop} {address length : Nat}
    (hin : a.InBounds address length) (h : ChangesWithin touched a b) :
    b.InBounds address length := by
  unfold InBounds
  rw [h.base, h.size]
  exact hin

/-- What lies apart from all changes stays. -/
theorem Holds.of_changesWithin {a b : Arena} {touched : Nat → Prop} {address : Nat}
    {bytes : List Byte} (hold : a.Holds address bytes) (h : ChangesWithin touched a b)
    (hapart : ∀ x, address ≤ x → x < address + bytes.length → ¬ touched x) :
    b.Holds address bytes := by
  obtain ⟨hin, hget⟩ := holds_iff.1 hold
  refine holds_iff.2 ⟨hin.of_changesWithin h, fun i hi => ?_⟩
  rw [h.outside _ (hapart _ (by omega) (by omega)), hget i hi]

theorem changesWithin_of_writeBytes {a b : Arena} {address : Nat} {bytes : List Byte}
    {touched : Nat → Prop} (h : a.writeBytes address bytes = .ok b)
    (htouched : ∀ x, address ≤ x → x < address + bytes.length → touched x) :
    ChangesWithin touched a b := by
  obtain ⟨_, hbase, hsize, hbyte⟩ := writeBytes_spec h
  refine ⟨hbase, hsize, fun x hx => ?_⟩
  rw [hbyte, if_neg]
  rintro ⟨hlow, hhigh⟩
  exact hx (htouched x hlow hhigh)

end Arena
end CheckedFormat
