import CheckedFormat.Proofs.ArenaAccess
import Mathlib.Algebra.Group.Nat.Defs
/-! An arena is memory.

The calls on an arena reserve regions and store in them. The history of the calls says which
region each of them reserved, with what in it, and what each stored where (`Event`). It
determines what reads deliver: at every address in use the byte that was put there last, and
zero where none was (`lastPut`). Growth leaves what was there, regions lie apart, a store
changes its own range, and whatever leaves the bytes in use fails and changes nothing
(`arena_is_memory`). -/
namespace CheckedFormat

/-- The low bytes of a number denote its remainder. -/
theorem ofLittleEndian_littleEndian (size n : Nat) :
    ofLittleEndian (littleEndian size n) = n % 2 ^ (8 * size) := by
  induction size generalizing n with
  | zero => exact (Nat.mod_one n).symm
  | succ size ih =>
    have hpower : 2 ^ (8 * (size + 1)) = 256 * 2 ^ (8 * size) := by
      rw [Nat.mul_succ, Nat.pow_add, Nat.mul_comm]
    have hlow : n.toUInt8.toNat = n % 256 := UInt8.toNat_ofNat'
    rw [littleEndian, ofLittleEndian, ih, hlow, hpower, Nat.mod_mul]

namespace Arena

/-! ### Calls and what they do -/

/-- The calls that store. -/
inductive Storing where
  | bytes (address : Nat) (contents : List Byte)
  | integer (address : Nat) (value : Word) (size : Nat)
  | float (address : Nat) (value : Word) (size : Nat)

namespace Storing

def address : Storing → Nat
  | bytes address _ | integer address _ _ | float address _ _ => address

/-- The bytes that are to be stored; none where there is no object of the size. -/
def contents? : Storing → Option (List Byte)
  | bytes _ contents => some contents
  | integer _ value size =>
    if integerSizes.contains size then some (littleEndian size value.toNat) else none
  | float _ value size =>
    if size = 4 then some (littleEndian 4 (FloatFormat.toSingle value.toNat))
    else if size = 8 then some (littleEndian 8 value.toNat)
    else none

def apply (a : Arena) : Storing → Except MemoryError Arena
  | bytes address contents => a.writeBytes address contents
  | integer address value size => Memory.writeInteger a address value size
  | float address value size => Memory.writeFloat a address value size

/-- All stores are stores of bytes. -/
theorem apply_eq_writeBytes {st : Storing} {bytes : List Byte} (h : st.contents? = some bytes)
    (a : Arena) : st.apply a = a.writeBytes st.address bytes := by
  cases st with
  | bytes address contents =>
    cases h
    rfl
  | integer address value size =>
    simp only [contents?] at h
    split at h
    · rename_i hsize
      cases h
      exact if_pos hsize
    · cases h
  | float address value size =>
    simp only [contents?] at h
    split at h
    · rename_i hsingle
      cases h
      exact if_pos hsingle
    · rename_i hsingle
      split at h
      · rename_i hdouble
        cases h
        exact (if_neg hsingle).trans (if_pos hdouble)
      · cases h

/-- No store of a size that no object has. -/
theorem apply_of_no_contents {st : Storing} (h : st.contents? = none) (a : Arena) :
    ∃ e, st.apply a = .error e := by
  cases st with
  | bytes address bytes => cases h
  | integer address value size =>
    simp only [contents?] at h
    split at h
    · cases h
    · rename_i hsize
      exact ⟨_, if_neg hsize⟩
  | float address value size =>
    simp only [contents?] at h
    split at h
    · cases h
    · rename_i hsingle
      split at h
      · cases h
      · rename_i hdouble
        exact ⟨_, (if_neg hsingle).trans (if_neg hdouble)⟩

end Storing

/-- The byte at an address of those that lie from another one on. -/
def placed (address : Nat) (bytes : List Byte) (x : Nat) : Option Byte :=
  if address ≤ x then bytes[x - address]? else none

/-- The calls that change an arena. -/
inductive Call where
  | allocate (length : Nat)
  | allocateString (text : List Byte)
  | store (st : Storing)

/-- What a call did. -/
inductive Event where
  /-- It gave a region of its own to what it was to hold. -/
  | reserved (address : Nat) (contents : List Byte)
  | stored (address : Nat) (bytes : List Byte)
  | failed

namespace Event

/-- The byte that was put at an address. -/
def at? : Event → (x : Nat) → Option Byte
  | reserved address bytes, x | stored address bytes, x => placed address bytes x
  | failed, _ => none

/-- The regions, if both reserve one, share no address. -/
def Apart : Event → Event → Prop
  | reserved p first, reserved q second => p + first.length ≤ q ∨ q + second.length ≤ p
  | _, _ => True

end Event

/-- A call on an arena. A call that fails leaves it. -/
def perform (a : Arena) : Call → Event × Arena
  | .allocate length =>
    let (address, b) := a.allocate length
    (.reserved address (List.replicate (max length 1) 0), b)
  | .allocateString text =>
    let (address, b) := a.allocateString text
    (.reserved address (text ++ [0]), b)
  | .store st =>
    match st.apply a with
    | .ok b => (.stored st.address (st.contents?.getD []), b)
    | .error _ => (.failed, a)

/-- What calls did, and the arena behind them, the latest first. -/
def run (base : Nat) : List Call → List Event × Arena
  | [] => ([], withBase base)
  | call :: earlier =>
    let (history, a) := run base earlier
    let (event, b) := a.perform call
    (event :: history, b)

/-- The byte that was put at an address last; zero where none was. -/
def lastPut (history : List Event) (x : Nat) : Byte := (history.findSome? (·.at? x)).getD 0

/-! ### One call -/

section Placed
variable {p x : Nat} {bytes more : List Byte}

theorem placed_of_lt (h : x < p) : placed p bytes x = none := if_neg (Nat.not_le.2 h)

theorem placed_of_le (h : p ≤ x) : placed p bytes x = bytes[x - p]? := if_pos h

theorem lt_of_placed {b : Byte} (h : placed p bytes x = some b) : p ≤ x ∧ x < p + bytes.length := by
  unfold placed at h
  split at h
  · have hlength := (List.getElem?_eq_some_iff.1 h).1
    omega
  · cases h

theorem placed_append : placed p (bytes ++ more) x =
    (placed p bytes x).or (placed (p + bytes.length) more x) := by
  by_cases hlow : p ≤ x
  · rw [placed_of_le hlow, placed_of_le hlow]
    by_cases hinside : x - p < bytes.length
    · rw [List.getElem?_append_left hinside, placed_of_lt (by omega), Option.or_none]
    · rw [List.getElem?_append_right (by omega), List.getElem?_eq_none (Nat.not_lt.1 hinside),
        placed_of_le (by omega), Option.none_or, Nat.sub_sub]
  · rw [placed_of_lt (by omega), placed_of_lt (by omega), placed_of_lt (by omega)]
    rfl

theorem placed_replicate {n : Nat} (hlow : p ≤ x) (hhigh : x < p + n) :
    placed p (List.replicate n 0) x = some 0 := by
  rw [placed_of_le hlow, List.getElem?_replicate_of_lt (by omega)]

/-- Bytes that lie over others. -/
theorem ite_eq_placed_or (below : Option Byte) :
    (if p ≤ x ∧ x < p + bytes.length then bytes[x - p]? else below) =
      (placed p bytes x).or below := by
  by_cases hlow : p ≤ x
  · rw [placed_of_le hlow]
    by_cases hinside : x < p + bytes.length
    · rw [if_pos ⟨hlow, hinside⟩, List.getElem?_eq_getElem (by omega)]
      rfl
    · rw [if_neg (fun h => hinside h.2), List.getElem?_eq_none (by omega), Option.none_or]
  · rw [if_neg (fun h => hlow h.1), placed_of_lt (by omega), Option.none_or]

end Placed

section InUse
variable {a : Arena} {x : Nat}

theorem byteAt?_eq_placed (a : Arena) (x : Nat) : a.byteAt? x = placed a.base a.bytes x := by
  by_cases hx : x < a.base
  · rw [byteAt?, if_pos hx, placed_of_lt hx]
  · rw [byteAt?, if_neg hx, placed_of_le (Nat.not_lt.1 hx)]

theorem byteAt?_of_lt (hlow : a.base ≤ x) (hhigh : x < a.base + a.size) :
    ∃ b, a.byteAt? x = some b := by
  have hsize : a.size = a.bytes.length := rfl
  rw [byteAt?_eq_placed, placed_of_le hlow]
  exact ⟨_, List.getElem?_eq_getElem (by omega)⟩

theorem lt_of_byteAt? {b : Byte} (h : a.byteAt? x = some b) :
    a.base ≤ x ∧ x < a.base + a.size := by
  rw [byteAt?_eq_placed] at h
  exact lt_of_placed h

/-- Nothing is in use from the end on. -/
theorem byteAt?_of_le (h : a.base + a.size ≤ x) : a.byteAt? x = none := by
  have hsize : a.size = a.bytes.length := rfl
  rw [byteAt?_eq_placed, placed_of_le (by omega), List.getElem?_eq_none (by omega)]

/-- Zeros behind the end make no difference to bytes that are zero where there are none. -/
theorem getD_placed_zeros {q n : Nat} (h : a.base + a.size ≤ q) :
    (placed q (List.replicate n 0) x).getD ((a.byteAt? x).getD 0) = (a.byteAt? x).getD 0 := by
  cases hzero : placed q (List.replicate n 0) x with
  | none => rfl
  | some b =>
    obtain ⟨hlow, hhigh⟩ := lt_of_placed hzero
    rw [List.length_replicate] at hhigh
    rw [placed_replicate hlow hhigh] at hzero
    cases hzero
    rw [byteAt?_of_le (Nat.le_trans h hlow)]
    rfl

end InUse

/-- What an event makes of an arena: it may grow, the bytes of the event lie where it put
them, the others lie where they lay, and everything else is zero. A region is all that the
arena grows by, from the next multiple of eight on. -/
structure Turns (a b : Arena) (e : Event) : Prop where
  base : b.base = a.base
  size : a.size ≤ b.size
  byteAt : ∀ x, a.base ≤ x → x < a.base + b.size →
    b.byteAt? x = some ((e.at? x).getD ((a.byteAt? x).getD 0))
  within : ∀ x v, e.at? x = some v → x < a.base + b.size
  region : ∀ p contents, e = .reserved p contents →
    p = a.base + alignUp a.size ∧ p + contents.length = a.base + b.size

theorem le_alignUp (n : Nat) : n ≤ alignUp n := by
  unfold alignUp
  omega

theorem dvd_alignUp (n : Nat) : 8 ∣ alignUp n := Nat.dvd_mul_left 8 _

section Step
variable (a : Arena)

theorem size_allocate (length : Nat) :
    (a.allocate length).2.size = alignUp a.size + max length 1 := by
  have hle := le_alignUp a.size
  have hsize : a.size = a.bytes.length := rfl
  show (a.bytes ++ List.replicate _ 0).length = _
  rw [List.length_append, List.length_replicate]
  omega

theorem size_le_allocate (length : Nat) : a.size ≤ (a.allocate length).2.size := by
  rw [size_allocate]
  exact Nat.le_trans (le_alignUp _) (Nat.le_add_right _ _)

/-- Growth leaves the bytes in use and adds zeros. -/
theorem byteAt?_allocate {length x : Nat} (hlow : a.base ≤ x)
    (hhigh : x < a.base + (a.allocate length).2.size) :
    (a.allocate length).2.byteAt? x = some ((a.byteAt? x).getD 0) := by
  rw [size_allocate] at hhigh
  rw [byteAt?_eq_placed, byteAt?_eq_placed]
  show placed a.base (a.bytes ++ List.replicate _ 0) x = _
  rw [placed_append]
  cases hbefore : placed a.base a.bytes x with
  | some b => rfl
  | none =>
    have hend : a.base + a.bytes.length ≤ x := by
      rw [placed_of_le hlow, List.getElem?_eq_none_iff] at hbefore
      omega
    have hsize : a.size = a.bytes.length := rfl
    rw [placed_replicate hend (by omega)]
    rfl

theorem allocate_turns (length : Nat) :
    Turns a (a.perform (.allocate length)).2 (a.perform (.allocate length)).1 := by
  have hend : a.base + (a.allocate length).2.size =
      (a.allocate length).1 + (List.replicate (max length 1) (0 : Byte)).length := by
    rw [size_allocate, List.length_replicate]
    exact (Nat.add_assoc _ _ _).symm
  refine ⟨rfl, a.size_le_allocate length, fun x hlow hhigh => ?_, fun x v h => ?_, ?_⟩
  · have hbehind : a.base + a.size ≤ (a.allocate length).1 :=
      Nat.add_le_add_left (le_alignUp _) _
    exact (a.byteAt?_allocate hlow hhigh).trans (congrArg some (getD_placed_zeros hbehind).symm)
  · exact Nat.lt_of_lt_of_eq (lt_of_placed h).2 hend.symm
  · rintro p contents h
    cases h
    exact ⟨rfl, hend.symm⟩

/-- A string is stored over the zeros of a new region, of which it leaves the last. -/
theorem allocateString_turns (text : List Byte) :
    Turns a (a.perform (.allocateString text)).2 (a.perform (.allocateString text)).1 := by
  have hsize := a.size_allocate (text.length + 1)
  rw [Nat.max_eq_left (Nat.le_add_left 1 _)] at hsize
  have hfits : alignUp a.size + text.length ≤ (a.allocate (text.length + 1)).2.size := by omega
  have hafter : (a.allocateString text).2 =
      (a.allocate (text.length + 1)).2.store (alignUp a.size) text := by
    show Arena.store _ (a.base + alignUp a.size - a.base) text = _
    rw [Nat.add_sub_cancel_left]
    rfl
  have hgrown : (a.allocateString text).2.size = (a.allocate (text.length + 1)).2.size := by
    rw [hafter, size_store hfits]
  have hend : a.base + (a.allocateString text).2.size =
      a.base + alignUp a.size + (text ++ [0]).length := by
    rw [hgrown, hsize, List.length_append]
    exact (Nat.add_assoc _ _ _).symm
  refine ⟨rfl, hgrown ▸ a.size_le_allocate _, fun x hlow hhigh => ?_, fun x v h => ?_, ?_⟩
  · have hzeros := a.byteAt?_allocate hlow (hgrown ▸ hhigh)
    have hbehind : a.base + a.size ≤ a.base + alignUp a.size + text.length :=
      Nat.le_add_right_of_le (Nat.add_le_add_left (le_alignUp _) _)
    show (a.allocateString text).2.byteAt? x =
      some ((placed (a.base + alignUp a.size) (text ++ [0]) x).getD _)
    rw [hafter, byteAt?_store hfits, ite_eq_placed_or, hzeros, placed_append]
    show (placed (a.base + alignUp a.size) text x).or _ = _
    cases placed (a.base + alignUp a.size) text x with
    | some b => rfl
    | none => exact congrArg some (getD_placed_zeros (n := 1) hbehind).symm
  · exact Nat.lt_of_lt_of_eq (lt_of_placed h).2 hend.symm
  · rintro p contents h
    cases h
    exact ⟨rfl, hend.symm⟩

theorem store_turns (st : Storing) :
    Turns a (a.perform (.store st)).2 (a.perform (.store st)).1 := by
  rcases happly : st.apply a with e | b
  · simp only [perform, happly]
    refine ⟨rfl, Nat.le_refl _, fun x hlow hhigh => ?_, nofun, nofun⟩
    obtain ⟨v, hbyte⟩ := byteAt?_of_lt hlow hhigh
    rw [hbyte]
    rfl
  · simp only [perform, happly]
    cases hcontents : st.contents? with
    | none =>
      obtain ⟨e, hfails⟩ := Storing.apply_of_no_contents hcontents a
      rw [hfails] at happly
      cases happly
    | some bytes =>
      rw [Storing.apply_eq_writeBytes hcontents] at happly
      obtain ⟨⟨-, -, hend⟩, hbase, hsize, hbytes⟩ := writeBytes_spec happly
      refine ⟨hbase, Nat.le_of_eq hsize.symm, fun x hlow hhigh => ?_, fun x v h => ?_, nofun⟩
      · obtain ⟨v, hbyte⟩ := byteAt?_of_lt hlow (hsize ▸ hhigh)
        rw [hbytes, ite_eq_placed_or, hbyte]
        show (placed st.address bytes x).or _ = some ((placed st.address bytes x).getD _)
        cases placed st.address bytes x with
        | some b => rfl
        | none => rfl
      · rw [hsize]
        exact Nat.lt_of_lt_of_le (lt_of_placed h).2 hend

theorem perform_turns (call : Call) : Turns a (a.perform call).2 (a.perform call).1 := by
  cases call with
  | allocate length => exact a.allocate_turns length
  | allocateString text => exact a.allocateString_turns text
  | store st => exact a.store_turns st

end Step

/-! ### Whole histories -/

/-- What a history says of the arena that it leads to. -/
structure Describes (history : List Event) (a : Arena) : Prop where
  byteAt : ∀ x, a.base ≤ x → x < a.base + a.size → a.byteAt? x = some (lastPut history x)
  within : ∀ e ∈ history, ∀ x v, e.at? x = some v → x < a.base + a.size
  regions : ∀ p contents, .reserved p contents ∈ history →
    a.base ≤ p ∧ 8 ∣ p - a.base ∧ p + contents.length ≤ a.base + a.size
  apart : history.Pairwise Event.Apart

theorem describes_nil (base : Nat) : Describes [] (withBase base) where
  byteAt _ hlow hhigh := absurd hhigh (Nat.not_lt.2 hlow)
  within := nofun
  regions := nofun
  apart := .nil

section Describes
variable {history : List Event} {a b : Arena} {e : Event}

/-- Nothing was put where nothing is in use. -/
theorem Describes.lastPut_of_le (h : Describes history a) {x : Nat} (hx : a.base + a.size ≤ x) :
    lastPut history x = 0 := by
  have hnone : history.findSome? (·.at? x) = none := by
    refine List.findSome?_eq_none_iff.2 fun e he => ?_
    cases hat : e.at? x with
    | none => rfl
    | some v => exact absurd (h.within e he x v hat) (Nat.not_lt.2 hx)
  rw [lastPut, hnone]
  rfl

theorem lastPut_cons (e : Event) (history : List Event) (x : Nat) :
    lastPut (e :: history) x = (e.at? x).getD (lastPut history x) := by
  rw [lastPut, List.findSome?_cons]
  cases e.at? x <;> rfl

theorem Describes.cons (h : Describes history a) (hturns : Turns a b e) :
    Describes (e :: history) b where
  byteAt x hlow hhigh := by
    rw [hturns.base] at hlow hhigh
    rw [hturns.byteAt x hlow hhigh, lastPut_cons]
    by_cases hold : x < a.base + a.size
    · rw [h.byteAt x hlow hold]
      rfl
    · rw [byteAt?_of_le (Nat.not_lt.1 hold), h.lastPut_of_le (Nat.not_lt.1 hold)]
      rfl
  within := by
    rw [hturns.base]
    refine List.forall_mem_cons.2 ⟨hturns.within, fun e he x v hat => ?_⟩
    exact Nat.lt_of_lt_of_le (h.within e he x v hat) (Nat.add_le_add_left hturns.size _)
  regions p contents hmem := by
    rw [hturns.base]
    rcases List.mem_cons.1 hmem with hfirst | hmem
    · obtain ⟨rfl, hend⟩ := hturns.region p contents hfirst.symm
      rw [Nat.add_sub_cancel_left]
      exact ⟨Nat.le_add_right _ _, dvd_alignUp _, Nat.le_of_eq hend⟩
    · obtain ⟨hlow, hdvd, hend⟩ := h.regions p contents hmem
      exact ⟨hlow, hdvd, Nat.le_trans hend (Nat.add_le_add_left hturns.size _)⟩
  apart := by
    refine List.pairwise_cons.2 ⟨fun earlier hearlier => ?_, h.apart⟩
    cases e with
    | reserved p contents =>
      cases earlier with
      | reserved q other =>
        -- The new region starts where all that was in use lies behind it.
        obtain ⟨rfl, -⟩ := hturns.region p contents rfl
        obtain ⟨-, -, hend⟩ := h.regions q other hearlier
        exact .inr (Nat.le_trans hend (Nat.add_le_add_left (le_alignUp _) _))
      | _ => trivial
    | _ => trivial

end Describes

theorem run_describes (base : Nat) (calls : List Call) :
    (run base calls).2.base = max base 1 ∧ Describes (run base calls).1 (run base calls).2 := by
  induction calls with
  | nil => exact ⟨rfl, describes_nil base⟩
  | cons call earlier ih =>
    obtain ⟨hbase, hdescribes⟩ := ih
    have hturns := (run base earlier).2.perform_turns call
    exact ⟨hturns.base.trans hbase, hdescribes.cons hturns⟩

/-! ### Reading -/

section Reading
variable {a : Arena} {address : Nat}

theorem readBytes_of_not_inBounds {length : Nat} (h : ¬a.InBounds address length) :
    ∃ e, a.readBytes address length = .error e := by
  unfold readBytes
  cases hlocate : a.locate address length with
  | error e => exact ⟨e, rfl⟩
  | ok offset => exact absurd (locate_eq_ok_iff.1 hlocate).1 h

theorem readNumber_of_refused {size : Nat} (h : ¬a.InBounds address size ∨ size ∉ integerSizes) :
    (∃ e, a.readUnsigned address size = .error e) ∧ ∃ e, a.readSigned address size = .error e := by
  have hunsigned : ∃ e, a.readUnsigned address size = .error e := by
    by_cases hsize : integerSizes.contains size = true
    · have hout := h.resolve_right (not_not_intro (List.contains_iff_mem.1 hsize))
      obtain ⟨e, hread⟩ := readBytes_of_not_inBounds hout
      exact ⟨e, by rw [readUnsigned, if_pos hsize, hread]; rfl⟩
    · exact ⟨_, if_neg hsize⟩
  obtain ⟨e, hread⟩ := hunsigned
  exact ⟨⟨e, hread⟩, e, by rw [readSigned, hread]; rfl⟩

/-- An integer that was stored is read back, without what does not fit and with its sign. -/
theorem readNumber_of_writeInteger {b : Arena} {value : Word} {size : Nat}
    (h : Memory.writeInteger a address value size = .ok b) :
    b.readUnsigned address size = .ok (value.toNat % 2 ^ (8 * size)) ∧
      b.readSigned address size = .ok ((value.toNat : Int).bmod (2 ^ (8 * size))) := by
  unfold Memory.writeInteger at h
  split at h
  · rename_i hsize
    have hholds := holds_of_writeBytes h
    rw [Holds, length_littleEndian] at hholds
    have hunsigned : b.readUnsigned address size = .ok (value.toNat % 2 ^ (8 * size)) := by
      rw [readUnsigned, if_pos hsize, hholds]
      exact congrArg Except.ok (ofLittleEndian_littleEndian size value.toNat)
    refine ⟨hunsigned, ?_⟩
    rw [readSigned, hunsigned]
    show Except.ok (BitVec.ofNat (8 * size) (value.toNat % 2 ^ (8 * size))).toInt = _
    rw [BitVec.toInt_eq_toNat_bmod, BitVec.toNat_ofNat, Nat.mod_mod, Int.natCast_emod,
      Int.emod_bmod]
  · cases h

/-! ### Strings -/

/-- A string ends at its limit, if so much is in use, or at a zero byte. -/
def EndsAt (a : Arena) (address : Nat) (limit : Option Nat) (k : Nat) : Prop :=
  limit = some k ∧ address + k ≤ a.base + a.size ∨ a.byteAt? (address + k) = some 0

section Window
variable {offset : Nat} {limit : Option Nat} (h : address = a.base + offset)
include h

theorem not_endsAt_of_lt {j : Nat} (hj : j < (upToNul (a.window offset limit)).length) :
    ¬a.EndsAt address limit j := by
  have hinside : j < (a.window offset limit).length :=
    Nat.lt_of_lt_of_le hj (List.takeWhile_prefix _).length_le
  rintro (⟨hlimit, -⟩ | hzero)
  · exact Nat.not_lt.2 (a.length_window_le offset hlimit) hinside
  · rw [h, ← getElem?_window hinside] at hzero
    exact getElem?_upToNul_ne_zero hj hzero

/-- The bytes of a string are those at its address. -/
theorem holds_upToNul (hin : a.InBounds address 0) :
    a.Holds address (upToNul (a.window offset limit)) := by
  have hle : (upToNul (a.window offset limit)).length ≤ (a.window offset limit).length :=
    (List.takeWhile_prefix _).length_le
  have hsize : (a.window offset limit).length ≤ a.size - offset := by
    rw [length_window]
    cases limit with
    | none => exact Nat.le_refl _
    | some n => exact Nat.min_le_right _ _
  obtain ⟨hnull, hlow, hend⟩ := hin
  refine holds_iff.2 ⟨⟨hnull, hlow, by omega⟩, fun i hi => ?_⟩
  rw [getElem?_upToNul hi, getElem?_window (Nat.lt_of_lt_of_le hi hle), h]

theorem endsAt_length (hin : a.InBounds address 0)
    (hends : (upToNul (a.window offset limit)).length < (a.window offset limit).length ∨
      limit = some (a.window offset limit).length) :
    a.EndsAt address limit (upToNul (a.window offset limit)).length := by
  by_cases hshort : (upToNul (a.window offset limit)).length < (a.window offset limit).length
  · refine .inr ?_
    rw [h, ← getElem?_window hshort]
    exact getElem?_length_upToNul hshort
  · have hle : (upToNul (a.window offset limit)).length ≤ (a.window offset limit).length :=
      (List.takeWhile_prefix _).length_le
    have hwhole := Nat.le_antisymm hle (Nat.not_lt.1 hshort)
    have hholds : a.Holds address (upToNul (a.window offset limit)) := holds_upToNul h hin
    exact .inl ⟨hwhole ▸ hends.resolve_left hshort, (holds_iff.1 hholds).1.2.2⟩

/-- Where neither ends the window, nothing ends the string. -/
theorem not_endsAt (hends : ¬((upToNul (a.window offset limit)).length <
      (a.window offset limit).length ∨ limit = some (a.window offset limit).length)) (k : Nat) :
    ¬a.EndsAt address limit k := by
  obtain ⟨hwhole, hlimit⟩ := not_or.1 hends
  have hlength := a.length_window offset limit
  by_cases hk : k < (upToNul (a.window offset limit)).length
  · exact not_endsAt_of_lt h hk
  · rintro (⟨rfl, hend⟩ | hzero)
    · have hall : (a.window offset (some k)).length = k := by
        rw [hlength]
        exact Nat.min_eq_left (by omega)
      exact hlimit (by rw [hall])
    · have hend := (lt_of_byteAt? hzero).2
      cases limit with
      | none =>
        simp only [Option.map_none, Option.getD_none] at hlength
        omega
      | some n =>
        simp only [Option.map_some, Option.getD_some] at hlength
        exact hlimit (congrArg some (by omega))

end Window

/-- A string is read up to where it first ends; if it ends nowhere, it is not read. -/
theorem readString_spec (hin : a.InBounds address 0) (limit : Option Nat) :
    (∃ k text, a.EndsAt address limit k ∧ (∀ j < k, ¬a.EndsAt address limit j) ∧
      a.readBytes address k = .ok text ∧ a.readString address limit = .ok text) ∨
    (∀ k, ¬a.EndsAt address limit k) ∧ ∃ e, a.readString address limit = .error e := by
  have hlocate : a.locate address 0 = .ok (address - a.base) := locate_eq_ok_iff.2 ⟨hin, rfl⟩
  have hoffset : address = a.base + (address - a.base) := (Nat.add_sub_cancel' hin.2.1).symm
  generalize address - a.base = offset at hlocate hoffset
  by_cases hends : (upToNul (a.window offset limit)).length < (a.window offset limit).length ∨
      limit = some (a.window offset limit).length
  · exact .inl ⟨_, _, endsAt_length hoffset hin hends, fun j hj => not_endsAt_of_lt hoffset hj,
      holds_upToNul hoffset hin, readString_eq_ok_iff.2 ⟨offset, hlocate, rfl, hends⟩⟩
  · refine .inr ⟨not_endsAt hoffset hends, ?_⟩
    cases hread : a.readString address limit with
    | error e => exact ⟨e, rfl⟩
    | ok text =>
      obtain ⟨offset', hlocate', rfl, hends'⟩ := readString_eq_ok_iff.1 hread
      rw [hlocate] at hlocate'
      cases hlocate'
      exact absurd hends' hends

theorem readString_of_not_inBounds (h : ¬a.InBounds address 0) (limit : Option Nat) :
    ∃ e, a.readString address limit = .error e := by
  unfold readString
  cases hlocate : a.locate address 0 with
  | error e => exact ⟨e, rfl⟩
  | ok offset => exact absurd (locate_eq_ok_iff.1 hlocate).1 h

end Reading

/-! ### The laws of memory -/

/-- The history is a history of memory, and this is where it led. -/
structure IsMemory (history : List Event) (a : Arena) : Prop where
  aligned : ∀ p contents, .reserved p contents ∈ history →
    8 ∣ p - a.base ∧ a.InBounds p contents.length
  apart : history.Pairwise Event.Apart
  /-- A region holds what it was reserved for until something is put there. -/
  initial : ∀ later p contents earlier, history = later ++ .reserved p contents :: earlier →
    ∀ i b, contents[i]? = some b → (∀ e ∈ later, e.at? (p + i) = none) →
      a.byteAt? (p + i) = some b
  /-- Reads deliver, byte by byte, what was put there last. -/
  reads : ∀ address length, a.InBounds address length → a.readBytes address length =
    .ok ((List.range length).map fun i => lastPut history (address + i))
  /-- A store in bounds changes the bytes of its range and nothing else. -/
  stores : ∀ st bytes, st.contents? = some bytes → a.InBounds st.address bytes.length →
    ∃ b, a.perform (.store st) = (.stored st.address bytes, b) ∧ st.apply a = .ok b ∧
      b.base = a.base ∧ b.size = a.size ∧ ∀ x, b.byteAt? x =
        if st.address ≤ x ∧ x < st.address + bytes.length then bytes[x - st.address]?
        else a.byteAt? x
  /-- One of a size that no object has, or out of bounds, fails and changes nothing. -/
  refuses : ∀ st, (∀ bytes, st.contents? = some bytes → ¬a.InBounds st.address bytes.length) →
    (∃ e, st.apply a = .error e) ∧ a.perform (.store st) = (.failed, a)
  unread : ∀ address length, ¬a.InBounds address length →
    (∃ e, a.readBytes address length = .error e) ∧
      ∃ e, a.readFloatBits address length = .error e
  unreadNumbers : ∀ address size, ¬a.InBounds address size ∨ size ∉ integerSizes →
    (∃ e, a.readUnsigned address size = .error e) ∧ ∃ e, a.readSigned address size = .error e
  unreadStrings : ∀ address limit, ¬a.InBounds address 0 →
    ∃ e, a.readString address limit = .error e
  /-- An integer that is stored is read back, without what does not fit and with its sign. -/
  integers : ∀ address value size b, Memory.writeInteger a address value size = .ok b →
    b.readUnsigned address size = .ok (value.toNat % 2 ^ (8 * size)) ∧
      b.readSigned address size = .ok ((value.toNat : Int).bmod (2 ^ (8 * size)))
  /-- A string is read up to where it first ends; if it ends nowhere, it is not read. -/
  strings : ∀ address limit, a.InBounds address 0 →
    (∃ k text, a.EndsAt address limit k ∧ (∀ j < k, ¬a.EndsAt address limit j) ∧
      a.readBytes address k = .ok text ∧ a.readString address limit = .ok text) ∨
    (∀ k, ¬a.EndsAt address limit k) ∧ ∃ e, a.readString address limit = .error e

section Laws
variable {history : List Event} {a : Arena} (h : Describes history a)
include h

theorem Describes.reads {address length : Nat} (hin : a.InBounds address length) :
    a.Holds address ((List.range length).map fun i => lastPut history (address + i)) := by
  have hlength :
      ((List.range length).map fun i => lastPut history (address + i)).length = length := by
    rw [List.length_map, List.length_range]
  refine holds_iff.2 ⟨by rwa [hlength], fun i hi => ?_⟩
  rw [hlength] at hi
  rw [h.byteAt (address + i) (Nat.le_add_right_of_le hin.2.1) (by have := hin.2.2; omega),
    List.getElem?_map, List.getElem?_range hi]
  rfl

theorem Describes.initial {later earlier : List Event} {p i : Nat} {contents : List Byte} {b : Byte}
    (hhistory : history = later ++ .reserved p contents :: earlier) (hbyte : contents[i]? = some b)
    (hlater : ∀ e ∈ later, e.at? (p + i) = none) : a.byteAt? (p + i) = some b := by
  have hlength := (List.getElem?_eq_some_iff.1 hbyte).1
  obtain ⟨hlow, -, hend⟩ := h.regions p contents
    (hhistory ▸ List.mem_append_right later List.mem_cons_self)
  have hat : (Event.reserved p contents).at? (p + i) = some b := by
    show placed p contents (p + i) = some b
    rw [placed_of_le (Nat.le_add_right p i), Nat.add_sub_cancel_left, hbyte]
  rw [h.byteAt (p + i) (Nat.le_add_right_of_le hlow) (by omega), lastPut, hhistory,
    List.findSome?_append, List.findSome?_eq_none_iff.2 hlater, List.findSome?_cons, hat]
  rfl

end Laws

theorem perform_of_contents (a : Arena) {st : Storing} {bytes : List Byte}
    (hcontents : st.contents? = some bytes) (hin : a.InBounds st.address bytes.length) :
    ∃ b, a.perform (.store st) = (.stored st.address bytes, b) ∧ st.apply a = .ok b ∧
      b.base = a.base ∧ b.size = a.size ∧ ∀ x, b.byteAt? x =
        if st.address ≤ x ∧ x < st.address + bytes.length then bytes[x - st.address]?
        else a.byteAt? x := by
  obtain ⟨b, hwrite⟩ := writeBytes_of_inBounds hin
  have happly := (Storing.apply_eq_writeBytes hcontents a).trans hwrite
  refine ⟨b, ?_, happly, (writeBytes_spec hwrite).2⟩
  simp only [perform, happly, hcontents, Option.getD_some]

theorem perform_of_refused (a : Arena) {st : Storing}
    (h : ∀ bytes, st.contents? = some bytes → ¬a.InBounds st.address bytes.length) :
    (∃ e, st.apply a = .error e) ∧ a.perform (.store st) = (.failed, a) := by
  have hfails : ∃ e, st.apply a = .error e := by
    cases hcontents : st.contents? with
    | none => exact Storing.apply_of_no_contents hcontents a
    | some bytes =>
      rw [Storing.apply_eq_writeBytes hcontents]
      cases hwrite : a.writeBytes st.address bytes with
      | error e => exact ⟨e, rfl⟩
      | ok b => exact absurd (writeBytes_spec hwrite).1 (h bytes hcontents)
  obtain ⟨e, happly⟩ := hfails
  refine ⟨⟨e, happly⟩, ?_⟩
  simp only [perform, happly]

/-- **An arena is memory.** Whatever calls were made on it, wherever it starts (at one, if it
was to start at zero): its regions lie apart, at multiples of eight from the base; reads in
bounds deliver byte by byte what was put there last, which in a new region are the zeros or the
string that it was reserved for; a store in bounds changes just its range; integers and strings
are read as they were stored; and every other access fails and changes nothing. -/
theorem arena_is_memory (base : Nat) (calls : List Call) :
    (run base calls).2.base = max base 1 ∧
      IsMemory (run base calls).1 (run base calls).2 := by
  obtain ⟨hbase, h⟩ := run_describes base calls
  refine ⟨hbase, ?_⟩
  generalize (run base calls).1 = history at h
  generalize (run base calls).2 = a at h hbase
  exact {
    aligned := fun p contents hmem => by
      obtain ⟨hlow, hdvd, hend⟩ := h.regions p contents hmem
      exact ⟨hdvd, by omega, hlow, hend⟩
    apart := h.apart
    initial := fun later p contents earlier hhistory i b hbyte hlater =>
      h.initial hhistory hbyte hlater
    reads := fun address length hin => by
      have hholds := h.reads hin
      rwa [Holds, List.length_map, List.length_range] at hholds
    stores := fun st bytes hcontents hin => a.perform_of_contents hcontents hin
    refuses := fun st hout => a.perform_of_refused hout
    unread := fun address length hout => by
      obtain ⟨e, hread⟩ := readBytes_of_not_inBounds hout
      exact ⟨⟨e, hread⟩, e, by rw [readFloatBits, hread]; rfl⟩
    unreadNumbers := fun address size hout => readNumber_of_refused hout
    unreadStrings := fun address limit hout => readString_of_not_inBounds hout limit
    integers := fun address value size b hwrite => readNumber_of_writeInteger hwrite
    strings := fun address limit hin => readString_spec hin limit }

/-- A string whose end is stored over goes on to the zeros in front of the next region; what
does not fit in the last byte is not stored at all. -/
example : (run 0 [.store (.integer 9 0x4142 2), .store (.integer 4 0x41 1), .allocate 0,
    .allocateString (ascii "abc")]).2.readString 1 none = .ok (ascii "abcA") := rfl

end Arena
end CheckedFormat
