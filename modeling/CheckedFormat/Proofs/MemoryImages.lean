import CheckedFormat.Memory.AddressSpace
import CheckedFormat.Proofs.ArenaHistory
import CheckedFormat.Proofs.CountsLeftOut
/-! Strings in an arena and in memory that holds the same bytes.

A running program's memory checks nothing: it walks over a string byte by byte. To say which
addresses it loads from, the walk is written for any kind of load (`AddressSpace.readBy`). With
plain loads it is the reading itself (`readBy_plain`); with loads that note their address it
gives the same result and the addresses in order (`readBy_note`). Memory that is an image of an
arena (`Images`) reads every string that the arena reads, and loads just the bytes that the
arena looks at (`images_read_alike`). -/
namespace CheckedFormat

open Arena (extent)

/-! ### Loads -/

namespace AddressSpace

section Walk
variable {F : Type → Type} [Monad F]

/-- At most so many bytes from an address on, up to a zero byte. -/
def walk (load : Nat → F Byte) (address : Nat) : (steps : Nat) → F (List Byte)
  | 0 => return []
  | steps + 1 => do
    let b ← load address
    if b = 0 then return []
    else return b :: (← walk load (address + 1) steps)

/-- How far a string may reach: up to its limit, or to the last address. -/
def reach (address : Nat) (limit : Option Nat) : Nat := limit.getD (bound - address)

/-- Reads a string by loads. -/
def readBy (load : Nat → F Byte) (address : Nat) (limit : Option Nat) :
    F (Except MemoryError (List Byte)) := do
  if address = 0 then return .error .null
  else return .ok (← walk load address (reach address limit))

end Walk

variable (m : AddressSpace) (address : Nat) (limit : Option Nat)

/-- A load that notes its address. -/
def note (address : Nat) : StateM (List Nat) Byte :=
  fun noted => (m.byteAt address, noted ++ [address])

/-- The addresses that reading a string loads from, in order. -/
def loads : List Nat := (readBy m.note address limit []).2

theorem stringFrom_eq : m.stringFrom address = m.stringWithin address (bound - address) := by
  fun_induction stringFrom m address with
  | case1 address hlt b hzero =>
    rw [show bound - address = bound - (address + 1) + 1 by omega]
    exact (if_pos hzero).symm
  | case2 address hlt b hzero ih =>
    rw [ih, show bound - address = bound - (address + 1) + 1 by omega]
    exact (if_neg hzero).symm
  | case3 address hlt =>
    rw [Nat.sub_eq_zero_of_le (Nat.not_lt.1 hlt)]
    rfl

theorem readString_eq : m.readString address limit =
    if address = 0 then .error .null else .ok (m.stringWithin address (reach address limit)) := by
  unfold readString
  cases limit with
  | none =>
    rw [stringFrom_eq]
    rfl
  | some n => rfl

theorem stringWithin_zero {address : Nat} (h : m.byteAt address = 0) (limit : Nat) :
    m.stringWithin address (limit + 1) = [] := if_pos h

theorem stringWithin_byte {address : Nat} (h : m.byteAt address ≠ 0) (limit : Nat) :
    m.stringWithin address (limit + 1) = m.byteAt address :: m.stringWithin (address + 1) limit :=
  if_neg h

theorem walk_plain (steps : Nat) :
    walk (F := Id) m.byteAt address steps = m.stringWithin address steps := by
  induction steps generalizing address with
  | zero => rfl
  | succ steps ih =>
    show (if m.byteAt address = 0 then []
      else m.byteAt address :: walk (F := Id) m.byteAt (address + 1) steps) = _
    rw [ih]
    rfl

/-- Reading is the walk with plain loads. -/
theorem readBy_plain : readBy (F := Id) m.byteAt address limit = m.readString address limit := by
  show (if address = 0 then Except.error MemoryError.null
    else .ok (walk (F := Id) m.byteAt address (reach address limit))) = _
  rw [walk_plain, readString_eq]

theorem extent_cons (steps : Nat) (b : Byte) (text : List Byte) :
    extent (some (steps + 1)) (b :: text) = extent (some steps) text + 1 := by
  unfold extent
  simp only [List.length_cons, Option.some.injEq, Nat.add_right_cancel_iff]
  split <;> rfl

/-- The walk loads from one address after the other, and stops behind the zero byte or with
its last step. -/
theorem walk_note (steps : Nat) (noted : List Nat) :
    walk m.note address steps noted = (m.stringWithin address steps,
      noted ++ List.range' address (extent (some steps) (m.stringWithin address steps))) := by
  induction steps generalizing address noted with
  | zero => exact congrArg (Prod.mk []) (List.append_nil noted).symm
  | succ steps ih =>
    have hstep : walk m.note address (steps + 1) noted =
        (if m.byteAt address = 0 then return []
          else return m.byteAt address :: (← walk m.note (address + 1) steps) :
            StateM (List Nat) (List Byte)) (noted ++ [address]) := rfl
    rw [hstep]
    by_cases hzero : m.byteAt address = 0
    · rw [if_pos hzero, stringWithin_zero m hzero]
      rfl
    · have hrest : (do return m.byteAt address :: (← walk m.note (address + 1) steps) :
          StateM (List Nat) (List Byte)) (noted ++ [address]) =
          (m.byteAt address :: (walk m.note (address + 1) steps (noted ++ [address])).1,
            (walk m.note (address + 1) steps (noted ++ [address])).2) := rfl
      rw [if_neg hzero, hrest, ih, stringWithin_byte m hzero, extent_cons, List.range'_succ,
        List.append_assoc, List.singleton_append]

theorem readBy_of_ne_null (h : address ≠ 0) : readBy m.note address limit [] =
    (.ok (m.stringWithin address (reach address limit)), List.range' address
      (extent (some (reach address limit)) (m.stringWithin address (reach address limit)))) := by
  have hread : readBy m.note address limit [] =
      (.ok (walk m.note address (reach address limit) []).1,
        (walk m.note address (reach address limit) []).2) := by
    unfold readBy
    rw [if_neg h]
    rfl
  rw [hread, walk_note]
  rfl

/-- Noting the addresses does not change what is read. -/
theorem readBy_note : readBy m.note address limit [] =
    (m.readString address limit, m.loads address limit) := by
  refine Prod.ext ?_ rfl
  rw [readString_eq]
  by_cases hnull : address = 0
  · rw [hnull]
    rfl
  · rw [readBy_of_ne_null m address limit hnull, if_neg hnull]

variable {m address limit} {m' : AddressSpace}

theorem loads_of_ne_null (h : address ≠ 0) : m.loads address limit = List.range' address
    (extent (some (reach address limit)) (m.stringWithin address (reach address limit))) :=
  congrArg Prod.snd (readBy_of_ne_null m address limit h)

/-! ### What the loads find -/

theorem stringWithin_congr {steps : Nat}
    (h : ∀ x ∈ List.range' address (extent (some steps) (m.stringWithin address steps)),
      m'.byteAt x = m.byteAt x) : m'.stringWithin address steps = m.stringWithin address steps := by
  induction steps generalizing address with
  | zero => rfl
  | succ steps ih =>
    by_cases hzero : m.byteAt address = 0
    · rw [stringWithin_zero m hzero] at h ⊢
      have hsame := h address (List.mem_range'_1.2 ⟨Nat.le_refl _, Nat.lt_succ_self _⟩)
      exact stringWithin_zero m' (hsame.trans hzero) steps
    · rw [stringWithin_byte m hzero, extent_cons, List.range'_succ, List.forall_mem_cons] at h
      rw [stringWithin_byte m hzero, stringWithin_byte m' (h.1 ▸ hzero), h.1, ih h.2]

/-- What is read depends on what the loads find, and on no other byte. -/
theorem readString_of_loads (h : ∀ x ∈ m.loads address limit, m'.byteAt x = m.byteAt x) :
    m'.readString address limit = m.readString address limit ∧
      m'.loads address limit = m.loads address limit := by
  by_cases hnull : address = 0
  · rw [hnull]
    exact ⟨rfl, rfl⟩
  · rw [loads_of_ne_null hnull] at h ⊢
    have hsame := stringWithin_congr h
    rw [readString_eq, readString_eq, loads_of_ne_null hnull, hsame]
    exact ⟨rfl, rfl⟩

theorem readBytes_succ (m : AddressSpace) (address length : Nat) :
    m.readBytes address (length + 1) = m.byteAt address :: m.readBytes (address + 1) length := by
  simp only [readBytes, List.range_succ_eq_map, List.map_cons, List.map_map, Nat.add_zero]
  congr 1
  refine List.map_congr_left fun i _ => congrArg m.byteAt ?_
  show address + (i + 1) = _
  omega

theorem stringWithin_eq_upToNul (m : AddressSpace) (address steps : Nat) :
    m.stringWithin address steps = upToNul (m.readBytes address steps) := by
  induction steps generalizing address with
  | zero => rfl
  | succ steps ih =>
    rw [readBytes_succ]
    by_cases hzero : m.byteAt address = 0
    · rw [stringWithin_zero m hzero, hzero]
      rfl
    · rw [stringWithin_byte m hzero, upToNul_cons hzero, ih]

theorem readBytes_add (m : AddressSpace) (address first second : Nat) :
    m.readBytes address (first + second) =
      m.readBytes address first ++ m.readBytes (address + first) second := by
  simp only [readBytes, List.range_add, List.map_append, List.map_map]
  congr 1
  exact List.map_congr_left fun i _ => congrArg m.byteAt (Nat.add_assoc ..).symm

/-- With a limit, the string is what stands in front of a zero byte among so many bytes. -/
theorem readString_of_limit (m : AddressSpace) (h : address ≠ 0) (n : Nat) :
    m.readString address (some n) = .ok (upToNul (m.readBytes address n)) := by
  rw [readString_eq, if_neg h, stringWithin_eq_upToNul]
  rfl

/-- A limit of so many bytes allows for so many loads. -/
theorem length_loads_le (m : AddressSpace) (address n : Nat) :
    (m.loads address (some n)).length ≤ n := by
  by_cases hnull : address = 0
  · rw [hnull]
    exact Nat.zero_le n
  · have htext : (m.stringWithin address n).length ≤ n := by
      have hfront : (upToNul (m.readBytes address n)).length ≤ (m.readBytes address n).length :=
        (List.takeWhile_prefix _).length_le
      rw [readBytes, List.length_map, List.length_range] at hfront
      rwa [stringWithin_eq_upToNul]
    rw [loads_of_ne_null hnull, List.length_range']
    show extent (some n) (m.stringWithin address n) ≤ n
    unfold extent
    split
    · exact htext
    · rename_i hne
      rw [Option.some.injEq] at hne
      omega

end AddressSpace

/-! ### Images -/

/-- What stands behind a zero byte is no part of the string. -/
theorem upToNul_append {bytes : List Byte} (h : (upToNul bytes).length < bytes.length)
    (rest : List Byte) : upToNul (bytes ++ rest) = upToNul bytes := by
  unfold upToNul at h ⊢
  rw [List.takeWhile_append, if_neg (Nat.ne_of_lt h)]

/-- The memory holds the bytes of an arena at their addresses, and anything elsewhere. -/
structure AddressSpace.Images (m : AddressSpace) (a : Arena) : Prop where
  fits : a.base + a.size ≤ AddressSpace.bound
  holds : ∀ x b, a.byteAt? x = some b → m.byteAt x = b

/-- Laying the bytes of an arena over any memory gives an image of it. -/
theorem AddressSpace.images_store (m : AddressSpace) {a : Arena}
    (h : a.base + a.size ≤ AddressSpace.bound) : (m.store a.base a.bytes).Images a := by
  refine ⟨h, fun x b hb => ?_⟩
  unfold Arena.byteAt? at hb
  unfold store
  split at hb
  · cases hb
  · rename_i hlow
    simp only [if_neg hlow, List.getElem?_toArray, hb, Option.getD_some]

namespace AddressSpace.Images
variable {m : AddressSpace} {a : Arena} {address offset : Nat} {limit : Option Nat}
  {text : List Byte} (h : m.Images a)
include h

/-- The bytes that a string of the arena may be made of lie in the image. -/
theorem readBytes_window (limit : Option Nat) (hlocate : a.locate address 0 = .ok offset) :
    m.readBytes address (a.window offset limit).length = a.window offset limit := by
  obtain ⟨⟨-, hlow, -⟩, rfl⟩ := Arena.locate_eq_ok_iff.1 hlocate
  refine List.ext_getElem? fun i => ?_
  by_cases hi : i < (a.window (address - a.base) limit).length
  · have hbyte : (a.window (address - a.base) limit)[i]? = a.byteAt? (address + i) := by
      rw [Arena.getElem?_window hi, Nat.add_sub_cancel' hlow]
    rw [List.getElem?_eq_getElem hi] at hbyte ⊢
    rw [← h.holds _ _ hbyte.symm, readBytes, List.getElem?_map, List.getElem?_range hi]
    rfl
  · have hlength : (m.readBytes address (a.window (address - a.base) limit).length).length =
        (a.window (address - a.base) limit).length := by
      rw [readBytes, List.length_map, List.length_range]
    rw [List.getElem?_eq_none (Nat.not_lt.1 hi), List.getElem?_eq_none (by omega)]

/-- The walk reaches as far as those bytes do. -/
theorem length_window_le_reach (limit : Option Nat) (hlocate : a.locate address 0 = .ok offset) :
    (a.window offset limit).length ≤ reach address limit := by
  obtain ⟨⟨-, hlow, -⟩, rfl⟩ := Arena.locate_eq_ok_iff.1 hlocate
  have hfits := h.fits
  rw [Arena.length_window]
  cases limit with
  | none =>
    show a.size - (address - a.base) ≤ bound - address
    omega
  | some n => exact Nat.min_le_left _ _

/-- Where the arena reads a string, the walk finds the same one. -/
theorem stringWithin_of_readString (hread : a.readString address limit = .ok text) :
    m.stringWithin address (reach address limit) = text := by
  obtain ⟨offset, hlocate, rfl, hends⟩ := Arena.readString_eq_ok_iff.1 hread
  have hwindow := h.readBytes_window limit hlocate
  rw [stringWithin_eq_upToNul]
  rcases hends with hzero | hlimit
  · obtain ⟨further, hfurther⟩ := Nat.exists_eq_add_of_le (h.length_window_le_reach limit hlocate)
    rw [hfurther, readBytes_add, hwindow, upToNul_append hzero]
  · have hreach : reach address limit = (a.window offset limit).length :=
      congrArg (·.getD (bound - address)) hlimit
    rw [hreach, hwindow]

/-- The walk stops where the arena has looked at enough. -/
theorem extent_reach (hread : a.readString address limit = .ok text) :
    extent (some (reach address limit)) text = extent limit text := by
  cases limit with
  | some n => rfl
  | none =>
    obtain ⟨offset, hlocate, rfl, hends⟩ := Arena.readString_eq_ok_iff.1 hread
    have hreach := h.length_window_le_reach none hlocate
    have hshort := hends.resolve_right nofun
    have hne : some (reach address none) ≠ some (upToNul (a.window offset none)).length := by
      rw [ne_eq, Option.some.injEq]
      omega
    rw [extent, if_neg hne]
    rfl

omit h in
/-- The arena looks at no more than the bytes that the string may be made of. -/
theorem extent_le_window (hlocate : a.locate address 0 = .ok offset)
    (hread : a.readString address limit = .ok text) :
    extent limit text ≤ (a.window offset limit).length := by
  obtain ⟨_, hlocate', rfl, hends⟩ := Arena.readString_eq_ok_iff.1 hread
  cases hlocate.symm.trans hlocate'
  have hfront : (upToNul (a.window offset limit)).length ≤ (a.window offset limit).length :=
    (List.takeWhile_prefix _).length_le
  unfold extent
  split
  · exact hfront
  · rename_i hne
    rcases hends with hzero | hlimit
    · exact hzero
    · have hshort : (upToNul (a.window offset limit)).length ≠ (a.window offset limit).length :=
        fun heq => hne (by rw [heq]; exact hlimit)
      omega

/-- The walk loads just what the arena looks at, all of it in use. -/
theorem loads_of_readString (hread : a.readString address limit = .ok text) :
    m.loads address limit = List.range' address (extent limit text) ∧
      ∀ x ∈ m.loads address limit, (a.byteAt? x).isSome := by
  obtain ⟨offset, hlocate, -⟩ := Arena.readString_eq_ok_iff.1 hread
  have hextent := extent_le_window hlocate hread
  obtain ⟨⟨hnull, hlow, -⟩, rfl⟩ := Arena.locate_eq_ok_iff.1 hlocate
  have hloads : m.loads address limit = List.range' address (extent limit text) := by
    rw [loads_of_ne_null hnull, h.stringWithin_of_readString hread, h.extent_reach hread]
  refine ⟨hloads, fun x hx => ?_⟩
  rw [hloads, List.mem_range'_1] at hx
  have hinside : x - address < (a.window (address - a.base) limit).length := by omega
  have hbyte := Arena.getElem?_window hinside
  rw [List.getElem?_eq_getElem hinside,
    show a.base + (address - a.base) + (x - address) = x by omega] at hbyte
  rw [← hbyte]
  rfl

/-- The image reads the string that the arena reads. -/
theorem readString_of_readString (hread : a.readString address limit = .ok text) :
    m.readString address limit = .ok text := by
  obtain ⟨offset, hlocate, -⟩ := Arena.readString_eq_ok_iff.1 hread
  obtain ⟨⟨hnull, -⟩, -⟩ := Arena.locate_eq_ok_iff.1 hlocate
  rw [readString_eq, if_neg hnull, h.stringWithin_of_readString hread]

end AddressSpace.Images

/-! ### Strings of a given length -/

/-- So many bytes in use are enough for a string with this limit. -/
theorem Arena.readString_of_readBytes {a : Arena} {address n : Nat} {bytes : List Byte}
    (h : a.readBytes address n = .ok bytes) :
    a.readString address (some n) = .ok (upToNul bytes) := by
  unfold readBytes at h
  cases hlocate : a.locate address n with
  | error e =>
    rw [hlocate] at h
    cases h
  | ok offset =>
    rw [hlocate] at h
    cases h
    obtain ⟨⟨hnull, hlow, hend⟩, rfl⟩ := locate_eq_ok_iff.1 hlocate
    have hstart : a.locate address 0 = .ok (address - a.base) :=
      locate_eq_ok_iff.2 ⟨⟨hnull, hlow, by omega⟩, rfl⟩
    have hlength : (a.window (address - a.base) (some n)).length = n := by
      rw [length_window]
      exact Nat.min_eq_left (by omega)
    exact readString_eq_ok_iff.2 ⟨_, hstart, rfl, .inr (by rw [hlength])⟩

namespace Print
variable {M : Type} [Memory M]

theorem renderOperand_of_readString {spec : PrintSpec} {layout : Layout} {address : Nat}
    {frame : Frame M} {text : List Byte} (hnull : address ≠ 0)
    (h : Memory.readString frame.memory address layout.limit = .ok text) (written : Nat) :
    renderOperand spec layout written (.string address) frame =
      .ok (Field.string text layout) frame := by
  have hread : readString address layout frame = .ok text frame := readString_eq_ok_iff.2 ⟨h, rfl⟩
  simp only [renderOperand]
  rw [if_neg hnull, bind_of_ok hread]
  rfl

/-- **Strings are read alike in an arena and in its image.** Take memory that holds the bytes
of an arena at their addresses, and anything elsewhere. Where the arena reads a string, the
memory reads the same one: it loads one byte after the other from the string's address on,
through the zero byte or up to the limit, all of them from the arena, and depends on no other
byte. Both reject address zero. So a string directive with a precision loads at most so many
bytes, and where so many are in use no zero byte is needed among them. -/
theorem images_read_alike {m : AddressSpace} {a : Arena} (h : m.Images a) :
    (∀ (address : Nat) (limit : Option Nat) (text : List Byte),
      a.readString address limit = .ok text →
      m.readString address limit = .ok text ∧
      AddressSpace.readBy m.note address limit [] = (.ok text, m.loads address limit) ∧
      m.loads address limit = List.range' address (extent limit text) ∧
      (∀ x ∈ m.loads address limit, (a.byteAt? x).isSome) ∧
      ∀ m' : AddressSpace, (∀ x ∈ m.loads address limit, m'.byteAt x = m.byteAt x) →
        m'.readString address limit = .ok text ∧
        m'.loads address limit = m.loads address limit) ∧
    (∀ limit, a.readString 0 limit = .error .null ∧ m.readString 0 limit = .error .null) ∧
    ∀ (spec : PrintSpec) (layout : Layout) (written address p : Nat) (arguments : ArgumentList)
      (telemetry : Telemetry), layout.precision = .given p → address ≠ 0 →
      (m.loads address (some p)).length ≤ p ∧
      (∀ m' : AddressSpace, (∀ x ∈ m.loads address (some p), m'.byteAt x = m.byteAt x) →
        renderOperand spec layout written (.string address) ⟨arguments, m', telemetry⟩ =
          .ok (Field.string (upToNul (m.readBytes address p)) layout)
            ⟨arguments, m', telemetry⟩) ∧
      ∀ bytes, a.readBytes address p = .ok bytes →
        renderOperand spec layout written (.string address) ⟨arguments, a, telemetry⟩ =
            .ok (Field.string (upToNul bytes) layout) ⟨arguments, a, telemetry⟩ ∧
        upToNul bytes = upToNul (m.readBytes address p) := by
  refine ⟨fun address limit text hread => ?_, fun limit => ⟨rfl, rfl⟩, ?_⟩
  · obtain ⟨hloads, hinside⟩ := h.loads_of_readString hread
    have hsame := h.readString_of_readString hread
    refine ⟨hsame, ?_, hloads, hinside, fun m' hm' => ?_⟩
    · rw [AddressSpace.readBy_note, hsame]
    · have halike := AddressSpace.readString_of_loads hm'
      exact ⟨halike.1.trans hsame, halike.2⟩
  · intro spec layout written address p arguments telemetry hprecision hnull
    have hlimit : layout.limit = some p := by rw [Layout.limit, hprecision]
    have hhost := m.readString_of_limit hnull p
    refine ⟨m.length_loads_le address p, fun m' hm' => ?_, fun bytes hbytes => ?_⟩
    · refine renderOperand_of_readString hnull ?_ written
      rw [hlimit]
      exact (AddressSpace.readString_of_loads hm').1.trans hhost
    · have hread := Arena.readString_of_readBytes hbytes
      refine ⟨renderOperand_of_readString hnull (by rw [hlimit]; exact hread) written, ?_⟩
      exact Except.ok.inj ((h.readString_of_readString hread).symm.trans hhost)

/-- A string in the middle of an arena, and one with a precision that the arena ends behind. -/
theorem images_read_alike_at_end :
    let a : Arena := ⟨0x10000, ascii "hi" ++ [0] ++ ascii "no"⟩
    let m := AddressSpace.empty.store a.base a.bytes
    let layout : Layout := ⟨.none, .absent, .given 2⟩
    m.readString 0x10000 none = .ok (ascii "hi") ∧
      m.loads 0x10000 none = [0x10000, 0x10001, 0x10002] ∧
      a.readString 0x10003 none = .error (.outOfBounds 0x10003 3) ∧
      m.loads 0x10003 (some 2) = [0x10003, 0x10004] ∧
      renderOperand ⟨layout, .plain, .s⟩ layout 0 (.string 0x10003)
          (⟨.start .checked [], a, .initial⟩ : Frame Arena) =
        .ok (ascii "no") ⟨.start .checked [], a, .initial⟩ := by
  intro a m layout
  have himage : m.Images a := AddressSpace.empty.images_store (by decide)
  obtain ⟨halike, -, hstrings⟩ := images_read_alike himage
  have hwhole : a.readString 0x10000 none = .ok (ascii "hi") := ok_of_toOption (by decide +kernel)
  have hcut : a.readString 0x10003 (some 2) = .ok (ascii "no") :=
    ok_of_toOption (by decide +kernel)
  have hbytes : a.readBytes 0x10003 2 = .ok (ascii "no") := ok_of_toOption (by decide +kernel)
  obtain ⟨hread, -, hloads, -⟩ := halike _ _ _ hwhole
  obtain ⟨-, -, hloads', -⟩ := halike _ _ _ hcut
  obtain ⟨-, -, hprinted⟩ :=
    hstrings ⟨layout, .plain, .s⟩ layout 0 0x10003 2 (.start .checked []) .initial rfl (by decide)
  exact ⟨hread, hloads, error_of_no_value (by decide +kernel), hloads', (hprinted _ hbytes).1⟩

end Print
end CheckedFormat
