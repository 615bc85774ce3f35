import CheckedFormat.Proofs.ArenaAccess
import CheckedFormat.Proofs.Steps
/-! What storing a field leaves.

A field is stored in pieces that are written one behind the other: a number is the piece of
its bytes, and a string is its text and then a zero byte. `Memory.Writes` says what becomes
of pieces, also where one of them is refused. A directive stores at the address that the
next argument gives, so the argument can be refused too, and `Scan.Deposits` says how it
ends in each case and in which state. That fixes the result (`Scan.Deposits.unique`), and
both ways of storing keep to it (`storeNumber_deposits`, `storeText_deposits`). In an arena
with room for them the pieces then lie there one behind the other, and nothing else has
changed (`Scan.Deposits.exists_assigned`). -/
namespace CheckedFormat

/-! ### Pieces -/

namespace Memory

variable {M : Type} [Memory M]

/-- What writing pieces one behind the other comes to, from an address on: the first one
that is refused ends it, and what was written before it stays. -/
inductive Writes : M → (address : Nat) → List (List Byte) → Option MemoryError → M → Prop where
  | nil (m : M) (address : Nat) : Writes m address [] none m
  | refused {m : M} {address : Nat} {piece : List Byte} {rest : List (List Byte)}
    {e : MemoryError} (write : writeBytes m address piece = .error e) :
    Writes m address (piece :: rest) (some e) m
  | cons {m middle later : M} {address : Nat} {piece : List Byte} {rest : List (List Byte)}
    {failure : Option MemoryError} (write : writeBytes m address piece = .ok middle)
    (behind : Writes middle (address + piece.length) rest failure later) :
    Writes m address (piece :: rest) failure later

variable {m later later' : M} {address : Nat} {pieces : List (List Byte)}
  {failure failure' : Option MemoryError}

theorem exists_writes (m : M) (address : Nat) (pieces : List (List Byte)) :
    ∃ failure later, Writes m address pieces failure later := by
  induction pieces generalizing m address with
  | nil => exact ⟨none, m, .nil m address⟩
  | cons piece rest ih =>
    cases hwrite : writeBytes m address piece with
    | error e => exact ⟨some e, m, .refused hwrite⟩
    | ok middle =>
      obtain ⟨failure, later, hrest⟩ := ih middle (address + piece.length)
      exact ⟨failure, later, .cons hwrite hrest⟩

theorem Writes.unique (h : Writes m address pieces failure later)
    (h' : Writes m address pieces failure' later') : (failure, later) = (failure', later') := by
  induction h with
  | nil =>
    cases h'
    rfl
  | refused write =>
    cases h' with
    | refused write' =>
      cases write.symm.trans write'
      rfl
    | cons write' => cases write.symm.trans write'
  | cons write _ ih =>
    cases h' with
    | refused write' => cases write.symm.trans write'
    | cons write' behind' =>
      cases write.symm.trans write'
      exact ih behind'

end Memory

/-- Pieces that an arena has room for are written, and then lie there one behind the other. -/
theorem Arena.exists_writes_of_inBounds {a : Arena} {address : Nat} {pieces : List (List Byte)}
    (hin : a.InBounds address pieces.flatten.length) :
    ∃ b, Memory.Writes a address pieces none b ∧ b.Holds address pieces.flatten ∧
      ChangesWithin (fun x => address ≤ x ∧ x < address + pieces.flatten.length) a b := by
  induction pieces generalizing a address with
  | nil => exact ⟨a, .nil a address, holds_iff.2 ⟨hin, nofun⟩, .refl _ a⟩
  | cons piece rest ih =>
    rw [List.flatten_cons, List.length_append] at hin
    obtain ⟨hnull, hbase, hend⟩ := hin
    have hroom : a.InBounds address piece.length := ⟨hnull, hbase, by omega⟩
    obtain ⟨middle, hwrite⟩ := writeBytes_of_inBounds hroom
    obtain ⟨-, hbase', hsize', -⟩ := writeBytes_spec hwrite
    have hbehind : middle.InBounds (address + piece.length) rest.flatten.length :=
      ⟨by omega, by omega, by omega⟩
    obtain ⟨b, hwrites, hholds, hchanges⟩ := ih hbehind
    refine ⟨b, .cons hwrite hwrites, holds_append ?_ hholds, ?_⟩
    · exact (holds_of_writeBytes hwrite).of_changesWithin hchanges fun x _ hhigh hx =>
        Nat.not_lt.2 hx.1 hhigh
    · rw [List.flatten_cons, List.length_append]
      refine (changesWithin_of_writeBytes hwrite fun x hlow hhigh => ?_).trans
        (hchanges.mono fun x hx => ?_)
      all_goals omega

namespace Scan

variable {S M : Type} {s : State S M} {bits : Word} {cause : ArgumentError}

/-! ### The address -/

/-- The state behind the request for an address, with these arguments and this memory. -/
def State.asked (s : State S M) (arguments : ArgumentList) (memory : M) : State S M :=
  { s with frame :=
      ⟨arguments, memory, s.frame.arguments.observe .pointer s.frame.telemetry⟩ }

theorem fetchAddress_of_ok {arguments : ArgumentList}
    (h : s.frame.arguments.next .pointer = .ok (bits, arguments)) :
    fetchAddress s = .ok bits.asAddress (s.asked arguments s.frame.memory) := by
  unfold fetchAddress Frame.fetch
  rw [h]
  rfl

theorem fetchAddress_of_error (h : s.frame.arguments.next .pointer = .error cause) :
    fetchAddress s =
      .error (.argument cause) (s.asked s.frame.arguments s.frame.memory) := by
  unfold fetchAddress Frame.fetch
  rw [h]
  rfl

/-! ### Writing -/

theorem storing_of_ok {f : M → Except MemoryError M} {later : M}
    (h : f s.frame.memory = .ok later) :
    storing f s = .ok () { s with frame := { s.frame with memory := later } } := by
  unfold storing
  rw [h]

theorem storing_of_error {f : M → Except MemoryError M} {e : MemoryError}
    (h : f s.frame.memory = .error e) : storing f s = .error (.memory e) s := by
  unfold storing
  rw [h]

/-! ### Fields -/

variable [Memory M] {suppress : Bool} {pieces : List (List Byte)}
  {result result' : EStateM.Result ScanError (State S M) Progress}

/-- How a directive ends whose field was found and is these pieces, and in which state: a
suppressed one is skipped, and leaves the state alone; one whose address is refused leaves
the arguments and the memory alone; and otherwise the list is one argument further, and
the pieces are written from the address on, or the first of them up to one that is refused.
Only the reader is never moved. -/
inductive Deposits (suppress : Bool) (pieces : List (List Byte)) (s : State S M) :
    EStateM.Result ScanError (State S M) Progress → Prop where
  | skipped (suppressed : suppress = true) : Deposits suppress pieces s (.ok .skipped s)
  | unaddressed {cause : ArgumentError} (wanted : suppress = false)
    (next : s.frame.arguments.next .pointer = .error cause) :
    Deposits suppress pieces s
      (.error (.argument cause) (s.asked s.frame.arguments s.frame.memory))
  | assigned {bits : Word} {later : M} (wanted : suppress = false)
    (next : s.frame.arguments.next .pointer = .ok (bits, s.frame.arguments.advance))
    (writes : Memory.Writes s.frame.memory bits.asAddress pieces none later) :
    Deposits suppress pieces s (.ok .assigned (s.asked s.frame.arguments.advance later))
  | unwritten {bits : Word} {later : M} {e : MemoryError} (wanted : suppress = false)
    (next : s.frame.arguments.next .pointer = .ok (bits, s.frame.arguments.advance))
    (writes : Memory.Writes s.frame.memory bits.asAddress pieces (some e) later) :
    Deposits suppress pieces s
      (.error (.memory e) (s.asked s.frame.arguments.advance later))

/-- There is one way to end. -/
theorem Deposits.unique (h : Deposits suppress pieces s result)
    (h' : Deposits suppress pieces s result') : result = result' := by
  cases h with
  | skipped suppressed =>
    cases h' with
    | skipped => rfl
    | _ wanted => cases suppressed.symm.trans wanted
  | unaddressed wanted next =>
    cases h' with
    | skipped suppressed => cases suppressed.symm.trans wanted
    | unaddressed _ next' =>
      cases next.symm.trans next'
      rfl
    | _ _ next' => cases next.symm.trans next'
  | assigned wanted next writes | unwritten wanted next writes =>
    cases h' with
    | skipped suppressed => cases suppressed.symm.trans wanted
    | unaddressed _ next' => cases next.symm.trans next'
    | assigned _ next' writes' | unwritten _ next' writes' =>
      cases next.symm.trans next'
      -- One run of writes does not both end and break off.
      cases writes.unique writes' <;> rfl

/-- The end of a directive behind its writes. -/
def writing (failure : Option MemoryError) (t : State S M) :
    EStateM.Result ScanError (State S M) Progress :=
  match failure with
  | none => .ok .assigned t
  | some e => .error (.memory e) t

/-- A directive that takes an address and writes the pieces there. -/
theorem deposits_of_writing {g : Nat → Step S M Progress}
    (hg : ∀ {address : Nat} {t : State S M} {failure : Option MemoryError} {later : M},
      Memory.Writes t.frame.memory address pieces failure later →
      g address t = writing failure { t with frame := { t.frame with memory := later } }) :
    Deposits false pieces s ((fetchAddress >>= g) s) := by
  rcases s.frame.arguments.next_cases .pointer with ⟨cause, hnext⟩ | hnext
  · rw [bind_of_error (fetchAddress_of_error hnext)]
    exact .unaddressed rfl hnext
  · obtain ⟨failure, later, hwrites⟩ :=
      Memory.exists_writes s.frame.memory s.frame.arguments.nextBits.asAddress pieces
    have hend := (bind_of_ok (fetchAddress_of_ok hnext)).trans (hg hwrites)
    rw [hend]
    cases failure with
    | none => exact .assigned rfl hnext hwrites
    | some e => exact .unwritten rfl hnext hwrites

/-- A number is one piece. -/
theorem storeNumber_deposits (suppress : Bool) (bytes : List Byte) (s : State S M) :
    Deposits suppress [bytes] s
      (storeNumber suppress (fun m address => Memory.writeBytes m address bytes) s) := by
  unfold storeNumber
  cases suppress with
  | true => exact .skipped rfl
  | false =>
    refine deposits_of_writing fun {address t failure later} hwrites => ?_
    cases hwrites with
    | refused write => exact bind_of_error (storing_of_error write)
    | cons write behind =>
      cases behind
      exact bind_of_ok (storing_of_ok write)

/-- A whole number is the piece of its low bytes. -/
theorem storeInteger_deposits {size : Nat} (hsize : integerSizes.contains size = true)
    (suppress : Bool) (bits : Word) (s : State S M) :
    Deposits suppress [littleEndian size bits.toNat] s
      (storeNumber suppress (fun m address => Memory.writeInteger m address bits size) s) := by
  unfold Memory.writeInteger
  simp only [hsize, if_true]
  exact storeNumber_deposits suppress _ s

/-- A text is one piece, and in a string there is a zero byte behind it. -/
theorem storeText_deposits (suppress terminate : Bool) (text : List Byte) (s : State S M) :
    Deposits suppress (if terminate then [text, [0]] else [text]) s
      (storeText suppress terminate text s) := by
  cases terminate with
  | false => exact storeNumber_deposits suppress text s
  | true =>
    cases suppress with
    | true => exact .skipped rfl
    | false =>
      refine deposits_of_writing fun {address t failure later} hwrites => ?_
      cases hwrites with
      | refused write => exact bind_of_error (storing_of_error write)
      | cons write behind =>
        refine (bind_of_ok (storing_of_ok write)).trans ?_
        cases behind with
        | refused write => exact bind_of_error (storing_of_error write)
        | cons write behind =>
          cases behind
          exact bind_of_ok (storing_of_ok write)

/-- A field that is wanted is assigned where a pointer is passed and the arena has room. -/
theorem Deposits.exists_assigned {s : State S Arena} {slots : List Slot}
    {result : EStateM.Result ScanError (State S Arena) Progress}
    (h : Deposits false pieces s result)
    (hoffers : s.frame.arguments.Offers (⟨.pointer, bits⟩ :: slots))
    (hin : s.frame.memory.InBounds bits.toNat pieces.flatten.length) :
    ∃ later, result = .ok .assigned (s.asked s.frame.arguments.advance later) ∧
      later.Holds bits.toNat pieces.flatten ∧
      Arena.ChangesWithin (fun x => bits.toNat ≤ x ∧ x < bits.toNat + pieces.flatten.length)
        s.frame.memory later := by
  have htype : ArgumentType.pointer.compatible .pointer = true := rfl
  obtain ⟨later, hwrites, hholds, hchanges⟩ := Arena.exists_writes_of_inBounds hin
  exact ⟨later, h.unique (.assigned rfl (hoffers.next htype) hwrites), hholds, hchanges⟩

end Scan
end CheckedFormat
