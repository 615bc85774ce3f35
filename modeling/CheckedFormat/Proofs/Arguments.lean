import CheckedFormat.Argument.Cursor
/-! Arguments still to be read.

A list `Offers` the slots from its cursor on. A read at a type that the next slot is
compatible with takes that slot, at either level (`fetch_of_offers`). -/
namespace CheckedFormat
namespace ArgumentList

/-- A read fails, or gives the next slot's bits and moves on. -/
theorem next_cases (l : ArgumentList) (requested : ArgumentType) :
    (∃ e, l.next requested = .error e) ∨ l.next requested = .ok (l.nextBits, l.advance) := by
  unfold next
  split
  · split
    · exact .inl ⟨_, rfl⟩
    · exact .inr rfl
  · exact .inr rfl

/-- What a read gives are the bits of the next slot. -/
theorem eq_nextBits_of_next {l later : ArgumentList} {requested : ArgumentType} {bits : Word}
    (h : l.next requested = .ok (bits, later)) : bits = l.nextBits := by
  rcases l.next_cases requested with ⟨e, hnext⟩ | hnext
  · cases h.symm.trans hnext
  · cases h.symm.trans hnext
    rfl

/-- The list with so many slots passed over. -/
def skip (l : ArgumentList) (n : Nat) : ArgumentList := { l with cursor := l.cursor + n }

theorem skip_advance (l : ArgumentList) (n : Nat) : l.advance.skip n = l.skip (n + 1) := by
  simp only [skip, advance]
  congr 1
  omega

/-- The list is not ended, and these are the slots that it has left. -/
structure Offers (l : ArgumentList) (slots : List Slot) : Prop where
  opened : l.ended = false
  left : l.slots.drop l.cursor = slots

theorem offers_start (level : CheckLevel) (slots : List Slot) : (start level slots).Offers slots :=
  ⟨rfl, rfl⟩

theorem Offers.nextSlot? {l : ArgumentList} {slot : Slot} {rest : List Slot}
    (h : l.Offers (slot :: rest)) : l.nextSlot? = some slot := by
  have hhead := congrArg List.head? h.left
  rwa [List.head?_drop] at hhead

theorem Offers.advance {l : ArgumentList} {slot : Slot} {rest : List Slot}
    (h : l.Offers (slot :: rest)) : l.advance.Offers rest := by
  refine ⟨h.opened, ?_⟩
  have htail := congrArg List.tail h.left
  rwa [List.tail_drop] at htail

theorem Offers.next {l : ArgumentList} {slot : Slot} {rest : List Slot} {type : ArgumentType}
    (h : l.Offers (slot :: rest)) (htype : slot.type.compatible type = true) :
    l.next type = .ok (slot.bits, l.advance) := by
  have hslot := h.nextSlot?
  have hviolation : l.violation? type = none := by
    simp [violation?, inspect, refusesUse, h.opened, hslot, htype]
  simp [ArgumentList.next, hviolation, nextBits, hslot]

end ArgumentList

/-- A slot that is there and matches is taken. -/
theorem Frame.fetch_of_offers {M : Type} {frame : Frame M} {slot : Slot} {rest : List Slot}
    {type : ArgumentType} (h : frame.arguments.Offers (slot :: rest))
    (htype : slot.type.compatible type = true) :
    ∃ later, frame.fetch type = (.ok slot.bits, later) ∧ later.arguments.Offers rest ∧
      later.memory = frame.memory := by
  unfold fetch
  rw [h.next htype]
  exact ⟨_, rfl, h.advance, rfl⟩

end CheckedFormat
