import CheckedFormat.Proofs.CheckLevels
import Mathlib.Data.List.Induction
/-! Families of argument lists.

The arguments of a call are read through the list that the call starts with, and through
the copies made of it and of one another. All of them are cursors over the same slots. A
`Family` holds them in the order in which they came to be, and a `Turn` puts one use to
one of them: a read at some type, a copy, or the end.

What a use of a checked list can do is said once (`Outcome`). `lists_keep_discipline`
says what that comes to in every run of turns: each list stands where it started, moved on
by its own reads; a read gives the slot that it stands before; what fails changes nothing;
and each list answers as if it were alone, so a list that was ended stays so. -/
namespace CheckedFormat

/-- An argument as a type has it. -/
inductive ArgumentValue where
  | int (n : Int)
  | unsignedInt (n : Nat)
  | long (n : Int)
  | unsignedLong (n : Nat)
  | double (bits : Word)
  | pointer (address : Nat)
  deriving DecidableEq, Repr

/-- What the bits of a slot mean at a type. -/
def ArgumentType.read (type : ArgumentType) (bits : Word) : ArgumentValue :=
  match type with
  | int => .int bits.asInt
  | unsignedInt => .unsignedInt bits.asUnsignedInt
  | long => .long bits.asLong
  | unsignedLong => .unsignedLong bits.asUnsignedLong
  | double => .double bits
  | pointer => .pointer bits.asAddress

namespace ArgumentList

/-! ### One list -/

/-- What can be done to a list. -/
inductive Use where
  | next (type : ArgumentType)
  | copy
  | finish
  deriving DecidableEq, Repr

/-- What a use gives that succeeds. -/
inductive Yield where
  | value (v : ArgumentValue)
  | list (copy : ArgumentList)
  | nothing
  deriving DecidableEq, Repr

/-- What a use gives, and the list behind it. -/
def put (l : ArgumentList) : Use → Except ArgumentError (Yield × ArgumentList)
  | .next type => (l.next type).map fun (bits, later) => (.value (type.read bits), later)
  | .copy => l.copy.map fun copy => (.list copy, l)
  | .finish => l.finish.map fun later => (.nothing, later)

/-- What a list answers to a use. -/
def answer (l : ArgumentList) (use : Use) : Except ArgumentError Yield := (l.put use).map Prod.fst

/-- The list behind a use, which is the same list when the use fails. -/
def behind (l : ArgumentList) (use : Use) : ArgumentList :=
  ((l.put use).map Prod.snd).toOption.getD l

/-- What a list answers to uses, one after the other. -/
def answers (l : ArgumentList) : List Use → List (Except ArgumentError Yield)
  | [] => []
  | use :: rest => l.answer use :: (l.behind use).answers rest

/-- The list behind uses, one after the other. -/
def behindAll (l : ArgumentList) (uses : List Use) : ArgumentList := uses.foldl behind l

/-- A use was answered with an argument. -/
def delivers : Except ArgumentError Yield → Bool
  | .ok (.value _) => true
  | _ => false

/-- A checked list over these slots that stands among them or right behind the last. -/
structure Over (slots : List Slot) (l : ArgumentList) : Prop where
  slots_eq : l.slots = slots
  level_eq : l.level = .checked
  cursor_le : l.cursor ≤ slots.length

/-- What a use of a checked list can do: it is refused and the list stays as it is; or the
list was not ended, and is read, copied or ended. -/
inductive Outcome (slots : List Slot) (l : ArgumentList) :
    Use → Except ArgumentError Yield → ArgumentList → Prop where
  | refused {use : Use} {e : ArgumentError} (ended : l.ended = true → e = .useAfterEnd) :
      Outcome slots l use (.error e) l
  | read {type : ArgumentType} {slot : Slot} (opened : l.ended = false)
      (stands : slots[l.cursor]? = some slot) (fits : slot.type.compatible type = true) :
      Outcome slots l (.next type) (.ok (.value (type.read slot.bits))) l.advance
  | copied (opened : l.ended = false) : Outcome slots l .copy (.ok (.list l)) l
  | finished (opened : l.ended = false) :
      Outcome slots l .finish (.ok .nothing) { l with ended := true }

variable {slots : List Slot} {l : ArgumentList} {use : Use}

theorem over_start (slots : List Slot) : (start .checked slots).Over slots :=
  ⟨rfl, rfl, Nat.zero_le _⟩

theorem Over.outcome (h : l.Over slots) (use : Use) :
    Outcome slots l use (l.answer use) (l.behind use) := by
  have hrefuses : l.refusesUse = l.ended := by
    rw [refusesUse, h.level_eq]
    exact Bool.and_true _
  cases use with
  | next type =>
    simp only [answer, behind, put, ArgumentList.next, h.level_eq]
    cases hviolation : l.violation? type with
    | some e =>
      refine .refused fun hended => ?_
      simpa [violation?, inspect, hrefuses, hended] using hviolation.symm
    | none =>
      obtain ⟨hopen, slot, hslot, htype⟩ := violation?_eq_none_iff.1 hviolation
      have hbits : l.nextBits = slot.bits := by
        rw [nextBits, hslot, Option.map_some, Option.getD_some]
      simp only [hbits]
      exact .read (hrefuses ▸ hopen) (h.slots_eq ▸ hslot) htype
  | copy =>
    simp only [answer, behind, put, ArgumentList.copy, hrefuses]
    cases hended : l.ended with
    | true => exact .refused fun _ => rfl
    | false =>
      have hsame : { l with ended := false } = l := by rw [← hended]
      simp only [hsame]
      exact .copied hended
  | finish =>
    simp only [answer, behind, put, ArgumentList.finish, hrefuses]
    cases hended : l.ended with
    | true => exact .refused fun _ => rfl
    | false => exact .finished hended

namespace Outcome
variable {result : Except ArgumentError Yield} {later : ArgumentList}

/-- A use moves the cursor by one when it delivers an argument, and else not at all. -/
theorem cursor (h : Outcome slots l use result later) :
    later.cursor = l.cursor + if delivers result then 1 else 0 := by
  cases h <;> rfl

theorem over_later (h : Outcome slots l use result later) (hover : l.Over slots) :
    later.Over slots := by
  cases h with
  | refused _ | copied _ => exact hover
  | finished _ => exact ⟨hover.slots_eq, hover.level_eq, hover.cursor_le⟩
  | read _ stands _ =>
    exact ⟨hover.slots_eq, hover.level_eq, (List.getElem?_eq_some_iff.1 stands).1⟩

/-- A use that fails leaves the list as it is. -/
theorem of_error {e : ArgumentError} (h : Outcome slots l use (.error e) later) : later = l := by
  cases h
  rfl

/-- What gives a list is a copy of the list as it is. -/
theorem of_list {copy : ArgumentList} (h : Outcome slots l use result later)
    (hresult : result = .ok (.list copy)) : use = .copy ∧ copy = l := by
  cases h with
  | copied _ =>
    obtain rfl : l = copy := by simpa using hresult
    exact ⟨rfl, rfl⟩
  | refused _ | read _ | finished _ => simp at hresult

/-- What a read gives is the slot that the list stands before. -/
theorem of_value {type : ArgumentType} {y : Yield}
    (h : Outcome slots l (.next type) result later) (hresult : result = .ok y) :
    ∃ slot, slots[l.cursor]? = some slot ∧ slot.type.compatible type = true ∧
      y = .value (type.read slot.bits) := by
  cases h with
  | refused _ => simp at hresult
  | read _ stands fits => exact ⟨_, stands, fits, (Except.ok.inj hresult).symm⟩

/-- Ending a list marks it and leaves it where it stands. -/
theorem of_finish {y : Yield} (h : Outcome slots l .finish result later)
    (hresult : result = .ok y) : later.ended = true ∧ later.cursor = l.cursor := by
  cases h with
  | refused _ => simp at hresult
  | finished _ => exact ⟨rfl, rfl⟩

/-- A list that was ended refuses every use. -/
theorem of_ended (h : Outcome slots l use result later) (hended : l.ended = true) :
    result = .error .useAfterEnd ∧ later = l := by
  cases h with
  | refused hrefused => exact ⟨by rw [hrefused hended], rfl⟩
  | read hopen | copied hopen | finished hopen => simp [hended] at hopen

end Outcome

/-- An ended list stays as it is, whatever is done to it. -/
theorem Over.behindAll_of_ended (h : l.Over slots) (hended : l.ended = true) (uses : List Use) :
    l.behindAll uses = l := by
  induction uses with
  | nil => rfl
  | cons use rest ih =>
    rw [ArgumentList.behindAll, List.foldl_cons, ((h.outcome use).of_ended hended).2]
    exact ih

/-! ### Families -/

/-- The lists over the arguments of one call, in the order in which they came to be. -/
abbrev Family := List ArgumentList

/-- A use of the list with a number. -/
structure Turn where
  list : Nat
  use : Use
  deriving DecidableEq, Repr

namespace Family

/-- What the turn's list answers; nothing where there is no such list. -/
def answer (f : Family) (turn : Turn) : Option (Except ArgumentError Yield) :=
  f[turn.list]?.map (·.answer turn.use)

/-- The list that an answer brings into the family. -/
def added : Option (Except ArgumentError Yield) → List ArgumentList
  | some (.ok (.list copy)) => [copy]
  | _ => []

/-- The family behind a turn. -/
def behind (f : Family) (turn : Turn) : Family :=
  f.modify turn.list (·.behind turn.use) ++ added (f.answer turn)

/-- The family behind turns, one after the other. -/
def behindAll (f : Family) (turns : List Turn) : Family := turns.foldl behind f

/-- The family behind turns that start with the list of a checked call. -/
def reached (slots : List Slot) (turns : List Turn) : Family :=
  behindAll [start .checked slots] turns

/-- What turns are answered, each beside its turn. -/
def history (f : Family) : List Turn → List (Turn × Option (Except ArgumentError Yield))
  | [] => []
  | turn :: rest => (turn, f.answer turn) :: history (f.behind turn) rest

/-- The uses that turns put to one list. -/
def usesOf (i : Nat) (turns : List Turn) : List Use :=
  (turns.filter (·.list == i)).map (·.use)

/-- What one list answered. -/
def answersOf (i : Nat) (events : List (Turn × Option (Except ArgumentError Yield))) :
    List (Except ArgumentError Yield) :=
  events.flatMap fun (turn, answer) => if turn.list = i then answer.toList else []

variable {f : Family} {i : Nat} {turn : Turn} {turns : List Turn}

theorem behindAll_append (f : Family) (turns more : List Turn) :
    f.behindAll (turns ++ more) = (f.behindAll turns).behindAll more :=
  List.foldl_append

theorem answersOf_cons (i : Nat) (turn : Turn) (answer : Option (Except ArgumentError Yield))
    (events : List (Turn × Option (Except ArgumentError Yield))) :
    answersOf i ((turn, answer) :: events) =
      (if turn.list = i then answer.toList else []) ++ answersOf i events := rfl

theorem usesOf_cons (i : Nat) (turn : Turn) (turns : List Turn) :
    usesOf i (turn :: turns) =
      if turn.list = i then turn.use :: usesOf i turns else usesOf i turns := by
  by_cases h : turn.list = i <;> simp [usesOf, h]

theorem answer_eq (h : f[turn.list]? = some l) : f.answer turn = some (l.answer turn.use) := by
  rw [answer, h, Option.map_some]

/-- A list goes on as its own turns make it, and the turns of others do not change it. -/
theorem getElem?_behind (h : f[i]? = some l) (turn : Turn) :
    (f.behind turn)[i]? = some (if turn.list = i then l.behind turn.use else l) := by
  obtain ⟨hlt, -⟩ := List.getElem?_eq_some_iff.1 h
  rw [behind, List.getElem?_append_left (by rwa [List.length_modify]), List.getElem?_modify, h]
  split <;> rfl

/-- **Each list is alone.** Behind any turns it is what its own uses make of it, and it
answered them as it would have without the turns of the others. -/
theorem alone (h : f[i]? = some l) (turns : List Turn) :
    (f.behindAll turns)[i]? = some (l.behindAll (usesOf i turns)) ∧
      answersOf i (f.history turns) = l.answers (usesOf i turns) := by
  induction turns generalizing f l with
  | nil => exact ⟨h, rfl⟩
  | cons turn rest ih =>
    have hstep := getElem?_behind h turn
    rw [usesOf_cons, history, answersOf_cons]
    by_cases hturn : turn.list = i
    · rw [if_pos hturn] at hstep ⊢
      obtain ⟨hlist, hanswers⟩ := ih hstep
      rw [if_pos hturn, hanswers, answer_eq (hturn ▸ h)]
      exact ⟨hlist, rfl⟩
    · rw [if_neg hturn] at hstep ⊢
      rw [if_neg hturn]
      exact ih hstep

/-- A list behind a turn was there before, or is the copy that the turn made. -/
theorem exists_of_getElem?_behind (h : (f.behind turn)[i]? = some l) :
    (∃ before, f[i]? = some before) ∨
      f.length = i ∧ f.answer turn = some (.ok (.list l)) := by
  by_cases hlt : i < f.length
  · exact .inl ⟨f[i], List.getElem?_eq_getElem hlt⟩
  · rw [behind, List.getElem?_append_right (by rw [List.length_modify]; omega),
      List.length_modify] at h
    refine .inr ?_
    generalize f.answer turn = result at h
    unfold added at h
    split at h
    · obtain ⟨hzero, rfl⟩ : i - f.length = 0 ∧ _ = l := by
        simpa [List.getElem?_singleton] using h
      exact ⟨by omega, rfl⟩
    · simp at h

/-! ### Runs from a call on -/

theorem reached_concat (slots : List Slot) (turns : List Turn) (turn : Turn) :
    reached slots (turns ++ [turn]) = (reached slots turns).behind turn :=
  behindAll_append _ turns [turn]

theorem history_concat (f : Family) (turns : List Turn) (turn : Turn) :
    f.history (turns ++ [turn]) = f.history turns ++ [(turn, (f.behindAll turns).answer turn)] := by
  induction turns generalizing f with
  | nil => rfl
  | cons first rest ih => exact congrArg _ (ih (f.behind first))

/-- No list ever goes. -/
theorem length_le_behindAll (f : Family) (turns : List Turn) :
    f.length ≤ (f.behindAll turns).length := by
  induction turns generalizing f with
  | nil => exact Nat.le_refl _
  | cons turn rest ih =>
    refine Nat.le_trans ?_ (ih (f.behind turn))
    rw [behind, List.length_append, List.length_modify]
    exact Nat.le_add_right _ _

/-- A list answers nothing before it is there. -/
theorem answersOf_of_length_le (h : (f.behindAll turns).length ≤ i) :
    answersOf i (f.history turns) = [] := by
  induction turns generalizing f with
  | nil => rfl
  | cons turn rest ih =>
    have hlength : f.length ≤ i := Nat.le_trans (length_le_behindAll f (turn :: rest)) h
    rw [history, answersOf_cons, ih h, List.append_nil]
    split
    · rename_i hturn
      rw [answer, hturn, List.getElem?_eq_none hlength, Option.map_none, Option.toList_none]
    · rfl

/-- Where a list comes from: it is the one that the call starts with, or it was a copy of
another as that one stood. -/
inductive Begins (slots : List Slot) : List Turn → Nat → ArgumentList → Prop where
  | call (turns : List Turn) : Begins slots turns 0 (start .checked slots)
  | copy {before : List Turn} {p : Nat} {parent : ArgumentList}
      (stood : (reached slots before)[p]? = some parent)
      (granted : (reached slots before).answer ⟨p, .copy⟩ = some (.ok (.list parent)))
      (later : List Turn) :
      Begins slots (before ++ ⟨p, .copy⟩ :: later) (reached slots before).length parent

theorem Begins.concat {began : ArgumentList} (h : Begins slots turns i began) (turn : Turn) :
    Begins slots (turns ++ [turn]) i began := by
  cases h with
  | call => exact .call _
  | copy stood granted later =>
    rw [List.append_assoc, List.cons_append]
    exact .copy stood granted _

theorem answersOf_concat (f : Family) (i : Nat) (turns : List Turn) (turn : Turn) :
    answersOf i (f.history (turns ++ [turn])) = answersOf i (f.history turns) ++
      if turn.list = i then ((f.behindAll turns).answer turn).toList else [] := by
  rw [history_concat, answersOf, List.flatMap_append, List.flatMap_singleton]
  rfl

/-- The arguments that were read through one list. -/
def readThrough (slots : List Slot) (turns : List Turn) (i : Nat) : Nat :=
  (answersOf i (history [start .checked slots] turns)).countP delivers

theorem readThrough_concat (slots : List Slot) (turns : List Turn) (turn : Turn) (i : Nat) :
    readThrough slots (turns ++ [turn]) i = readThrough slots turns i +
      (if turn.list = i then ((reached slots turns).answer turn).toList else []).countP
        delivers := by
  rw [readThrough, answersOf_concat, List.countP_append]
  rfl

/-- Every list that a run reaches is over the slots of the call, and stands where it began,
moved on by what was read through it. -/
theorem over_and_position (h : (reached slots turns)[i]? = some l) :
    l.Over slots ∧ ∃ began, Begins slots turns i began ∧
      l.cursor = began.cursor + readThrough slots turns i := by
  induction turns using List.reverseRecOn generalizing i l with
  | nil =>
    obtain ⟨rfl, rfl⟩ : i = 0 ∧ start .checked slots = l := by
      simpa [reached, behindAll, List.getElem?_singleton] using h
    exact ⟨over_start slots, _, .call [], rfl⟩
  | append_singleton turns turn ih =>
    rw [reached_concat] at h
    obtain ⟨before, hbefore⟩ | ⟨hlength, hanswer⟩ := exists_of_getElem?_behind h
    · obtain ⟨hover, began, hbegan, hcursor⟩ := ih hbefore
      have houtcome := hover.outcome turn.use
      rw [getElem?_behind hbefore] at h
      by_cases hturn : turn.list = i
      · rw [if_pos hturn] at h
        obtain rfl := Option.some.inj h
        refine ⟨houtcome.over_later hover, began, hbegan.concat turn, ?_⟩
        rw [readThrough_concat, if_pos hturn, answer_eq (hturn ▸ hbefore), Option.toList_some,
          List.countP_singleton, ← Nat.add_assoc, ← hcursor]
        exact houtcome.cursor
      · rw [if_neg hturn] at h
        obtain rfl := Option.some.inj h
        refine ⟨hover, began, hbegan.concat turn, ?_⟩
        rw [readThrough_concat, if_neg hturn]
        exact hcursor
    · obtain ⟨parent, hparent, hgranted⟩ := Option.map_eq_some_iff.1 hanswer
      obtain ⟨hover, -⟩ := ih hparent
      -- What yields a list is a copy, and the list is the parent as it stands.
      obtain ⟨huse, rfl⟩ := (hover.outcome turn.use).of_list hgranted
      obtain ⟨p, use⟩ := turn
      obtain rfl : use = .copy := huse
      obtain ⟨hlt, -⟩ := List.getElem?_eq_some_iff.1 hparent
      have hother : p ≠ i := by
        rw [← hlength]
        exact Nat.ne_of_lt hlt
      refine ⟨hover, l, hlength ▸ .copy hparent hanswer [], ?_⟩
      rw [readThrough_concat, if_neg hother, readThrough,
        answersOf_of_length_le (Nat.le_of_eq hlength)]
      rfl

/-- A use that fails leaves the whole family as it is. -/
theorem behind_eq_self {e : ArgumentError} (h : f[i]? = some l) (hover : l.Over slots)
    (hfails : l.answer use = .error e) : f.behind ⟨i, use⟩ = f := by
  have hadded : added (f.answer ⟨i, use⟩) = [] := by
    rw [answer_eq h, hfails]
    rfl
  have hsame : l.behind use = l := (hfails ▸ hover.outcome use).of_error
  refine List.ext_getElem? fun j => ?_
  rw [behind, hadded, List.append_nil, List.getElem?_modify]
  by_cases hj : i = j
  · simp [← hj, h, hsame]
  · simp [hj]

/-- What is so of a list wherever a run has come: list number `i` is `l` behind `turns`. -/
structure Disciplined (slots : List Slot) (turns : List Turn) (i : Nat) (l : ArgumentList) :
    Prop where
  /-- The list stands where it began, moved on by what was read through it. -/
  position : ∃ began, Begins slots turns i began ∧
    l.cursor = began.cursor + readThrough slots turns i
  bounded : l.cursor ≤ slots.length
  /-- What a read gives is the slot that the list stands before. -/
  delivers : ∀ type y, l.answer (.next type) = .ok y →
    ∃ slot, slots[l.cursor]? = some slot ∧ slot.type.compatible type = true ∧
      y = .value (type.read slot.bits)
  /-- What fails changes no list. -/
  fails : ∀ use e, l.answer use = .error e →
    (reached slots turns).behind ⟨i, use⟩ = reached slots turns
  /-- Whatever comes, the list is what its own uses make of it, and answers them so. -/
  alone : ∀ more, (reached slots (turns ++ more))[i]? = some (l.behindAll (usesOf i more)) ∧
    answersOf i (history (reached slots turns) more) = l.answers (usesOf i more)
  /-- Once ended the list stays where it stands and refuses every use. -/
  ends : ∀ y, l.answer .finish = .ok y → ∀ more,
    ∃ later, (reached slots (turns ++ ⟨i, .finish⟩ :: more))[i]? = some later ∧
      later.cursor = l.cursor ∧ ∀ use, later.answer use = .error .useAfterEnd

/-- **The lists of a checked call keep their discipline in every run**: whatever is read,
copied and ended, through whichever of the lists and in whichever order. -/
theorem lists_keep_discipline (slots : List Slot) (turns : List Turn) (i : Nat) (l : ArgumentList)
    (h : (reached slots turns)[i]? = some l) : Disciplined slots turns i l := by
  obtain ⟨hover, hposition⟩ := over_and_position h
  have halone : ∀ more, (reached slots (turns ++ more))[i]? = some (l.behindAll (usesOf i more)) ∧
      answersOf i (history (reached slots turns) more) = l.answers (usesOf i more) := by
    intro more
    rw [reached, behindAll_append]
    exact Family.alone h more
  refine ⟨hposition, hover.cursor_le, ?_, fun use e hfails => behind_eq_self h hover hfails,
    halone, ?_⟩
  · intro type y hanswer
    exact (hover.outcome (.next type)).of_value hanswer
  · intro y hanswer more
    obtain ⟨hended, hcursor⟩ := (hover.outcome .finish).of_finish hanswer
    have hfinished := (hover.outcome .finish).over_later hover
    refine ⟨_, (halone (⟨i, .finish⟩ :: more)).1, ?_⟩
    rw [usesOf_cons, if_pos rfl, ArgumentList.behindAll, List.foldl_cons,
      ← ArgumentList.behindAll, hfinished.behindAll_of_ended hended]
    exact ⟨hcursor, fun use => ((hfinished.outcome use).of_ended hended).1⟩

/-- An `int` is read through the call's list, which is copied; the copy refuses to read the
`double` as a pointer, reads it, and outlives the first list. -/
theorem lists_keep_discipline_of_copy :
    let slots := [.int (-3), .double 0x4004000000000000#64, .pointer 16]
    let turns : List Turn := [⟨0, .next .int⟩, ⟨0, .copy⟩, ⟨1, .next .pointer⟩,
      ⟨1, .next .double⟩, ⟨0, .finish⟩]
    (reached slots turns)[1]? = some ⟨slots, .checked, 2, false⟩ ∧
      Disciplined slots turns 1 ⟨slots, .checked, 2, false⟩ :=
  have hreached : (reached [.int (-3), .double 0x4004000000000000#64, .pointer 16]
      [⟨0, .next .int⟩, ⟨0, .copy⟩, ⟨1, .next .pointer⟩, ⟨1, .next .double⟩, ⟨0, .finish⟩])[1]? =
        some ⟨[.int (-3), .double 0x4004000000000000#64, .pointer 16], .checked, 2, false⟩ := by
    decide
  ⟨hreached, lists_keep_discipline _ _ _ _ hreached⟩

end Family
end ArgumentList
end CheckedFormat
