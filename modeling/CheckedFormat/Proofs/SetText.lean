import CheckedFormat.Directive.ByteSet
/-! Byte sets as they are written.

Behind its opening bracket a set is a caret or none, a first member, which may be a
closing bracket, further members, which may not, and a closing bracket (`IsSetText`).
Reading takes just such a text off the front, whatever stands behind it
(`take_eq_some_iff`), and finds no set only where there is none (`take_eq_none_iff`). -/
namespace CheckedFormat
namespace ByteSet

/-- The text of a set behind its opening bracket. A caret in the first place is no
member. -/
inductive IsSetText : List Byte → Prop where
  | parts {negated : Bool} {first : Byte} {members : List Byte}
      (caret : negated = false → first ≠ 94) (closed : ∀ b ∈ members, b ≠ 93) :
      IsSetText ((if negated then [94] else []) ++ first :: (members ++ [93]))

/-! ### Members -/

/-- The byte and the text behind it are no range. -/
def StartsNoRange (low : Byte) (text : List Byte) : Prop :=
  ∀ high later, text = 45 :: high :: later → ¬ (high ≠ 93 ∧ low ≤ high)

theorem takeRanges_close (rest : List Byte) : takeRanges (93 :: rest) = some ([], rest) := by
  rw [takeRanges]

theorem takeRanges_range {low high : Byte} (rest : List Byte) (hlow : low ≠ 93)
    (hrange : high ≠ 93 ∧ low ≤ high) :
    takeRanges (low :: 45 :: high :: rest) =
      (takeRanges rest).map fun (ranges, rest) => (⟨low, high⟩ :: ranges, rest) := by
  rw [takeRanges, if_pos (by simpa using hrange)]
  exact fun h => hlow h

theorem takeRanges_single {b : Byte} {rest : List Byte} (hb : b ≠ 93) (h : StartsNoRange b rest) :
    takeRanges (b :: rest) =
      (takeRanges rest).map fun (ranges, rest) => (.single b :: ranges, rest) := by
  by_cases hdash : ∃ high later, rest = 45 :: high :: later
  · obtain ⟨high, later, rfl⟩ := hdash
    rw [takeRanges, if_neg (by simpa using h high later rfl)]
    exact fun h => hb h
  · rw [takeRanges]
    · exact fun h => hb h
    · exact fun high later h => hdash ⟨high, later, h⟩

/-- Members are taken up to the first closing bracket, whatever stands behind it. -/
theorem exists_takeRanges (members : List Byte) (h : ∀ b ∈ members, b ≠ 93) :
    ∃ ranges, ∀ rest, takeRanges (members ++ 93 :: rest) = some (ranges, rest) := by
  induction hsize : members.length using Nat.strongRecOn generalizing members with
  | ind size ih =>
    cases members with
    | nil => exact ⟨[], takeRanges_close⟩
    | cons low members =>
      obtain ⟨hlow, hmembers⟩ := List.forall_mem_cons.1 h
      rw [List.length_cons] at hsize
      by_cases hrange : ∃ high later, members = 45 :: high :: later ∧ low ≤ high
      · obtain ⟨high, later, rfl, hle⟩ := hrange
        obtain ⟨hhigh, hlater⟩ := List.forall_mem_cons.1 (List.forall_mem_cons.1 hmembers).2
        simp only [List.length_cons] at hsize
        obtain ⟨ranges, hranges⟩ := ih later.length (by omega) later hlater rfl
        refine ⟨⟨low, high⟩ :: ranges, fun rest => ?_⟩
        simp only [List.cons_append, takeRanges_range _ hlow ⟨hhigh, hle⟩, hranges, Option.map_some]
      · obtain ⟨ranges, hranges⟩ := ih members.length (by omega) members hmembers rfl
        refine ⟨.single low :: ranges, fun rest => ?_⟩
        have hsingle : StartsNoRange low (members ++ 93 :: rest) := by
          rintro high later htext ⟨hhigh, hle⟩
          -- The dash and the byte behind it are members: neither is the closing bracket.
          match members with
          | [] => cases htext
          | [_] => exact hhigh (List.cons.inj (List.cons.inj htext).2).1.symm
          | dash :: b :: more =>
            obtain rfl : dash = 45 := (List.cons.inj htext).1
            obtain rfl : b = high := (List.cons.inj (List.cons.inj htext).2).1
            exact hrange ⟨b, more, rfl, hle⟩
        rw [List.cons_append, takeRanges_single hlow hsingle, hranges]
        rfl

/-- Without a closing bracket nothing is taken. -/
theorem takeRanges_eq_none {text : List Byte} (h : ∀ b ∈ text, b ≠ 93) : takeRanges text = none := by
  fun_induction takeRanges text with
  | case1 => rfl
  | case2 => exact absurd rfl (h 93 List.mem_cons_self)
  | case3 low high after _ _ ih =>
    rw [ih fun b hb => h b (List.mem_cons_of_mem _ (List.mem_cons_of_mem _ (List.mem_cons_of_mem _ hb)))]
    rfl
  | case4 low high after _ _ ih =>
    rw [ih fun b hb => h b (List.mem_cons_of_mem _ hb)]
    rfl
  | case5 b after _ _ ih =>
    rw [ih fun c hc => h c (List.mem_cons_of_mem _ hc)]
    rfl

theorem exists_of_takeRanges {text rest : List Byte} {ranges : List ByteRange}
    (h : takeRanges text = some (ranges, rest)) :
    ∃ members, (∀ b ∈ members, b ≠ 93) ∧ text = members ++ 93 :: rest := by
  by_cases hclosed : 93 ∈ text
  · obtain ⟨members, later, rfl, hmembers⟩ := List.eq_append_cons_of_mem hclosed
    have hall : ∀ b ∈ members, b ≠ 93 := fun b hb heq => hmembers (heq ▸ hb)
    obtain ⟨ranges', htake⟩ := exists_takeRanges members hall
    rw [htake later] at h
    cases h
    exact ⟨members, hall, rfl⟩
  · rw [takeRanges_eq_none fun b hb heq => hclosed (heq ▸ hb)] at h
    cases h

/-! ### Whole sets -/

theorem takeCaret_eq {negated : Bool} {text : List Byte}
    (h : negated = false → ∀ rest, text ≠ 94 :: rest) :
    takeCaret ((if negated then [94] else []) ++ text) = (negated, text) := by
  cases negated with
  | true => rfl
  | false =>
    show takeCaret text = _
    unfold takeCaret
    split
    · exact absurd rfl (h rfl _)
    · rfl

theorem exists_takeCaret (text : List Byte) :
    ∃ (negated : Bool) (rest : List Byte), text = (if negated then [94] else []) ++ rest ∧
      (negated = false → ∀ later, rest ≠ 94 :: later) := by
  by_cases h : ∃ rest, text = 94 :: rest
  · obtain ⟨rest, rfl⟩ := h
    exact ⟨true, rest, rfl, nofun⟩
  · exact ⟨false, text, rfl, fun _ later htext => h ⟨later, htext⟩⟩

theorem takeBracket_eq {text : List Byte} (h : ∀ rest, text ≠ 93 :: rest) :
    takeBracket text = ([], text) := by
  unfold takeBracket
  split
  · exact absurd rfl (h _)
  · rfl

/-- A set is read whole, whatever stands behind it. -/
theorem exists_take {body : List Byte} (h : IsSetText body) :
    ∃ members, ∀ rest, take (body ++ rest) = some (members, rest) := by
  obtain @⟨negated, first, inner, caret, closed⟩ := h
  have htext (rest : List Byte) :
      ((if negated then [94] else []) ++ first :: (inner ++ [93])) ++ rest =
        (if negated then [94] else []) ++ first :: (inner ++ 93 :: rest) := by
    simp
  have hcaret (rest : List Byte) :
      negated = false → ∀ later, first :: (inner ++ 93 :: rest) ≠ 94 :: later :=
    fun hnegated later heq => caret hnegated (List.cons.inj heq).1
  unfold take
  simp only [htext, takeCaret_eq (hcaret _)]
  by_cases hfirst : first = 93
  · obtain ⟨ranges, hranges⟩ := exists_takeRanges inner closed
    subst hfirst
    refine ⟨⟨negated, .single 93 :: ranges⟩, fun rest => ?_⟩
    simp only [takeBracket, hranges, Option.map_some, List.singleton_append]
  · obtain ⟨ranges, hranges⟩ := exists_takeRanges (first :: inner)
      (List.forall_mem_cons.2 ⟨hfirst, closed⟩)
    refine ⟨⟨negated, ranges⟩, fun rest => ?_⟩
    rw [takeBracket_eq fun later heq => hfirst (List.cons.inj heq).1]
    simp only [← List.cons_append, hranges, Option.map_some, List.nil_append]

theorem exists_of_take {text rest : List Byte} {members : ByteSet}
    (h : take text = some (members, rest)) : ∃ body, IsSetText body ∧ text = body ++ rest := by
  obtain ⟨negated, behind, rfl, hcaret⟩ := exists_takeCaret text
  unfold take at h
  simp only [takeCaret_eq hcaret] at h
  by_cases hbracket : ∃ later, behind = 93 :: later
  · obtain ⟨later, rfl⟩ := hbracket
    obtain ⟨⟨ranges, rest'⟩, hranges, htaken⟩ := Option.map_eq_some_iff.1 h
    obtain ⟨inner, closed, rfl⟩ := exists_of_takeRanges hranges
    cases htaken
    have hset : IsSetText ((if negated then [94] else []) ++ 93 :: (inner ++ [93])) :=
      .parts (fun _ => by decide) closed
    exact ⟨_, hset, by simp⟩
  · rw [takeBracket_eq fun later heq => hbracket ⟨later, heq⟩] at h
    obtain ⟨⟨ranges, rest'⟩, hranges, htaken⟩ := Option.map_eq_some_iff.1 h
    obtain ⟨inner, closed, rfl⟩ := exists_of_takeRanges hranges
    cases htaken
    cases inner with
    | nil => exact absurd ⟨_, rfl⟩ hbracket
    | cons first inner =>
      have hset : IsSetText ((if negated then [94] else []) ++ first :: (inner ++ [93])) :=
        .parts (fun hnegated heq => hcaret hnegated _ (by rw [heq]; rfl))
          (List.forall_mem_cons.1 closed).2
      exact ⟨_, hset, by simp⟩

/-- What reading takes is the text of a set, and it needs nothing behind it. -/
theorem take_eq_some_iff {text rest : List Byte} {members : ByteSet} :
    take text = some (members, rest) ↔
      ∃ body, IsSetText body ∧ take body = some (members, []) ∧ text = body ++ rest := by
  have hall {body : List Byte} (hbody : IsSetText body) (rest' : List Byte) :
      take (body ++ rest') = some (members, rest') ↔ take body = some (members, []) := by
    obtain ⟨set, htake⟩ := exists_take hbody
    have hbare := htake []
    rw [List.append_nil] at hbare
    rw [htake, hbare]
    simp
  constructor
  · intro h
    obtain ⟨body, hbody, rfl⟩ := exists_of_take h
    exact ⟨body, hbody, (hall hbody rest).1 h, rfl⟩
  · rintro ⟨body, hbody, hset, rfl⟩
    exact (hall hbody rest).2 hset

/-- Reading finds no set where none starts the text. -/
theorem take_eq_none_iff {text : List Byte} :
    take text = none ↔ ∀ body rest, IsSetText body → text ≠ body ++ rest := by
  constructor
  · rintro h body rest hbody rfl
    obtain ⟨members, htake⟩ := exists_take hbody
    rw [htake rest] at h
    cases h
  · intro h
    cases htake : take text with
    | none => rfl
    | some taken =>
      obtain ⟨body, hbody, htext⟩ := exists_of_take htake
      exact absurd htext (h body _ hbody)

end ByteSet
end CheckedFormat
