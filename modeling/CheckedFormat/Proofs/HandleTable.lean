import CheckedFormat.Host.Session
/-! Tables of handles.

A table issues handles in ascending order and forgets the ones that are ended. What calls
do to its handles is one `Turn` each, so a history of turns says which handles were ever
issued and which are live (`Tracks`): from its issue on until it is ended, and a handle is
issued once. -/
namespace CheckedFormat
namespace Host
namespace Table

variable {α : Type} {t u : Table α} {h k : Nat} {a b : α}

/-- The live handles, the ones issued first come first. -/
def handles (t : Table α) : List Nat := t.entries.map Prod.fst

/-- The handles ascend, and all of them were issued. -/
structure Ordered (t : Table α) : Prop where
  ascending : t.handles.Pairwise (· < ·)
  below : ∀ h ∈ t.handles, h < t.next

/-! ### Looking up -/

theorem find?_cons (e : Nat × α) (entries : List (Nat × α)) (next h : Nat) :
    (Table.mk (e :: entries) next).find? h =
      if e.1 = h then some e.2 else (Table.mk entries next).find? h := by
  unfold find?
  by_cases heq : e.1 = h <;> simp [heq]

theorem isSome_find?_iff : (t.find? h).isSome = true ↔ h ∈ t.handles := by
  obtain ⟨entries, next⟩ := t
  induction entries with
  | nil => simp [find?, handles]
  | cons e rest ih =>
    rw [find?_cons]
    unfold handles at ih ⊢
    by_cases heq : e.1 = h
    · simp [heq]
    · rw [if_neg heq, ih]
      simp [Ne.symm heq]

theorem find?_eq_none_iff : t.find? h = none ↔ h ∉ t.handles := by
  rw [← isSome_find?_iff, Option.not_isSome_iff_eq_none]

theorem mem_handles_of_find? (hfind : t.find? h = some a) : h ∈ t.handles :=
  isSome_find?_iff.1 (hfind ▸ rfl)

theorem Ordered.next_not_mem (ht : t.Ordered) : t.next ∉ t.handles :=
  fun hmem => Nat.lt_irrefl _ (ht.below _ hmem)

/-! ### Issuing, updating and removing -/

theorem handles_issue (t : Table α) (a : α) : (t.issue a).2.handles = t.handles ++ [t.next] := by
  simp [handles, issue]

theorem find?_issue (ht : t.Ordered) (a : α) (h : Nat) :
    (t.issue a).2.find? h = if h = t.next then some a else t.find? h := by
  have hsplit : (t.issue a).2.find? h = (t.find? h).or (if h = t.next then some a else none) := by
    unfold issue find?
    rw [List.find?_append, Option.map_or]
    by_cases heq : h = t.next
    · simp [heq]
    · simp [heq, Ne.symm heq]
  rw [hsplit]
  by_cases heq : h = t.next
  · rw [if_pos heq, if_pos heq, heq, find?_eq_none_iff.2 ht.next_not_mem, Option.none_or]
  · rw [if_neg heq, if_neg heq, Option.or_none]

theorem handles_update (t : Table α) (k : Nat) (a : α) : (t.update k a).handles = t.handles := by
  unfold handles update
  rw [List.map_map]
  refine List.map_congr_left fun e _ => ?_
  by_cases heq : e.1 = k <;> simp [heq]

theorem find?_update (t : Table α) (k : Nat) (a : α) (h : Nat) :
    (t.update k a).find? h = if h = k then (t.find? h).map fun _ => a else t.find? h := by
  obtain ⟨entries, next⟩ := t
  induction entries with
  | nil => simp [find?, update]
  | cons e rest ih =>
    unfold update at ih ⊢
    rw [List.map_cons, find?_cons, find?_cons, ih]
    by_cases hk : e.1 = k
    · by_cases heq : k = h
      · simp [hk, heq]
      · simp [hk, heq, Ne.symm heq]
    · by_cases heq : e.1 = h
      · have hne : ¬h = k := fun h' => hk (heq.trans h')
        simp [heq, hne]
      · simp [hk, heq]

/-- A new value that is the old one changes nothing. -/
theorem update_eq_self (ht : t.Ordered) (hfind : t.find? h = some a) : t.update h a = t := by
  obtain ⟨entries, next⟩ := t
  have hnodup : (Table.mk entries next).handles.Nodup := ht.ascending.imp Nat.ne_of_lt
  clear ht
  unfold update
  congr 1
  induction entries with
  | nil => rfl
  | cons e rest ih =>
    obtain ⟨hfirst, hrest⟩ : e.1 ∉ (Table.mk rest next).handles ∧
        (Table.mk rest next).handles.Nodup := by
      simpa [handles] using hnodup
    rw [find?_cons] at hfind
    rw [List.map_cons]
    by_cases heq : e.1 = h
    · rw [if_pos heq] at hfind ⊢
      have hkept : rest.map (fun e => if e.1 = h then (h, a) else e) = rest := by
        refine (List.map_congr_left fun e' he' => ?_).trans (List.map_id' rest)
        refine if_neg fun h' => hfirst ?_
        rw [heq, ← h']
        exact List.mem_map_of_mem he'
      rw [hkept, ← heq, ← Option.some.inj hfind]
    · rw [if_neg heq] at hfind ⊢
      rw [ih hfind hrest]

theorem handles_remove (t : Table α) (k : Nat) :
    (t.remove k).handles = t.handles.filter (· != k) := by
  unfold handles remove
  rw [List.filter_map]
  rfl

theorem find?_remove (t : Table α) (k h : Nat) :
    (t.remove k).find? h = if h = k then none else t.find? h := by
  obtain ⟨entries, next⟩ := t
  induction entries with
  | nil => simp [find?, remove]
  | cons e rest ih =>
    unfold remove at ih ⊢
    rw [List.filter_cons, find?_cons]
    by_cases hk : e.1 = k
    · rw [if_neg (by simpa using hk), ih]
      by_cases heq : h = k
      · simp [heq]
      · simp [heq, hk, Ne.symm heq]
    · rw [if_pos (by simpa using hk), find?_cons, ih]
      by_cases heq : e.1 = h
      · have hne : ¬h = k := fun h' => hk (heq.trans h')
        simp [heq, hne]
      · simp [heq]

/-- What was put under a handle goes with it. -/
theorem remove_update (t : Table α) (h : Nat) (a : α) : (t.update h a).remove h = t.remove h := by
  obtain ⟨entries, next⟩ := t
  unfold update remove
  congr 1
  induction entries with
  | nil => rfl
  | cons e rest ih =>
    rw [List.map_cons, List.filter_cons, List.filter_cons, ih]
    by_cases heq : e.1 = h <;> simp [heq]

/-- Ending a handle that is not live changes nothing. -/
theorem remove_eq_self (hfind : t.find? h = none) : t.remove h = t := by
  have hmem := find?_eq_none_iff.1 hfind
  obtain ⟨entries, next⟩ := t
  unfold remove
  congr 1
  refine List.filter_eq_self.2 fun e he => ?_
  have hne : e.1 ≠ h := fun h' => hmem (h' ▸ List.mem_map_of_mem he)
  simpa using hne

/-- A handle that is issued and ended leaves only its number used up. -/
theorem remove_issue (ht : t.Ordered) (a : α) :
    (t.issue a).2.remove t.next = { t with next := t.next + 1 } := by
  have hkept : ∀ e ∈ t.entries, e.1 ≠ t.next :=
    fun e he heq => ht.next_not_mem (heq ▸ List.mem_map_of_mem he)
  unfold issue remove
  congr 1
  rw [List.filter_append, List.filter_eq_self.2 fun e he => by simpa using hkept e he]
  simp

/-! ### Forgetting -/

/-- The table with only some of its handles. -/
def keeping (t : Table α) (keep : Nat → Bool) : Table α :=
  { t with entries := t.entries.filter (keep ·.1) }

variable {keep : Nat → Bool}

theorem find?_keeping (t : Table α) (keep : Nat → Bool) (h : Nat) :
    (t.keeping keep).find? h = if keep h then t.find? h else none := by
  obtain ⟨entries, next⟩ := t
  induction entries with
  | nil => simp [find?, keeping]
  | cons e rest ih =>
    unfold keeping at ih ⊢
    rw [List.filter_cons, find?_cons]
    by_cases heq : e.1 = h
    · subst heq
      split
      · rw [find?_cons, if_pos rfl, if_pos rfl]
      · rename_i hforgotten
        rw [ih, if_neg hforgotten]
    · rw [if_neg heq]
      split
      · rw [find?_cons, if_neg heq, ih]
      · exact ih

theorem Ordered.keeping (ht : t.Ordered) (keep : Nat → Bool) : (t.keeping keep).Ordered := by
  have hsub : (t.keeping keep).handles.Sublist t.handles := List.filter_sublist.map _
  exact ⟨ht.ascending.sublist hsub, fun h hmem => ht.below h (hsub.subset hmem)⟩

/-- What a call does to the handles. -/
inductive Turn where
  | nothing
  | issues (handle : Nat)
  | ends (handle : Nat)
  deriving DecidableEq, Repr

/-- The handles before and behind a turn. -/
inductive Turned (t u : Table α) : Turn → Prop where
  | nothing (handles : u.handles = t.handles) (next : u.next = t.next) : Turned t u .nothing
  | issues (handles : u.handles = t.handles ++ [t.next]) (next : u.next = t.next + 1) :
      Turned t u (.issues t.next)
  | ends {h : Nat} (handles : u.handles = t.handles.filter (· != h)) (next : u.next = t.next) :
      Turned t u (.ends h)

theorem turned_issue (t : Table α) (a : α) : t.Turned (t.issue a).2 (.issues t.next) :=
  .issues (handles_issue t a) rfl

theorem turned_update (t : Table α) (h : Nat) (a : α) : t.Turned (t.update h a) .nothing :=
  .nothing (handles_update t h a) rfl

theorem turned_remove (t : Table α) (h : Nat) : t.Turned (t.remove h) (.ends h) :=
  .ends (handles_remove t h) rfl

/-- The handles that were issued in turns. -/
def issued (turns : List Turn) : List Nat :=
  turns.filterMap fun
    | .issues h => some h
    | _ => none

/-- The handle was issued and has not been ended since. -/
def LiveSince (turns : List Turn) (h : Nat) : Prop :=
  ∃ before later, turns = before ++ .issues h :: later ∧ .ends h ∉ later

variable {turns : List Turn} {turn : Turn}

theorem issued_concat (turns : List Turn) (turn : Turn) :
    issued (turns ++ [turn]) = issued turns ++ issued [turn] := List.filterMap_append

theorem liveSince_concat (turns : List Turn) (turn : Turn) (h : Nat) :
    LiveSince (turns ++ [turn]) h ↔ turn = .issues h ∨ turn ≠ .ends h ∧ LiveSince turns h := by
  constructor
  · rintro ⟨before, later, hsplit, hlater⟩
    rcases List.eq_nil_or_concat later with rfl | ⟨front, last, rfl⟩
    · exact .inl (by simpa using (List.append_inj' hsplit rfl).2)
    · rw [List.concat_eq_append] at hsplit hlater
      rw [← List.cons_append, ← List.append_assoc] at hsplit
      obtain ⟨hfront, hlast⟩ := List.append_inj' hsplit rfl
      obtain rfl : turn = last := by simpa using hlast
      rw [List.mem_append, List.mem_singleton, not_or] at hlater
      exact .inr ⟨fun heq => hlater.2 heq.symm, before, front, hfront, hlater.1⟩
  · rintro (rfl | ⟨hne, before, later, rfl, hlater⟩)
    · exact ⟨turns, [], rfl, List.not_mem_nil⟩
    · refine ⟨before, later ++ [turn], by simp, ?_⟩
      rw [List.mem_append, List.mem_singleton, not_or]
      exact ⟨hlater, Ne.symm hne⟩

theorem mem_issued_of_liveSince (hlive : LiveSince turns h) : h ∈ issued turns := by
  obtain ⟨before, later, rfl, -⟩ := hlive
  simp [issued]

/-- What a history of turns says of a table: which handles were issued, in which order, and
which are live. `standing` were live before it, and `first` was the first to be issued. -/
structure Tracks (t : Table α) (standing : List Nat) (first : Nat) (turns : List Turn) : Prop where
  ordered : t.Ordered
  first_le : first ≤ t.next
  ascending : (issued turns).Pairwise (· < ·)
  mem_issued_iff : ∀ h, h ∈ issued turns ↔ first ≤ h ∧ h < t.next
  live_iff : ∀ h, h ∈ t.handles ↔ h ∈ standing ∧ .ends h ∉ turns ∨ LiveSince turns h

theorem Tracks.start (ht : t.Ordered) : t.Tracks t.handles t.next [] where
  ordered := ht
  first_le := Nat.le_refl _
  ascending := .nil
  mem_issued_iff h := by
    simp [issued]
  live_iff h := by simp [LiveSince]

namespace Turned

theorem next_le (hturn : t.Turned u turn) : t.next ≤ u.next := by
  cases hturn with
  | nothing _ next | ends _ next => exact Nat.le_of_eq next.symm
  | issues _ next => omega

/-- No turn before a turn is none. -/
theorem nothing_trans {v : Table α} (hnothing : t.Turned u .nothing) (hturn : u.Turned v .nothing) :
    t.Turned v .nothing := by
  cases hnothing with
  | nothing handles next =>
    cases hturn with
    | nothing handles' next' => exact .nothing (handles'.trans handles) (next'.trans next)

theorem ordered (ht : t.Ordered) (hturn : t.Turned u turn) : u.Ordered := by
  cases hturn with
  | nothing handles next =>
    refine ⟨handles ▸ ht.ascending, fun h hmem => ?_⟩
    rw [next]
    exact ht.below h (handles ▸ hmem)
  | issues handles next =>
    constructor
    · rw [handles, List.pairwise_append]
      exact ⟨ht.ascending, List.pairwise_singleton _ _, by simpa using ht.below⟩
    · intro h hmem
      rw [handles, List.mem_append, List.mem_singleton] at hmem
      rw [next]
      rcases hmem with hmem | rfl
      · exact Nat.lt_succ_of_lt (ht.below h hmem)
      · exact Nat.lt_succ_self _
  | ends handles next =>
    refine ⟨handles ▸ ht.ascending.filter _, fun h hmem => ?_⟩
    rw [next]
    exact ht.below h (List.mem_filter.1 (handles ▸ hmem)).1

end Turned

/-- A turn goes on with the history. -/
theorem Tracks.concat {standing : List Nat} {first : Nat} (ht : t.Tracks standing first turns)
    (hturn : t.Turned u turn) : u.Tracks standing first (turns ++ [turn]) := by
  refine ⟨hturn.ordered ht.ordered, Nat.le_trans ht.first_le hturn.next_le, ?_, fun h => ?_,
    fun h => ?_⟩
  · rw [issued_concat]
    cases hturn with
    | nothing | ends => simpa [issued] using ht.ascending
    | issues handles next =>
      refine List.pairwise_append.2 ⟨ht.ascending, List.pairwise_singleton _ _, ?_⟩
      intro a ha b hb
      have hb : b = t.next := by simpa [issued] using hb
      exact hb ▸ ((ht.mem_issued_iff a).1 ha).2
  · rw [issued_concat, List.mem_append, ht.mem_issued_iff]
    cases hturn with
    | nothing _ next | ends _ next => simp [issued, next]
    | issues handles next =>
      have hfirst := ht.first_le
      have hlast : h ∈ issued [.issues t.next] ↔ h = t.next := by simp [issued]
      rw [hlast, next]
      omega
  · rw [liveSince_concat]
    cases hturn with
    | nothing handles => simp [handles, ht.live_iff]
    | issues handles =>
      have hadded : h ∈ standing ∧ .ends h ∉ turns ++ [.issues t.next] ↔
          h ∈ standing ∧ .ends h ∉ turns := by simp
      rw [handles, List.mem_append, ht.live_iff, hadded, List.mem_singleton]
      simp only [Turn.issues.injEq, ne_eq, reduceCtorEq, not_false_eq_true, true_and]
      grind
    | @ends k handles =>
      rw [handles, List.mem_filter, ht.live_iff]
      by_cases heq : h = k
      · simp [heq]
      · simp [heq, Ne.symm heq]

end Table
end Host
end CheckedFormat
