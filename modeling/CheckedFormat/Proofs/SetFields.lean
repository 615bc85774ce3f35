import CheckedFormat.Proofs.LongestField
import CheckedFormat.Proofs.ScanGrammar
import CheckedFormat.Proofs.StoredFields
/-! Fields of listed bytes.

A set lists single bytes and ranges. Where a closing bracket is listed alone it comes
first, and a dash alone comes first or last, the text of the list between its brackets is
read as the set of exactly the bytes that are listed, or behind a caret of all others
(`SetListing.take_text`, `SetListing.contains_set`). A directive with the set takes the
longest run of such bytes, stores it as a string and leaves the next byte unread
(`Scan.sets_mean_what_they_list`). -/
namespace CheckedFormat

/-! ### Lists of bytes and ranges -/

/-- A byte, or the bytes from one to another. -/
inductive SetItem where
  | single (b : Byte)
  | range (low high : Byte)
  deriving DecidableEq, Repr

namespace SetItem

def text : SetItem → List Byte
  | single b => [b]
  | range low high => [low, 45, high]

/-- The byte that the text starts with. -/
def first : SetItem → Byte
  | single b => b
  | range low _ => low

def Covers (b : Byte) : SetItem → Prop
  | single c => b = c
  | range low high => low ≤ b ∧ b ≤ high

/-- The range that the item is read as. -/
def bytes : SetItem → ByteRange
  | single b => .single b
  | range low high => ⟨low, high⟩

theorem contains_bytes (item : SetItem) (b : Byte) :
    item.bytes.contains b = true ↔ item.Covers b := by
  have hrange (low high : Byte) :
      ByteRange.contains ⟨low, high⟩ b = true ↔ low ≤ b ∧ b ≤ high := by
    rw [ByteRange.contains, Bool.and_eq_true, decide_eq_true_iff, decide_eq_true_iff]
  cases item with
  | single c =>
    refine (hrange c c).trans ⟨fun h => UInt8.le_antisymm h.2 h.1, ?_⟩
    rintro rfl
    exact ⟨UInt8.le_refl b, UInt8.le_refl b⟩
  | range low high => exact hrange low high

/-- The text goes on from its first byte. -/
theorem exists_text_append (item : SetItem) (rest : List Byte) :
    ∃ later, item.text ++ rest = item.first :: later := by
  cases item <;> exact ⟨_, rfl⟩

/-- A range goes up, and no closing bracket is at one of its ends. -/
def GoesUp : SetItem → Prop
  | single _ => True
  | range low high => low ≤ high ∧ low ≠ 93 ∧ high ≠ 93

instance : DecidablePred GoesUp
  | single _ => isTrue trivial
  | range low high => inferInstanceAs (Decidable (low ≤ high ∧ low ≠ 93 ∧ high ≠ 93))

/-- The items can be told apart where they stand one behind the other: behind the first
one a dash starts none but itself, and only at the end. -/
structure Apart (items : List SetItem) : Prop where
  ranges : ∀ item ∈ items, item.GoesUp
  dash : ∀ item ∈ items.tail, item.first = 45 → item = .single 45
  last : ∀ item ∈ items.tail.dropLast, item.first ≠ 45

instance (items : List SetItem) : Decidable (Apart items) :=
  decidable_of_iff ((∀ item ∈ items, item.GoesUp) ∧
      (∀ item ∈ items.tail, item.first = 45 → item = .single 45) ∧
      ∀ item ∈ items.tail.dropLast, item.first ≠ 45)
    ⟨fun ⟨hranges, hdash, hlast⟩ => ⟨hranges, hdash, hlast⟩,
      fun h => ⟨h.ranges, h.dash, h.last⟩⟩

theorem Apart.tail {item : SetItem} {items : List SetItem} (h : Apart (item :: items)) :
    Apart items where
  ranges next hnext := h.ranges next (List.mem_cons_of_mem item hnext)
  dash next hnext := h.dash next (List.mem_of_mem_tail hnext)
  last next hnext := by
    refine h.last next ?_
    rw [← List.tail_dropLast] at hnext
    exact List.mem_of_mem_tail hnext

/-- What goes on with a dash ends with it. -/
theorem Apart.of_dash {item next : SetItem} {more : List SetItem}
    (h : Apart (item :: next :: more)) (hnext : next.first = 45) :
    next = .single 45 ∧ more = [] := by
  refine ⟨h.dash next List.mem_cons_self hnext, ?_⟩
  cases more with
  | nil => rfl
  | cons other more => exact absurd hnext (h.last next List.mem_cons_self)

end SetItem

/-- The list of a set as it can be written between brackets: a closing bracket alone comes
first, and without a caret in front the list starts with none. -/
structure SetListing where
  /-- Whether the set has all bytes but the listed ones. -/
  negated : Bool
  items : List SetItem
  nonempty : items ≠ []
  apart : SetItem.Apart items
  bracket : .single 93 ∉ items.tail
  caret : negated = false → items.head?.map SetItem.first ≠ some 94

namespace SetListing

/-- The text behind the opening bracket. -/
def text (l : SetListing) : List Byte :=
  (if l.negated then [94] else []) ++ (l.items.flatMap SetItem.text ++ [93])

def Lists (l : SetListing) (b : Byte) : Prop := ∃ item ∈ l.items, item.Covers b

/-- The bytes that the set means. -/
def Means (l : SetListing) (b : Byte) : Prop := if l.negated then ¬ l.Lists b else l.Lists b

/-- The set that the text is read as. -/
def set (l : SetListing) : ByteSet := ⟨l.negated, l.items.map SetItem.bytes⟩

/-! ### Reading a list -/

theorem contains_set (l : SetListing) (b : Byte) : l.set.contains b = true ↔ l.Means b := by
  have hlists : l.set.ranges.any (·.contains b) = true ↔ l.Lists b := by
    simp [set, Lists, SetItem.contains_bytes]
  unfold ByteSet.contains Means
  rw [← hlists]
  show (_ != l.negated) = true ↔ _
  cases l.negated <;> simp

theorem takeRanges_items {items : List SetItem} (hapart : SetItem.Apart items)
    (hbracket : .single 93 ∉ items) (rest : List Byte) :
    ByteSet.takeRanges (items.flatMap SetItem.text ++ 93 :: rest) =
      some (items.map SetItem.bytes, rest) := by
  induction items with
  | nil => exact ByteSet.takeRanges_close rest
  | cons item items ih =>
    obtain ⟨hitem, hitems⟩ := not_or.1 (mt List.mem_cons.2 hbracket)
    have htail := ih hapart.tail hitems
    rw [List.flatMap_cons, List.append_assoc]
    cases item with
    | range low high =>
      obtain ⟨hle, hlow, hhigh⟩ := hapart.ranges _ List.mem_cons_self
      simp only [SetItem.text, List.cons_append, List.nil_append]
      rw [ByteSet.takeRanges_range _ hlow ⟨hhigh, hle⟩, htail]
      rfl
    | single b =>
      have hstarts : ByteSet.StartsNoRange b (items.flatMap SetItem.text ++ 93 :: rest) := by
        rintro high later htext ⟨hhigh, -⟩
        cases items with
        | nil => cases htext
        | cons next more =>
          -- The dash starts the next item, so it is a dash alone, and the list ends behind it.
          rw [List.flatMap_cons, List.append_assoc] at htext
          obtain ⟨_, hfirst⟩ := next.exists_text_append (more.flatMap SetItem.text ++ 93 :: rest)
          rw [hfirst] at htext
          obtain ⟨rfl, rfl⟩ := hapart.of_dash (List.cons.inj htext).1
          cases hfirst
          exact hhigh (List.cons.inj (List.cons.inj htext).2).1.symm
      simp only [SetItem.text, List.cons_append, List.nil_append]
      rw [ByteSet.takeRanges_single (fun hb => hitem (hb ▸ rfl)) hstarts, htail]
      rfl

/-- The text is read as the set, whatever stands behind it. -/
theorem take_text (l : SetListing) (rest : List Byte) :
    ByteSet.take (l.text ++ rest) = some (l.set, rest) := by
  obtain ⟨negated, items, hnonempty, hapart, hbracket, hcaret⟩ := l
  obtain ⟨item, items, rfl⟩ := List.exists_cons_of_ne_nil hnonempty
  have htext : text ⟨negated, item :: items, hnonempty, hapart, hbracket, hcaret⟩ ++ rest =
      (if negated then [94] else []) ++
        (item.text ++ (items.flatMap SetItem.text ++ 93 :: rest)) := by
    simp [text]
  obtain ⟨later, hfirst⟩ := item.exists_text_append (items.flatMap SetItem.text ++ 93 :: rest)
  have htaken : ByteSet.takeCaret ((if negated then [94] else []) ++
      (item.text ++ (items.flatMap SetItem.text ++ 93 :: rest))) =
        (negated, item.text ++ (items.flatMap SetItem.text ++ 93 :: rest)) := by
    refine ByteSet.takeCaret_eq fun hplain later' heq => ?_
    rw [hfirst] at heq
    exact hcaret hplain (congrArg some (List.cons.inj heq).1)
  unfold ByteSet.take
  simp only [htext, htaken]
  by_cases hitem : item = .single 93
  · subst hitem
    simp only [SetItem.text, List.cons_append, List.nil_append, ByteSet.takeBracket,
      takeRanges_items hapart.tail hbracket, Option.map_some]
    rfl
  · have hnone : .single 93 ∉ item :: items := by
      rw [List.mem_cons, not_or]
      exact ⟨fun heq => hitem heq.symm, hbracket⟩
    have hnot : item.first ≠ 93 := by
      cases item with
      | single b => exact fun hb => hitem (congrArg _ hb)
      | range low high => exact (hapart.ranges _ List.mem_cons_self).2.1
    rw [ByteSet.takeBracket_eq fun later' heq => hnot (List.cons.inj (hfirst.symm.trans heq)).1,
      ← List.append_assoc, ← List.flatMap_cons, takeRanges_items hapart hnone]
    rfl

/-- All bytes but a closing bracket, some letters and a dash. -/
example : ByteSet.take (ascii "^]a-f-]d") = some (SetListing.set ⟨true,
    [.single 93, .range 97 102, .single 45], by decide, by decide, by decide, by decide⟩,
    ascii "d") := by
  decide +kernel

end SetListing

/-! ### Runs -/

/-- The run at the front of a text is the longest front of its class. -/
theorem isLongest_takeWhile (p : Byte → Bool) (text : List Byte) :
    IsLongest (fun run => ∀ b ∈ run, p b = true) text (text.takeWhile p) where
  isFront := List.takeWhile_prefix p
  belongs := of_mem_takeWhile p text
  longest := by
    rintro other ⟨rest, rfl⟩ hall
    rw [List.takeWhile_append_of_pos hall, List.length_append]
    exact Nat.le_add_right _ _

/-- The longest run within the width is taken, and everything behind it is unread. -/
theorem Reader.At.takeWhile_of_isLongest {S : Type} [ByteSource S] {V : SourceView S}
    {keep : Byte → Bool} {width : Option Nat} {r : Reader S} {behind ahead run : List Byte}
    (h : r.At V behind ahead)
    (hlongest : IsLongest (fun run => ∀ b ∈ run, keep b = true) (within width ahead) run) :
    (r.takeWhile keep width).1.bytes = run ∧
      (r.takeWhile keep width).2.At V (run.reverse ++ behind) (ahead.drop run.length) := by
  obtain ⟨hresult, hplace⟩ := takeWhile_computes keep width h
  have hrun : TextReading.run keep width ahead = run :=
    (isLongest_takeWhile keep (within width ahead)).unique hlongest
  simp only [TextReading.takeWhile, hrun, hlongest.take_length] at hplace
  exact ⟨(congrArg Run.bytes hresult).trans hrun, hplace⟩

namespace Scan
variable {S M : Type} [ByteSource S] {V : SourceView S}

/-- The directive takes the longest run of some bytes, as many as the width lets in, and
ends as it does with it. Where the input ends, or goes on with another byte, it stops and
has consumed nothing. Reading leaves the frame as it is. -/
structure TakesRun (V : SourceView S) (Member : Byte → Prop) (width : Option Nat)
    (directive : Step S M Progress) (Ends : Ending S M (List Byte)) : Prop where
  atEnd : ∀ {s : State S M} {behind : List Byte}, s.reader.At V behind [] →
    ∃ t, directive s = .ok (.stopped .inputFailure) t ∧ t.frame = s.frame ∧
      t.reader.At V behind []
  mismatch : ∀ {s : State S M} {behind ahead : List Byte} {b : Byte},
    s.reader.At V behind (b :: ahead) → ¬ Member b →
    ∃ t, directive s = .ok (.stopped .matchingFailure) t ∧ t.frame = s.frame ∧
      t.reader.At V behind (b :: ahead)
  taken : ∀ {s : State S M} {behind ahead run : List Byte}, s.reader.At V behind ahead →
    IsLongest (fun run => ∀ b ∈ run, Member b) (within width ahead) run → run ≠ [] →
    ∃ t, Ends run t (directive s) ∧ t.frame = s.frame ∧
      t.reader.At V (run.reverse ++ behind) (ahead.drop run.length)

variable [Memory M]

theorem convertSet_apply (spec : ScanSpec) (members : ByteSet) (s : State S M) :
    convertSet spec members s =
      let run := (s.reader.takeWhile members.contains spec.width).1
      let t := afterReading (Reader.takeWhile members.contains spec.width) s
      if run.bytes.isEmpty then
        .ok (.stopped (if run.atEnd then .inputFailure else .matchingFailure)) t
      else storeText spec.suppress true run.bytes t := by
  unfold convertSet
  rw [bind_reading]
  dsimp only
  split <;> rfl

/-- A directive with a set takes the longest run of its members, and stores it as a string. -/
theorem takesRun_of_set (spec : ScanSpec) {Member : Byte → Prop} {members : ByteSet}
    (hmember : ∀ b, members.contains b = true ↔ Member b) (hwidth : spec.width ≠ some 0) :
    TakesRun (M := M) V Member spec.width (convertSet spec members)
      fun run => Deposits spec.suppress [run, [0]] := by
  refine ⟨fun {s behind} h => ?_, fun {s behind ahead b} h hb => ?_,
    fun {s behind ahead run} h hlongest hsome => ?_⟩
  · obtain ⟨hresult, hplace⟩ := Reader.takeWhile_computes members.contains spec.width h
    simp only [TextReading.takeWhile, TextReading.run_nil] at hresult hplace
    refine ⟨_, (convertSet_apply spec members s).trans ?_, frame_afterReading hplace, hplace⟩
    simp [hresult, hwidth]
  · obtain ⟨hresult, hplace⟩ := Reader.takeWhile_computes members.contains spec.width h
    have hrun : TextReading.run members.contains spec.width (b :: ahead) = [] := by
      rw [TextReading.run_cons _ _ _ hwidth, if_neg (by rwa [hmember])]
    simp only [TextReading.takeWhile, hrun] at hresult hplace
    refine ⟨_, (convertSet_apply spec members s).trans ?_, frame_afterReading hplace, hplace⟩
    simp [hresult]
  · have hkept := hlongest.congr fun run => forall₂_congr fun b _ => (hmember b).symm
    obtain ⟨hresult, hplace⟩ := h.takeWhile_of_isLongest hkept
    refine ⟨_, ?_, frame_afterReading hplace, hplace⟩
    rw [convertSet_apply]
    simp only [hresult, List.isEmpty_iff, if_neg hsome]
    exact storeText_deposits spec.suppress true run _

/-- A text that lists bytes and ranges is read as the set of exactly these bytes, or of all
others behind a caret, whatever stands behind its closing bracket; and a directive with it
takes the longest run of the bytes that it means, and stores it where the next argument
points, with a zero byte behind it, or nothing where it is suppressed. -/
theorem sets_mean_what_they_list (l : SetListing) :
    (∀ rest, ByteSet.take (l.text ++ rest) = some (l.set, rest)) ∧
    (∀ b, l.set.contains b = true ↔ l.Means b) ∧
    ∀ o : ScanOpening, o.length = .plain →
      let spec : ScanSpec := ⟨o.suppress, o.width, .plain, .set l.set⟩
      (∀ rest, ScanSegment.parse (o.text ++ ScanSegment.setOpener :: (l.text ++ rest)) =
        .ok (.directive spec, rest)) ∧
      TakesRun (M := M) V l.Means o.width (matchSegment (.directive spec))
        fun run => Deposits o.suppress [run, [0]] := by
  refine ⟨l.take_text, l.contains_set, fun o hplain => ⟨fun rest => ?_, ?_⟩⟩
  · rw [ScanGrammar.parse_of_ends (by decide) (by decide),
      ScanSegment.conclude_set _ _ _ (l.take_text rest), if_pos hplain, hplain]
  · have hwidth : o.width ≠ some 0 := by
      intro hzero
      simpa using (Option.filter_eq_some_iff.1 hzero).2
    exact takesRun_of_set ⟨o.suppress, o.width, .plain, .set l.set⟩ l.contains_set hwidth

end Scan
end CheckedFormat
