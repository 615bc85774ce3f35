import CheckedFormat.Proofs.ArenaAccess
import CheckedFormat.Proofs.Steps
/-! What directives find, apart from what they store.

A directive reads before it takes an address, and what it takes or stores decides
nothing about what it found (`Looks`). So what a segment did that went through, it does
again wherever the reader stands there: in a scan with other arguments and other
contents of the memory when it is offered the same slot, and suppressed with no slot at
all (`matched`). The stores themselves succeed or fail by their addresses alone in a
memory that is `Memory.Steady`, as an arena is. -/
namespace CheckedFormat

/-! ### Memories -/

namespace Memory
variable {M : Type} [Memory M]

/-- The same stores succeed. -/
def SameReach (m m' : M) : Prop :=
  ∀ address bytes, (writeBytes m address bytes).isOk = (writeBytes m' address bytes).isOk

theorem SameReach.refl (m : M) : SameReach m m := fun _ _ => rfl

theorem SameReach.symm {m m' : M} (h : SameReach m m') : SameReach m' m :=
  fun address bytes => (h address bytes).symm

theorem SameReach.trans {m₁ m₂ m₃ : M} (h : SameReach m₁ m₂) (h' : SameReach m₂ m₃) :
    SameReach m₁ m₃ :=
  fun address bytes => (h address bytes).trans (h' address bytes)

/-- A memory in which whether a store succeeds does not depend on what was stored. -/
class Steady (M : Type) [Memory M] : Prop where
  sameReach {m m' : M} {address : Nat} {bytes : List Byte} :
    writeBytes m address bytes = .ok m' → SameReach m m'

/-- A change that succeeds or fails with the stores that succeed, and changes none of
those. -/
def Stable (f : M → Except MemoryError M) : Prop :=
  ∀ m left, f m = .ok left →
    SameReach m left ∧ ∀ m', SameReach m m' → ∃ left', f m' = .ok left'

variable [Steady M]

theorem writeBytes_stable (address : Nat) (bytes : List Byte) :
    Stable fun m : M => writeBytes m address bytes := by
  intro m left (h : writeBytes m address bytes = .ok left)
  refine ⟨Steady.sameReach h, fun m' hreach => ?_⟩
  have hok := hreach address bytes
  rw [h] at hok
  cases hwrite : writeBytes m' address bytes with
  | ok left' => exact ⟨left', hwrite⟩
  | error e =>
    rw [hwrite] at hok
    cases hok

theorem writeInteger_stable (address : Nat) (value : Word) (size : Nat) :
    Stable fun m : M => writeInteger m address value size := by
  by_cases hsize : integerSizes.contains size = true
  · simpa only [writeInteger, if_pos hsize] using writeBytes_stable address _
  · intro m left h
    simp only [writeInteger, if_neg hsize, reduceCtorEq] at h

theorem writeFloat_stable (address : Nat) (value : Word) (size : Nat) :
    Stable fun m : M => writeFloat m address value size := by
  by_cases hsingle : size = 4
  · simpa only [writeFloat, if_pos hsingle] using writeBytes_stable address _
  by_cases hdouble : size = 8
  · simpa only [writeFloat, if_neg hsingle, if_pos hdouble] using writeBytes_stable address _
  · intro m left h
    simp only [writeFloat, if_neg hsingle, if_neg hdouble, reduceCtorEq] at h

end Memory

instance : Memory.Steady Arena where
  sameReach {a b _ _} h := by
    obtain ⟨-, hbase, hsize, -⟩ := Arena.writeBytes_spec h
    intro address bytes
    have hlocate : a.locate address bytes.length = b.locate address bytes.length := by
      simp only [Arena.locate, hbase, hsize]
    show (Arena.writeBytes a address bytes).isOk = (Arena.writeBytes b address bytes).isOk
    rw [Arena.writeBytes, Arena.writeBytes, hlocate]
    cases b.locate address bytes.length <;> rfl

/-! ### Arguments -/

namespace ArgumentList

/-- The slots from the cursor on. -/
def left (l : ArgumentList) : List Slot := l.slots.drop l.cursor

/-- The list with other slots from the cursor on. -/
def withLeft (l : ArgumentList) (slots : List Slot) : ArgumentList :=
  { l with slots := l.slots.take l.cursor ++ slots }

/-- The slots that were read on the way to a later list. -/
def upTo (l later : ArgumentList) : List Slot := l.left.take (later.cursor - l.cursor)

theorem nextSlot?_eq_head? (l : ArgumentList) : l.nextSlot? = l.left.head? := by
  rw [left, List.head?_drop]
  rfl

@[simp] theorem left_advance (l : ArgumentList) : l.advance.left = l.left.tail := by
  rw [left, left, List.tail_drop]
  rfl

theorem left_withLeft {l : ArgumentList} {slots : List Slot} (h : l.left = [] → slots = []) :
    (l.withLeft slots).left = slots := by
  by_cases hcursor : l.cursor ≤ l.slots.length
  · simp [left, withLeft, Nat.min_eq_left hcursor]
  · have hleft : l.left = [] := List.drop_eq_nil_of_le (by omega)
    simp only [left, withLeft, h hleft, List.append_nil, List.drop_take, Nat.sub_self, List.take_zero]

theorem upTo_self (l : ArgumentList) : l.upTo l = [] := by
  rw [upTo, Nat.sub_self, List.take_zero]

theorem upTo_advance (l : ArgumentList) : l.upTo l.advance = l.left.take 1 := by
  rw [upTo, advance, Nat.add_sub_cancel_left]

/-- Where a list goes on with the slot that another reads next, both read that slot. -/
theorem reads_same {l l' : ArgumentList} {slots : List Slot}
    (h : l'.left = l.upTo l.advance ++ slots) (hnone : l.left = [] → slots = []) :
    l'.nextSlot? = l.nextSlot? ∧ l'.advance.left = slots := by
  rw [nextSlot?_eq_head?, nextSlot?_eq_head?, left_advance, h, upTo_advance]
  cases hleft : l.left with
  | nil => simp [hnone hleft]
  | cons slot rest => simp

/-- What a read gives depends on the next slot and on nothing else of the slots. -/
theorem next_of_nextSlot? {l l' : ArgumentList} {type : ArgumentType} {bits : Word}
    {later : ArgumentList} (hslot : l'.nextSlot? = l.nextSlot?) (hlevel : l'.level = l.level)
    (hended : l'.ended = l.ended) (h : l.next type = .ok (bits, later)) :
    l'.next type = .ok (bits, l'.advance) := by
  have hinspect : l'.inspect type = l.inspect type := by
    unfold inspect refusesUse
    rw [hslot, hlevel, hended]
  have hbits : l'.nextBits = l.nextBits := by rw [nextBits, nextBits, hslot]
  rw [next, violation?] at h ⊢
  rw [hinspect, hlevel, hbits]
  cases hfound : l.inspect type with
  | matching slot => simp_all
  | ended | missing | mismatched slot => cases hreports : l.level.reportsFaults <;> simp_all

end ArgumentList

/-! ### What a directive finds -/

namespace ScanSegment

/-- The segment with its directive suppressed, or not. -/
def starred (suppress : Bool) : ScanSegment → ScanSegment
  | directive spec => directive { spec with suppress }
  | segment => segment

theorem starred_self (segment : ScanSegment) : ∃ suppress, segment.starred suppress = segment := by
  cases segment with
  | directive spec => exact ⟨spec.suppress, rfl⟩
  | _ => exact ⟨false, rfl⟩

/-- The directive counts bytes. -/
def isCount : ScanSegment → Bool
  | directive spec => spec.conversion == .letter .n
  | _ => false

end ScanSegment

namespace Scan
variable {S M : Type}

/-- Two states of scans that read the same: the readers are the same, the arguments are
as strict, and the same stores succeed. -/
structure Shadows (s s' : State S M) [Memory M] : Prop where
  reader : s'.reader = s.reader
  level : s'.frame.arguments.level = s.frame.arguments.level
  ended : s'.frame.arguments.ended = s.frame.arguments.ended
  reach : Memory.SameReach s.frame.memory s'.frame.memory

/-- Taking an address fails, or moves to the next slot, by that slot alone. -/
theorem fetchAddress_of_nextSlot? {s s' t : State S M} {address : Nat}
    (hslot : s'.frame.arguments.nextSlot? = s.frame.arguments.nextSlot?)
    (hlevel : s'.frame.arguments.level = s.frame.arguments.level)
    (hended : s'.frame.arguments.ended = s.frame.arguments.ended)
    (h : fetchAddress s = .ok address t) :
    ∃ t', fetchAddress s' = .ok address t' ∧ t'.frame.arguments = s'.frame.arguments.advance ∧
      t'.frame.memory = s'.frame.memory ∧ t'.reader = s'.reader := by
  unfold fetchAddress Frame.fetch at h ⊢
  cases hnext : s.frame.arguments.next .pointer with
  | error e => simp [hnext] at h
  | ok result =>
    rw [ArgumentList.next_of_nextSlot? hslot hlevel hended hnext]
    simp only [hnext, EStateM.Result.ok.injEq] at h
    obtain ⟨rfl, rfl⟩ := h
    exact ⟨_, rfl, rfl, rfl, rfl⟩

/-- A store that goes through changes the memory alone. -/
theorem ok_of_storing {f : M → Except MemoryError M} {s t : State S M}
    (h : storing f s = .ok () t) :
    f s.frame.memory = .ok t.frame.memory ∧ t.reader = s.reader ∧
      t.frame.arguments = s.frame.arguments := by
  unfold storing at h
  cases hf : f s.frame.memory with
  | error e => simp [hf] at h
  | ok memory =>
    simp only [hf, EStateM.Result.ok.injEq, true_and] at h
    exact h ▸ ⟨rfl, rfl, rfl⟩

variable [Memory M]

/-- A way to store what was found: it gives one result, leaves reader and arguments
alone, and goes through wherever the reader is the same and the same stores succeed. -/
structure Keeps (store : Step S M Progress) (progress : Progress) : Prop where
  result {s t : State S M} {p : Progress} : store s = .ok p t →
    p = progress ∧ t.reader = s.reader ∧ t.frame.arguments = s.frame.arguments ∧
      Memory.SameReach s.frame.memory t.frame.memory
  again {s s' t : State S M} {p : Progress} : store s = .ok p t → s'.reader = s.reader →
    Memory.SameReach s.frame.memory s'.frame.memory → ∃ t', store s' = .ok p t'

namespace Keeps

theorem pure (progress : Progress) : Keeps (S := S) (M := M) (Pure.pure progress) progress where
  result h := by
    cases h
    exact ⟨rfl, rfl, rfl, .refl _⟩
  again h _ _ := by
    cases h
    exact ⟨_, rfl⟩

theorem storing {f : M → Except MemoryError M} {store : Step S M Progress} {progress : Progress}
    (hf : Memory.Stable f) (hstore : Keeps store progress) :
    Keeps (Scan.storing f >>= fun _ => store) progress where
  result {s t p} h := by
    obtain ⟨_, u, hfirst, hrest⟩ := ok_of_bind h
    obtain ⟨hmemory, hreader, harguments⟩ := ok_of_storing hfirst
    obtain ⟨hp, hr, ha, hm⟩ := hstore.result hrest
    exact ⟨hp, hr.trans hreader, ha.trans harguments, (hf _ _ hmemory).1.trans hm⟩
  again {s s' t p} h hreader hreach := by
    obtain ⟨_, u, hfirst, hrest⟩ := ok_of_bind h
    obtain ⟨hmemory, hsame, -⟩ := ok_of_storing hfirst
    obtain ⟨hstill, hagain⟩ := hf _ _ hmemory
    obtain ⟨memory', hmemory'⟩ := hagain _ hreach
    have hfirst' : Scan.storing f s' =
        .ok () { s' with frame := { s'.frame with memory := memory' } } := by
      simp only [Scan.storing, hmemory']
    rw [bind_of_ok hfirst']
    have hstill' := (hf _ _ hmemory').1
    exact hstore.again hrest (hreader.trans hsame.symm)
      ((hstill.symm.trans hreach).trans hstill')

theorem consumed {store : Nat → Step S M Progress} {progress : Progress}
    (hstore : ∀ count, Keeps (store count) progress) :
    Keeps (Scan.consumed >>= store) progress where
  result {s t p} h := (hstore s.reader.consumed).result h
  again {s s' t p} h hreader hreach := by
    have h : store s.reader.consumed s = .ok p t := h
    rw [← hreader] at h
    exact (hstore s'.reader.consumed).again h hreader hreach

end Keeps

/-- How a segment can end that has nothing to store. -/
def Barren (progress : Progress) : Prop :=
  progress = .skipped ∨ progress = .stopped .matchingFailure ∨ progress = .stopped .inputFailure

/-- What a directive finds depends on the reader alone, whether it is suppressed or
not. Either nothing is to be stored, or an address is to be taken and something stored
there; a suppressed directive is done then. -/
inductive Looks (f : Bool → Step S M Progress) (r : Reader S) : Prop where
  | ends (progress : Progress) (r' : Reader S) : Barren progress →
    (∀ suppress (s : State S M), s.reader = r →
      ∃ t, f suppress s = .ok progress t ∧ t.reader = r' ∧ SameStores s t) →
    Looks f r
  | stores (store : Nat → Step S M Progress) (progress : Progress) (r' : Reader S) :
    (∀ status, progress ≠ .stopped status) → (∀ address, Keeps (store address) progress) →
    (∀ s : State S M, s.reader = r → ∃ t, f false s = (fetchAddress >>= store) t ∧
      f true s = .ok .skipped t ∧ t.reader = r' ∧ SameStores s t) →
    Looks f r

namespace Looks

theorem pure {r : Reader S} {progress : Progress} (h : Barren progress) :
    Looks (M := M) (fun _ => Pure.pure progress) r :=
  .ends progress r h fun _ s hs => ⟨s, rfl, hs, .refl s⟩

/-- Reading comes first. -/
theorem reading {α : Type} {operation : Reader S → α × Reader S}
    {f : Bool → α → Step S M Progress} {r : Reader S}
    (h : Looks (fun suppress => f suppress (operation r).1) (operation r).2) :
    Looks (fun suppress => Scan.reading operation >>= f suppress) r := by
  cases h with
  | ends progress r' hprogress hends =>
    refine .ends progress r' hprogress fun suppress s hs => ?_
    obtain ⟨t, hrest, hreader, hsame⟩ :=
      hends suppress (afterReading operation s) (by rw [← hs]; rfl)
    refine ⟨t, ?_, hreader, (sameStores_afterReading operation s).trans hsame⟩
    rw [bind_reading, hs]
    exact hrest
  | stores store progress r' hgoes hkeeps hstores =>
    refine .stores store progress r' hgoes hkeeps fun s hs => ?_
    obtain ⟨t, hplain, hmuted, hreader, hsame⟩ :=
      hstores (afterReading operation s) (by rw [← hs]; rfl)
    refine ⟨t, ?_, ?_, hreader, (sameStores_afterReading operation s).trans hsame⟩
    · rw [bind_reading, hs]
      exact hplain
    · rw [bind_reading, hs]
      exact hmuted

theorem storeText [Memory.Steady M] (terminate : Bool) (text : List Byte) (r : Reader S) :
    Looks (M := M) (fun suppress => Scan.storeText suppress terminate text) r := by
  refine .stores (fun address => do
      storing fun m => Memory.writeBytes m address text
      if terminate then storing fun m => Memory.writeBytes m (address + text.length) [0]
      return .assigned) .assigned r (fun _ h => nomatch h) (fun address => ?_)
    fun s hs => ⟨s, rfl, rfl, hs, .refl s⟩
  refine .storing (Memory.writeBytes_stable address text) ?_
  cases terminate with
  | true => exact .storing (Memory.writeBytes_stable _ _) (.pure _)
  | false => exact .pure _

theorem storeNumber {store : M → Nat → Except MemoryError M}
    (hstore : ∀ address, Memory.Stable fun m => store m address) (r : Reader S) :
    Looks (fun suppress => Scan.storeNumber suppress store) r :=
  .stores (fun address => do
      storing fun m => store m address
      return .assigned) .assigned r (fun _ h => nomatch h)
    (fun address => .storing (hstore address) (.pure _)) fun s hs => ⟨s, rfl, rfl, hs, .refl s⟩

variable [ByteSource S]

theorem afterSpace {f : Bool → Step S M Progress} {r : Reader S}
    (h : Looks f r.skipSpace.2) : Looks (fun suppress => Scan.afterSpace (f suppress)) r := by
  refine .reading ?_
  cases r.skipSpace.1 with
  | true => exact h
  | false => exact .pure (.inr (.inr rfl))

end Looks

section Directives
variable [Memory.Steady M]

theorem convertCount_looks (spec : ScanSpec) (r : Reader S) :
    Looks (M := M) (fun suppress => convertCount { spec with suppress }) r :=
  .stores (fun address => do
      let count ← consumed
      storing fun m =>
        Memory.writeInteger m address (BitVec.ofNat 64 count) spec.length.integerSize
      return .skipped) .skipped r (fun _ h => nomatch h)
    (fun _ => .consumed fun _ => .storing (Memory.writeInteger_stable _ _ _) (.pure _))
    fun s hs => ⟨s, rfl, rfl, hs, .refl s⟩

variable [ByteSource S]

theorem convertCharacters_looks (spec : ScanSpec) (r : Reader S) :
    Looks (M := M) (fun suppress => convertCharacters { spec with suppress }) r := by
  simp only [convertCharacters]
  refine .reading ?_
  split
  · exact .pure (.inr (.inr rfl))
  · exact .storeText _ _ _

theorem convertString_looks (spec : ScanSpec) (r : Reader S) :
    Looks (M := M) (fun suppress => convertString { spec with suppress }) r := by
  simp only [convertString]
  exact .afterSpace (.reading (.storeText _ _ _))

theorem convertSet_looks (spec : ScanSpec) (members : ByteSet) (r : Reader S) :
    Looks (M := M) (fun suppress => convertSet { spec with suppress } members) r := by
  simp only [convertSet]
  refine .reading ?_
  split
  · refine .pure (.inr ?_)
    split
    · exact .inr rfl
    · exact .inl rfl
  · exact .storeText _ _ _

theorem convertInteger_looks (spec : ScanSpec) (base : IntegerToken.Base) (signed : Bool)
    (size : Nat) (r : Reader S) :
    Looks (M := M) (fun suppress => convertInteger { spec with suppress } base signed size) r := by
  simp only [convertInteger]
  refine .afterSpace (.reading ?_)
  cases (Reader.token (IntegerToken.recogniser base) spec.width r.skipSpace.2).1 with
  | none => exact .pure (.inr (.inl rfl))
  | some token => exact .storeNumber (fun _ => Memory.writeInteger_stable _ _ _) _

theorem convertFloat_looks (spec : ScanSpec) (r : Reader S) :
    Looks (M := M) (fun suppress => convertFloat { spec with suppress }) r := by
  simp only [convertFloat]
  refine .afterSpace (.reading ?_)
  cases (Reader.token FloatToken.recogniser spec.width r.skipSpace.2).1 with
  | none => exact .pure (.inr (.inl rfl))
  | some token => exact .storeNumber (fun _ => Memory.writeFloat_stable _ _ _) _

/-- What a directive finds does not depend on its star. -/
theorem convert_looks (spec : ScanSpec) (r : Reader S) :
    Looks (M := M) (fun suppress => convert { spec with suppress }) r := by
  cases hconversion : spec.conversion with
  | set members => simpa only [convert, hconversion] using convertSet_looks spec members r
  | letter conversion =>
    cases conversion with
    | n => simpa only [convert, hconversion] using convertCount_looks spec r
    | c => simpa only [convert, hconversion] using convertCharacters_looks spec r
    | s => simpa only [convert, hconversion] using convertString_looks spec r
    | d | i | u | o | x | X | p =>
      simpa only [convert, hconversion] using convertInteger_looks spec _ _ _ r
    | f | F | e | E | g | G | a | A =>
      simpa only [convert, hconversion] using convertFloat_looks spec r

theorem ofMatch_barren (found : Reader.Match) : Barren (ofMatch found) := by
  cases found <;> simp [Barren, ofMatch]

/-- A segment other than a directive has nothing to store. -/
theorem matchSegment_looks (segment : ScanSegment) (r : Reader S) :
    Looks (M := M) (fun suppress => matchSegment (segment.starred suppress)) r := by
  cases segment with
  | space => exact .reading (.pure (.inl rfl))
  | literal bytes => exact .reading (.pure (ofMatch_barren _))
  | percent => exact .afterSpace (.reading (.pure (ofMatch_barren _)))
  | directive spec => exact convert_looks spec r

end Directives

/-! ### One segment in two scans -/

section Segments
variable [ByteSource S]

/-- What a segment did that went through, and what it does elsewhere. Either nothing was
to be stored, and then it ends the same wherever the reader stands there, suppressed or
not. Or it took an address and stored: it does so again in a scan that shadows this one
and offers the same slot, and suppressed it only reads. -/
inductive Matched (segment : ScanSegment) (s t : State S M) (progress : Progress) : Prop where
  | nothing : SameStores s t → Barren progress →
    (∀ other, other = segment ∨ other = segment.starred true →
      ∀ u : State S M, u.reader = s.reader → ∃ v, matchSegment other u = .ok progress v ∧
        v.reader = t.reader ∧ SameStores u v) →
    Matched segment s t progress
  | stored : t.frame.arguments = s.frame.arguments.advance →
    Memory.SameReach s.frame.memory t.frame.memory → (∀ status, progress ≠ .stopped status) →
    (∀ u : State S M, Shadows s u →
      u.frame.arguments.nextSlot? = s.frame.arguments.nextSlot? →
      ∃ v, matchSegment segment u = .ok progress v ∧ v.reader = t.reader ∧
        v.frame.arguments = u.frame.arguments.advance ∧
        Memory.SameReach u.frame.memory v.frame.memory) →
    (∀ u : State S M, u.reader = s.reader → ∃ v,
      matchSegment (segment.starred true) u = .ok .skipped v ∧ v.reader = t.reader ∧
        SameStores u v) →
    Matched segment s t progress

variable {segment : ScanSegment} {s s' t : State S M} {progress : Progress}

theorem matched [Memory.Steady M] (h : matchSegment segment s = .ok progress t) :
    Matched segment s t progress := by
  obtain ⟨suppress, hsegment⟩ := segment.starred_self
  have hlooks := matchSegment_looks (M := M) segment s.reader
  cases hlooks with
  | ends found r' hbarren hends =>
    obtain ⟨v, hv, hreader, hsame⟩ := hends suppress s rfl
    rw [hsegment, h] at hv
    obtain ⟨rfl, rfl⟩ := EStateM.Result.ok.inj hv
    refine .nothing hsame hbarren fun other hother u hu => ?_
    rcases hother with rfl | rfl
    · obtain ⟨w, hw, hwreader, hwsame⟩ := hends suppress u hu
      exact ⟨w, hsegment ▸ hw, hwreader.trans hreader.symm, hwsame⟩
    · obtain ⟨w, hw, hwreader, hwsame⟩ := hends true u hu
      exact ⟨w, hw, hwreader.trans hreader.symm, hwsame⟩
  | stores store found r' hgoes hkeeps hstores =>
    obtain ⟨v, hplain, hmuted, hreader, hsame⟩ := hstores s rfl
    cases suppress with
    | true =>
      rw [hsegment, h] at hmuted
      obtain ⟨rfl, rfl⟩ := EStateM.Result.ok.inj hmuted
      refine .nothing hsame (.inl rfl) fun other hother u hu => ?_
      obtain ⟨w, -, hw, hwreader, hwsame⟩ := hstores u hu
      refine ⟨w, ?_, hwreader.trans hreader.symm, hwsame⟩
      rcases hother with rfl | rfl
      · exact hsegment ▸ hw
      · exact hw
    | false =>
      rw [hsegment, h] at hplain
      obtain ⟨address, w, hfetch, hstore⟩ := ok_of_bind hplain.symm
      obtain ⟨w', hfetch', hwarguments, hwmemory, hwreader⟩ :=
        fetchAddress_of_nextSlot? rfl rfl rfl hfetch
      rw [hfetch] at hfetch'
      obtain ⟨-, rfl⟩ := EStateM.Result.ok.inj hfetch'
      obtain ⟨rfl, htreader, htarguments, htmemory⟩ := (hkeeps address).result hstore
      have hread : t.reader = r' := htreader.trans (hwreader.trans hreader)
      refine .stored ?_ ?_ hgoes (fun u hu hslot => ?_) fun u hu => ?_
      · rw [htarguments, hwarguments, hsame.1]
      · rw [← hsame.2, ← hwmemory]
        exact htmemory
      · obtain ⟨x, hx, -, hxreader, hxsame⟩ := hstores u hu.reader
        obtain ⟨y, hy, hyarguments, hymemory, hyreader⟩ :=
          fetchAddress_of_nextSlot?
            (show x.frame.arguments.nextSlot? = v.frame.arguments.nextSlot? by
              rw [hxsame.1, hsame.1, hslot])
            (by rw [hxsame.1, hsame.1, hu.level]) (by rw [hxsame.1, hsame.1, hu.ended]) hfetch
        have hreach : Memory.SameReach w.frame.memory y.frame.memory := by
          rw [hwmemory, hsame.2, hymemory, hxsame.2]
          exact hu.reach
        obtain ⟨z, hz⟩ := (hkeeps address).again hstore
          (by rw [hyreader, hwreader, hxreader, hreader]) hreach
        obtain ⟨-, hzreader, hzarguments, hzmemory⟩ := (hkeeps address).result hz
        refine ⟨z, ?_, ?_, ?_, ?_⟩
        · rw [← hsegment, hx, bind_of_ok hy, hz]
        · rw [hzreader, hyreader, hxreader, hread]
        · rw [hzarguments, hyarguments, hxsame.1]
        · rw [← hxsame.2, ← hymemory]
          exact hzmemory
      · obtain ⟨x, -, hx, hxreader, hxsame⟩ := hstores u hu
        exact ⟨x, hx, hxreader.trans hread.symm, hxsame⟩

theorem Matched.left (h : Matched segment s t progress) :
    s.frame.arguments.upTo t.frame.arguments ++ t.frame.arguments.left =
      s.frame.arguments.left := by
  cases h with
  | nothing hsame _ _ => rw [hsame.1, ArgumentList.upTo_self, List.nil_append]
  | stored harguments _ _ _ _ =>
    rw [harguments, ArgumentList.upTo_advance, ArgumentList.left_advance, List.take_one]
    cases s.frame.arguments.left <;> rfl

/-- A segment that stays as it is does the same in a scan that shadows this one. -/
theorem Matched.kept (h : Matched segment s t progress) (hshadows : Shadows s s')
    {slots : List Slot}
    (hslots : s'.frame.arguments.left =
      s.frame.arguments.upTo t.frame.arguments ++ slots)
    (hnone : t.frame.arguments.left = [] → slots = []) :
    ∃ t', matchSegment segment s' = .ok progress t' ∧ Shadows t t' ∧
      t'.frame.arguments.left = slots := by
  cases h with
  | nothing hsame _ hends =>
    obtain ⟨t', ht', hreader, hsame'⟩ := hends segment (.inl rfl) s' hshadows.reader
    refine ⟨t', ht', ⟨hreader, ?_, ?_, ?_⟩, ?_⟩
    · rw [hsame.1, hsame'.1, hshadows.level]
    · rw [hsame.1, hsame'.1, hshadows.ended]
    · rw [hsame.2, hsame'.2]
      exact hshadows.reach
    · rw [hsame'.1, hslots, hsame.1, ArgumentList.upTo_self, List.nil_append]
  | stored harguments hmemory _ hagain _ =>
    rw [harguments] at hslots
    rw [harguments, ArgumentList.left_advance] at hnone
    obtain ⟨hslot, hrest⟩ := ArgumentList.reads_same hslots
      fun hempty => hnone (by rw [hempty, List.tail_nil])
    obtain ⟨t', ht', hreader, harguments', hmemory'⟩ := hagain s' hshadows hslot
    refine ⟨t', ht', ⟨hreader, ?_, ?_, ?_⟩, ?_⟩
    · rw [harguments, harguments']
      exact hshadows.level
    · rw [harguments, harguments']
      exact hshadows.ended
    · exact (hmemory.symm.trans hshadows.reach).trans hmemory'
    · rw [harguments', hrest]

/-- How a segment ends when it is suppressed. -/
def muted : Progress → Progress
  | .assigned => .skipped
  | progress => progress

/-- A suppressed segment only reads, and ends the same but for the field. -/
theorem Matched.suppressed (h : Matched segment s t progress) (hshadows : Shadows s s') :
    ∃ t', matchSegment (segment.starred true) s' = .ok (muted progress) t' ∧ Shadows t t' ∧
      SameStores s' t' := by
  cases h with
  | nothing hsame hbarren hends =>
    obtain ⟨t', ht', hreader, hsame'⟩ := hends _ (.inr rfl) s' hshadows.reader
    have hmuted : progress = muted progress := by
      rcases hbarren with rfl | rfl | rfl <;> rfl
    refine ⟨t', ht'.trans (congrArg (EStateM.Result.ok · t') hmuted), ⟨hreader, ?_, ?_, ?_⟩, hsame'⟩
    · rw [hsame.1, hsame'.1, hshadows.level]
    · rw [hsame.1, hsame'.1, hshadows.ended]
    · rw [hsame.2, hsame'.2]
      exact hshadows.reach
  | stored harguments hmemory hgoes _ hmutes =>
    obtain ⟨t', ht', hreader, hsame'⟩ := hmutes s' hshadows.reader
    have hmuted : muted progress = .skipped := by
      cases progress with
      | stopped status => exact absurd rfl (hgoes status)
      | _ => rfl
    refine ⟨t', hmuted ▸ ht', ⟨hreader, ?_, ?_, ?_⟩, hsame'⟩
    · rw [harguments, hsame'.1]
      exact hshadows.level
    · rw [harguments, hsame'.1]
      exact hshadows.ended
    · rw [hsame'.2]
      exact hmemory.symm.trans hshadows.reach

/-- Behind a segment that read nothing, a scan without it still shadows this one. -/
theorem Matched.leftOut (h : Matched segment s t progress) (hreader : t.reader = s.reader)
    (hshadows : Shadows s s') : Shadows t s' := by
  refine ⟨hshadows.reader.trans hreader.symm, ?_, ?_, ?_⟩
  all_goals cases h with
    | nothing hsame _ _ => ?_
    | stored harguments hmemory _ _ _ => ?_
  · rw [hsame.1, hshadows.level]
  · rw [harguments]
    exact hshadows.level
  · rw [hsame.1, hshadows.ended]
  · rw [harguments]
    exact hshadows.ended
  · rw [hsame.2]
    exact hshadows.reach
  · exact hmemory.symm.trans hshadows.reach

omit [ByteSource S] in
/-- A count that is stored is stored at the next address. -/
theorem ok_of_convertCount {spec : ScanSpec} (hsuppress : spec.suppress = false)
    (h : convertCount spec s = .ok progress t) :
    progress = .skipped ∧ t.reader = s.reader ∧
      Memory.writeInteger s.frame.memory s.frame.arguments.nextBits.asAddress
        (BitVec.ofNat 64 s.reader.consumed) spec.length.integerSize = .ok t.frame.memory := by
  simp only [convertCount, hsuppress, Bool.false_eq_true, if_false] at h
  obtain ⟨address, u, hfetch, hrest⟩ := ok_of_bind h
  rcases fetchAddress_cases s with ⟨e, v, herror, -⟩ | ⟨v, haddress, -, hmemory, hreader⟩
  · rw [herror] at hfetch
    cases hfetch
  · rw [haddress] at hfetch
    obtain ⟨rfl, rfl⟩ := EStateM.Result.ok.inj hfetch
    obtain ⟨count, w, hcount, hstore⟩ := ok_of_bind hrest
    obtain ⟨rfl, rfl⟩ := EStateM.Result.ok.inj hcount
    obtain ⟨_, x, hstored, hlast⟩ := ok_of_bind hstore
    obtain ⟨hwritten, hxreader, -⟩ := ok_of_storing hstored
    obtain ⟨rfl, rfl⟩ := EStateM.Result.ok.inj hlast
    rw [hmemory, hreader] at hwritten
    exact ⟨rfl, hxreader.trans hreader, hwritten⟩

/-- A count reads nothing and is no field. -/
theorem matchSegment_count (hcount : segment.isCount = true)
    (h : matchSegment segment s = .ok progress t) : progress = .skipped ∧ t.reader = s.reader := by
  cases segment with
  | directive spec =>
    have hconversion : spec.conversion = .letter .n := by simpa [ScanSegment.isCount] using hcount
    simp only [matchSegment, convert, hconversion] at h
    cases hsuppress : spec.suppress with
    | false =>
      obtain ⟨hprogress, hreader, -⟩ := ok_of_convertCount hsuppress h
      exact ⟨hprogress, hreader⟩
    | true =>
      simp only [convertCount, hsuppress, if_true] at h
      obtain ⟨rfl, rfl⟩ := EStateM.Result.ok.inj h
      exact ⟨rfl, rfl⟩
  | _ => simp [ScanSegment.isCount] at hcount

end Segments

end Scan
end CheckedFormat
