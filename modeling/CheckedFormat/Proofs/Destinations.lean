import CheckedFormat.Proofs.ArenaAccess
import CheckedFormat.Proofs.Reading
import CheckedFormat.Proofs.Steps
/-! Where a scan stores.

A directive that is not suppressed takes one address from the arguments and stores
at most as many bytes there as its `Destination` has room for: an integer or float of
its size, the characters that it matched, or the field and a zero byte. Everything
else in a format takes no address and leaves the memory alone. `destinations` follows
a scan and lists where its directives store; `scan_stores_within` says that nothing
else of the arena changes, however the scan ends and whatever source it reads. -/
namespace CheckedFormat

/-- What a directive may store to: the address that it took, and the field that it
matched when it stores text. -/
structure Destination where
  spec : ScanSpec
  address : Nat
  field : List Byte

namespace Destination

/-- The room that a directive needs: the size of its object, or the field that it
matched, with a zero byte behind a string. -/
def size (d : Destination) : Nat :=
  match d.spec.conversion with
  | .letter .d | .letter .i | .letter .u | .letter .o | .letter .x | .letter .X | .letter .n =>
    d.spec.length.integerSize
  | .letter .p => 8
  | .letter .c => d.field.length
  | .letter .s | .set _ => d.field.length + 1
  | _ => Scan.floatSize d.spec.length

/-- The address is in the range that the directive stores to. -/
def covers (d : Destination) (x : Nat) : Prop := d.address ≤ x ∧ x < d.address + d.size

/-- The bound that a width sets to a field; a character field without one has one
byte. -/
def limit? (d : Destination) : Option Nat :=
  match d.spec.conversion with
  | .letter .c => some (d.spec.width.getD 1)
  | _ => d.spec.width

end Destination

namespace ScanSegment

/-- The directive of a segment, when it stores what it matches. -/
def storing? : ScanSegment → Option ScanSpec
  | directive spec => if spec.suppress then none else some spec
  | _ => none

end ScanSegment

namespace Scan

variable {S : Type} [ByteSource S]

/-- The field that a text directive takes from a reader. -/
def fieldOf (spec : ScanSpec) (r : Reader S) : List Byte :=
  match spec.conversion with
  | .letter .c => (r.takeWhile (fun _ => true) (some (spec.width.getD 1))).1.bytes
  | .letter .s => (r.skipSpace.2.takeWhile (fun b => !b.isSpace) spec.width).1.bytes
  | .set members => (r.takeWhile members.contains spec.width).1.bytes
  | _ => []

variable {M : Type} [Memory M]

/-- Where a segment stores in a state: at the address that it takes, if it takes
one. -/
def destination? (segment : ScanSegment) (s : State S M) : Option Destination :=
  match segment with
  | .directive spec =>
    if (after (matchSegment segment s)).frame.arguments.cursor = s.frame.arguments.cursor then none
    else some ⟨spec, s.frame.arguments.nextBits.asAddress, fieldOf spec s.reader⟩
  | _ => none

/-- Where segments store, matched in turn up to the first that stops the scan. -/
def destinations : List ScanSegment → State S M → List Destination
  | [], _ => []
  | segment :: rest, s =>
    (destination? segment s).toList ++
      match matchSegment segment s with
      | .ok (.stopped _) _ | .error _ _ => []
      | .ok _ s => destinations rest s

/-- Where a whole scan stores. -/
def scanDestinations (source : S) (format : List Byte) (frame : Frame M) : List Destination :=
  match ScanFormat.parse format with
  | .error _ => []
  | .ok segments => destinations segments ⟨.start source, frame.note (·.count .scanCalls)⟩

/-! ### What single stores do -/

section Stores
omit [ByteSource S]
open Arena (ChangesWithin)

/-- The scan goes on behind a directive that ends like this. -/
def GoesOn (progress : Progress) : Prop := ∀ status, progress ≠ .stopped status

/-- What a directive did to arguments and memory. Either nothing, which ends the scan
unless the directive is suppressed; or it took the next slot and changed at most the
given addresses, and the scan goes on or has failed. -/
inductive Effect (suppress : Bool) (touched : Nat → Prop) (s : State S Arena) :
    EStateM.Result ScanError (State S Arena) Progress → Prop where
  | nothing {r : EStateM.Result ScanError (State S Arena) Progress} : SameStores s (after r) →
    (∀ progress t, r = .ok progress t → GoesOn progress → suppress = true) →
    Effect suppress touched s r
  | stored {r : EStateM.Result ScanError (State S Arena) Progress} : suppress = false →
    (∀ progress t, r = .ok progress t → GoesOn progress) →
    (after r).frame.arguments = s.frame.arguments.advance →
    ChangesWithin touched s.frame.memory (after r).frame.memory → Effect suppress touched s r

theorem Effect.of_sameStores {suppress : Bool} {touched : Nat → Prop} {s t : State S Arena}
    {r : EStateM.Result ScanError (State S Arena) Progress} (hsame : SameStores s t)
    (h : Effect suppress touched t r) : Effect suppress touched s r := by
  cases h with
  | nothing h hends => exact .nothing (hsame.trans h) hends
  | stored hsuppress hgoes harguments hmemory =>
    refine .stored hsuppress hgoes ?_ ?_
    · rw [harguments, hsame.1]
    · rw [← hsame.2]
      exact hmemory

/-- A directive that stops the scan before it takes an address. -/
theorem Effect.stopped {suppress : Bool} {touched : Nat → Prop} {s t : State S Arena}
    {status : ScanStatus} (hsame : SameStores s t) :
    Effect suppress touched s (.ok (.stopped status) t) := by
  refine .nothing hsame fun progress u h hgoes => ?_
  cases h
  exact absurd rfl (hgoes status)

theorem changesWithin_of_writeInteger {a b : Arena} {address size : Nat} {value : Word}
    (h : Memory.writeInteger a address value size = .ok b) :
    ChangesWithin (fun x => address ≤ x ∧ x < address + size) a b := by
  unfold Memory.writeInteger at h
  split at h
  · refine Arena.changesWithin_of_writeBytes h fun x hlow hhigh => ⟨hlow, ?_⟩
    rwa [length_littleEndian] at hhigh
  · cases h

theorem changesWithin_of_writeFloat {a b : Arena} {address size : Nat} {value : Word}
    (h : Memory.writeFloat a address value size = .ok b) :
    ChangesWithin (fun x => address ≤ x ∧ x < address + size) a b := by
  unfold Memory.writeFloat at h
  split at h
  · rename_i hsize
    refine Arena.changesWithin_of_writeBytes h fun x hlow hhigh => ⟨hlow, ?_⟩
    rwa [length_littleEndian, ← hsize] at hhigh
  · split at h
    · rename_i hsize
      refine Arena.changesWithin_of_writeBytes h fun x hlow hhigh => ⟨hlow, ?_⟩
      rwa [length_littleEndian, ← hsize] at hhigh
    · cases h

/-- The step keeps the arguments, changes at most the given addresses, and gives only
results that go on. -/
structure Stores {α : Type} (touched : Nat → Prop) (goesOn : α → Prop) (f : Step S Arena α) :
    Prop where
  arguments : ∀ t, (after (f t)).frame.arguments = t.frame.arguments
  memory : ∀ t, ChangesWithin touched t.frame.memory (after (f t)).frame.memory
  result : ∀ t a u, f t = .ok a u → goesOn a

variable {touched : Nat → Prop}

theorem Stores.bind {α β : Type} {first : α → Prop} {goesOn : β → Prop} {f : Step S Arena α}
    {g : α → Step S Arena β} (hf : Stores touched first f) (hg : ∀ a, Stores touched goesOn (g a)) :
    Stores touched goesOn (f >>= g) := by
  refine ⟨fun t => ?_, fun t => ?_, fun t b u h => ?_⟩
  all_goals
    have harguments := hf.arguments t
    have hmemory := hf.memory t
    cases hstep : f t with
    | ok a v => ?_
    | error e v => ?_
    all_goals rw [hstep] at harguments hmemory
  · rw [bind_of_ok hstep, (hg a).arguments]
    exact harguments
  · rw [bind_of_error hstep]
    exact harguments
  · rw [bind_of_ok hstep]
    exact hmemory.trans ((hg a).memory v)
  · rw [bind_of_error hstep]
    exact hmemory
  · rw [bind_of_ok hstep] at h
    exact (hg a).result v b u h
  · rw [bind_of_error hstep] at h
    cases h

theorem Stores.pure {α : Type} {goesOn : α → Prop} {a : α} (h : goesOn a) :
    Stores (S := S) touched goesOn (Pure.pure a) :=
  ⟨fun _ => rfl, fun _ => .refl _ _, fun _ _ _ hresult => by cases hresult; exact h⟩

theorem Stores.storing {f : Arena → Except MemoryError Arena}
    (h : ∀ a b, f a = .ok b → ChangesWithin touched a b) :
    Stores (S := S) touched (fun _ => True) (Scan.storing f) := by
  refine ⟨fun t => ?_, fun t => ?_, fun _ _ _ _ => trivial⟩
  · unfold Scan.storing
    split <;> rfl
  · unfold Scan.storing
    split
    · rename_i b hb
      exact h _ b hb
    · exact .refl _ _

theorem Stores.consumed : Stores (S := S) touched (fun _ => True) Scan.consumed :=
  ⟨fun _ => rfl, fun _ => .refl _ _, fun _ _ _ _ => trivial⟩

/-- A directive that takes an address and then only stores. -/
theorem effect_of_fetch {suppress : Bool} {s : State S Arena} {g : Nat → Step S Arena Progress}
    (hsuppress : suppress = false)
    (hg : Stores touched GoesOn (g s.frame.arguments.nextBits.asAddress)) :
    Effect suppress touched s ((fetchAddress >>= g) s) := by
  rcases fetchAddress_cases s with ⟨e, t, hfetch, hsame⟩ | ⟨t, hfetch, harguments, hmemory, _⟩
  · rw [bind_of_error hfetch]
    exact .nothing hsame fun _ _ h => nomatch h
  · rw [bind_of_ok hfetch]
    refine .stored hsuppress (fun progress u h => hg.result t progress u h) ?_ ?_
    · rw [hg.arguments, harguments]
    · rw [← hmemory]
      exact hg.memory t

theorem storeText_effect (suppress terminate : Bool) (bytes : List Byte) (s : State S Arena)
    (htouched : ∀ x, s.frame.arguments.nextBits.asAddress ≤ x →
      x < s.frame.arguments.nextBits.asAddress + bytes.length + terminate.toNat → touched x) :
    Effect suppress touched s (storeText suppress terminate bytes s) := by
  unfold storeText
  cases suppress with
  | true => exact .nothing (.refl s) fun _ _ _ _ => rfl
  | false =>
    refine effect_of_fetch rfl (.bind (.storing fun a b h => ?_) fun _ => ?_)
    · exact Arena.changesWithin_of_writeBytes h fun x hlow hhigh => htouched x hlow (by omega)
    · cases terminate with
      | false => exact .pure fun _ h => nomatch h
      | true =>
        refine .bind (.storing fun a b h => ?_) fun _ => .pure fun _ h => nomatch h
        refine Arena.changesWithin_of_writeBytes h fun x hlow hhigh => htouched x (by omega) ?_
        simpa using hhigh

theorem storeNumber_effect (suppress : Bool) (store : Arena → Nat → Except MemoryError Arena)
    (s : State S Arena)
    (hstore : ∀ a b, store a s.frame.arguments.nextBits.asAddress = .ok b →
      ChangesWithin touched a b) :
    Effect suppress touched s (storeNumber suppress store s) := by
  unfold storeNumber
  cases suppress with
  | true => exact .nothing (.refl s) fun _ _ _ _ => rfl
  | false => exact effect_of_fetch rfl (.bind (.storing hstore) fun _ => .pure fun _ h => nomatch h)

theorem convertCount_effect (spec : ScanSpec) (s : State S Arena)
    (htouched : ∀ x, s.frame.arguments.nextBits.asAddress ≤ x →
      x < s.frame.arguments.nextBits.asAddress + spec.length.integerSize → touched x) :
    Effect spec.suppress touched s (convertCount spec s) := by
  unfold convertCount
  cases spec.suppress with
  | true => exact .nothing (.refl s) fun _ _ _ _ => rfl
  | false =>
    refine effect_of_fetch rfl (.bind .consumed fun count => .bind (.storing fun a b h => ?_)
      fun _ => .pure fun _ h => nomatch h)
    exact (changesWithin_of_writeInteger h).mono fun x hx => htouched x hx.1 hx.2

end Stores

/-! ### What directives do -/

section Directives
variable {touched : Nat → Prop} {s : State S Arena}

omit [ByteSource S] in
/-- Reading comes before a store and does not move the next address. -/
theorem effect_of_reading {α : Type} {suppress : Bool} {operation : Reader S → α × Reader S}
    {f : α → Step S Arena Progress}
    (h : ∀ t : State S Arena, t.frame.arguments = s.frame.arguments →
      Effect suppress touched t (f (operation s.reader).1 t)) :
    Effect suppress touched s ((reading operation >>= f) s) := by
  have hsame := sameStores_afterReading operation s
  rw [bind_reading]
  exact .of_sameStores hsame (h _ hsame.1)

theorem afterSpace_effect {suppress : Bool} {f : Step S Arena Progress}
    (h : ∀ t : State S Arena, t.reader = s.reader.skipSpace.2 →
      t.frame.arguments = s.frame.arguments → Effect suppress touched t (f t)) :
    Effect suppress touched s (afterSpace f s) := by
  have hsame := sameStores_afterReading Reader.skipSpace s
  unfold afterSpace
  rw [bind_reading]
  split
  · exact .of_sameStores hsame (h _ rfl hsame.1)
  · exact .stopped hsame

theorem convertCharacters_effect (spec : ScanSpec)
    (htouched : ∀ x, s.frame.arguments.nextBits.asAddress ≤ x →
      x < s.frame.arguments.nextBits.asAddress +
        (s.reader.takeWhile (fun _ => true) (some (spec.width.getD 1))).1.bytes.length → touched x) :
    Effect spec.suppress touched s (convertCharacters spec s) := by
  unfold convertCharacters
  refine effect_of_reading fun t harguments => ?_
  split
  · exact .stopped (.refl t)
  · refine storeText_effect _ _ _ _ fun x hlow hhigh => ?_
    rw [harguments] at hlow hhigh
    exact htouched x hlow hhigh

theorem convertString_effect (spec : ScanSpec)
    (htouched : ∀ x, s.frame.arguments.nextBits.asAddress ≤ x →
      x < s.frame.arguments.nextBits.asAddress +
        ((s.reader.skipSpace.2.takeWhile (fun b => !b.isSpace) spec.width).1.bytes.length + 1) →
      touched x) :
    Effect spec.suppress touched s (convertString spec s) := by
  unfold convertString
  refine afterSpace_effect fun t hreader hspace => effect_of_reading fun u hread => ?_
  refine storeText_effect _ _ _ _ fun x hlow hhigh => ?_
  rw [hread, hspace] at hlow hhigh
  rw [hreader] at hhigh
  exact htouched x hlow hhigh

theorem convertSet_effect (spec : ScanSpec) (members : ByteSet)
    (htouched : ∀ x, s.frame.arguments.nextBits.asAddress ≤ x →
      x < s.frame.arguments.nextBits.asAddress +
        ((s.reader.takeWhile members.contains spec.width).1.bytes.length + 1) → touched x) :
    Effect spec.suppress touched s (convertSet spec members s) := by
  unfold convertSet
  refine effect_of_reading fun t harguments => ?_
  split
  · exact .stopped (.refl t)
  · refine storeText_effect _ _ _ _ fun x hlow hhigh => ?_
    rw [harguments] at hlow hhigh
    exact htouched x hlow hhigh

theorem convertInteger_effect (spec : ScanSpec) (base : IntegerToken.Base) (signed : Bool)
    (size : Nat)
    (htouched : ∀ x, s.frame.arguments.nextBits.asAddress ≤ x →
      x < s.frame.arguments.nextBits.asAddress + size → touched x) :
    Effect spec.suppress touched s (convertInteger spec base signed size s) := by
  unfold convertInteger
  refine afterSpace_effect fun t _ hspace => effect_of_reading fun u hread => ?_
  generalize (Reader.token (IntegerToken.recogniser base) spec.width t.reader).1 = token
  cases token with
  | none => exact .stopped (.refl u)
  | some token =>
    refine storeNumber_effect _ _ _ fun a b h => ?_
    rw [hread, hspace] at h
    exact (changesWithin_of_writeInteger h).mono fun x hx => htouched x hx.1 hx.2

theorem convertFloat_effect (spec : ScanSpec)
    (htouched : ∀ x, s.frame.arguments.nextBits.asAddress ≤ x →
      x < s.frame.arguments.nextBits.asAddress + floatSize spec.length → touched x) :
    Effect spec.suppress touched s (convertFloat spec s) := by
  unfold convertFloat
  refine afterSpace_effect fun t _ hspace => effect_of_reading fun u hread => ?_
  generalize (Reader.token FloatToken.recogniser spec.width t.reader).1 = token
  cases token with
  | none => exact .stopped (.refl u)
  | some token =>
    refine storeNumber_effect _ _ _ fun a b h => ?_
    rw [hread, hspace] at h
    exact (changesWithin_of_writeFloat h).mono fun x hx => htouched x hx.1 hx.2

/-- A directive stores at most to its destination. -/
theorem convert_effect (spec : ScanSpec) (s : State S Arena) :
    Effect spec.suppress
      (Destination.covers ⟨spec, s.frame.arguments.nextBits.asAddress, fieldOf spec s.reader⟩) s
      (convert spec s) := by
  obtain ⟨suppress, width, length, conversion⟩ := spec
  cases conversion with
  | set members => exact convertSet_effect _ _ fun x hlow hhigh => ⟨hlow, hhigh⟩
  | letter conversion =>
    cases conversion with
    | n => exact convertCount_effect _ _ fun x hlow hhigh => ⟨hlow, hhigh⟩
    | c => exact convertCharacters_effect _ fun x hlow hhigh => ⟨hlow, hhigh⟩
    | s => exact convertString_effect _ fun x hlow hhigh => ⟨hlow, hhigh⟩
    | d | i | u | o | x | X | p =>
      exact convertInteger_effect _ _ _ _ fun x hlow hhigh => ⟨hlow, hhigh⟩
    | f | F | e | E | g | G | a | A => exact convertFloat_effect _ fun x hlow hhigh => ⟨hlow, hhigh⟩

/-- Everything but an unsuppressed directive leaves arguments and memory alone. -/
theorem matchSegment_sameStores {segment : ScanSegment} (h : segment.storing? = none)
    (s : State S Arena) : SameStores s (after (matchSegment segment s)) := by
  cases segment with
  | space => exact sameStores_afterReading _ s
  | literal bytes => exact sameStores_afterReading _ s
  | percent =>
    show SameStores s (after (afterSpace _ s))
    unfold afterSpace
    rw [bind_reading]
    split
    · exact (sameStores_afterReading _ s).trans
        (sameStores_afterReading (Reader.expect [opener]) _)
    · exact sameStores_afterReading _ s
  | directive spec =>
    have hsuppress : spec.suppress = true := by
      cases hs : spec.suppress with
      | true => rfl
      | false => simp [ScanSegment.storing?, hs] at h
    have heffect := convert_effect spec s
    cases heffect with
    | nothing hsame _ => exact hsame
    | stored hstores _ _ _ => rw [hsuppress] at hstores; cases hstores

end Directives

/-! ### What scans do -/

section Runs
open Arena (ChangesWithin)

theorem length_fieldOf_le (spec : ScanSpec) (r : Reader S) (address w : Nat)
    (h : Destination.limit? ⟨spec, address, fieldOf spec r⟩ = some w) :
    (fieldOf spec r).length ≤ w := by
  obtain ⟨suppress, width, length, conversion⟩ := spec
  cases conversion with
  | set members =>
    cases h
    exact Reader.length_takeWhile_le _ _ _
  | letter conversion =>
    cases conversion with
    | c =>
      cases h
      exact Reader.length_takeWhile_le _ _ _
    | s =>
      cases h
      exact Reader.length_takeWhile_le _ _ _
    | _ => exact Nat.zero_le w

/-- One segment: it takes no address and changes nothing, which ends the scan if it
should have stored; or it has a destination, at the next address. -/
theorem matchSegment_cases (segment : ScanSegment) (s : State S Arena) :
    (destination? segment s = none ∧ SameStores s (after (matchSegment segment s)) ∧
      ∀ progress t, matchSegment segment s = .ok progress t → GoesOn progress →
        segment.storing? = none) ∨
    ∃ d, destination? segment s = some d ∧ segment.storing? = some d.spec ∧
      d.address = s.frame.arguments.nextBits.asAddress ∧
      (∀ w, d.limit? = some w → d.field.length ≤ w) ∧
      (after (matchSegment segment s)).frame.arguments = s.frame.arguments.advance ∧
      ChangesWithin d.covers s.frame.memory (after (matchSegment segment s)).frame.memory := by
  cases segment with
  | directive spec =>
    have heffect := convert_effect spec s
    cases heffect with
    | nothing hsame hends =>
      refine .inl ⟨?_, hsame, fun progress t h hgoes => ?_⟩
      · exact if_pos (congrArg ArgumentList.cursor hsame.1)
      · show (if spec.suppress then none else some spec) = none
        rw [if_pos (hends progress t h hgoes)]
    | stored hstores _ harguments hmemory =>
      refine .inr ⟨_, if_neg ?_, ?_, rfl, length_fieldOf_le _ _ _, harguments, hmemory⟩
      · show (after (convert spec s)).frame.arguments.cursor ≠ _
        rw [harguments]
        exact Nat.succ_ne_self _
      · show (if spec.suppress then none else some spec) = some spec
        rw [hstores]
        rfl
  | _ => exact .inl ⟨rfl, matchSegment_sameStores rfl s, fun _ _ _ _ => rfl⟩

/-- What matching segments in turn did: it stored to these destinations and nowhere
else, and took their addresses from the arguments in order. They are those of the
first directives that store, and no field is longer than its width. -/
structure StoresTo (taken : List Destination) (segments : List ScanSegment)
    (before left : Frame Arena) : Prop where
  memory : ChangesWithin (fun x => ∃ d ∈ taken, d.covers x) before.memory left.memory
  arguments : left.arguments = before.arguments.skip taken.length
  addresses : ∀ (i : Nat) (d : Destination), taken[i]? = some d →
    d.address = (before.arguments.skip i).nextBits.asAddress
  fields : ∀ d ∈ taken, ∀ w, d.limit? = some w → d.field.length ≤ w
  directives : taken.map (·.spec) <+: segments.filterMap ScanSegment.storing?

theorem StoresTo.nothing {segments : List ScanSegment} {before left : Frame Arena}
    (harguments : left.arguments = before.arguments) (hmemory : left.memory = before.memory) :
    StoresTo [] segments before left := by
  refine ⟨?_, harguments, fun i d h => ?_, (fun _ h => nomatch h), List.nil_prefix⟩
  · rw [hmemory]
    exact .refl _ _
  · rw [List.getElem?_nil] at h
    cases h

/-- Only arguments and memory matter. -/
theorem StoresTo.of_stores {taken : List Destination} {segments : List ScanSegment}
    {before before' left left' : Frame Arena} (h : StoresTo taken segments before left)
    (hbeforeArguments : before'.arguments = before.arguments)
    (hbeforeMemory : before'.memory = before.memory)
    (hleftArguments : left'.arguments = left.arguments)
    (hleftMemory : left'.memory = left.memory) : StoresTo taken segments before' left' := by
  refine ⟨?_, ?_, ?_, h.fields, h.directives⟩
  · rw [hbeforeMemory, hleftMemory]
    exact h.memory
  · rw [hbeforeArguments, hleftArguments]
    exact h.arguments
  · rw [hbeforeArguments]
    exact h.addresses

/-- Behind a segment that took no address. -/
theorem StoresTo.pass {taken : List Destination} {segment : ScanSegment} {rest : List ScanSegment}
    {before next left : Frame Arena} (hsegment : segment.storing? = none)
    (harguments : next.arguments = before.arguments) (hmemory : next.memory = before.memory)
    (h : StoresTo taken rest next left) : StoresTo taken (segment :: rest) before left := by
  refine ⟨hmemory ▸ h.memory, harguments ▸ h.arguments, harguments ▸ h.addresses, h.fields, ?_⟩
  rw [List.filterMap_cons_none hsegment]
  exact h.directives

/-- Behind a segment with a destination. -/
theorem StoresTo.cons {taken : List Destination} {d : Destination} {segment : ScanSegment}
    {rest : List ScanSegment} {before next left : Frame Arena}
    (hsegment : segment.storing? = some d.spec)
    (haddress : d.address = before.arguments.nextBits.asAddress)
    (hfield : ∀ w, d.limit? = some w → d.field.length ≤ w)
    (harguments : next.arguments = before.arguments.advance)
    (hmemory : ChangesWithin d.covers before.memory next.memory)
    (h : StoresTo taken rest next left) : StoresTo (d :: taken) (segment :: rest) before left := by
  refine ⟨?_, ?_, fun i e he => ?_, ?_, ?_⟩
  · refine (hmemory.mono fun x hx => ⟨d, List.mem_cons_self, hx⟩).trans (h.memory.mono ?_)
    rintro x ⟨e, he, hx⟩
    exact ⟨e, List.mem_cons_of_mem d he, hx⟩
  · rw [h.arguments, harguments, ArgumentList.skip_advance, List.length_cons]
  · cases i with
    | zero =>
      cases he
      exact haddress
    | succ i =>
      have := h.addresses i e he
      rwa [harguments, ArgumentList.skip_advance] at this
  · intro e he
    rcases List.mem_cons.1 he with rfl | he
    · exact hfield
    · exact h.fields e he
  · rw [List.filterMap_cons_some hsegment, List.map_cons, List.cons_prefix_cons]
    exact ⟨rfl, h.directives⟩

theorem runFrom_storesTo (segments : List ScanSegment) (assigned : Nat) (s : State S Arena) :
    StoresTo (destinations segments s) segments s.frame
      (after (runFrom assigned segments s)).frame := by
  induction segments generalizing assigned s with
  | nil => exact .nothing rfl rfl
  | cons segment rest ih =>
    have hcases := matchSegment_cases segment s
    unfold destinations runFrom
    cases hstep : matchSegment segment s with
    | error e t =>
      rw [hstep] at hcases
      rw [bind_of_error hstep, List.append_nil]
      rcases hcases with ⟨hnone, hsame, _⟩ | ⟨d, hsome, hstores, haddress, hfield, hargs, hmem⟩
      · rw [hnone]
        exact .nothing hsame.1 hsame.2
      · rw [hsome]
        exact .cons hstores haddress hfield hargs hmem (.nothing rfl rfl)
    | ok progress t =>
      rw [hstep] at hcases
      rw [bind_of_ok hstep]
      cases progress with
      | stopped status =>
        rw [List.append_nil]
        rcases hcases with ⟨hnone, hsame, _⟩ | ⟨d, hsome, hstores, haddress, hfield, hargs, hmem⟩
        · rw [hnone]
          exact .nothing hsame.1 hsame.2
        · rw [hsome]
          exact .cons hstores haddress hfield hargs hmem (.nothing rfl rfl)
      | assigned =>
        have hrest := ih (assigned + 1) t
        rcases hcases with ⟨hnone, hsame, hends⟩ | ⟨d, hsome, hstores, haddress, hfield, hargs, hmem⟩
        · rw [hnone]
          exact .pass (hends _ _ rfl fun _ h => nomatch h) hsame.1 hsame.2 hrest
        · rw [hsome]
          exact .cons hstores haddress hfield hargs hmem hrest
      | skipped =>
        have hrest := ih assigned t
        rcases hcases with ⟨hnone, hsame, hends⟩ | ⟨d, hsome, hstores, haddress, hfield, hargs, hmem⟩
        · rw [hnone]
          exact .pass (hends _ _ rfl fun _ h => nomatch h) hsame.1 hsame.2 hrest
        · rw [hsome]
          exact .cons hstores haddress hfield hargs hmem hrest

/-- The segments that a scan under a format matches: none when it does not parse. -/
def segmentsOf (format : List Byte) : List ScanSegment :=
  match ScanFormat.parse format with
  | .error _ => []
  | .ok segments => segments

theorem noteFailure_stores {M : Type} (e : ScanError) (frame : Frame M) :
    (noteFailure e frame).arguments = frame.arguments ∧
      (noteFailure e frame).memory = frame.memory := by
  cases e with
  | argument e => exact ⟨rfl, rfl⟩
  | format e | memory e =>
    unfold noteFailure
    dsimp only [ScanError.faultKind?]
    split <;> exact ⟨rfl, rfl⟩

/-- A segment that stops a scan takes no address and changes nothing, and nothing
behind it is matched. -/
theorem runFrom_of_stopped {segment : ScanSegment} {s t : State S Arena} {status : ScanStatus}
    (h : matchSegment segment s = .ok (.stopped status) t) (assigned : Nat)
    (rest : List ScanSegment) :
    SameStores s t ∧ runFrom assigned (segment :: rest) s = .ok (assigned, status) t := by
  refine ⟨?_, ?_⟩
  · cases segment with
    | directive spec =>
      have hstep : convert spec s = .ok (.stopped status) t := h
      have heffect := convert_effect spec s
      rw [hstep] at heffect
      cases heffect with
      | nothing hsame _ => exact hsame
      | stored _ hgoes _ _ => exact absurd rfl (hgoes _ _ rfl status)
    | _ =>
      show SameStores s (after (.ok (Progress.stopped status) t))
      rw [← h]
      exact matchSegment_sameStores rfl s
  · unfold runFrom
    rw [bind_of_ok h]
    rfl

/-- A scan changes the arena only at the destinations that its directives take from
the arguments, in order, and at no more of each than its size. Neither the base nor
the size of the arena changes. Suppressed directives, literals and white space leave
arguments and memory alone, and so does the segment that stops a scan, behind which
nothing is matched. -/
theorem scan_stores_within (source : S) (format : List Byte) (frame : Frame Arena) :
    StoresTo (scanDestinations source format frame) (segmentsOf format) frame
        (scan source format frame).2.2 ∧
      (∀ (segment : ScanSegment) (s : State S Arena), segment.storing? = none →
        SameStores s (after (matchSegment segment s))) ∧
      ∀ (segment : ScanSegment) (rest : List ScanSegment) (assigned : Nat) (s t : State S Arena)
        (status : ScanStatus), matchSegment segment s = .ok (.stopped status) t →
        SameStores s t ∧ runFrom assigned (segment :: rest) s = .ok (assigned, status) t := by
  refine ⟨?_, fun segment s h => matchSegment_sameStores h s,
    fun segment rest assigned s t status h => runFrom_of_stopped h assigned rest⟩
  unfold scanDestinations segmentsOf scan run
  cases ScanFormat.parse format with
  | error e =>
    have hfailed := noteFailure_stores (.format e) (frame.note (·.count .scanCalls))
    exact .nothing hfailed.1 hfailed.2
  | ok segments =>
    have hrun := runFrom_storesTo segments 0
      ⟨Reader.start source, frame.note (·.count .scanCalls)⟩
    dsimp only
    cases hresult : runFrom 0 segments
        ⟨Reader.start source, frame.note (·.count .scanCalls)⟩ with
    | ok result t =>
      rw [hresult] at hrun
      exact hrun.of_stores rfl rfl rfl rfl
    | error e t =>
      rw [hresult] at hrun
      have hfailed := noteFailure_stores e t.frame
      exact hrun.of_stores rfl rfl hfailed.1 hfailed.2

end Runs

end Scan
end CheckedFormat
