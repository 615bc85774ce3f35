import CheckedFormat.Proofs.Destinations
import CheckedFormat.Proofs.DrawnSlots
import CheckedFormat.Proofs.PrintJoining
import CheckedFormat.Proofs.Suppression
/-! Counts left out of printing formats.

A count stores the length of the output so far and prints nothing. Leaving all counts out of
a format, and what they take out of the arguments, leaves the output as it is, unless a
string that is printed later lies where a count has stored. Each count puts the length in as
many bytes as its modifier says, and no other byte changes (`counts_print_nothing`). -/
namespace CheckedFormat

/-! ### What a directive takes -/

/-- The most bytes of a string that a layout asks for, if it says. -/
def Layout.limit (layout : Layout) : Option Nat :=
  match layout.precision with
  | .given places => some places
  | _ => none

/-- The directive counts bytes. -/
def PrintSegment.isCount : PrintSegment → Bool
  | directive spec => spec.conversion == .n
  | _ => false

namespace Print
variable {M : Type}

/-- Takes all that a directive asks for: its layout with the stars resolved, and its value. -/
def takeArguments (spec : PrintSpec) : Step M (Layout × Operand) := do
  let layout ← resolve spec.layout
  return (layout, ← fetchOperand spec)

theorem takeArguments_draws {R : M → M → Prop} (spec : PrintSpec) :
    Draws R spec.demands.length (takeArguments (M := M) spec) := by
  rw [spec.length_demands]
  refine draws_bind (resolve_draws _) fun _ => ?_
  exact draws_bind (n := 0) (fetchOperand_draws spec) fun _ => draws_pure _

section Taken
variable {spec : PrintSpec} {layout : Layout} {operand : Operand} {a b s : Frame M}

/-- Frames that hold the same slots for a directive give it the same arguments, and nothing
is stored. -/
theorem takeArguments_of_same (h : takeArguments spec a = .ok (layout, operand) s)
    (hlevel : b.arguments.level = a.arguments.level)
    (hended : b.arguments.ended = a.arguments.ended)
    (hslots : b.arguments.left.take spec.demands.length =
      a.arguments.left.take spec.demands.length) :
    ∃ t, takeArguments spec b = .ok (layout, operand) t ∧ t.memory = b.memory ∧
      t.arguments.level = a.arguments.level ∧ t.arguments.ended = a.arguments.ended ∧
      t.arguments.left = b.arguments.left.drop spec.demands.length := by
  have hdraws := takeArguments_draws (R := fun _ y => y = b.memory) spec a b
    ⟨hlevel, hended, rfl, hslots⟩
  rw [h] at hdraws
  obtain ⟨t, htaken, hdrawn⟩ := hdraws.exists_ok
  exact ⟨t, htaken, hdrawn.beside.memory, hdrawn.beside.level.trans hdrawn.level,
    hdrawn.beside.ended.trans hdrawn.ended, hdrawn.second⟩

theorem taken_of_takeArguments (h : takeArguments spec a = .ok (layout, operand) s) :
    s.memory = a.memory ∧ s.arguments.level = a.arguments.level ∧
      s.arguments.ended = a.arguments.ended ∧
      s.arguments.left = a.arguments.left.drop spec.demands.length := by
  obtain ⟨t, htaken, hkept⟩ := takeArguments_of_same h rfl rfl rfl
  rw [h] at htaken
  cases htaken
  exact hkept

/-- The value of a directive is an address for the count just where its letter says so. -/
theorem count_iff_of_takeArguments (hformed : spec.WellFormed)
    (h : takeArguments spec a = .ok (layout, operand) s) :
    spec.conversion = .n ↔ ∃ address, operand = .count address := by
  obtain ⟨layout, u, -, hfetch⟩ := ok_of_bind h
  obtain ⟨operand, v, hoperand, hlast⟩ := ok_of_bind hfetch
  cases hlast
  rw [fetchOperand_eq] at hoperand
  obtain ⟨bits, w, -, hbits⟩ := ok_of_bind hoperand
  cases hbits
  constructor
  · intro hconversion
    rw [hconversion]
    exact ⟨_, rfl⟩
  · rintro ⟨address, haddress⟩
    refine Decidable.byContradiction fun hconversion => ?_
    have hkind := ofConversion_ne_count hformed.printable hconversion
    cases hof : OperandKind.ofConversion spec.conversion with
    | count => exact hkind hof
    | _ =>
      rw [hof] at haddress
      cases haddress

end Taken

/-! ### The segments that a call comes to -/

/-- A segment that a call comes to, what was printed before it, and the frame that it is met
in. -/
structure Visit (M : Type) where
  segment : PrintSegment
  printed : List Byte
  met : Frame M

namespace Visit

/-- What the segment takes, if it is a directive. -/
def taken? (v : Visit M) : Option (PrintSpec × Layout × Operand) :=
  match v.segment with
  | .directive spec =>
    match takeArguments spec v.met with
    | .ok (layout, operand) _ => some (spec, layout, operand)
    | .error _ _ => none
  | _ => none

/-- Where the segment stores a count, and in how many bytes. -/
def target? (v : Visit M) : Option (Nat × Nat) :=
  match v.taken? with
  | some (spec, _, .count address) => some (address, spec.length.integerSize)
  | _ => none

/-- The addresses that the segment stores to. -/
def stored (v : Visit M) : List Nat :=
  match v.target? with
  | some (address, size) => List.range' address size
  | none => []

/-- The addresses that the segment reads a string from: up to its zero byte, or up to its
precision. -/
def looked (v : Visit Arena) : List Nat :=
  match v.taken? with
  | some (_, layout, .string address) =>
    match v.met.memory.readString address layout.limit with
    | .ok text => List.range' address (Arena.extent layout.limit text)
    | .error _ => []
  | _ => []

theorem mem_stored_iff {v : Visit M} {x : Nat} :
    x ∈ v.stored ↔ ∃ address size, v.target? = some (address, size) ∧
      address ≤ x ∧ x < address + size := by
  unfold stored
  cases v.target? with
  | none => exact iff_of_false nofun nofun
  | some target =>
    constructor
    · intro h
      exact ⟨_, _, rfl, List.mem_range'_1.1 h⟩
    · rintro ⟨address, size, htarget, h⟩
      cases htarget
      exact List.mem_range'_1.2 h

variable {spec : PrintSpec} {layout : Layout} {operand : Operand} {printed : List Byte}

theorem taken?_of_takeArguments {a s : Frame M}
    (h : takeArguments spec a = .ok (layout, operand) s) :
    taken? ⟨.directive spec, printed, a⟩ = some (spec, layout, operand) := by
  simp only [taken?, h]

theorem target?_of_count {a s : Frame M} {address : Nat}
    (h : takeArguments spec a = .ok (layout, .count address) s) :
    target? ⟨.directive spec, printed, a⟩ = some (address, spec.length.integerSize) := by
  simp only [target?, taken?_of_takeArguments h]

theorem mem_looked_of_string {a s : Frame Arena} {address x : Nat} {text : List Byte}
    (h : takeArguments spec a = .ok (layout, .string address) s)
    (htext : a.memory.readString address layout.limit = .ok text) (hlow : address ≤ x)
    (hhigh : x < address + Arena.extent layout.limit text) :
    x ∈ looked ⟨.directive spec, printed, a⟩ := by
  simp only [looked, taken?_of_takeArguments h, htext]
  exact List.mem_range'_1.2 ⟨hlow, hhigh⟩

end Visit

/-! ### Printing what was taken -/

variable [Memory M] {spec : PrintSpec} {layout : Layout} {operand : Operand} {a s t : Frame M}
  {written : Nat} {piece : List Byte}

/-- A directive prints its value once it has taken all that it asks for, within the limits. -/
theorem renderDirective_eq_ok_iff :
    renderDirective spec written a = .ok piece t ↔
      ∃ layout operand s, takeArguments spec a = .ok (layout, operand) s ∧
        withinLimits layout = true ∧ renderOperand spec layout written operand s = .ok piece t := by
  rw [renderDirective_eq]
  constructor
  · intro h
    obtain ⟨layout, u, hresolve, h⟩ := ok_of_bind h
    unfold renderResolved at h
    split at h
    · rename_i hlimits
      obtain ⟨operand, s, hfetch, hrender⟩ := ok_of_bind h
      refine ⟨layout, operand, s, ?_, hlimits, hrender⟩
      unfold takeArguments
      rw [bind_of_ok hresolve, bind_of_ok hfetch]
      rfl
    · cases h
  · rintro ⟨layout, operand, s, htaken, hlimits, hrender⟩
    obtain ⟨_, u, hresolve, h⟩ := ok_of_bind htaken
    obtain ⟨_, v, hfetch, hlast⟩ := ok_of_bind h
    cases hlast
    rw [bind_of_ok hresolve]
    unfold renderResolved
    rw [if_pos hlimits, bind_of_ok hfetch]
    exact hrender

theorem readString_eq_ok_iff {address : Nat} {text : List Byte} :
    readString address layout s = .ok text t ↔
      Memory.readString s.memory address layout.limit = .ok text ∧ t = s := by
  have hread : readString address layout s =
      match Memory.readString s.memory address layout.limit with
      | .ok text => .ok text s
      | .error e => .error (.memory e) s := rfl
  rw [hread]
  cases Memory.readString s.memory address layout.limit with
  | ok text' =>
    constructor
    · intro h
      cases h
      exact ⟨rfl, rfl⟩
    · rintro ⟨htext, rfl⟩
      cases htext
      rfl
  | error e => exact iff_of_false nofun nofun

/-- A value that is no address for the count is printed without a change, and wherever the
same string is read. -/
theorem renderOperand_of_ne_count (hcount : ∀ address, operand ≠ .count address)
    (h : renderOperand spec layout written operand s = .ok piece t) :
    t = s ∧ ∀ s' : Frame M, (∀ address text, operand = .string address → address ≠ 0 →
        Memory.readString s.memory address layout.limit = .ok text →
        Memory.readString s'.memory address layout.limit = .ok text) →
      renderOperand spec layout written operand s' = .ok piece s' := by
  cases operand with
  | count address => exact absurd rfl (hcount address)
  | string address =>
    simp only [renderOperand] at h ⊢
    split at h
    · rename_i hnull
      cases h
      refine ⟨rfl, fun s' _ => ?_⟩
      rw [if_pos hnull]
      rfl
    · rename_i hsome
      obtain ⟨text, u, hread, hlast⟩ := ok_of_bind h
      cases hlast
      obtain ⟨htext, hframe⟩ := readString_eq_ok_iff.1 hread
      refine ⟨hframe, fun s' hsame => ?_⟩
      rw [if_neg hsome,
        bind_of_ok (readString_eq_ok_iff.2 ⟨hsame address text rfl hsome htext, rfl⟩)]
      rfl
  | _ =>
    cases h
    exact ⟨rfl, fun s' _ => rfl⟩

/-! ### Runs -/

/-- The segments that are come to, in order, behind what was printed before. -/
def visits (printed : List Byte) : List PrintSegment → Frame M → List (Visit M)
  | [], _ => []
  | segment :: rest, s =>
    ⟨segment, printed, s⟩ ::
      match renderSegment printed.length segment s with
      | .ok piece t => visits (printed ++ piece) rest t
      | .error _ _ => []

/-- A run that goes through visits its first segment and goes through the rest. -/
theorem exists_of_renderFrom_cons {printed output : List Byte} {segment : PrintSegment}
    {rest : List PrintSegment}
    (h : renderFrom printed.length (segment :: rest) a = .ok output t) :
    ∃ piece middle text, renderSegment printed.length segment a = .ok piece middle ∧
      (printed ++ piece).length ≤ intMax ∧
      renderFrom (printed ++ piece).length rest middle = .ok text t ∧ output = piece ++ text ∧
      visits printed (segment :: rest) a =
        ⟨segment, printed, a⟩ :: visits (printed ++ piece) rest middle := by
  obtain ⟨piece, middle, text, hpiece, hbound, hrest, rfl⟩ := renderFrom_cons_eq_ok_iff.1 h
  rw [← List.length_append] at hbound hrest
  exact ⟨piece, middle, text, hpiece, hbound, hrest, rfl, by rw [visits, hpiece]⟩

/-- A run that goes through comes to all segments. -/
theorem segments_of_visits {printed output : List Byte} {segments : List PrintSegment}
    (h : renderFrom printed.length segments a = .ok output t) :
    (visits printed segments a).map (·.segment) = segments := by
  induction segments generalizing printed output a with
  | nil => rfl
  | cons segment rest ih =>
    obtain ⟨piece, middle, text, -, -, hrest, -, hvisited⟩ := exists_of_renderFrom_cons h
    rw [hvisited, List.map_cons, ih hrest]

/-- What was printed before a segment is the output of the segments before it. -/
theorem renderFrom_of_visits {printed output : List Byte} {segments : List PrintSegment}
    (h : renderFrom printed.length segments a = .ok output t) {before behind : List (Visit M)}
    {v : Visit M} (hvisits : visits printed segments a = before ++ v :: behind) :
    ∃ front, renderFrom printed.length (before.map (·.segment)) a = .ok front v.met ∧
      v.printed = printed ++ front := by
  induction segments generalizing printed output a before with
  | nil =>
    exact absurd hvisits (by simp [visits])
  | cons segment rest ih =>
    obtain ⟨piece, middle, text, hpiece, hbound, hrest, -, hvisited⟩ := exists_of_renderFrom_cons h
    rw [hvisited] at hvisits
    cases before with
    | nil =>
      obtain ⟨rfl, -⟩ := List.cons.inj hvisits
      exact ⟨[], rfl, (List.append_nil printed).symm⟩
    | cons first before =>
      obtain ⟨rfl, hlater⟩ := List.cons.inj hvisits
      obtain ⟨front, hfront, hprinted⟩ := ih hrest hlater
      refine ⟨piece ++ front, ?_, by rw [hprinted, List.append_assoc]⟩
      rw [List.length_append] at hbound hfront
      exact renderFrom_cons_eq_ok_iff.2 ⟨piece, middle, front, hpiece, hbound, hfront, rfl⟩

/-! ### What counts store -/

section Stores
variable {a t : Frame Arena} {segment : PrintSegment} {segments : List PrintSegment}
  {printed piece output : List Byte}

/-- Just the counts store. -/
theorem isCount_of_target? (hformed : segment.WellFormed) {target : Nat × Nat}
    (h : Visit.target? ⟨segment, printed, a⟩ = some target) : segment.isCount = true := by
  cases segment with
  | literal | percent => cases h
  | directive spec =>
    cases htaken : takeArguments spec a with
    | error e s => simp [Visit.target?, Visit.taken?, htaken] at h
    | ok taken s =>
      obtain ⟨layout, operand⟩ := taken
      cases operand with
      | count address =>
        exact beq_iff_eq.2 ((count_iff_of_takeArguments hformed htaken).2 ⟨address, rfl⟩)
      | _ => simp [Visit.target?, Visit.taken?, htaken] at h

/-- A segment that counts stores the length of the output before it, in the bytes that its
modifier says, and prints nothing. -/
theorem exists_counts_of_renderSegment (hformed : segment.WellFormed)
    (hcount : segment.isCount = true)
    (h : renderSegment printed.length segment a = .ok piece t) :
    ∃ address size, Visit.target? ⟨segment, printed, a⟩ = some (address, size) ∧ piece = [] ∧
      a.memory.writeBytes address (littleEndian size (printed.length % 2 ^ (8 * size))) =
        .ok t.memory ∧
      t.arguments.level = a.arguments.level ∧ t.arguments.ended = a.arguments.ended ∧
      t.arguments.left = a.arguments.left.drop segment.demands.length := by
  cases segment with
  | literal | percent => cases hcount
  | directive spec =>
    obtain ⟨layout, operand, s, htaken, -, hrender⟩ := renderDirective_eq_ok_iff.1 h
    obtain ⟨address, rfl⟩ := (count_iff_of_takeArguments hformed htaken).1 (eq_of_beq hcount)
    obtain ⟨hmemory, hkept⟩ := taken_of_takeArguments htaken
    obtain ⟨_, u, hstore, hlast⟩ := ok_of_bind hrender
    cases hlast
    refine ⟨address, spec.length.integerSize, Visit.target?_of_count htaken, rfl, ?_⟩
    unfold storeCount at hstore
    cases hwrite : Memory.writeInteger s.memory address (BitVec.ofNat 64 printed.length)
        spec.length.integerSize with
    | error e => simp [hwrite] at hstore
    | ok memory =>
      rw [hwrite] at hstore
      cases hstore
      have hsize : integerSizes.contains spec.length.integerSize = true ∧
          spec.length.integerSize ≤ 8 := by
        cases spec.length <;> decide
      rw [Memory.writeInteger, if_pos hsize.1, Scan.littleEndian_ofNat_mod hsize.2,
        hmemory] at hwrite
      exact ⟨hwrite, hkept⟩

/-- Where a segment goes through, it has a target just if it counts. -/
theorem isSome_target? (hformed : segment.WellFormed)
    (h : renderSegment printed.length segment a = .ok piece t) :
    (Visit.target? ⟨segment, printed, a⟩).isSome = segment.isCount := by
  cases htarget : Visit.target? ⟨segment, printed, a⟩ with
  | some target => exact (isCount_of_target? hformed htarget).symm
  | none =>
    refine (Bool.eq_false_iff.2 fun hcount => ?_).symm
    obtain ⟨address, size, hcounts, -⟩ := exists_counts_of_renderSegment hformed hcount h
    cases htarget.symm.trans hcounts

/-- A segment that counts nothing prints the same wherever it meets the same slots and reads
the same string, and leaves memory alone. -/
theorem exists_kept_of_renderSegment (hformed : segment.WellFormed)
    (hcount : segment.isCount = false)
    (h : renderSegment printed.length segment a = .ok piece t) {b : Frame Arena}
    (hlevel : b.arguments.level = a.arguments.level)
    (hended : b.arguments.ended = a.arguments.ended)
    (hslots : b.arguments.left.take segment.demands.length =
      a.arguments.left.take segment.demands.length)
    {touched : Nat → Prop} (hmemory : Arena.ChangesWithin touched b.memory a.memory)
    (hreads : ∀ x, touched x → x ∉ Visit.looked ⟨segment, printed, a⟩) :
    (t.memory = a.memory ∧ t.arguments.level = a.arguments.level ∧
        t.arguments.ended = a.arguments.ended ∧
        t.arguments.left = a.arguments.left.drop segment.demands.length) ∧
      ∃ u, renderSegment printed.length segment b = .ok piece u ∧ u.memory = b.memory ∧
        u.arguments.level = t.arguments.level ∧ u.arguments.ended = t.arguments.ended ∧
        u.arguments.left = b.arguments.left.drop segment.demands.length := by
  cases segment with
  | literal | percent =>
    cases h
    exact ⟨⟨rfl, rfl, rfl, rfl⟩, b, rfl, rfl, hlevel, hended, rfl⟩
  | directive spec =>
    obtain ⟨layout, operand, s, htaken, hlimits, hrender⟩ := renderDirective_eq_ok_iff.1 h
    have hother : ∀ address, operand ≠ .count address := by
      rintro address rfl
      have hletter := (count_iff_of_takeArguments hformed htaken).2 ⟨address, rfl⟩
      simp [PrintSegment.isCount, hletter] at hcount
    obtain ⟨rfl, hagain⟩ := renderOperand_of_ne_count hother hrender
    have hkept := taken_of_takeArguments htaken
    obtain ⟨hstays, hlevelStays, hendedStays, -⟩ := id hkept
    obtain ⟨u, htaken', hstays', hlevel', hended', hleft'⟩ :=
      takeArguments_of_same htaken hlevel hended hslots
    refine ⟨hkept, u, ?_, hstays', hlevel'.trans hlevelStays.symm, hended'.trans hendedStays.symm,
      hleft'⟩
    refine renderDirective_eq_ok_iff.2 ⟨layout, operand, u, htaken', hlimits, hagain u ?_⟩
    rintro address text rfl hsome hread
    rw [hstays] at hread
    rw [hstays']
    refine Arena.readString_of_same hread hmemory.base.symm hmemory.size.symm fun x hlow hhigh => ?_
    refine (hmemory.outside x fun htouched => hreads x htouched ?_).symm
    exact Visit.mem_looked_of_string htaken hread hlow hhigh

/-- A segment changes memory at most where it stores its count. -/
theorem changesWithin_of_renderSegment (hformed : segment.WellFormed)
    (h : renderSegment printed.length segment a = .ok piece t) :
    Arena.ChangesWithin (· ∈ Visit.stored ⟨segment, printed, a⟩) a.memory t.memory := by
  cases hcount : segment.isCount with
  | true =>
    obtain ⟨address, size, hcounts, -, hwrite, -⟩ := exists_counts_of_renderSegment hformed hcount h
    refine Arena.changesWithin_of_writeBytes hwrite fun x hlow hhigh => ?_
    rw [length_littleEndian] at hhigh
    exact Visit.mem_stored_iff.2 ⟨address, size, hcounts, hlow, hhigh⟩
  | false =>
    obtain ⟨⟨hmemory, -⟩, -⟩ := exists_kept_of_renderSegment hformed hcount h rfl rfl rfl
      (Arena.ChangesWithin.refl (fun _ => False) _) nofun
    rw [hmemory]
    exact .refl _ _

/-- A run changes memory at most where its counts are stored. -/
theorem changesWithin_of_renderFrom (hformed : ∀ segment ∈ segments, segment.WellFormed)
    (h : renderFrom printed.length segments a = .ok output t) :
    Arena.ChangesWithin (fun x => ∃ v ∈ visits printed segments a, x ∈ v.stored) a.memory
      t.memory := by
  induction segments generalizing printed output a with
  | nil =>
    cases h
    exact .refl _ _
  | cons segment rest ih =>
    obtain ⟨hfirst, hlater⟩ := List.forall_mem_cons.1 hformed
    obtain ⟨piece, middle, text, hpiece, -, hrest, -, hvisited⟩ := exists_of_renderFrom_cons h
    rw [hvisited]
    have hsegment := changesWithin_of_renderSegment hfirst hpiece
    refine (hsegment.mono fun x hx => ?_).trans ((ih hlater hrest).mono fun x hx => ?_)
    · exact ⟨_, List.mem_cons_self, hx⟩
    · obtain ⟨v, hv, hstores⟩ := hx
      exact ⟨v, List.mem_cons_of_mem _ hv, hstores⟩

/-- In a run that goes through, the segments with a target are the counts. -/
theorem isSome_target?_of_mem_visits (hformed : ∀ segment ∈ segments, segment.WellFormed)
    (h : renderFrom printed.length segments a = .ok output t) {v : Visit Arena}
    (hv : v ∈ visits printed segments a) : v.target?.isSome = v.segment.isCount := by
  induction segments generalizing printed output a with
  | nil => cases hv
  | cons segment rest ih =>
    obtain ⟨hfirst, hlater⟩ := List.forall_mem_cons.1 hformed
    obtain ⟨piece, middle, text, hpiece, -, hrest, -, hvisited⟩ := exists_of_renderFrom_cons h
    rw [hvisited] at hv
    rcases List.mem_cons.1 hv with rfl | hv
    · exact isSome_target? hfirst hpiece
    · exact ih hlater hrest hv

/-- What a count stores stays where no later count stores over it. -/
theorem byteAt?_of_counts (hformed : ∀ segment ∈ segments, segment.WellFormed)
    (h : renderFrom printed.length segments a = .ok output t) {before behind : List (Visit Arena)}
    {v : Visit Arena} (hvisits : visits printed segments a = before ++ v :: behind)
    {address size k : Nat} (hcounts : v.target? = some (address, size)) (hk : k < size)
    (hlast : ∀ w ∈ behind, address + k ∉ w.stored) :
    t.memory.byteAt? (address + k) =
      (littleEndian size (v.printed.length % 2 ^ (8 * size)))[k]? := by
  induction segments generalizing printed output a before with
  | nil => exact absurd hvisits (by simp [visits])
  | cons segment rest ih =>
    obtain ⟨hfirst, hlater⟩ := List.forall_mem_cons.1 hformed
    obtain ⟨piece, middle, text, hpiece, -, hrest, -, hvisited⟩ := exists_of_renderFrom_cons h
    rw [hvisited] at hvisits
    cases before with
    | cons first before => exact ih hlater hrest (List.cons.inj hvisits).2
    | nil =>
      obtain ⟨rfl, rfl⟩ := List.cons.inj hvisits
      obtain ⟨address', size', hcounts', -, hwrite, -⟩ :=
        exists_counts_of_renderSegment hfirst (isCount_of_target? hfirst hcounts) hpiece
      cases hcounts.symm.trans hcounts'
      have hstays := (changesWithin_of_renderFrom hlater hrest).outside (address + k) (by
        rintro ⟨w, hw, hstores⟩
        exact hlast w hw hstores)
      obtain ⟨-, -, -, hbyte⟩ := Arena.writeBytes_spec hwrite
      rw [hstays, hbyte, length_littleEndian, if_pos (by omega), Nat.add_sub_cancel_left]

/-! ### Leaving counts out -/

/-- The slots without those that counts take. -/
def spared : List PrintSegment → List Slot → List Slot
  | [], slots => slots
  | segment :: rest, slots =>
    (if segment.isCount then [] else slots.take segment.demands.length) ++
      spared rest (slots.drop segment.demands.length)

theorem spared_nil (segments : List PrintSegment) : spared segments [] = [] := by
  induction segments with
  | nil => rfl
  | cons segment rest ih => simp [spared, ih]

/-- A segment that counts nothing finds its slots in front, and the other ones behind. -/
theorem spared_of_isCount (hcount : segment.isCount = false) (rest : List PrintSegment)
    (slots : List Slot) :
    (spared (segment :: rest) slots).take segment.demands.length =
        slots.take segment.demands.length ∧
      (spared (segment :: rest) slots).drop segment.demands.length =
        spared rest (slots.drop segment.demands.length) := by
  rw [spared, hcount, if_neg Bool.false_ne_true]
  by_cases hlength : segment.demands.length ≤ slots.length
  · have hfront : (slots.take segment.demands.length).length = segment.demands.length := by
      rw [List.length_take, Nat.min_eq_left hlength]
    exact ⟨List.take_left' hfront, List.drop_left' hfront⟩
  · have hnone : slots.drop segment.demands.length = [] := List.drop_eq_nil_of_le (by omega)
    rw [hnone, spared_nil, List.append_nil, List.take_take, Nat.min_self]
    refine ⟨rfl, ?_⟩
    rw [List.take_of_length_le (by omega), hnone]

/-- No string that is read later lies where a count stores. -/
def Apart (earlier later : Visit Arena) : Prop := ∀ x ∈ earlier.stored, x ∉ later.looked

instance : DecidableRel Apart :=
  fun earlier later => inferInstanceAs (Decidable (∀ x ∈ earlier.stored, x ∉ later.looked))

/-- **A run without its counts prints the same.** What its counts have stored so far is all
that its memory differs by, and no string is read there. -/
theorem exists_renderFrom_without (hformed : ∀ segment ∈ segments, segment.WellFormed)
    (h : renderFrom printed.length segments a = .ok output t) {b : Frame Arena}
    (hlevel : b.arguments.level = a.arguments.level)
    (hended : b.arguments.ended = a.arguments.ended)
    (hleft : b.arguments.left = spared segments a.arguments.left)
    {touched : Nat → Prop} (hmemory : Arena.ChangesWithin touched b.memory a.memory)
    (hreads : ∀ v ∈ visits printed segments a, ∀ x, touched x → x ∉ v.looked)
    (hapart : (visits printed segments a).Pairwise Apart) :
    ∃ u, renderFrom printed.length (segments.filter fun segment => !segment.isCount) b =
        .ok output u ∧ u.memory = b.memory := by
  induction segments generalizing printed output a b touched with
  | nil =>
    cases h
    exact ⟨b, rfl, rfl⟩
  | cons segment rest ih =>
    obtain ⟨hfirst, hlater⟩ := List.forall_mem_cons.1 hformed
    obtain ⟨piece, middle, text, hpiece, hbound, hrest, rfl, hvisited⟩ :=
      exists_of_renderFrom_cons h
    rw [hvisited] at hreads hapart
    obtain ⟨hnow, hreads⟩ := List.forall_mem_cons.1 hreads
    obtain ⟨hstores, hapart⟩ := List.pairwise_cons.1 hapart
    cases hcount : segment.isCount with
    | true =>
      obtain ⟨address, size, -, rfl, -, hlevel', hended', htaken⟩ :=
        exists_counts_of_renderSegment hfirst hcount hpiece
      have hchange := changesWithin_of_renderSegment hfirst hpiece
      rw [spared, hcount, if_pos rfl, List.nil_append, ← htaken] at hleft
      rw [List.append_nil] at hrest hreads hapart hstores
      rw [List.filter_cons_of_neg (by rw [hcount]; decide)]
      -- From here on the memories may differ where this count has stored, too.
      have hwider : Arena.ChangesWithin
          (fun x => touched x ∨ x ∈ Visit.stored ⟨segment, printed, a⟩) b.memory middle.memory :=
        (hmemory.mono fun _ => .inl).trans (hchange.mono fun _ => .inr)
      refine ih hlater hrest (hlevel.trans hlevel'.symm) (hended.trans hended'.symm) hleft hwider
        ?_ hapart
      rintro v hv x (hbefore | hnew)
      · exact hreads v hv x hbefore
      · exact hstores v hv x hnew
    | false =>
      obtain ⟨hslots, hbehind⟩ := spared_of_isCount hcount rest a.arguments.left
      obtain ⟨⟨hstays, -, -, htaken⟩, u, hpiece', hstays', hlevel', hended', htaken'⟩ :=
        exists_kept_of_renderSegment hfirst hcount hpiece hlevel hended (by rw [hleft, hslots])
          hmemory hnow
      obtain ⟨last, hrest', hlast⟩ := ih hlater hrest hlevel' hended'
        (by rw [htaken', htaken, hleft, hbehind]) (by rwa [hstays, hstays']) hreads hapart
      rw [List.filter_cons_of_pos (by rw [hcount]; rfl)]
      rw [List.length_append] at hbound hrest'
      exact ⟨last, renderFrom_cons_eq_ok_iff.2 ⟨piece, u, text, hpiece', hbound, hrest', rfl⟩,
        hlast.trans hstays'⟩

end Stores
end Print

/-! ### Formats without their counts -/

namespace PrintFormat

/-- The segments of a format, each with its text: the texts are the whole format, and each
is a format of that one segment. -/
structure Cut (text : List Byte) (pieces : List (PrintSegment × List Byte)) : Prop where
  whole : pieces.flatMap (·.2) = text
  segments : parse text = .ok (pieces.map (·.1))
  each : ∀ piece ∈ pieces, parse piece.2 = .ok [piece.1]

/-- The text that is left without the counts. -/
def withoutCounts (pieces : List (PrintSegment × List Byte)) : List Byte :=
  (pieces.filter fun piece => !piece.1.isCount).flatMap (·.2)

/-- A run is read on its own as in a format. -/
theorem parse_run {segment : PrintSegment} {run rest : List Byte}
    (h : PrintGrammar.IsRun segment run rest) : parse run = .ok [segment] := by
  obtain ⟨hrun⟩ := h
  have halone : PrintGrammar.IsRun (.literal run) run [] :=
    .literal ⟨hrun.nonempty, hrun.all, .nil _⟩
  have htile : PrintGrammar.grammar.Tiles [.literal run] (run ++ []) := .run halone .nil
  rw [List.append_nil] at htile
  exact PrintGrammar.reads.ok_iff.2 htile

/-- So is a directive. -/
theorem parse_source {segment : PrintSegment} {body : List Byte}
    (h : PrintGrammar.IsSource segment body) :
    parse (opener :: body) = .ok [segment] := by
  have htile : PrintGrammar.grammar.Tiles [segment] (opener :: (body ++ [])) :=
    .directive h .nil
  rw [List.append_nil] at htile
  exact PrintGrammar.reads.ok_iff.2 htile

/-- Every format that is read can be cut. -/
theorem exists_cut {text : List Byte} {segments : List PrintSegment}
    (h : parse text = .ok segments) : ∃ pieces, Cut text pieces := by
  have htiles : PrintGrammar.grammar.Tiles segments text := PrintGrammar.reads.ok_iff.1 h
  suffices hpieces : ∃ pieces : List (PrintSegment × List Byte), pieces.flatMap (·.2) = text ∧
      pieces.map (·.1) = segments ∧ ∀ piece ∈ pieces, parse piece.2 = .ok [piece.1] by
    obtain ⟨pieces, hwhole, rfl, heach⟩ := hpieces
    exact ⟨pieces, hwhole, h, heach⟩
  clear h
  induction htiles with
  | nil => exact ⟨[], rfl, rfl, List.forall_mem_nil _⟩
  | @run segment run _ _ source _ ih =>
    obtain ⟨pieces, rfl, rfl, heach⟩ := ih
    exact ⟨(segment, run) :: pieces, List.flatMap_cons, rfl,
      List.forall_mem_cons.2 ⟨parse_run source, heach⟩⟩
  | @directive segment body _ _ source _ ih =>
    obtain ⟨pieces, rfl, rfl, heach⟩ := ih
    exact ⟨(segment, opener :: body) :: pieces, List.flatMap_cons, rfl,
      List.forall_mem_cons.2 ⟨parse_source source, heach⟩⟩

/-- Pieces that are put together are read, and print what they print apart. -/
theorem exists_parse_of_pieces {M : Type} [Memory M] {pieces : List (PrintSegment × List Byte)}
    (h : ∀ piece ∈ pieces, parse piece.2 = .ok [piece.1]) :
    ∃ all, parse (pieces.flatMap (·.2)) = .ok all ∧
      ∀ (written : Nat) (frame left : Frame M) (output : List Byte),
        Print.renderFrom written all frame = .ok output left ↔
          Print.renderFrom written (pieces.map (·.1)) frame = .ok output left := by
  induction pieces with
  | nil => exact ⟨[], PrintGrammar.reads.ok_iff.2 .nil, fun _ _ _ _ => .rfl⟩
  | cons piece pieces ih =>
    obtain ⟨hfirst, hlater⟩ := List.forall_mem_cons.1 h
    obtain ⟨rest, hrest, hsame⟩ := ih hlater
    obtain ⟨all, hall, hjoined⟩ : ∃ all, parse (piece.2 ++ pieces.flatMap (·.2)) = .ok all ∧ _ :=
      PrintGrammar.reads.parse_append PrintGrammar.joins hfirst hrest
    refine ⟨all, hall, fun written frame left output => ?_⟩
    rw [Print.renderFrom_joined hjoined]
    simp only [List.singleton_append, List.map_cons, Print.renderFrom_cons_eq_ok_iff, hsame]

end PrintFormat

/-! ### Calls -/

namespace Print

/-- The segments that a call comes to. -/
def visited {M : Type} [Memory M] (text : List Byte) (frame : Frame M) : List (Visit M) :=
  match PrintFormat.parse text with
  | .ok segments => visits [] segments (frame.note (·.count .printCalls))
  | .error _ => []

/-- The second frame is the first without the arguments that counts take. -/
structure Spares {M : Type} (segments : List PrintSegment) (a b : Frame M) : Prop where
  level : b.arguments.level = a.arguments.level
  ended : b.arguments.ended = a.arguments.ended
  left : b.arguments.left = spared segments a.arguments.left
  memory : b.memory = a.memory

/-- **Counts report what is printed, and print nothing.** Take a call that succeeds, in which
no string is read where an earlier count was stored. Without its counts, and without the
arguments that they took, its stars' among them, the call prints the same and leaves memory
as it was. With them, memory changes only where counts are stored; and each stores the
length of the output of the segments before it, in as many bytes as its modifier says, but
for bytes that a later count stores over. -/
theorem counts_print_nothing {text output : List Byte} {a t : Frame Arena}
    (h : format text a = (.ok output, t)) (hapart : (visited text a).Pairwise Apart) :
    (∃ pieces, PrintFormat.Cut text pieces) ∧
    (∀ pieces, PrintFormat.Cut text pieces →
      (visited text a).map (·.segment) = pieces.map (·.1) ∧
      ∀ b, Spares (pieces.map (·.1)) a b → ∃ u,
        format (PrintFormat.withoutCounts pieces) b = (.ok output, u) ∧ u.memory = a.memory) ∧
    Arena.ChangesWithin (fun x => ∃ v ∈ visited text a, x ∈ v.stored) a.memory t.memory ∧
    ∀ before v behind, visited text a = before ++ v :: behind →
      renderFrom 0 (before.map (·.segment)) (a.note (·.count .printCalls)) =
        .ok v.printed v.met ∧
      v.target?.isSome = v.segment.isCount ∧
      ∀ address size k, v.target? = some (address, size) → k < size →
        (∀ w ∈ behind, address + k ∉ w.stored) →
        t.memory.byteAt? (address + k) =
          (littleEndian size (v.printed.length % 2 ^ (8 * size)))[k]? := by
  obtain ⟨segments, last, hparse, hrender, rfl⟩ := format_eq_ok_iff.1 h
  have hvisited : visited text a = visits [] segments (a.note (·.count .printCalls)) := by
    unfold visited
    rw [hparse]
  rw [hvisited] at hapart ⊢
  have hformed := PrintFormat.wellFormed_of_parse hparse
  have hrun : renderFrom ([] : List Byte).length segments (a.note (·.count .printCalls)) =
      .ok output last := hrender
  have hchange := changesWithin_of_renderFrom hformed hrun
  refine ⟨PrintFormat.exists_cut hparse, fun pieces hcut => ?_, hchange,
    fun before v behind hsplit => ?_⟩
  · cases hparse.symm.trans hcut.segments
    refine ⟨segments_of_visits hrun, fun b hspares => ?_⟩
    obtain ⟨all, hall, hjoined⟩ := PrintFormat.exists_parse_of_pieces (M := Arena)
      fun piece hpiece => hcut.each piece (List.mem_filter.1 hpiece).1
    have hsame : Arena.ChangesWithin (fun _ => False) b.memory a.memory := by
      rw [hspares.memory]
      exact .refl _ _
    obtain ⟨u, hprinted, hmemory⟩ := exists_renderFrom_without hformed hrun
      (b := b.note (·.count .printCalls)) hspares.level hspares.ended hspares.left hsame
      (fun _ _ _ h => h.elim) hapart
    rw [List.filter_map] at hprinted
    refine ⟨_, format_eq_ok_iff.2 ⟨all, u, hall, (hjoined _ _ _ _).2 hprinted, rfl⟩, ?_⟩
    exact hmemory.trans hspares.memory
  · obtain ⟨front, hfront, hprinted⟩ := renderFrom_of_visits hrun hsplit
    obtain rfl : v.printed = front := hprinted
    have hv : v ∈ visits [] segments (a.note (·.count .printCalls)) := by
      rw [hsplit]
      exact List.mem_append_right _ List.mem_cons_self
    exact ⟨hfront, isSome_target?_of_mem_visits hformed hrun hv,
      fun address size k htarget hk hlast =>
        byteAt?_of_counts hformed hrun hsplit htarget hk hlast⟩

/-- A count with a star behind a wide field, in one byte, and a word behind it. -/
theorem narrow_count_left_out :
    let pieces : List (PrintSegment × List Byte) :=
      [(.directive ⟨⟨.none, .fromArgument, .absent⟩, .plain, .d⟩, ascii "%*d"),
        (.directive ⟨⟨.none, .fromArgument, .absent⟩, .char, .n⟩, ascii "%*hhn"),
        (.directive ⟨⟨.none, .absent, .absent⟩, .plain, .s⟩, ascii "%s")]
    let frame (slots : List Slot) : Frame Arena :=
      ⟨.start .checked slots, ((Arena.empty.allocateString (ascii "ok")).2.allocate 8).2, .initial⟩
    let a := frame [.int 300, .int 5, .int 7, .pointer 0x10008, .pointer 0x10000]
    let b := frame [.int 300, .int 5, .pointer 0x10000]
    let output := List.replicate 299 32 ++ ascii "5ok"
    ∃ t u, format (ascii "%*d%*hhn%s") a = (.ok output, t) ∧
      (visited (ascii "%*d%*hhn%s") a).Pairwise Apart ∧
      t.memory.byteAt? 0x10008 = some 44 ∧ PrintFormat.Cut (ascii "%*d%*hhn%s") pieces ∧
      Spares (pieces.map (·.1)) a b ∧ format (ascii "%*d%s") b = (.ok output, u) ∧
      u.memory = a.memory := by
  intro pieces frame a b output
  have hformat : (format (ascii "%*d%*hhn%s") a).1 = .ok output :=
    ok_of_toOption (by decide +kernel)
  have hapart : (visited (ascii "%*d%*hhn%s") a).Pairwise Apart := by decide +kernel
  have heach : ∀ piece ∈ pieces, (PrintFormat.parse piece.2).toOption = some [piece.1] := by
    decide +kernel
  have hcut : PrintFormat.Cut (ascii "%*d%*hhn%s") pieces :=
    ⟨rfl, ok_of_toOption (by decide +kernel), fun piece hpiece =>
      ok_of_toOption (heach piece hpiece)⟩
  have hspares : Spares (pieces.map (·.1)) a b := ⟨rfl, rfl, by decide +kernel, rfl⟩
  obtain ⟨-, hwithout, -, hstored⟩ := counts_print_nothing (Prod.ext hformat rfl) hapart
  obtain ⟨u, hprinted, hmemory⟩ := (hwithout pieces hcut).2 b hspares
  -- The count is the second segment that the call comes to.
  have hcount : 1 < (visited (ascii "%*d%*hhn%s") a).length := by decide +kernel
  have htarget : ∀ h : 1 < (visited (ascii "%*d%*hhn%s") a).length,
      (visited (ascii "%*d%*hhn%s") a)[1].target? = some (0x10008, 1) ∧
        (visited (ascii "%*d%*hhn%s") a)[1].printed.length = 300 := by decide +kernel
  obtain ⟨haddress, hlength⟩ := htarget hcount
  have hsplit := (List.take_append_drop 1 (visited (ascii "%*d%*hhn%s") a)).symm
  rw [List.drop_eq_getElem_cons hcount] at hsplit
  have hbyte := (hstored _ _ _ hsplit).2.2 0x10008 1 0 haddress Nat.one_pos (by decide +kernel)
  rw [hlength] at hbyte
  exact ⟨_, u, Prod.ext hformat rfl, hapart, hbyte, hcut, hspares, hprinted, hmemory⟩

end Print
end CheckedFormat
