import CheckedFormat.Memory.Arena
import CheckedFormat.Proofs.CheckLevels
import CheckedFormat.Proofs.PrintGrammar
/-! What a printing format demands of the arguments.

A directive demands an int for every star, the width's first, and then its value at the
type that the letter and the length modifier say; the demands of a format are those of
its directives in order (`PrintFormat.demands`). A checked call takes its arguments by
that sequence alone. Each step of the engine `Takes` the demands that it stands for, and
`format_takes_demands` puts the steps together: a call that succeeds has taken one
matching slot for every demand, and a call that fails for an argument names the first
demand that is not met and has taken the slots in front of it. -/
namespace CheckedFormat

/-! ### Demands -/

/-- The modifiers that ask for 64 bits of a whole number. -/
def LengthModifier.asksLong : LengthModifier → Bool
  | long | longLong | size | difference | maximal => true
  | _ => false

/-- The type at which a directive demands its value. -/
def Conversion.demand (length : LengthModifier) : Conversion → ArgumentType
  | d | i => if length.asksLong then .long else .int
  | u | o | x | X => if length.asksLong then .unsignedLong else .unsignedInt
  | f | F | e | E | g | G | a | A => .double
  | c => .int
  | s | p | n => .pointer

/-- A star demands an int. -/
def Quantity.demands : Quantity → List ArgumentType
  | fromArgument => [.int]
  | _ => []

/-- What a directive demands, in order. -/
def PrintSpec.demands (spec : PrintSpec) : List ArgumentType :=
  spec.layout.width.demands ++ (spec.layout.precision.demands ++ [spec.conversion.demand spec.length])

def PrintSegment.demands : PrintSegment → List ArgumentType
  | literal _ | percent => []
  | directive spec => spec.demands

/-- What a format demands, in order. -/
def PrintFormat.demands (segments : List PrintSegment) : List ArgumentType :=
  segments.flatMap PrintSegment.demands

/-- A directive that the grammar allows reads its value at the type that it demands. -/
theorem Conversion.argumentType_eq_demand {length : LengthModifier} {conversion : Conversion}
    (hprintable : conversion.isPrintable = true) (hfits : length.printable conversion = true) :
    (OperandKind.ofConversion conversion).argumentType length = conversion.demand length := by
  cases length <;> cases conversion <;>
    first
      | rfl
      | exact absurd hprintable (by decide)
      | exact absurd hfits (by decide)

/-- The letter prints, and the length modifier goes with it. -/
structure PrintSpec.WellFormed (spec : PrintSpec) : Prop where
  printable : spec.conversion.isPrintable = true
  fits : spec.length.printable spec.conversion = true

def PrintSegment.WellFormed : PrintSegment → Prop
  | literal _ | percent => True
  | directive spec => spec.WellFormed

/-- Reading gives well-formed directives only. -/
theorem PrintFormat.wellFormed_of_parse {text : List Byte} {segments : List PrintSegment}
    (h : parse text = .ok segments) : ∀ segment ∈ segments, segment.WellFormed := by
  have htiles : PrintGrammar.grammar.Tiles segments text := PrintGrammar.reads.ok_iff.1 h
  induction htiles with
  | nil => simp
  | run source _ ih =>
    cases source
    exact List.forall_mem_cons.2 ⟨trivial, ih (PrintGrammar.reads.ok_iff.2 ‹_›)⟩
  | directive source _ ih =>
    refine List.forall_mem_cons.2 ⟨?_, ih (PrintGrammar.reads.ok_iff.2 ‹_›)⟩
    cases source with
    | percent => trivial
    | directive d => exact ⟨d.printable, d.fits⟩

/-! ### Lists that meet demands -/

namespace ArgumentList

/-- The slots from the cursor on are there and match the demands, one for one. -/
def Supplies (l : ArgumentList) (demands : List ArgumentType) : Prop :=
  ∀ k type, demands[k]? = some type →
    ∃ slot, l.slots[l.cursor + k]? = some slot ∧ slot.type.compatible type = true

/-- The error says that the slot for a demand is missing, or passed at another type. -/
inductive Denies (l : ArgumentList) (demands : List ArgumentType) (k : Nat) : ArgumentError → Prop
  where
  | missing {type : ArgumentType} (demanded : demands[k]? = some type)
      (missing : l.slots[l.cursor + k]? = none) :
      Denies l demands k (.underrun (l.cursor + k) l.size)
  | mismatched {type : ArgumentType} {slot : Slot} (demanded : demands[k]? = some type)
      (passed : l.slots[l.cursor + k]? = some slot)
      (mismatch : slot.type.compatible type = false) :
      Denies l demands k (.typeMismatch (l.cursor + k) type slot.type)

variable {l : ArgumentList} {demands later : List ArgumentType} {k : Nat} {cause : ArgumentError}

/-- The demand at a place behind the first ones. -/
theorem getElem?_behind {type : ArgumentType} (hk : later[k]? = some type) :
    (demands ++ later)[demands.length + k]? = some type := by
  rwa [List.getElem?_append_right (Nat.le_add_right _ _), Nat.add_sub_cancel_left]

theorem supplies_nil (l : ArgumentList) : l.Supplies [] := by simp [Supplies]

theorem supplies_append (l : ArgumentList) (demands later : List ArgumentType) :
    l.Supplies (demands ++ later) ↔ l.Supplies demands ∧ (l.skip demands.length).Supplies later := by
  constructor
  · intro h
    refine ⟨fun k type hk => h k type ?_, fun k type hk => ?_⟩
    · rw [List.getElem?_append_left (List.getElem?_eq_some_iff.1 hk).1, hk]
    · have hslot := h (demands.length + k) type (getElem?_behind hk)
      rwa [← Nat.add_assoc] at hslot
  · rintro ⟨hfront, hback⟩ k type hk
    by_cases hlt : k < demands.length
    · exact hfront k type (by rwa [List.getElem?_append_left hlt] at hk)
    · rw [List.getElem?_append_right (by omega)] at hk
      obtain ⟨slot, hslot, htype⟩ := hback _ type hk
      refine ⟨slot, ?_, htype⟩
      rw [← hslot]
      simp only [skip]
      congr 1
      omega

theorem Denies.not_supplies (h : l.Denies demands k cause) : ¬ l.Supplies demands := by
  intro hall
  cases h with
  | missing demanded missing =>
    obtain ⟨slot, hslot, _⟩ := hall k _ demanded
    simp [missing] at hslot
  | mismatched demanded passed mismatch =>
    obtain ⟨slot, hslot, htype⟩ := hall k _ demanded
    simp_all

theorem Denies.append (h : l.Denies demands k cause) (later : List ArgumentType) :
    l.Denies (demands ++ later) k cause := by
  have hfront {type : ArgumentType} (hk : demands[k]? = some type) :
      (demands ++ later)[k]? = some type := by
    rw [List.getElem?_append_left (List.getElem?_eq_some_iff.1 hk).1, hk]
  cases h with
  | missing demanded missing => exact .missing (hfront demanded) missing
  | mismatched demanded passed mismatch => exact .mismatched (hfront demanded) passed mismatch

theorem Denies.behind (h : (l.skip demands.length).Denies later k cause) :
    l.Denies (demands ++ later) (demands.length + k) cause := by
  cases h with
  | missing demanded missing =>
    have hslot : l.slots[l.cursor + (demands.length + k)]? = none := by
      rwa [← Nat.add_assoc]
    have hdenies := Denies.missing (getElem?_behind demanded) hslot
    rwa [← Nat.add_assoc] at hdenies
  | @mismatched _ slot demanded passed mismatch =>
    have hslot : l.slots[l.cursor + (demands.length + k)]? = some slot := by
      rwa [← Nat.add_assoc]
    have hdenies := Denies.mismatched (getElem?_behind demanded) hslot mismatch
    rwa [← Nat.add_assoc] at hdenies

/-- The list refuses every misuse, and was not ended. -/
structure Strict (l : ArgumentList) : Prop where
  level : l.level = .checked
  opened : l.ended = false

theorem Strict.skip (h : l.Strict) (n : Nat) : (l.skip n).Strict := ⟨h.level, h.opened⟩

theorem skip_skip (l : ArgumentList) (m n : Nat) : (l.skip m).skip n = l.skip (m + n) := by
  simp [skip, Nat.add_assoc]

end ArgumentList

/-! ### Steps -/

namespace Print
open ArgumentList (Supplies Denies)

variable {M α β : Type}

/-- How a step under demands ends. It succeeds with all demands met and their slots
taken; or it fails for an argument at the first demand that is not met; or it fails for
another cause with the demands met that it came to. -/
inductive Ending (l : ArgumentList) (demands : List ArgumentType) :
    EStateM.Result PrintError (Frame M) α → Prop where
  | done {a : α} {left : Frame M} (met : l.Supplies demands)
      (taken : left.arguments = l.skip demands.length) : Ending l demands (.ok a left)
  | denied {cause : ArgumentError} {left : Frame M} (k : Nat) (met : l.Supplies (demands.take k))
      (unmet : l.Denies demands k cause) (taken : left.arguments = l.skip k) :
      Ending l demands (.error (.argument cause) left)
  | failed {e : PrintError} {left : Frame M} (k : Nat) (other : ∀ cause, e ≠ .argument cause)
      (bound : k ≤ demands.length) (met : l.Supplies (demands.take k))
      (taken : left.arguments = l.skip k) : Ending l demands (.error e left)

/-- On a strict list the step takes the slots for these demands. -/
def Takes (demands : List ArgumentType) (f : Step M α) : Prop :=
  ∀ frame : Frame M, frame.arguments.Strict → Ending frame.arguments demands (f frame)

theorem takes_pure (a : α) : Takes [] (pure a : Step M α) :=
  fun _ _ => .done (ArgumentList.supplies_nil _) rfl

/-- A failure for another cause may come before the demands are looked at. -/
theorem takes_throw {e : PrintError} (h : ∀ cause, e ≠ .argument cause)
    (demands : List ArgumentType) : Takes demands (throw e : Step M α) :=
  fun _ _ => .failed 0 h (Nat.zero_le _) (ArgumentList.supplies_nil _) rfl

theorem takes_bind {demands later : List ArgumentType} {f : Step M α} {g : α → Step M β}
    (hf : Takes demands f) (hg : ∀ {s a t}, f s = .ok a t → Takes later (g a)) :
    Takes (demands ++ later) (f >>= g) := by
  intro frame hstrict
  have hfirst := hf frame hstrict
  cases hstep : f frame with
  | error e left =>
    rw [bind_of_error hstep]
    rw [hstep] at hfirst
    cases hfirst with
    | denied k met unmet taken =>
      have hk : k < demands.length := by
        cases unmet <;> exact (List.getElem?_eq_some_iff.1 ‹demands[k]? = some _›).1
      refine .denied k ?_ (unmet.append later) taken
      rwa [List.take_append_of_le_length (Nat.le_of_lt hk)]
    | failed k other bound met taken =>
      refine .failed k other ?_ ?_ taken
      · simp only [List.length_append]
        omega
      · rwa [List.take_append_of_le_length bound]
  | ok a middle =>
    rw [bind_of_ok hstep]
    rw [hstep] at hfirst
    cases hfirst with
    | done met taken =>
      have hmiddle : middle.arguments.Strict := taken ▸ hstrict.skip _
      have hsecond := hg hstep middle hmiddle
      rw [taken] at hsecond
      have htake (k : Nat) (hk : (frame.arguments.skip demands.length).Supplies (later.take k)) :
          frame.arguments.Supplies ((demands ++ later).take (demands.length + k)) := by
        rw [List.take_length_add_append]
        exact (ArgumentList.supplies_append _ _ _).2 ⟨met, hk⟩
      generalize g a middle = result at hsecond
      cases hsecond with
      | done met' taken' =>
        refine .done ((ArgumentList.supplies_append _ _ _).2 ⟨met, met'⟩) ?_
        rw [taken', ArgumentList.skip_skip, List.length_append]
      | denied k met' unmet taken' =>
        refine .denied (demands.length + k) (htake k met') unmet.behind ?_
        rw [taken', ArgumentList.skip_skip]
      | failed k other bound met' taken' =>
        refine .failed (demands.length + k) other ?_ (htake k met') ?_
        · simp only [List.length_append]
          omega
        · rw [taken', ArgumentList.skip_skip]

/-- A single read. -/
theorem takes_fetch (type : ArgumentType) : Takes [type] (fetch (M := M) type) := by
  intro frame hstrict
  have hlevel : frame.arguments.level.reportsFaults = true := by rw [hstrict.level]; rfl
  have huse : frame.arguments.refusesUse = false := by
    simp [ArgumentList.refusesUse, hstrict.opened]
  unfold fetch Frame.fetch ArgumentList.next ArgumentList.violation? ArgumentList.inspect
  rw [huse, if_neg Bool.false_ne_true]
  cases hslot : frame.arguments.nextSlot? with
  | none =>
    simp only [hlevel, if_true]
    exact .denied 0 (ArgumentList.supplies_nil _) (.missing rfl hslot) rfl
  | some slot =>
    by_cases htype : slot.type.compatible type = true
    · simp only [htype, if_true]
      refine .done (fun k t hk => ?_) rfl
      have hk' : k = 0 ∧ type = t := by
        cases k with
        | zero => simpa using hk
        | succ k => simp at hk
      obtain ⟨rfl, rfl⟩ := hk'
      exact ⟨slot, hslot, htype⟩
    · simp only [htype, hlevel, if_true]
      exact .denied 0 (ArgumentList.supplies_nil _) (.mismatched rfl hslot (by simpa using htype)) rfl

/-- A step that leaves the arguments alone demands nothing. -/
theorem takes_of_kept {f : Step M α}
    (hok : ∀ {frame a left}, f frame = .ok a left → left.arguments = frame.arguments)
    (herror : ∀ {frame e left}, f frame = .error e left →
      left.arguments = frame.arguments ∧ ∀ cause, e ≠ .argument cause) : Takes [] f := by
  intro frame _
  cases hstep : f frame with
  | ok a left => exact .done (ArgumentList.supplies_nil _) (hok hstep)
  | error e left =>
    obtain ⟨hkept, hother⟩ := herror hstep
    exact .failed 0 hother (Nat.le_refl _) (ArgumentList.supplies_nil _) hkept

/-! ### Directives -/

theorem resolveWidth_takes (layout : Layout) :
    Takes layout.width.demands (resolveWidth (M := M) layout) := by
  unfold resolveWidth
  split
  · rename_i hstar
    rw [hstar]
    exact takes_bind (takes_fetch .int) fun _ => takes_pure _
  · have hnothing : layout.width.demands = [] := by
      cases hwidth : layout.width <;> simp_all [Quantity.demands]
    rw [hnothing]
    exact takes_pure _

theorem resolvePrecision_takes (layout : Layout) :
    Takes layout.precision.demands (resolvePrecision (M := M) layout) := by
  unfold resolvePrecision
  split
  · rename_i hstar
    rw [hstar]
    exact takes_bind (takes_fetch .int) fun _ => takes_pure _
  · have hnothing : layout.precision.demands = [] := by
      cases hprecision : layout.precision <;> simp_all [Quantity.demands]
    rw [hnothing]
    exact takes_pure _

/-- A width leaves the precision to be resolved as it is. -/
theorem precision_of_resolveWidth {layout resolved : Layout} {s t : Frame M}
    (h : resolveWidth layout s = .ok resolved t) : resolved.precision = layout.precision := by
  unfold resolveWidth at h
  split at h
  · obtain ⟨bits, u, _, hlater⟩ := ok_of_bind h
    cases hlater
    unfold withWidth
    split <;> rfl
  · cases h
    rfl

theorem resolve_takes (layout : Layout) :
    Takes (layout.width.demands ++ layout.precision.demands) (resolve (M := M) layout) := by
  refine takes_bind (resolveWidth_takes layout) fun h => ?_
  rw [← precision_of_resolveWidth h]
  exact resolvePrecision_takes _

theorem fetchOperand_takes {spec : PrintSpec} (h : spec.WellFormed) :
    Takes [spec.conversion.demand spec.length] (fetchOperand (M := M) spec) := by
  rw [fetchOperand_eq, ← Conversion.argumentType_eq_demand h.printable h.fits]
  exact takes_bind (takes_fetch _) fun _ => takes_pure _

variable [Memory M]

theorem readString_takes (address : Nat) (layout : Layout) :
    Takes [] (readString (M := M) address layout) := by
  apply takes_of_kept
  · intro frame a left h
    unfold readString at h
    dsimp only at h
    generalize Memory.readString frame.memory address _ = result at h
    cases result <;> cases h
    rfl
  · intro frame e left h
    unfold readString at h
    dsimp only at h
    generalize Memory.readString frame.memory address _ = result at h
    cases result <;> cases h
    exact ⟨rfl, by simp⟩

theorem storeCount_takes (address count size : Nat) :
    Takes [] (storeCount (M := M) address count size) := by
  apply takes_of_kept
  · intro frame a left h
    unfold storeCount at h
    generalize Memory.writeInteger frame.memory _ _ _ = result at h
    cases result <;> cases h
    rfl
  · intro frame e left h
    unfold storeCount at h
    generalize Memory.writeInteger frame.memory _ _ _ = result at h
    cases result <;> cases h
    exact ⟨rfl, by simp⟩

/-- The value once taken, rendering it demands nothing more. -/
theorem renderOperand_takes (spec : PrintSpec) (layout : Layout) (written : Nat)
    (operand : Operand) : Takes [] (renderOperand (M := M) spec layout written operand) := by
  cases operand with
  | string address =>
    simp only [renderOperand]
    split
    · exact takes_pure _
    · exact takes_bind (readString_takes _ _) fun _ => takes_pure _
  | count address => exact takes_bind (storeCount_takes _ _ _) fun _ => takes_pure _
  | _ => exact takes_pure _

theorem renderDirective_takes {spec : PrintSpec} (h : spec.WellFormed) (written : Nat) :
    Takes spec.demands (renderDirective (M := M) spec written) := by
  unfold renderDirective PrintSpec.demands
  rw [← List.append_assoc]
  refine takes_bind (resolve_takes spec.layout) fun {_ layout _} _ => ?_
  split
  · exact takes_bind (fetchOperand_takes h) fun _ => renderOperand_takes _ _ _ _
  · exact takes_throw (by simp) _

theorem renderSegment_takes {segment : PrintSegment} (h : segment.WellFormed) (written : Nat) :
    Takes segment.demands (renderSegment (M := M) written segment) := by
  cases segment with
  | directive spec => exact renderDirective_takes h written
  | _ => exact takes_pure _

/-- Segments take what they demand, one after the other. -/
theorem renderFrom_takes {segments : List PrintSegment}
    (h : ∀ segment ∈ segments, segment.WellFormed) (written : Nat) :
    Takes (PrintFormat.demands segments) (renderFrom (M := M) written segments) := by
  induction segments generalizing written with
  | nil => exact takes_pure _
  | cons segment rest ih =>
    obtain ⟨hsegment, hrest⟩ := List.forall_mem_cons.1 h
    refine takes_bind (renderSegment_takes hsegment written) fun {_ piece _} _ => ?_
    dsimp only
    split
    · exact takes_throw (by simp) _
    · have htail := takes_bind (ih hrest (written + piece.length)) fun {_ output _} _ =>
        takes_pure (M := M) (piece ++ output)
      rwa [List.append_nil] at htail

/-! ### Calls -/

omit [Memory M] in
theorem arguments_noteFailure (e : PrintError) (frame : Frame M) :
    (noteFailure e frame).arguments = frame.arguments := by
  cases e <;> simp only [noteFailure, PrintError.faultKind?] <;> split <;> rfl

/-- **A checked call takes exactly the arguments that its format demands.** If it succeeds,
the slots from the cursor on match the demands one for one and the cursor stands behind
them. If it fails for an argument, the error names the first slot that is missing or of
another type than demanded, and the cursor stands in front of it. So it never fails for an
argument when all demands are met. Another failure leaves the cursor behind some of the
demands, all of them met. -/
theorem format_takes_demands {text : List Byte} {segments : List PrintSegment}
    (hparse : PrintFormat.parse text = .ok segments) (frame : Frame M)
    (hlevel : frame.arguments.level = .checked) (hopen : frame.arguments.ended = false) :
    (∀ output left, format text frame = (.ok output, left) →
      frame.arguments.Supplies (PrintFormat.demands segments) ∧
        left.arguments = frame.arguments.skip (PrintFormat.demands segments).length) ∧
    (∀ cause left, format text frame = (.error (.argument cause), left) →
      ∃ k, frame.arguments.Supplies ((PrintFormat.demands segments).take k) ∧
        frame.arguments.Denies (PrintFormat.demands segments) k cause ∧
        left.arguments = frame.arguments.skip k) ∧
    (frame.arguments.Supplies (PrintFormat.demands segments) →
      ∀ cause, (format text frame).1 ≠ .error (.argument cause)) ∧
    ∀ e left, format text frame = (.error e, left) →
      ∃ k ≤ (PrintFormat.demands segments).length,
        frame.arguments.Supplies ((PrintFormat.demands segments).take k) ∧
        left.arguments = frame.arguments.skip k := by
  have hending := renderFrom_takes (M := M) (PrintFormat.wellFormed_of_parse hparse) 0
    (frame.note (·.count .printCalls)) ⟨hlevel, hopen⟩
  have hrender : render text (frame.note (·.count .printCalls)) =
      renderFrom 0 segments (frame.note (·.count .printCalls)) := by
    unfold render
    rw [hparse]
  unfold format
  rw [hrender]
  generalize renderFrom 0 segments (frame.note (·.count .printCalls)) = result at hending
  cases hending with
  | done met taken =>
    refine ⟨?_, ?_, ?_, ?_⟩
    · intro output left h
      cases h
      exact ⟨met, taken⟩
    · intro cause left h
      cases h
    · intro _ cause h
      cases h
    · intro e left h
      cases h
  | denied k met unmet taken =>
    refine ⟨?_, ?_, ?_, ?_⟩
    · intro output left h
      cases h
    · intro cause left h
      cases h
      exact ⟨k, met, unmet, taken⟩
    · intro hall
      exact absurd hall unmet.not_supplies
    · intro e left h
      cases h
      have hk : k < (PrintFormat.demands segments).length := by
        cases unmet <;>
          exact (List.getElem?_eq_some_iff.1 ‹(PrintFormat.demands segments)[k]? = some _›).1
      exact ⟨k, Nat.le_of_lt hk, met, taken⟩
  | failed k other bound met taken =>
    refine ⟨?_, ?_, ?_, ?_⟩
    · intro output left h
      cases h
    · intro cause left h
      cases h
      exact absurd rfl (other cause)
    · intro _ cause h
      cases h
      exact absurd rfl (other cause)
    · intro e left h
      cases h
      exact ⟨k, bound, met, (arguments_noteFailure _ _).trans taken⟩

/-- A frame in front of the second of five arguments, the last of which is too narrow. -/
def misfitFrame : Frame Arena :=
  ⟨⟨[.int 9, .int 8, .int 2, .double 0x400921FB54442D18, .unsignedInt 5], .checked, 1, false⟩,
    .empty, .initial⟩

/-- Both stars and the double are taken; the long behind them is passed as an unsigned
int, which is the fourth demand. -/
theorem format_takes_demands_up_to_misfit :
    PrintFormat.parse (ascii "%*.*f %lx") = .ok
      [.directive ⟨⟨.none, .fromArgument, .fromArgument⟩, .plain, .f⟩, .literal (ascii " "),
        .directive ⟨⟨.none, .absent, .absent⟩, .long, .x⟩] ∧
    misfitFrame.arguments.level = .checked ∧ misfitFrame.arguments.ended = false ∧
    ∃ left, format (ascii "%*.*f %lx") misfitFrame =
        (.error (.argument (.typeMismatch 4 .unsignedLong .unsignedInt)), left) ∧
      misfitFrame.arguments.Supplies [.int, .int, .double] ∧
      left.arguments = misfitFrame.arguments.skip 3 := by
  have hparse : PrintFormat.parse (ascii "%*.*f %lx") = .ok
      [.directive ⟨⟨.none, .fromArgument, .fromArgument⟩, .plain, .f⟩, .literal (ascii " "),
        .directive ⟨⟨.none, .absent, .absent⟩, .long, .x⟩] := ok_of_toOption (by decide +kernel)
  have hfails : (format (ascii "%*.*f %lx") misfitFrame).1 =
      .error (.argument (.typeMismatch 4 .unsignedLong .unsignedInt)) :=
    error_of_no_value (by decide +kernel)
  obtain ⟨_, hdenied, _⟩ := format_takes_demands hparse misfitFrame rfl rfl
  obtain ⟨k, hmet, hunmet, htaken⟩ := hdenied _ _ (Prod.ext hfails rfl)
  have hk : k = 3 := by
    have hplace : 1 + k = 4 := by
      generalize hcause : ArgumentError.typeMismatch 4 .unsignedLong .unsignedInt = cause at hunmet
      cases hunmet with
      | missing => cases hcause
      | mismatched => exact (ArgumentError.typeMismatch.inj hcause).1.symm
    omega
  subst hk
  exact ⟨hparse, rfl, rfl, _, Prod.ext hfails rfl, hmet, htaken⟩

end Print
end CheckedFormat
