import CheckedFormat.Print.Render
import CheckedFormat.Proofs.ReaderPairs
import CheckedFormat.Proofs.Steps
/-! What holds of every step of a formatted call.

Both engines are built from a few steps: taking an argument, reading, storing, giving
up. A property of steps that holds of those and of one step after another holds of
whole calls, and the engines are walked for it once: `Print.StepRules.render` and
`Scan.StepRules.run`. -/
namespace CheckedFormat

/-! ### Printing -/

namespace Print

variable {M : Type}

/-- The value of a directive is what its argument's bits mean. -/
theorem fetchOperand_eq (spec : PrintSpec) :
    fetchOperand (M := M) spec = (do
      let kind := OperandKind.ofConversion spec.conversion
      return Operand.ofBits kind spec.length (← fetch (kind.argumentType spec.length))) := by
  funext frame
  show fetchOperand spec frame = EStateM.bind (fetch _) _ frame
  unfold fetchOperand Frame.fetchOperand EStateM.bind fetch
  dsimp only
  generalize frame.fetch _ = result
  obtain ⟨bits | e, later⟩ := result <;> rfl

variable [Memory M]

/-- What a property of steps owes so that it holds of every printing call. -/
structure StepRules (P : {α : Type} → Step M α → Prop) : Prop where
  pure : ∀ {α : Type} (a : α), P (Pure.pure a)
  bind : ∀ {α β : Type} {f : Step M α} {g : α → Step M β}, P f → (∀ a, P (g a)) → P (f >>= g)
  malformed : ∀ {α : Type} (e : FormatError), P (throw (.format e) : Step M α)
  overflow : ∀ {α : Type}, P (throw .overflow : Step M α)
  fetch : ∀ type, P (Print.fetch type)
  readString : ∀ address layout, P (Print.readString address layout)
  storeCount : ∀ address count size, P (Print.storeCount address count size)

namespace StepRules
variable {P : {α : Type} → Step M α → Prop} (R : StepRules P)
include R

theorem fetchOperand (spec : PrintSpec) : P (Print.fetchOperand spec) := by
  rw [fetchOperand_eq]
  exact R.bind (R.fetch _) fun bits => R.pure _

theorem resolveWidth (layout : Layout) : P (Print.resolveWidth (M := M) layout) := by
  unfold Print.resolveWidth
  split
  · exact R.bind (R.fetch _) fun bits => R.pure _
  · exact R.pure _

theorem resolvePrecision (layout : Layout) : P (Print.resolvePrecision (M := M) layout) := by
  unfold Print.resolvePrecision
  split
  · exact R.bind (R.fetch _) fun bits => R.pure _
  · exact R.pure _

theorem resolve (layout : Layout) : P (Print.resolve (M := M) layout) :=
  R.bind (R.resolveWidth layout) fun later => R.resolvePrecision later

theorem renderOperand (spec : PrintSpec) (layout : Layout) (written : Nat) (operand : Operand) :
    P (Print.renderOperand (M := M) spec layout written operand) := by
  cases operand with
  | string address =>
    show P (if address = 0 then return Field.stringAtNull layout
      else return Field.string (← Print.readString (M := M) address layout) layout)
    split
    · exact R.pure _
    · exact R.bind (R.readString _ _) fun text => R.pure _
  | count address => exact R.bind (R.storeCount _ _ _) fun _ => R.pure _
  | _ => exact R.pure _

theorem renderDirective (spec : PrintSpec) (written : Nat) :
    P (Print.renderDirective (M := M) spec written) := by
  refine R.bind (R.resolve _) fun layout => ?_
  split
  · exact R.bind (R.fetchOperand spec) fun operand => R.renderOperand _ _ _ operand
  · exact R.overflow

theorem renderSegment (written : Nat) (segment : PrintSegment) :
    P (Print.renderSegment (M := M) written segment) := by
  cases segment with
  | literal bytes => exact R.pure _
  | percent => exact R.pure _
  | directive spec => exact R.renderDirective spec written

theorem renderFrom (segments : List PrintSegment) (written : Nat) :
    P (Print.renderFrom (M := M) written segments) := by
  induction segments generalizing written with
  | nil => exact R.pure _
  | cons segment rest ih =>
    refine R.bind (R.renderSegment written segment) fun piece => ?_
    dsimp only
    split
    · exact R.overflow
    · exact R.bind (ih _) fun later => R.pure _

/-- What obeys the rules holds of every printing call. -/
theorem render (format : List Byte) : P (Print.render (M := M) format) := by
  unfold Print.render
  split
  · exact R.malformed _
  · exact R.renderFrom _ _

end StepRules
end Print

/-! ### What readers do to their sources -/

namespace Reader

variable {S : Type} [ByteSource S]

/-- The second reader is the first one after some bytes were obtained and given back. -/
inductive Moves (r : Reader S) : Reader S → Prop where
  | refl : Moves r r
  | get {u : Reader S} : Moves r u → Moves r u.get.2
  | unget {u : Reader S} (b : Byte) : Moves r u → Moves r (u.unget b)

/-- A reader beside itself, moved from a place. -/
def MovedFrom (r : Reader S) (_held : List Byte) (u v : Reader S) : Prop := u = v ∧ Moves r u

theorem coupling_movedFrom (r : Reader S) : Coupling (MovedFrom r) where
  result h := by rw [h.1]
  get h := ⟨by rw [h.1], .get h.2⟩
  unget h := ⟨by rw [h.1], .unget _ h.2⟩

theorem moves_of_coupled {α : Type} {f : Reader S → α × Reader S} {r : Reader S}
    (h : Coupled (MovedFrom r) f f) : Moves r (f r).2 := by
  have hstart : MovedFrom r [] r r := ⟨rfl, .refl⟩
  obtain ⟨-, taken, -, hmoves⟩ := h hstart
  exact hmoves

theorem skipSpace_moves (r : Reader S) : Moves r r.skipSpace.2 :=
  moves_of_coupled fun h => (coupling_movedFrom r).skipSpace h

theorem takeWhile_moves (keep : Byte → Bool) (width : Option Nat) (r : Reader S) :
    Moves r (r.takeWhile keep width).2 :=
  moves_of_coupled fun h => (coupling_movedFrom r).takeWhile keep width h

theorem expect_moves (bytes : List Byte) (r : Reader S) : Moves r (expect bytes r).2 :=
  moves_of_coupled fun h => (coupling_movedFrom r).expect bytes h

theorem tokenFrom_moves {σ : Type} (l : Recogniser σ) (state : σ) (width : Option Nat)
    (r : Reader S) : Moves r (tokenFrom l state width r).2 :=
  moves_of_coupled ((coupling_movedFrom r).tokenFrom l state width)

end Reader

/-! ### Scanning -/

namespace Scan

variable {S M : Type} [ByteSource S]

/-- What a property of steps owes so that it holds of every scanning call. -/
structure StepRules (P : {α : Type} → Step S M α → Prop) : Prop where
  pure : ∀ {α : Type} (a : α), P (Pure.pure a)
  bind : ∀ {α β : Type} {f : Step S M α} {g : α → Step S M β}, P f → (∀ a, P (g a)) → P (f >>= g)
  malformed : ∀ {α : Type} (e : FormatError), P (throw (.format e) : Step S M α)
  reading : ∀ {α : Type} {f : Reader S → α × Reader S}, (∀ r, Reader.Moves r (f r).2) →
    P (Scan.reading f)
  consumed : P Scan.consumed
  fetchAddress : P Scan.fetchAddress
  storing : ∀ f : M → Except MemoryError M, P (Scan.storing f)

namespace StepRules
variable {P : {α : Type} → Step S M α → Prop} (R : StepRules P)
include R

theorem storeNumber (suppress : Bool) (store : M → Nat → Except MemoryError M) :
    P (Scan.storeNumber suppress store) := by
  unfold Scan.storeNumber
  cases suppress with
  | true => exact R.pure _
  | false => exact R.bind R.fetchAddress fun address => R.bind (R.storing _) fun _ => R.pure _

theorem afterSpace {f : Step S M Progress} (hf : P f) : P (Scan.afterSpace f) := by
  refine R.bind (R.reading Reader.skipSpace_moves) fun found => ?_
  cases found with
  | true => exact hf
  | false => exact R.pure _

variable [Memory M]

theorem storeText (suppress terminate : Bool) (bytes : List Byte) :
    P (Scan.storeText suppress terminate bytes) := by
  unfold Scan.storeText
  cases suppress with
  | true => exact R.pure _
  | false =>
    refine R.bind R.fetchAddress fun address => R.bind (R.storing _) fun _ => ?_
    cases terminate with
    | true => exact R.bind (R.storing _) fun _ => R.pure _
    | false => exact R.pure _

theorem convertCount (spec : ScanSpec) : P (Scan.convertCount spec) := by
  unfold Scan.convertCount
  cases spec.suppress with
  | true => exact R.pure _
  | false =>
    exact R.bind R.fetchAddress fun address => R.bind R.consumed fun count =>
      R.bind (R.storing _) fun _ => R.pure _

theorem convertCharacters (spec : ScanSpec) : P (Scan.convertCharacters spec) := by
  refine R.bind (R.reading (Reader.takeWhile_moves _ _)) fun run => ?_
  cases run.bytes.isEmpty with
  | true => exact R.pure _
  | false => exact R.storeText _ _ _

theorem convertString (spec : ScanSpec) : P (Scan.convertString spec) :=
  R.afterSpace (R.bind (R.reading (Reader.takeWhile_moves _ _)) fun _ => R.storeText _ _ _)

theorem convertSet (spec : ScanSpec) (members : ByteSet) : P (Scan.convertSet spec members) := by
  refine R.bind (R.reading (Reader.takeWhile_moves _ _)) fun run => ?_
  cases run.bytes.isEmpty with
  | true => exact R.pure _
  | false => exact R.storeText _ _ _

omit [Memory M] in
/-- A directive that reads a token and stores what it means. -/
theorem convertToken {σ : Type} (l : Recogniser σ) (width : Option Nat)
    {store : Option (List Byte) → Step S M Progress} (hstore : ∀ token, P (store token)) :
    P (Scan.afterSpace do store (← Scan.reading (Reader.token l width))) :=
  R.afterSpace (R.bind (R.reading (Reader.tokenFrom_moves l l.start width)) hstore)

theorem convertInteger (spec : ScanSpec) (base : IntegerToken.Base) (signed : Bool)
    (size : Nat) : P (Scan.convertInteger spec base signed size) := by
  refine R.convertToken _ _ fun token => ?_
  cases token with
  | none => exact R.pure _
  | some token => exact R.storeNumber _ _

theorem convertFloat (spec : ScanSpec) : P (Scan.convertFloat spec) := by
  refine R.convertToken _ _ fun token => ?_
  cases token with
  | none => exact R.pure _
  | some token => exact R.storeNumber _ _

theorem convert (spec : ScanSpec) : P (Scan.convert spec) := by
  unfold Scan.convert
  split
  · exact R.convertSet _ _
  · exact R.convertCount _
  · exact R.convertCharacters _
  · exact R.convertString _
  -- Seven letters of whole numbers, then the floats.
  iterate 7 exact R.convertInteger _ _ _ _
  all_goals exact R.convertFloat _

theorem matchSegment (segment : ScanSegment) : P (Scan.matchSegment segment) := by
  cases segment with
  | space => exact R.bind (R.reading Reader.skipSpace_moves) fun _ => R.pure _
  | literal bytes => exact R.bind (R.reading (Reader.expect_moves _)) fun _ => R.pure _
  | percent =>
    exact R.afterSpace (R.bind (R.reading (Reader.expect_moves _)) fun _ => R.pure _)
  | directive spec => exact R.convert spec

theorem runFrom (segments : List ScanSegment) (assigned : Nat) :
    P (Scan.runFrom assigned segments) := by
  induction segments generalizing assigned with
  | nil => exact R.pure _
  | cons segment rest ih =>
    refine R.bind (R.matchSegment segment) fun progress => ?_
    cases progress with
    | assigned => exact ih _
    | skipped => exact ih _
    | stopped status => exact R.pure _

/-- What obeys the rules holds of every scanning call. -/
theorem run (format : List Byte) : P (Scan.run format) := by
  unfold Scan.run
  split
  · exact R.malformed _
  · exact R.runFrom _ _

end StepRules
end Scan
end CheckedFormat
