import CheckedFormat.Proofs.Demands
import CheckedFormat.Proofs.Finding
/-! Printing by the slots that it draws.

What a step of a printing call does follows from the next slots of the list, as many as it
demands, and from the memory. What the list holds behind them does not matter, nor where in
the list they stand: only the place that an argument error names does. `Draws` says this of
a step. Steps that only take arguments draw over any two memories, and all of a format draws
over one and the same (`renderFrom_draws`). -/
namespace CheckedFormat

/-- A directive demands what the stars of its layout do, and its value. -/
theorem PrintSpec.length_demands (spec : PrintSpec) : spec.demands.length =
    spec.layout.width.demands.length + spec.layout.precision.demands.length + 1 := by
  simp only [demands, List.length_append, List.length_singleton, Nat.add_assoc]

namespace Print

variable {M α β : Type} {R : M → M → Prop} {m n : Nat}

/-! ### Frames and results side by side -/

/-- A second result follows a first: it is the same value in a related frame, or the same
error. Where the first is an error for an argument, which names a place in its own list,
nothing is said of the second. -/
inductive Follows (Q : Frame M → Frame M → Prop) :
    EStateM.Result PrintError (Frame M) α → EStateM.Result PrintError (Frame M) α → Prop where
  | done (v : α) {a b : Frame M} (h : Q a b) : Follows Q (.ok v a) (.ok v b)
  | failed (e : PrintError) (a b : Frame M) : Follows Q (.error e a) (.error e b)
  | refused (cause : ArgumentError) (a : Frame M)
      (result : EStateM.Result PrintError (Frame M) α) :
      Follows Q (.error (.argument cause) a) result

namespace Follows
variable {Q Q' : Frame M → Frame M → Prop} {a b : Frame M}

theorem exists_ok {v : α} {result : EStateM.Result PrintError (Frame M) α}
    (h : Follows Q (.ok v a) result) : ∃ b, result = .ok v b ∧ Q a b := by
  cases h with
  | done _ h => exact ⟨_, rfl, h⟩

theorem exists_error {e : PrintError} {result : EStateM.Result PrintError (Frame M) α}
    (h : Follows Q (.error e a) result) (hother : ∀ cause, e ≠ .argument cause) :
    ∃ b, result = .error e b := by
  cases h with
  | failed => exact ⟨_, rfl⟩
  | refused => exact absurd rfl (hother _)

theorem mono {first second : EStateM.Result PrintError (Frame M) α}
    (h : Follows Q first second) (hwider : ∀ s t, Q s t → Q' s t) : Follows Q' first second := by
  cases h with
  | done v h => exact .done v (hwider _ _ h)
  | failed e s t => exact .failed e s t
  | refused cause s => exact .refused cause s _

/-- One step after another follows, where both do. -/
theorem bind {f f' : Step M α} {g g' : α → Step M β} (hf : Follows Q (f a) (f' b))
    (hg : ∀ v s t, f a = .ok v s → Q s t → Follows Q' (g v s) (g' v t)) :
    Follows Q' ((f >>= g) a) ((f' >>= g') b) := by
  cases hstep : f a with
  | ok v s =>
    rw [hstep] at hf
    obtain ⟨t, hstep', hrelated⟩ := hf.exists_ok
    rw [bind_of_ok hstep, bind_of_ok hstep']
    exact hg v s t hstep hrelated
  | error e s =>
    rw [bind_of_error hstep]
    rw [hstep] at hf
    generalize hresult : f' b = result at hf
    cases hf with
    | failed _ _ t =>
      rw [bind_of_error hresult]
      exact .failed e s t
    | refused cause => exact .refused cause s _

end Follows

/-- The lists are of one kind and hold the same next `n` slots, if any, and the memories are
related. -/
structure Beside (R : M → M → Prop) (n : Nat) (a b : Frame M) : Prop where
  level : b.arguments.level = a.arguments.level
  ended : b.arguments.ended = a.arguments.ended
  memory : R a.memory b.memory
  slots : b.arguments.left.take n = a.arguments.left.take n

/-- On the way to the two later frames `n` slots were taken from either list, and the lists
stayed of their kind. -/
structure Drawn (R : M → M → Prop) (n : Nat) (a b a' b' : Frame M) : Prop where
  beside : Beside R 0 a' b'
  level : a'.arguments.level = a.arguments.level
  ended : a'.arguments.ended = a.arguments.ended
  first : a'.arguments.left = a.arguments.left.drop n
  second : b'.arguments.left = b.arguments.left.drop n

/-- The step draws `n` slots: wherever it meets the same next `n`, it does the same. -/
def Draws (R : M → M → Prop) (n : Nat) (f : Step M α) : Prop :=
  ∀ a b, Beside R n a b → Follows (Drawn R n a b) (f a) (f b)

theorem Beside.mono {a b : Frame M} (h : Beside R n a b) (hle : m ≤ n) : Beside R m a b := by
  refine ⟨h.level, h.ended, h.memory, ?_⟩
  have htake := congrArg (List.take m) h.slots
  rwa [List.take_take, List.take_take, Nat.min_eq_left hle] at htake

/-- Once slots were taken from both, the next ones are those that stood behind them. -/
theorem Drawn.behind {a b a' b' : Frame M} (h : Drawn R m a b a' b') (hall : Beside R (m + n) a b) :
    Beside R n a' b' := by
  refine ⟨h.beside.level, h.beside.ended, h.beside.memory, ?_⟩
  have hdrop := congrArg (List.drop m) hall.slots
  rwa [List.drop_take, List.drop_take, Nat.add_sub_cancel_left, ← h.first, ← h.second] at hdrop

theorem Drawn.trans {a b a' b' a'' b'' : Frame M} (h : Drawn R m a b a' b')
    (h' : Drawn R n a' b' a'' b'') : Drawn R (m + n) a b a'' b'' where
  beside := h'.beside
  level := h'.level.trans h.level
  ended := h'.ended.trans h.ended
  first := by rw [h'.first, h.first, List.drop_drop]
  second := by rw [h'.second, h.second, List.drop_drop]

/-! ### Steps -/

theorem draws_pure (v : α) : Draws R 0 (pure v : Step M α) :=
  fun _ _ h => .done v ⟨h, rfl, rfl, rfl, rfl⟩

theorem draws_throw (e : PrintError) : Draws R n (throw e : Step M α) :=
  fun a b _ => .failed e a b

theorem draws_bind {f : Step M α} {g : α → Step M β} (hf : Draws R m f)
    (hg : ∀ {s v t}, f s = .ok v t → Draws R n (g v)) : Draws R (m + n) (f >>= g) := by
  intro a b h
  refine (hf a b (h.mono (Nat.le_add_right m n))).bind fun v s t hstep hdrawn => ?_
  exact (hg hstep s t (hdrawn.behind h)).mono fun _ _ hlater => hdrawn.trans hlater

/-- A single read. -/
theorem fetch_draws (type : ArgumentType) : Draws R 1 (fetch (M := M) type) := by
  intro a b h
  have hslot : b.arguments.nextSlot? = a.arguments.nextSlot? := by
    have hhead := congrArg List.head? h.slots
    rwa [List.head?_take, List.head?_take, if_neg Nat.one_ne_zero, if_neg Nat.one_ne_zero,
      ← ArgumentList.nextSlot?_eq_head?, ← ArgumentList.nextSlot?_eq_head?] at hhead
  unfold fetch Frame.fetch
  rcases a.arguments.next_cases type with ⟨e, hnext⟩ | hnext
  · rw [hnext]
    exact .refused e _ _
  · rw [hnext, ArgumentList.next_of_nextSlot? hslot h.level h.ended hnext]
    refine .done _ ⟨⟨h.level, h.ended, h.memory, rfl⟩, rfl, rfl, ?_, ?_⟩
    · exact (ArgumentList.left_advance _).trans List.drop_one.symm
    · exact (ArgumentList.left_advance _).trans List.drop_one.symm

/-! ### Directives -/

theorem resolveWidth_draws (layout : Layout) :
    Draws R layout.width.demands.length (resolveWidth (M := M) layout) := by
  unfold resolveWidth
  split
  · rename_i hstar
    rw [hstar]
    exact draws_bind (n := 0) (fetch_draws .int) fun _ => draws_pure _
  · have hnothing : layout.width.demands = [] := by
      cases hwidth : layout.width <;> simp_all [Quantity.demands]
    rw [hnothing]
    exact draws_pure _

theorem resolvePrecision_draws (layout : Layout) :
    Draws R layout.precision.demands.length (resolvePrecision (M := M) layout) := by
  unfold resolvePrecision
  split
  · rename_i hstar
    rw [hstar]
    exact draws_bind (n := 0) (fetch_draws .int) fun _ => draws_pure _
  · have hnothing : layout.precision.demands = [] := by
      cases hprecision : layout.precision <;> simp_all [Quantity.demands]
    rw [hnothing]
    exact draws_pure _

theorem resolve_draws (layout : Layout) :
    Draws R (layout.width.demands.length + layout.precision.demands.length)
      (resolve (M := M) layout) := by
  refine draws_bind (resolveWidth_draws layout) fun h => ?_
  rw [← precision_of_resolveWidth h]
  exact resolvePrecision_draws _

theorem fetchOperand_draws (spec : PrintSpec) : Draws R 1 (fetchOperand (M := M) spec) := by
  rw [fetchOperand_eq]
  exact draws_bind (fetch_draws _) fun _ => draws_pure _

variable [Memory M]

theorem readString_draws (address : Nat) (layout : Layout) :
    Draws Eq 0 (readString (M := M) address layout) := by
  intro a b h
  unfold readString
  dsimp only
  rw [← h.memory]
  cases Memory.readString a.memory address _ with
  | ok text => exact .done text ⟨h, rfl, rfl, rfl, rfl⟩
  | error e => exact .failed _ a b

theorem storeCount_draws (address count size : Nat) :
    Draws Eq 0 (storeCount (M := M) address count size) := by
  intro a b h
  unfold storeCount
  rw [← h.memory]
  cases Memory.writeInteger a.memory address _ size with
  | ok memory => exact .done () ⟨⟨h.level, h.ended, rfl, h.slots⟩, rfl, rfl, rfl, rfl⟩
  | error e => exact .failed _ a b

theorem renderOperand_draws (spec : PrintSpec) (layout : Layout) (written : Nat)
    (operand : Operand) : Draws Eq 0 (renderOperand (M := M) spec layout written operand) := by
  cases operand with
  | string address =>
    simp only [renderOperand]
    split
    · exact draws_pure _
    · exact draws_bind (readString_draws _ _) fun _ => draws_pure _
  | count address => exact draws_bind (storeCount_draws _ _ _) fun _ => draws_pure _
  | _ => exact draws_pure _

/-- What a directive adds once its layout is resolved. -/
def renderResolved (spec : PrintSpec) (written : Nat) (layout : Layout) : Step M (List Byte) :=
  if withinLimits layout then fetchOperand spec >>= renderOperand spec layout written
  else throw .overflow

theorem renderDirective_eq (spec : PrintSpec) (written : Nat) :
    renderDirective (M := M) spec written = resolve spec.layout >>= renderResolved spec written :=
  rfl

theorem renderResolved_draws (spec : PrintSpec) (written : Nat) (layout : Layout) :
    Draws Eq 1 (renderResolved (M := M) spec written layout) := by
  unfold renderResolved
  split
  · exact draws_bind (fetchOperand_draws spec) fun _ => renderOperand_draws _ _ _ _
  · exact draws_throw _

theorem renderSegment_draws (written : Nat) (segment : PrintSegment) :
    Draws Eq segment.demands.length (renderSegment (M := M) written segment) := by
  cases segment with
  | directive spec =>
    show Draws Eq spec.demands.length (renderDirective spec written)
    rw [spec.length_demands]
    exact draws_bind (resolve_draws _) fun _ => renderResolved_draws spec written _
  | _ => exact draws_pure _

/-- Segments draw what they demand, one after the other. -/
theorem renderFrom_draws (segments : List PrintSegment) (written : Nat) :
    Draws Eq (PrintFormat.demands segments).length (renderFrom (M := M) written segments) := by
  induction segments generalizing written with
  | nil => exact draws_pure _
  | cons segment rest ih =>
    rw [PrintFormat.demands, List.flatMap_cons, List.length_append]
    refine draws_bind (renderSegment_draws written segment) fun {_ piece _} _ => ?_
    dsimp only
    split
    · exact draws_throw _
    · exact draws_bind (ih (written + piece.length)) fun _ => draws_pure _

end Print
end CheckedFormat
