import Mathlib.Data.List.Basic

/-! Runs of a step function: what the steps preserve, and which of them may break it. -/
namespace Kit

variable {α ε : Type*} (step : α → ε → α)

/-- Every event of the run meets the condition in the state it finds. -/
def EachStep (condition : α → ε → Prop) : α → List ε → Prop
  | _, [] => True
  | state, event :: rest => condition state event ∧ EachStep condition (step state event) rest

instance decidableEachStep {condition : α → ε → Prop}
    [∀ state event, Decidable (condition state event)] :
    (state : α) → (events : List ε) → Decidable (EachStep step condition state events)
  | _, [] => .isTrue trivial
  | state, event :: rest =>
    haveI : Decidable (EachStep step condition (step state event) rest) :=
      decidableEachStep (step state event) rest
    inferInstanceAs (Decidable (_ ∧ _))

variable {step}

theorem EachStep.of_forall {condition : α → ε → Prop} {events : List ε}
    (always : ∀ state, ∀ event ∈ events, condition state event) (state : α) :
    EachStep step condition state events := by
  induction events generalizing state with
  | nil => trivial
  | cons event rest ih =>
    have now := always state event List.mem_cons_self
    exact ⟨now, ih (fun state other member => always state other (List.mem_cons_of_mem _ member)) _⟩

theorem EachStep.preserves {condition : α → ε → Prop} {holds : α → Prop} {state : α}
    {events : List ε} (each : EachStep step condition state events) (start : holds state)
    (kept : ∀ state event, holds state → condition state event → holds (step state event)) :
    holds (events.foldl step state) := by
  induction events generalizing state with
  | nil => exact start
  | cons event rest ih => exact ih each.2 (kept state event start each.1)

/-- A condition that keeps an invariant going, and with it gives a guarantee at every step. -/
theorem EachStep.guarantees {condition guarantee : α → ε → Prop} {holds : α → Prop} {state : α}
    {events : List ε} (each : EachStep step condition state events) (start : holds state)
    (kept : ∀ state event, holds state → condition state event → holds (step state event))
    (given : ∀ state event, holds state → condition state event → guarantee state event) :
    EachStep step guarantee state events := by
  induction events generalizing state with
  | nil => trivial
  | cons event rest ih =>
    exact ⟨given state event start each.1, ih each.2 (kept state event start each.1)⟩

/-- Conditions that agree in every state of a run agree about the run. -/
theorem EachStep.congr {first second : α → ε → Prop} {holds : α → Prop} {state : α}
    {events : List ε} (start : holds state)
    (kept : ∀ state event, holds state → holds (step state event))
    (agree : ∀ state event, holds state → (first state event ↔ second state event)) :
    EachStep step first state events ↔ EachStep step second state events := by
  induction events generalizing state with
  | nil => exact Iff.rfl
  | cons event rest ih => exact and_congr (agree state event start) (ih (kept state event start))

theorem run_preserves {holds : α → Prop} {state : α} (events : List ε) (start : holds state)
    (kept : ∀ state event, holds state → holds (step state event)) :
    holds (events.foldl step state) := by
  have each : EachStep step (fun _ _ => True) state events :=
    .of_forall (fun _ _ _ => trivial) state
  exact each.preserves start fun state event held _ => kept state event held

/-- Where a step keeps a property exactly when it meets the condition, every state of a run
has the property exactly when every step meets the condition. -/
theorem always_iff_eachStep {condition : α → ε → Prop} {allowed : α → ε → Prop}
    {holds : α → Prop} {state : α} {events : List ε} (each : EachStep step allowed state events)
    (start : holds state)
    (kept : ∀ state event, allowed state event → holds state →
      (holds (step state event) ↔ condition state event)) :
    (∀ count, holds ((events.take count).foldl step state)) ↔
      EachStep step condition state events := by
  induction events generalizing state with
  | nil => exact iff_of_true (fun count => by rw [List.take_nil]; exact start) trivial
  | cons event rest ih =>
    have next := kept state event each.1 start
    constructor
    · intro always
      have went : holds (step state event) := always 1
      exact ⟨next.mp went, (ih each.2 went).mp fun count => always (count + 1)⟩
    · intro meets count
      have went := next.mpr meets.1
      cases count with
      | zero => exact start
      | succ count => exact (ih each.2 went).mpr meets.2 count

end Kit
