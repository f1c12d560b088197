import Mathlib.Order.Filter.EventuallyConst
import PyUploadX.Kit.Program

/-! Results that stop changing while a limit is raised. -/
namespace Kit

open Filter

variable {α β ε : Type}

section Composition

variable {first : Nat → α} {second : Nat → β}

theorem settles_of_eq (settles : EventuallyConst first atTop)
    (same : ∀ limit other, first limit = first other → second limit = second other) :
    EventuallyConst second atTop := by
  obtain ⟨bound, stays⟩ := eventuallyConst_atTop.mp settles
  exact eventuallyConst_atTop.mpr ⟨bound, fun limit within => same limit bound (stays limit within)⟩

/-- What is done with a result under the same limit. -/
theorem settles_next {next : Nat → α → β} (settles : EventuallyConst first atTop)
    (each : ∀ value, EventuallyConst (next · value) atTop) :
    EventuallyConst (fun limit => next limit (first limit)) atTop := by
  obtain ⟨low, stays⟩ := eventuallyConst_atTop.mp settles
  obtain ⟨high, onward⟩ := eventuallyConst_atTop.mp (each (first low))
  have settled : ∀ limit, max low high ≤ limit →
      next limit (first limit) = next high (first low) := by
    intro limit within
    rw [stays limit (le_of_max_le_left within)]
    exact onward limit (le_of_max_le_right within)
  refine eventuallyConst_atTop.mpr ⟨max low high, fun limit within => ?_⟩
  exact (settled limit within).trans (settled _ (le_refl _)).symm

end Composition

/-- What is found once is found under every higher limit. -/
theorem settles_of_found {found : Nat → Option α}
    (stays : ∀ limit value, found limit = some value → found (limit + 1) = some value) :
    EventuallyConst found atTop := by
  by_cases some : ∃ limit value, found limit = some value
  · obtain ⟨bound, value, reached⟩ := some
    have later : ∀ limit, bound ≤ limit → found limit = .some value := by
      intro limit within
      induction within with
      | refl => exact reached
      | step _ ih => exact stays _ value ih
    exact eventuallyConst_atTop.mpr ⟨bound, fun limit within => (later limit within).trans reached.symm⟩
  · have never : found = fun _ => none := by
      funext limit
      rw [Option.eq_none_iff_forall_ne_some]
      exact fun value reached => some ⟨limit, value, reached⟩
    rw [never]
    exact .const none

section Exceptions

theorem settles_bind {first : Nat → Except ε α} {next : Nat → α → Except ε β}
    (settles : EventuallyConst first atTop)
    (each : ∀ value, EventuallyConst (next · value) atTop) :
    EventuallyConst (fun limit => first limit >>= next limit) atTop := by
  have onward : ∀ result : Except ε α, EventuallyConst (fun limit => result >>= next limit) atTop := by
    intro result
    cases result with
    | error failure => exact .const (Except.error failure)
    | ok value => exact each value
  exact @settles_next _ _ first (fun limit result => result >>= next limit) settles onward

theorem settles_mapM {visit : Nat → α → Except ε β}
    (each : ∀ item, EventuallyConst (visit · item) atTop) (items : List α) :
    EventuallyConst (fun limit => items.mapM (visit limit)) atTop := by
  induction items with
  | nil => exact .const _
  | cons item rest ih =>
    simp only [List.mapM_cons]
    exact settles_bind (each item) fun _ => settles_bind ih fun _ => .const _

end Exceptions

end Kit
