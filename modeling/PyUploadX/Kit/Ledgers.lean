import Mathlib.Data.Set.Defs
import Mathlib.Data.List.Basic

/-! Two records of the same items that are kept apart: what a run must have done where they
differ. -/
namespace Kit

variable {α ε ι : Type*}

section Taken

variable (step : α → ε → α)

/-- The steps of a run, each with the state in which it is taken. -/
def taken : α → List ε → List (α × ε)
  | _, [] => []
  | state, event :: rest => (state, event) :: taken (step state event) rest

end Taken

/-- What a step does to two records. Nothing leaves the second; an item enters one record without
the other, or leaves the first, only for a cause. -/
structure Posting (first second first' second' : ι → Prop) (firstOnly secondOnly : ι → Prop) :
    Prop where
  entered : ∀ item, first' item → first item ∨ second' item ∨ firstOnly item
  kept : ∀ item, second item → second' item
  recorded : ∀ item, second' item → second item ∨ first' item ∨ secondOnly item
  left : ∀ item, first item → first' item ∨ secondOnly item

namespace Posting

variable {first second firstOnly secondOnly : ι → Prop}

/-- A step that touches neither record. -/
theorem unchanged : Posting first second first second firstOnly secondOnly where
  entered _ held := .inl held
  kept _ held := held
  recorded _ held := .inl held
  left _ held := .inl held

variable {first' second' : ι → Prop}

/-- Only a step that itself puts the item into one record alone need be a cause. -/
theorem parting (posting : Posting first second first' second' firstOnly secondOnly) :
    Posting first second first' second'
      (fun item => firstOnly item ∧ ¬ first item ∧ first' item ∧ ¬ second' item)
      (fun item => secondOnly item ∧ ¬ first' item ∧
        (first item ∨ ¬ second item ∧ second' item)) := by
  refine ⟨fun item held => ?_, posting.kept, fun item held => ?_, fun item held => ?_⟩
  · by_cases before : first item
    · exact .inl before
    by_cases both : second' item
    · exact .inr (.inl both)
    rcases posting.entered item held with stays | enters | caused
    · exact absurd stays before
    · exact absurd enters both
    · exact .inr (.inr ⟨caused, before, held, both⟩)
  · by_cases before : second item
    · exact .inl before
    by_cases both : first' item
    · exact .inr (.inl both)
    rcases posting.recorded item held with stays | enters | caused
    · exact absurd stays before
    · exact absurd enters both
    · exact .inr (.inr ⟨caused, both, .inr ⟨before, held⟩⟩)
  · by_cases still : first' item
    · exact .inl still
    rcases posting.left item held with stays | caused
    · exact absurd stays still
    · exact .inr ⟨caused, still, .inl held⟩

theorem of_iff (same : ∀ item, first' item ↔ first item)
    (same' : ∀ item, second' item ↔ second item) :
    Posting first second first' second' firstOnly secondOnly where
  entered item held := .inl ((same item).mp held)
  kept item held := (same' item).mpr held
  recorded item held := .inl ((same' item).mp held)
  left item held := .inl ((same item).mpr held)

/-- An item enters both records. -/
theorem of_both {entry : ι} (gains : ∀ item, first' item ↔ first item ∨ item = entry)
    (gains' : ∀ item, second' item ↔ second item ∨ item = entry) :
    Posting first second first' second' firstOnly secondOnly where
  entered item held := by
    rcases (gains item).mp held with before | entered
    · exact .inl before
    · exact .inr (.inl ((gains' item).mpr (.inr entered)))
  kept item held := (gains' item).mpr (.inl held)
  recorded item held := by
    rcases (gains' item).mp held with before | entered
    · exact .inl before
    · exact .inr (.inl ((gains item).mpr (.inr entered)))
  left item held := .inl ((gains item).mpr (.inl held))

end Posting

/-- Every difference between the records is the doing of a step: it has put the item into the
first alone, or has put it into the second alone or taken it out of the first. -/
structure Explained (first second : ι → Prop) (history : List (α × ε))
    (firstOnly secondOnly : α × ε → ι → Prop) : Prop where
  ofFirst : ∀ item, first item → second item ∨ ∃ step ∈ history, firstOnly step item
  ofSecond : ∀ item, second item → first item ∨ ∃ step ∈ history, secondOnly step item

variable {first second : α → ι → Prop} {firstOnly secondOnly : α × ε → ι → Prop}

theorem Explained.step {state next : α} {history : List (α × ε)} {event : ε}
    (explained : Explained (first state) (second state) history firstOnly secondOnly)
    (posting : Posting (first state) (second state) (first next) (second next)
      (firstOnly (state, event)) (secondOnly (state, event))) :
    Explained (first next) (second next) (history ++ [(state, event)]) firstOnly secondOnly := by
  have earlier : ∀ {cause : α × ε → ι → Prop} {item : ι}, (∃ step ∈ history, cause step item) →
      ∃ step ∈ history ++ [(state, event)], cause step item := by
    rintro cause item ⟨step, member, caused⟩
    exact ⟨step, List.mem_append_left _ member, caused⟩
  have now : ∀ {cause : α × ε → ι → Prop} {item : ι}, cause (state, event) item →
      ∃ step ∈ history ++ [(state, event)], cause step item :=
    fun caused => ⟨_, List.mem_append_right _ List.mem_cons_self, caused⟩
  constructor
  · intro item held
    rcases posting.entered item held with before | both | caused
    · rcases explained.ofFirst item before with both | cause
      · exact .inl (posting.kept item both)
      · exact .inr (earlier cause)
    · exact .inl both
    · exact .inr (now caused)
  · intro item held
    rcases posting.recorded item held with before | both | caused
    · rcases explained.ofSecond item before with both | cause
      · rcases posting.left item both with still | caused
        · exact .inl still
        · exact .inr (now caused)
      · exact .inr (earlier cause)
    · exact .inl both
    · exact .inr (now caused)

variable {step : α → ε → α}

/-- Records that agree at first differ after a run only where one of its steps explains it. -/
theorem explained_run {holds : α → Prop}
    (keeps : ∀ state event, holds state → holds (step state event))
    (posts : ∀ state event, holds state → Posting (first state) (second state)
      (first (step state event)) (second (step state event)) (firstOnly (state, event))
      (secondOnly (state, event)))
    {state : α} (start : holds state) {history : List (α × ε)}
    (explained : Explained (first state) (second state) history firstOnly secondOnly)
    (events : List ε) :
    Explained (first (events.foldl step state)) (second (events.foldl step state))
      (history ++ taken step state events) firstOnly secondOnly := by
  induction events generalizing state history with
  | nil =>
    rw [taken, List.append_nil]
    exact explained
  | cons event rest ih =>
    have next := ih (keeps state event start) (explained.step (posts state event start))
    rw [List.append_assoc] at next
    exact next

end Kit
