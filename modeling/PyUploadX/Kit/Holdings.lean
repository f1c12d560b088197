/-! Holders that rely on what a store keeps at their place: one holder to a place, and the
content it was given still there. -/
namespace Kit

variable {Holder Place Content : Type}

/-- No two holders share a place, and each finds there what it was given. -/
structure Undisturbed (holds : Holder → Place → Prop) (given : Holder → Option Content)
    (store : Place → Option Content) : Prop where
  alone : ∀ {first second place}, holds first place → holds second place → first = second
  intact : ∀ {holder place}, holds holder place →
    ∃ content, given holder = some content ∧ store place = some content

namespace Undisturbed

variable {holds holds' : Holder → Place → Prop} {given given' : Holder → Option Content}
  {store store' : Place → Option Content}

theorem empty (none : ∀ holder place, ¬ holds holder place) : Undisturbed holds given store where
  alone first := absurd first (none _ _)
  intact held := absurd held (none _ _)

/-- Nobody relies on a place that is vacant in the store. -/
theorem vacant (sound : Undisturbed holds given store) {place : Place}
    (absent : store place = none) (holder : Holder) : ¬ holds holder place := by
  intro held
  obtain ⟨content, _, kept⟩ := sound.intact held
  rw [absent] at kept
  cases kept

/-- Holders may leave, and the store may change wherever none of those that stay relies on it. -/
theorem carry (sound : Undisturbed holds given store)
    (stays : ∀ {holder place}, holds' holder place → holds holder place)
    (same : ∀ {holder place}, holds' holder place → given' holder = given holder)
    (kept : ∀ {holder place}, holds' holder place → store' place = store place) :
    Undisturbed holds' given' store' where
  alone first second := sound.alone (stays first) (stays second)
  intact held := by
    rw [same held, kept held]
    exact sound.intact (stays held)

/-- A holder may come to a place that nobody relies on, with what the store has there. -/
theorem enter (sound : Undisturbed holds given store) {newcomer : Holder} {place : Place}
    {content : Content} (free : ∀ holder, ¬ holds holder place)
    (comes : ∀ {holder site}, holds' holder site →
      holds holder site ∨ (holder = newcomer ∧ site = place))
    (same : ∀ {holder site}, holds holder site → given' holder = given holder)
    (noted : given' newcomer = some content) (stored : store place = some content) :
    Undisturbed holds' given' store where
  alone first second := by
    rcases comes first with old | ⟨rfl, rfl⟩
    · rcases comes second with older | ⟨rfl, rfl⟩
      · exact sound.alone old older
      · exact absurd old (free _)
    · rcases comes second with older | ⟨rfl, _⟩
      · exact absurd older (free _)
      · rfl
  intact held := by
    rcases comes held with old | ⟨rfl, rfl⟩
    · rw [same old]
      exact sound.intact old
    · exact ⟨content, noted, stored⟩

/-- The only holder of a place leaves, and the place with it. -/
theorem release (sound : Undisturbed holds given store) {leaver : Holder} {place : Place}
    (only : ∀ {holder}, holds holder place → holder = leaver)
    (stays : ∀ {holder site}, holds' holder site → holds holder site ∧ holder ≠ leaver)
    (same : ∀ {holder site}, holds' holder site → given' holder = given holder)
    (kept : ∀ {site}, site ≠ place → store' site = store site) :
    Undisturbed holds' given' store' := by
  refine sound.carry (fun remains => (stays remains).1) same fun remains => kept ?_
  rintro rfl
  exact (stays remains).2 (only (stays remains).1)

end Undisturbed

end Kit
