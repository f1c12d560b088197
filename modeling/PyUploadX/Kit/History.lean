/-! What the events of a run leave standing. -/
namespace Kit

variable {ε : Type} {starts ends : ε → Prop} {events : List ε} {event : ε}

/-- Some event started it, and none since has ended it. -/
def Standing (starts ends : ε → Prop) (events : List ε) : Prop :=
  ∃ earlier first later, events = earlier ++ first :: later ∧ starts first ∧
    ∀ event ∈ later, ¬ ends event

theorem not_standing_nil : ¬ Standing starts ends [] := by
  rintro ⟨earlier, first, later, split, _⟩
  cases earlier <;> cases split

/-- The last event decides: it starts, or what stood before it stands on. -/
theorem standing_concat :
    Standing starts ends (events ++ [event]) ↔
      starts event ∨ (¬ ends event ∧ Standing starts ends events) := by
  constructor
  · rintro ⟨earlier, first, later, split, started, kept⟩
    rcases List.eq_nil_or_concat later with rfl | ⟨later, last, rfl⟩
    · obtain ⟨_, same⟩ := List.append_inj' split rfl
      cases same
      exact .inl started
    · rw [List.concat_eq_append, ← List.cons_append, ← List.append_assoc] at split
      obtain ⟨rfl, same⟩ := List.append_inj' split rfl
      cases same
      refine .inr ⟨kept event (by simp), earlier, first, later, rfl, started, ?_⟩
      exact fun other member => kept other (by simp [member])
  · rintro (started | ⟨unended, earlier, first, later, rfl, started, kept⟩)
    · exact ⟨events, event, [], rfl, started, fun _ => nofun⟩
    · refine ⟨earlier, first, later ++ [event], by simp, started, fun other member => ?_⟩
      rcases List.mem_append.mp member with old | fresh
      · exact kept other old
      · rw [List.mem_singleton.mp fresh]
        exact unended

end Kit
