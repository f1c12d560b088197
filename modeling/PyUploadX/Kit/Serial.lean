import PyUploadX.Kit.Protocol

/-! Transactions that all start by locking one row: they run one after the other, whatever
the interleaving. -/
namespace Kit

variable {κ ν δ σ ε α : Type}

/-- The first statement locks the row. -/
def Program.LocksFirst (key : κ) : Program κ ν δ σ ε α → Prop
  | .fail _ => True
  | .select lock _ _ => lock = some key
  | _ => False

/-- While a transaction has the row, nothing happens but what it does itself. -/
def exclusive (key : κ) (calls : ν → World δ σ → Prop) : Protocol κ ν δ σ where
  rely held before after := held key → after = before
  refl _ _ _ := rfl
  trans first second holding := (second holding).trans (first holding)
  calls := calls

variable {key : κ} {calls : ν → World δ σ → Prop} {assume : ν → Option κ → World δ σ → Prop}
  {goal : δ → α → δ → Prop} {held : κ → Prop}

theorem exclusive_compatible (holding : held key) (before after : World δ σ) :
    (exclusive key calls).Compatible held before after :=
  fun _ disjoint theirs => absurd theirs (disjoint key holding)

/-- With the row in hand, a program does what it does alone. -/
theorem safe_holding {program : Program κ ν δ σ ε α} {world : World δ σ} {pending : δ → δ}
    (holding : held key)
    (made : ∀ call ∈ program.calls (pending world.db) world.store,
      calls call.name ⟨world.db, call.store⟩)
    (ends : ∀ value db' store',
      program.run (pending world.db) world.store = (.ok (value, db'), store') →
        goal world.db value db') :
    (exclusive key calls).Safe assume (Machine.Ends (exclusive key calls) goal) program held world
      pending := by
  induction program generalizing held world pending with
  | done value =>
    intro later relied
    rw [relied holding]
    exact ⟨exclusive_compatible holding _ _, ends _ _ _ rfl⟩
  | fail failure => trivial
  | select lock query next ih =>
    intro later relied value found
    obtain rfl := relied holding
    simp only [Program.calls, Program.run, found] at made ends
    exact ih value (.inl holding) made ends
  | write name lock statement next ih =>
    intro later relied _ change effect
    obtain rfl := relied holding
    simp only [Program.calls, Program.run, effect] at made ends
    exact ih (.inl holding) made ends
  | call name action next ih =>
    intro later relied
    obtain rfl := relied holding
    simp only [Program.calls, List.forall_mem_cons] at made
    obtain ⟨now, rest⟩ := made
    exact ⟨now, exclusive_compatible holding _ _, ih _ holding rest ends⟩

theorem safe_of_locksFirst {program : Program κ ν δ σ ε α} {world : World δ σ}
    (locks : program.LocksFirst key)
    (made : ∀ db store, ∀ call ∈ program.calls db store, calls call.name ⟨db, call.store⟩)
    (ends : ∀ db store value db' store',
      program.run db store = (.ok (value, db'), store') → goal db value db') :
    (exclusive key calls).Safe assume (Machine.Ends (exclusive key calls) goal) program
      (fun _ => False) world id := by
  cases program with
  | fail failure => trivial
  | select lock query next =>
    intro later _ value found
    have made := made later.db later.store
    have ends := ends later.db later.store
    have found : query later.db = .ok value := found
    simp only [Program.calls, Program.run, found] at made ends
    exact safe_holding (.inr locks) made ends
  | done value => exact locks.elim
  | write name lock statement next => exact locks.elim
  | call name action next => exact locks.elim

end Kit
