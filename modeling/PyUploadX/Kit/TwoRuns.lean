import PyUploadX.Kit.Program

/-! Two worlds that a program cannot tell apart: it answers the same in both. -/
namespace Kit

variable {κ ν δ σ ε α β : Type}

def Indistinct (program : Program κ ν δ σ ε α) (first second : World δ σ) : Prop :=
  (second.execute program).1 = (first.execute program).1

namespace Indistinct

variable {first second : World δ σ}

theorem of_run {program : Program κ ν δ σ ε α} (answer : World δ σ → Except ε α)
    (runs : ∀ world, (world.execute program).1 = answer world)
    (same : answer second = answer first) : Indistinct program first second :=
  (runs second).trans (same.trans (runs first).symm)

theorem pure (value : α) : Indistinct (pure value : Program κ ν δ σ ε α) first second := rfl

theorem fail (failure : ε) :
    Indistinct (Program.fail failure : Program κ ν δ σ ε α) first second := rfl

theorem liftExcept (result : Except ε α) :
    Indistinct (Program.liftExcept result : Program κ ν δ σ ε α) first second := by
  cases result <;> rfl

theorem refuseIf (condition : Prop) [Decidable condition] (failure : ε) :
    Indistinct (Program.refuseIf condition failure : Program κ ν δ σ ε Unit) first second := by
  unfold Program.refuseIf
  split <;> rfl

theorem select {lock : Option κ} {query : δ → Except ε α} (same : query second.db = query first.db) :
    Indistinct (Program.select lock query .done : Program κ ν δ σ ε α) first second := by
  refine of_run (fun world => query world.db) (fun world => ?_) same
  unfold World.execute
  simp only [Program.run]
  cases query world.db <;> rfl

theorem askStore {name : ν} {query : σ → Except ε α}
    (same : query second.store = query first.store) :
    Indistinct (Program.askStore name query : Program κ ν δ σ ε α) first second := by
  refine of_run (fun world => query world.store) (fun world => ?_) same
  unfold World.execute
  rw [Program.run_askStore]
  cases query world.store <;> rfl

/-- A program that reads first goes on from the same answer in both worlds. -/
theorem bind {program : Program κ ν δ σ ε α} {next : α → Program κ ν δ σ ε β}
    (reads : program.ReadOnly) (same : Indistinct program first second)
    (rest : ∀ value, (first.execute program).1 = .ok value →
      Indistinct (next value) first second) :
    Indistinct (program >>= next) first second := by
  have both : (second.execute program).1 = (first.execute program).1 := same
  have goes : ∀ world : World δ σ, (world.execute (program >>= next)).1 =
      (world.execute program).1.bind fun value => (world.execute (next value)).1 := by
    intro world
    unfold World.execute
    rw [Program.run_bind]
    rcases reads world.db world.store with ⟨value, done⟩ | ⟨failure, done⟩
    · rw [done]; rfl
    · rw [done]; rfl
  unfold Indistinct
  rw [goes, goes, both]
  cases answer : (first.execute program).1 with
  | error failure => rfl
  | ok value => exact rest value answer

end Indistinct

end Kit
