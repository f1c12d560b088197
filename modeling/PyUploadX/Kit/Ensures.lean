import PyUploadX.Kit.Program

/-! Pre- and postconditions on the database, for the runs of a program that commit. -/
namespace Kit.Program

variable {κ ν δ σ ε α β : Type} {before before' : δ → Prop} {after after' : α → δ → Prop}

/-- A run that starts where `before` holds and commits ends where `after` holds of its
result. -/
def Ensures (before : δ → Prop) (program : Program κ ν δ σ ε α) (after : α → δ → Prop) : Prop :=
  ∀ db store value db' store', before db →
    program.run db store = (.ok (value, db'), store') → after value db'

namespace Ensures

theorem consequence {program : Program κ ν δ σ ε α} (ensures : Ensures before program after)
    (stronger : ∀ db, before' db → before db)
    (weaker : ∀ value db, after value db → after' value db) :
    Ensures before' program after' :=
  fun db store value db' store' holds done =>
    weaker value db' (ensures db store value db' store' (stronger db holds) done)

theorem weaken {program : Program κ ν δ σ ε α} (ensures : Ensures before program after)
    (weaker : ∀ value db, after value db → after' value db) : Ensures before program after' :=
  ensures.consequence (fun _ => id) weaker

theorem left {program : Program κ ν δ σ ε α} (ensures : Ensures before program after) :
    Ensures (fun db => before db ∧ before' db) program after :=
  ensures.consequence (fun _ => And.left) fun _ _ => id

theorem pure {value : α} (holds : ∀ db, before db → after value db) :
    Ensures before (pure value : Program κ ν δ σ ε α) after := by
  intro db store value' db' store' start done
  cases done
  exact holds db start

theorem fail {failure : ε} : Ensures before (fail failure : Program κ ν δ σ ε α) after := by
  intro db store value db' store' _ done
  cases done

theorem bind {first : Program κ ν δ σ ε α} {next : α → Program κ ν δ σ ε β}
    {after : β → δ → Prop} {middle : α → δ → Prop} (start : Ensures before first middle)
    (rest : ∀ value, Ensures (middle value) (next value) after) :
    Ensures before (first >>= next) after := by
  intro db store value db' store' holds done
  obtain ⟨found, db₁, store₁, went, goes⟩ := Program.bind_eq_ok.mp done
  exact rest found db₁ store₁ value db' store' (start db store found db₁ store₁ holds went) goes

/-- What is read is true of the database it was read from. -/
theorem select {lock : Option κ} {query : δ → Except ε α} :
    Ensures before (select lock query Program.done : Program κ ν δ σ ε α)
      fun value db => before db ∧ query db = .ok value := by
  intro db store value db' store' holds done
  simp only [run] at done
  split at done
  · rename_i found
    cases done
    exact ⟨holds, found⟩
  · cases done

theorem ask {query : δ → α} :
    Ensures before (ask query : Program κ ν δ σ ε α)
      fun value db => before db ∧ query db = value :=
  select.weaken fun _ _ holds => ⟨holds.1, Except.ok.inj holds.2⟩

theorem write {name : ν} {lock : Option κ} {statement : δ → Except ε (δ → δ)}
    {after : Unit → δ → Prop}
    (holds : ∀ db change, before db → statement db = .ok change → after () (change db)) :
    Ensures before (write name lock statement (Program.done ()) : Program κ ν δ σ ε Unit) after := by
  intro db store value db' store' start done
  simp only [run] at done
  split at done
  · rename_i change allowed
    cases done
    exact holds db change start allowed
  · cases done

theorem modify {name : ν} {lock : Option κ} {change : δ → δ} {after : Unit → δ → Prop}
    (holds : ∀ db, before db → after () (change db)) :
    Ensures before (modify name lock change : Program κ ν δ σ ε Unit) after :=
  write fun db _ start same => Except.ok.inj same ▸ holds db start

theorem of_readOnly {program : Program κ ν δ σ ε α} (reads : ReadOnly program) :
    Ensures before program fun _ => before := by
  intro db store value db' store' holds done
  rw [(reads.ok done).1]
  exact holds

/-- A fact that does not depend on the database can be assumed. -/
theorem of_fact {program : Program κ ν δ σ ε α} {fact : Prop}
    (ensures : fact → Ensures before program after) :
    Ensures (fun db => fact ∧ before db) program after :=
  fun db store value db' store' holds done => ensures holds.1 db store value db' store' holds.2 done

/-- Two contracts of one program at once. -/
theorem both {program : Program κ ν δ σ ε α} (first : Ensures before program after)
    (second : Ensures before' program after') :
    Ensures (fun db => before db ∧ before' db) program
      fun value db => after value db ∧ after' value db :=
  fun db store value db' store' holds done =>
    ⟨first db store value db' store' holds.1 done, second db store value db' store' holds.2 done⟩

section

variable {next : α → Program κ ν δ σ ε β} {after : β → δ → Prop}

theorem liftExcept_bind {result : Except ε α}
    (rest : ∀ value, result = .ok value → Ensures before (next value) after) :
    Ensures before (liftExcept result >>= next) after := by
  intro db store value db' store' holds done
  obtain ⟨found, same, goes⟩ := Program.liftExcept_bind_ok.mp done
  exact rest found same db store value db' store' holds goes

theorem refuseIf_bind {condition : Prop} [Decidable condition] {failure : ε}
    {next : Unit → Program κ ν δ σ ε β} (rest : ¬ condition → Ensures before (next ()) after) :
    Ensures before (refuseIf condition failure >>= next) after := by
  intro db store value db' store' holds done
  obtain ⟨allowed, goes⟩ := Program.refuseIf_bind_ok.mp done
  exact rest allowed db store value db' store' holds goes

theorem readOnly_bind {first : Program κ ν δ σ ε α} (reads : ReadOnly first)
    (rest : ∀ value, Ensures before (next value) after) :
    Ensures before (first >>= next) after :=
  bind (of_readOnly reads) rest

end

end Ensures

end Kit.Program
