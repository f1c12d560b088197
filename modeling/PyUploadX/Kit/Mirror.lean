import PyUploadX.Kit.Program

/-! Two programs over two views of one database: they do the same, each in its own view. -/
namespace Kit

variable {κ ν δ σ ε α β : Type}

/-- From the two views of a database both fail alike, or both succeed with one value and
leave the two views of one database. -/
def Mirrors (left right : δ → δ) (first second : Program κ ν δ σ ε α) : Prop :=
  ∀ db store,
    (∃ failure store', first.run (left db) store = (.error failure, store') ∧
      second.run (right db) store = (.error failure, store')) ∨
    ∃ value db' store', first.run (left db) store = (.ok (value, left db'), store') ∧
      second.run (right db) store = (.ok (value, right db'), store')

/-- A request answered alike in both views, and committed alike. -/
def AnswersAlike (left right : δ → δ) (first second : Program κ ν δ σ ε α) (world : World δ σ) :
    Prop :=
  ∃ reply db store, World.execute ⟨left world.db, world.store⟩ first = (reply, ⟨left db, store⟩) ∧
    World.execute ⟨right world.db, world.store⟩ second = (reply, ⟨right db, store⟩)

namespace Mirrors

variable {left right : δ → δ}

theorem answersAlike {first second : Program κ ν δ σ ε α} (mirrors : Mirrors left right first second)
    (world : World δ σ) : AnswersAlike left right first second world := by
  rcases mirrors world.db world.store with ⟨failure, store, first, second⟩ |
    ⟨value, db, store, first, second⟩
  · exact ⟨.error failure, world.db, store, World.execute_eq_error.mpr ⟨first, rfl⟩,
      World.execute_eq_error.mpr ⟨second, rfl⟩⟩
  · exact ⟨.ok value, db, store, World.execute_eq_ok.mpr first, World.execute_eq_ok.mpr second⟩

theorem pure (value : α) :
    Mirrors left right (pure value : Program κ ν δ σ ε α) (Pure.pure value) :=
  fun db store => .inr ⟨value, db, store, rfl, rfl⟩

theorem fail (failure : ε) :
    Mirrors left right (.fail failure : Program κ ν δ σ ε α) (.fail failure) :=
  fun _ store => .inl ⟨failure, store, rfl, rfl⟩

theorem liftExcept (result : Except ε α) :
    Mirrors left right (Program.liftExcept result : Program κ ν δ σ ε α)
      (Program.liftExcept result) := by
  cases result with
  | ok value => exact pure value
  | error failure => exact fail failure

theorem refuseIf (condition : Prop) [Decidable condition] (failure : ε) :
    Mirrors left right (Program.refuseIf condition failure : Program κ ν δ σ ε Unit)
      (Program.refuseIf condition failure) := by
  unfold Program.refuseIf
  split
  · exact fail failure
  · exact pure ()

theorem select {lock lock' : Option κ} {query query' : δ → Except ε α}
    (same : ∀ db, query (left db) = query' (right db)) :
    Mirrors left right (.select lock query .done : Program κ ν δ σ ε α)
      (.select lock' query' .done) := by
  intro db store
  simp only [Program.run]
  rw [same]
  cases query' (right db) with
  | error failure => exact .inl ⟨failure, store, rfl, rfl⟩
  | ok value => exact .inr ⟨value, db, store, rfl, rfl⟩

theorem ask {query query' : δ → α} (same : ∀ db, query (left db) = query' (right db)) :
    Mirrors left right (Program.ask query : Program κ ν δ σ ε α) (Program.ask query') :=
  select fun db => congrArg Except.ok (same db)

theorem write {name : ν} {lock : Option κ} {statement : δ → Except ε (δ → δ)}
    (same : ∀ db, statement (left db) = statement (right db))
    (moves : ∀ db change, statement (left db) = .ok change →
      change (left db) = left (change db) ∧ change (right db) = right (change db)) :
    Mirrors left right (.write name lock statement (.done ()) : Program κ ν δ σ ε Unit)
      (.write name lock statement (.done ())) := by
  intro db store
  have moved := moves db
  simp only [Program.run]
  rw [← same]
  cases effect : statement (left db) with
  | error failure => exact .inl ⟨failure, store, rfl, rfl⟩
  | ok change =>
    obtain ⟨first, second⟩ := moved change effect
    exact .inr ⟨(), change db, store, by rw [← first], by rw [← second]⟩

theorem modify {name : ν} {lock : Option κ} {change : δ → δ}
    (first : ∀ db, change (left db) = left (change db))
    (second : ∀ db, change (right db) = right (change db)) :
    Mirrors left right (Program.modify name lock change : Program κ ν δ σ ε Unit)
      (Program.modify name lock change) := by
  refine write (fun _ => rfl) fun db other same => ?_
  cases same
  exact ⟨first db, second db⟩

theorem onStore (name : ν) (action : σ → Except ε α × σ) :
    Mirrors left right (Program.onStore name action : Program κ ν δ σ ε α)
      (Program.onStore name action) := by
  intro db store
  rw [Program.run_onStore, Program.run_onStore]
  cases (action store).1 with
  | error failure => exact .inl ⟨failure, _, rfl, rfl⟩
  | ok value => exact .inr ⟨value, db, _, rfl, rfl⟩

theorem askStore (name : ν) (query : σ → Except ε α) :
    Mirrors left right (Program.askStore name query : Program κ ν δ σ ε α)
      (Program.askStore name query) := by
  intro db store
  rw [Program.run_askStore, Program.run_askStore]
  cases query store with
  | error failure => exact .inl ⟨failure, store, rfl, rfl⟩
  | ok value => exact .inr ⟨value, db, store, rfl, rfl⟩

theorem bind {first second : Program κ ν δ σ ε α} {next next' : α → Program κ ν δ σ ε β}
    (mirrors : Mirrors left right first second)
    (then_ : ∀ value, Mirrors left right (next value) (next' value)) :
    Mirrors left right (first >>= next) (second >>= next') := by
  intro db store
  rw [Program.run_bind, Program.run_bind]
  rcases mirrors db store with ⟨failure, store', first, second⟩ |
    ⟨value, db', store', first, second⟩
  · rw [first, second]
    exact .inl ⟨failure, store', rfl, rfl⟩
  · rw [first, second]
    exact then_ value db' store'

end Mirrors

/-! At one world, where the two programs may part. -/

section Alike

variable {left right : δ → δ} {world : World δ σ}

theorem answersAlike_fail {first second : ε} :
    AnswersAlike left right (.fail first : Program κ ν δ σ ε α) (.fail second) world ↔
      first = second := by
  constructor
  · rintro ⟨reply, db, store, fails, fails'⟩
    have same := (congrArg Prod.fst fails).trans (congrArg Prod.fst fails').symm
    exact Except.error.inj same
  · rintro rfl
    exact (Mirrors.fail first).answersAlike world

theorem answersAlike_pure {first second : α} :
    AnswersAlike left right (pure first : Program κ ν δ σ ε α) (pure second) world ↔
      first = second := by
  constructor
  · rintro ⟨reply, db, store, ends, ends'⟩
    have same := (congrArg Prod.fst ends).trans (congrArg Prod.fst ends').symm
    exact Except.ok.inj same
  · rintro rfl
    exact (Mirrors.pure first).answersAlike world

theorem answersAlike_liftExcept {first second : Except ε α} :
    AnswersAlike left right (Program.liftExcept first : Program κ ν δ σ ε α)
      (.liftExcept second) world ↔ first = second := by
  constructor
  · rintro ⟨reply, db, store, ends, ends'⟩
    have same := (congrArg Prod.fst ends).trans (congrArg Prod.fst ends').symm
    cases first <;> cases second
    · exact congrArg Except.error (Except.error.inj same)
    · cases same
    · cases same
    · exact congrArg Except.ok (Except.ok.inj same)
  · rintro rfl
    exact (Mirrors.liftExcept first).answersAlike world

/-- A check that both make alike: the programs part only after it. -/
theorem answersAlike_bind {check check' : Program κ ν δ σ ε α}
    {next next' : α → Program κ ν δ σ ε β} (mirrors : Mirrors left right check check')
    (reads : check.ReadOnly) (reads' : check'.ReadOnly) :
    AnswersAlike left right (check >>= next) (check' >>= next') world ↔
      ∀ value, check.run (left world.db) world.store =
        (.ok (value, left world.db), world.store) →
        AnswersAlike left right (next value) (next' value) world := by
  rcases mirrors world.db world.store with ⟨failure, store, first, second⟩ |
    ⟨value, db, store, first, second⟩
  · refine iff_of_true ?_ fun value went => ?_
    · refine ⟨.error failure, world.db, store, World.execute_eq_error.mpr ⟨?_, rfl⟩,
        World.execute_eq_error.mpr ⟨?_, rfl⟩⟩
      · exact Program.run_bind_error first next
      · exact Program.run_bind_error second next'
    · rw [first] at went
      cases went
  · obtain ⟨sameLeft, sameStore⟩ := reads.ok first
    obtain ⟨sameRight, _⟩ := reads'.ok second
    rw [sameLeft, sameStore] at first
    rw [sameRight, sameStore] at second
    have goes : ∀ reply after,
        World.execute ⟨left world.db, world.store⟩ (check >>= next) = (reply, after) ↔
          World.execute ⟨left world.db, world.store⟩ (next value) = (reply, after) := by
      intro reply after
      unfold World.execute
      rw [Program.run_bind_ok first]
    have goes' : ∀ reply after,
        World.execute ⟨right world.db, world.store⟩ (check' >>= next') = (reply, after) ↔
          World.execute ⟨right world.db, world.store⟩ (next' value) = (reply, after) := by
      intro reply after
      unfold World.execute
      rw [Program.run_bind_ok second]
    unfold AnswersAlike
    simp only [goes, goes', first]
    constructor
    · rintro alike other same
      cases same
      exact alike
    · exact fun alike => alike value rfl

theorem answersAlike_refuseIf {condition : Prop} [Decidable condition] {failure : ε}
    {next next' : Unit → Program κ ν δ σ ε β} :
    AnswersAlike left right (Program.refuseIf condition failure >>= next)
      (Program.refuseIf condition failure >>= next') world ↔
      (¬ condition → AnswersAlike left right (next ()) (next' ()) world) := by
  unfold Program.refuseIf
  by_cases refused : condition
  · rw [if_pos refused]
    refine iff_of_true ?_ fun passed => absurd refused passed
    exact (Mirrors.fail failure).answersAlike world
  · rw [if_neg refused]
    exact ⟨fun alike _ => alike, fun alike => alike refused⟩

/-- A result that both compute alike. -/
theorem answersAlike_liftExcept_same {result : Except ε α}
    {next next' : α → Program κ ν δ σ ε β} :
    AnswersAlike left right (Program.liftExcept result >>= next)
      (Program.liftExcept result >>= next') world ↔
      ∀ value, result = .ok value → AnswersAlike left right (next value) (next' value) world := by
  cases result with
  | error failure =>
    refine iff_of_true ((Mirrors.fail failure).answersAlike world) fun value same => ?_
    cases same
  | ok value =>
    refine ⟨fun alike other same => ?_, fun alike => alike value rfl⟩
    cases same
    exact alike

/-- A result that the rest of the program, which does not fail, tells in its answer. -/
theorem answersAlike_liftExcept_bind {first second : Except ε α} {next : α → Program κ ν δ σ ε β}
    {answer : α → β} (mirrors : ∀ value, Mirrors left right (next value) (next value))
    (answers : ∀ value (world : World δ σ), (world.execute (next value)).1 = .ok (answer value))
    (tells : Function.Injective answer) :
    AnswersAlike left right (Program.liftExcept first >>= next) (Program.liftExcept second >>= next)
      world ↔ first = second := by
  have replies : ∀ (result : Except ε α) (world : World δ σ),
      (world.execute (Program.liftExcept result >>= next)).1 = result.map answer := by
    intro result world
    cases result with
    | error failure => rfl
    | ok value => exact answers value world
  constructor
  · rintro ⟨reply, db, store, ends, ends'⟩
    have same : first.map answer = second.map answer := by
      rw [← replies first ⟨left world.db, world.store⟩, ends,
        ← replies second ⟨right world.db, world.store⟩, ends']
    cases first <;> cases second
    · exact congrArg Except.error (Except.error.inj same)
    · cases same
    · cases same
    · exact congrArg Except.ok (tells (Except.ok.inj same))
  · rintro rfl
    exact (Mirrors.bind (.liftExcept first) mirrors).answersAlike world

end Alike

end Kit
