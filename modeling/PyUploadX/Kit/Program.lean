import Mathlib.Tactic.Common

/-! Transactions written statement by statement. A program reads and writes a
database and calls a store beside it; run as a whole it either commits all its
writes or none, but what it did to the store stays. -/
namespace Kit

theorem except_bind_eq_ok {ε α β : Type} {first : Except ε α} {next : α → Except ε β} {result : β} :
    (first >>= next) = .ok result ↔ ∃ value, first = .ok value ∧ next value = .ok result := by
  cases first with
  | error failure => exact ⟨nofun, fun ⟨_, same, _⟩ => nomatch same⟩
  | ok value => exact ⟨fun goes => ⟨value, rfl, goes⟩, fun ⟨_, same, goes⟩ => Except.ok.inj same ▸ goes⟩

theorem except_bind_eq_error {ε α β : Type} {first : Except ε α} {next : α → Except ε β}
    {failure : ε} : (first >>= next) = .error failure ↔
      first = .error failure ∨ ∃ value, first = .ok value ∧ next value = .error failure := by
  cases first with
  | error raised =>
    constructor
    · intro failed
      exact .inl (congrArg Except.error (Except.error.inj failed))
    · rintro (failed | ⟨_, same, _⟩)
      · exact congrArg Except.error (Except.error.inj failed)
      · cases same
  | ok value =>
    constructor
    · exact fun failed => .inr ⟨value, rfl, failed⟩
    · rintro (failed | ⟨_, same, failed⟩)
      · cases failed
      · cases same
        exact failed

theorem except_map_eq_ok {ε α β : Type} {result : Except ε α} {wrap : α → β} {value : β} :
    result.map wrap = .ok value ↔ ∃ inner, result = .ok inner ∧ wrap inner = value := by
  cases result with
  | error failure => simp [Except.map]
  | ok inner => simp [Except.map]

theorem except_toOption_eq_some {ε α : Type} {result : Except ε α} {value : α} :
    result.toOption = some value ↔ result = .ok value := by
  cases result with
  | error failure => exact ⟨nofun, nofun⟩
  | ok found => exact ⟨fun same => congrArg Except.ok (Option.some.inj same), fun same =>
      congrArg some (Except.ok.inj same)⟩

section Traversal

variable {ε α β : Type} {visit : α → Except ε β} {items : List α} {results : List β}

theorem except_mapM_cons_ok {item : α} {rest : List α}
    (each : (item :: rest).mapM visit = .ok results) :
    ∃ result others, visit item = .ok result ∧ rest.mapM visit = .ok others ∧
      results = result :: others := by
  rw [List.mapM_cons] at each
  obtain ⟨result, first, each⟩ := except_bind_eq_ok.mp each
  obtain ⟨others, later, same⟩ := except_bind_eq_ok.mp each
  exact ⟨result, others, first, later, (Except.ok.inj same).symm⟩

theorem except_mapM_ok (each : items.mapM visit = .ok results) :
    ∀ item ∈ items, ∃ result ∈ results, visit item = .ok result := by
  induction items generalizing results with
  | nil => exact List.forall_mem_nil _
  | cons item rest ih =>
    obtain ⟨result, others, first, later, rfl⟩ := except_mapM_cons_ok each
    refine List.forall_mem_cons.mpr ⟨⟨result, List.mem_cons_self, first⟩, ?_⟩
    intro other member
    obtain ⟨source, among, visited⟩ := ih later other member
    exact ⟨source, List.mem_cons_of_mem _ among, visited⟩

theorem except_mapM_mem (each : items.mapM visit = .ok results) :
    ∀ result ∈ results, ∃ item ∈ items, visit item = .ok result := by
  induction items generalizing results with
  | nil =>
    cases each
    exact List.forall_mem_nil _
  | cons item rest ih =>
    obtain ⟨result, others, first, later, rfl⟩ := except_mapM_cons_ok each
    refine List.forall_mem_cons.mpr ⟨⟨item, List.mem_cons_self, first⟩, ?_⟩
    intro other member
    obtain ⟨source, present, visited⟩ := ih later other member
    exact ⟨source, List.mem_cons_of_mem _ present, visited⟩

theorem except_mapM_error {failure : ε} (stops : items.mapM visit = .error failure) :
    ∃ item ∈ items, visit item = .error failure := by
  induction items with
  | nil => cases stops
  | cons item rest ih =>
    rw [List.mapM_cons] at stops
    rcases except_bind_eq_error.mp stops with first | ⟨result, first, stops⟩
    · exact ⟨item, List.mem_cons_self, first⟩
    · rcases except_bind_eq_error.mp stops with later | ⟨others, later, impossible⟩
      · obtain ⟨other, member, visited⟩ := ih later
        exact ⟨other, List.mem_cons_of_mem _ member, visited⟩
      · cases impossible

theorem except_mapM_congr {again : α → Except ε β}
    (same : ∀ item ∈ items, visit item = again item) : items.mapM visit = items.mapM again := by
  induction items with
  | nil => rfl
  | cons item rest ih =>
    rw [List.mapM_cons, List.mapM_cons, same item List.mem_cons_self,
      ih fun other member => same other (List.mem_cons_of_mem _ member)]

end Traversal

theorem except_isOk_iff {ε α : Type} {result : Except ε α} :
    result.isOk = true ↔ ∃ value, result = .ok value := by
  cases result with
  | error failure => exact iff_of_false Bool.false_ne_true (by simp)
  | ok value => exact iff_of_true rfl ⟨value, rfl⟩

/-- `κ` are the rows that can be locked, `ν` the names of the writes and of the calls. -/
inductive Program (κ ν δ σ ε α : Type) : Type 1
  | done (value : α)
  | fail (failure : ε)
  | select {β : Type} (lock : Option κ) (query : δ → Except ε β)
      (next : β → Program κ ν δ σ ε α)
  | write (name : ν) (lock : Option κ) (statement : δ → Except ε (δ → δ))
      (next : Program κ ν δ σ ε α)
  | call {ρ : Type} (name : ν) (action : σ → ρ × σ) (next : ρ → Program κ ν δ σ ε α)

namespace Program

variable {κ ν δ σ ε α β : Type}

def andThen : Program κ ν δ σ ε α → (α → Program κ ν δ σ ε β) → Program κ ν δ σ ε β
  | done value, continuation => continuation value
  | fail failure, _ => fail failure
  | select lock query next, continuation =>
    select lock query fun value => (next value).andThen continuation
  | write name lock statement next, continuation =>
    write name lock statement (next.andThen continuation)
  | call name action next, continuation =>
    call name action fun reply => (next reply).andThen continuation

instance : Monad (Program κ ν δ σ ε) where
  pure := done
  bind := andThen

theorem bind_assoc {γ : Type} (first : Program κ ν δ σ ε α) (next : α → Program κ ν δ σ ε β)
    (last : β → Program κ ν δ σ ε γ) :
    first >>= next >>= last = first >>= fun value => next value >>= last := by
  change (first.andThen next).andThen last = first.andThen fun value => (next value).andThen last
  induction first with
  | done value => rfl
  | fail failure => rfl
  | select lock query rest ih => exact congrArg (select lock query) (funext ih)
  | write name lock statement rest ih => exact congrArg (write name lock statement) ih
  | call name action rest ih => exact congrArg (call name action) (funext ih)

/-- A computation that touches neither the database nor the store. -/
def liftExcept : Except ε α → Program κ ν δ σ ε α
  | .ok value => done value
  | .error failure => fail failure

def refuseIf (condition : Prop) [Decidable condition] (failure : ε) : Program κ ν δ σ ε Unit :=
  if condition then fail failure else done ()

/-- A plain read. -/
def ask (query : δ → α) : Program κ ν δ σ ε α := select none (fun db => .ok (query db)) done

/-- A write that no constraint can refuse. -/
def modify (name : ν) (lock : Option κ) (change : δ → δ) : Program κ ν δ σ ε Unit :=
  write name lock (fun _ => .ok change) (done ())

/-- Ask the store without changing it. -/
def askStore (name : ν) (query : σ → Except ε α) : Program κ ν δ σ ε α :=
  call name (fun store => (query store, store)) liftExcept

/-- Act on the store; a failed action may still have changed it. -/
def onStore (name : ν) (action : σ → Except ε α × σ) : Program κ ν δ σ ε α :=
  call name action liftExcept

/-- Act on the store and go on with the outcome, whatever it is (`try … except`). -/
def tryStore (name : ν) (action : σ → Except ε α × σ) : Program κ ν δ σ ε (Except ε α) :=
  call name action done

/-- Act on the store in a way that cannot fail. -/
def act (name : ν) (action : σ → σ) : Program κ ν δ σ ε Unit :=
  call name (fun store => ((), action store)) done

/-- The program may still make a call with this name. -/
def Makes (name : ν) : Program κ ν δ σ ε α → Prop
  | done _ => False
  | fail _ => False
  | select _ _ next => ∃ value, (next value).Makes name
  | write _ _ _ next => next.Makes name
  | call made _ next => made = name ∨ ∃ reply, (next reply).Makes name

/-- The program from its first statement to its last, with nothing in between. The
failure branch carries a store and no database. -/
def run : Program κ ν δ σ ε α → δ → σ → Except ε (α × δ) × σ
  | done value, db, store => (.ok (value, db), store)
  | fail failure, _, store => (.error failure, store)
  | select _ query next, db, store =>
    match query db with
    | .ok value => (next value).run db store
    | .error failure => (.error failure, store)
  | write _ _ statement next, db, store =>
    match statement db with
    | .ok change => next.run (change db) store
    | .error failure => (.error failure, store)
  | call _ action next, db, store => (next (action store).1).run db (action store).2

theorem run_bind (first : Program κ ν δ σ ε α) (next : α → Program κ ν δ σ ε β)
    (db : δ) (store : σ) :
    (first >>= next).run db store =
      match first.run db store with
      | (.ok (value, db'), store') => (next value).run db' store'
      | (.error failure, store') => (.error failure, store') := by
  change (first.andThen next).run db store = _
  induction first generalizing db store with
  | done value => rfl
  | fail failure => rfl
  | select lock query rest ih =>
    simp only [andThen, run]
    cases query db with
    | ok value => exact ih value db store
    | error failure => rfl
  | write name lock statement rest ih =>
    simp only [andThen, run]
    cases statement db with
    | ok change => exact ih (change db) store
    | error failure => rfl
  | call name action rest ih => exact ih (action store).1 db (action store).2

@[simp] theorem run_pure (value : α) (db : δ) (store : σ) :
    (pure value : Program κ ν δ σ ε α).run db store = (.ok (value, db), store) := rfl

@[simp] theorem run_fail (failure : ε) (db : δ) (store : σ) :
    (fail failure : Program κ ν δ σ ε α).run db store = (.error failure, store) := rfl

@[simp] theorem run_ask (query : δ → α) (db : δ) (store : σ) :
    (ask query : Program κ ν δ σ ε α).run db store = (.ok (query db, db), store) := rfl

@[simp] theorem run_modify (name : ν) (lock : Option κ) (change : δ → δ) (db : δ) (store : σ) :
    (modify name lock change : Program κ ν δ σ ε Unit).run db store =
      (.ok ((), change db), store) := rfl

@[simp] theorem run_tryStore (name : ν) (action : σ → Except ε α × σ) (db : δ) (store : σ) :
    (tryStore name action : Program κ ν δ σ ε (Except ε α)).run db store =
      (.ok ((action store).1, db), (action store).2) := rfl

theorem run_liftExcept (result : Except ε α) (db : δ) (store : σ) :
    (liftExcept result : Program κ ν δ σ ε α).run db store =
      (result.map (·, db), store) := by
  cases result <;> rfl

theorem run_refuseIf (condition : Prop) [Decidable condition] (failure : ε) (db : δ) (store : σ) :
    (refuseIf condition failure : Program κ ν δ σ ε Unit).run db store =
      (if condition then .error failure else .ok ((), db), store) := by
  unfold refuseIf
  split <;> rfl

theorem run_askStore (name : ν) (query : σ → Except ε α) (db : δ) (store : σ) :
    (askStore name query : Program κ ν δ σ ε α).run db store =
      ((query store).map (·, db), store) := by
  unfold askStore
  simp only [run, run_liftExcept]

theorem run_onStore_store (name : ν) (action : σ → Except ε α × σ) (db : δ) (store : σ) :
    ((onStore name action : Program κ ν δ σ ε α).run db store).2 = (action store).2 := by
  unfold onStore
  simp only [run, run_liftExcept]

theorem run_onStore (name : ν) (action : σ → Except ε α × σ) (db : δ) (store : σ) :
    (onStore name action : Program κ ν δ σ ε α).run db store =
      ((action store).1.map (·, db), (action store).2) := by
  unfold onStore
  simp only [run, run_liftExcept]

/-! Going forward: the first part of a program is known to succeed. -/

theorem onStore_keeps {name : ν} {action : σ → Except ε α × σ} {value : α} {db db' : δ}
    {store store' : σ} (done : (onStore name action : Program κ ν δ σ ε α).run db store =
      (.ok (value, db'), store')) : db' = db := by
  rw [run_onStore] at done
  have answer := congrArg Prod.fst done
  cases answered : (action store).1 with
  | error failure => rw [answered] at answer; cases answer
  | ok found => rw [answered] at answer; cases answer; rfl

theorem run_bind_ok {first : Program κ ν δ σ ε α} {value : α} {db db' : δ} {store store' : σ}
    (done : first.run db store = (.ok (value, db'), store'))
    (next : α → Program κ ν δ σ ε β) :
    (first >>= next).run db store = (next value).run db' store' := by
  rw [run_bind, done]

theorem run_bind_error {first : Program κ ν δ σ ε α} {failure : ε} {db : δ} {store store' : σ}
    (refused : first.run db store = (.error failure, store'))
    (next : α → Program κ ν δ σ ε β) :
    (first >>= next).run db store = (.error failure, store') := by
  rw [run_bind, refused]

/-- What follows has to agree only on what comes out of what is before it. -/
theorem run_bind_congr {first : Program κ ν δ σ ε α} {next other : α → Program κ ν δ σ ε β}
    {db : δ} {store : σ}
    (agree : ∀ value db' store', first.run db store = (.ok (value, db'), store') →
      (next value).run db' store' = (other value).run db' store') :
    (first >>= next).run db store = (first >>= other).run db store := by
  rw [run_bind, run_bind]
  rcases ran : first.run db store with ⟨failure | ⟨value, db'⟩, store'⟩
  · rfl
  · exact agree value db' store' ran

theorem liftExcept_ok {result : Except ε α} {value : α} (found : result = .ok value)
    (db : δ) (store : σ) :
    (liftExcept result : Program κ ν δ σ ε α).run db store = (.ok (value, db), store) := by
  subst found; rfl

theorem refuseIf_false {condition : Prop} [Decidable condition] {failure : ε}
    (allowed : ¬ condition) (db : δ) (store : σ) :
    (refuseIf condition failure : Program κ ν δ σ ε Unit).run db store =
      (.ok ((), db), store) := by
  rw [run_refuseIf, if_neg allowed]

theorem askStore_ok {name : ν} {query : σ → Except ε α} {value : α} {store : σ}
    (answer : query store = .ok value) (db : δ) :
    (askStore name query : Program κ ν δ σ ε α).run db store = (.ok (value, db), store) := by
  rw [run_askStore, answer]; rfl

/-! Inversion: what a result says about the statements that led to it. -/

theorem bind_eq_ok {first : Program κ ν δ σ ε α} {next : α → Program κ ν δ σ ε β}
    {db : δ} {store store' : σ} {result : β × δ} :
    (first >>= next).run db store = (.ok result, store') ↔
      ∃ value db₁ store₁, first.run db store = (.ok (value, db₁), store₁) ∧
        (next value).run db₁ store₁ = (.ok result, store') := by
  rw [run_bind]
  rcases first.run db store with ⟨_ | ⟨value, db₁⟩, store₁⟩ <;> simp

theorem bind_eq_error {first : Program κ ν δ σ ε α} {next : α → Program κ ν δ σ ε β}
    {db : δ} {store store' : σ} {failure : ε} :
    (first >>= next).run db store = (.error failure, store') ↔
      first.run db store = (.error failure, store') ∨
        ∃ value db₁ store₁, first.run db store = (.ok (value, db₁), store₁) ∧
          (next value).run db₁ store₁ = (.error failure, store') := by
  rw [run_bind]
  rcases first.run db store with ⟨_ | ⟨value, db₁⟩, store₁⟩ <;> simp

theorem pure_eq_ok {value : α} {db : δ} {store store' : σ} {out : α × δ} :
    (pure value : Program κ ν δ σ ε α).run db store = (.ok out, store') ↔
      out = (value, db) ∧ store' = store := by
  simp [eq_comm]

/-- The last step only wraps the result. -/
theorem bind_pure_eq_ok {first : Program κ ν δ σ ε α} {wrap : α → β} {db db' : δ}
    {store store' : σ} {result : β} :
    (first >>= fun value => pure (wrap value)).run db store = (.ok (result, db'), store') ↔
      ∃ value, first.run db store = (.ok (value, db'), store') ∧ result = wrap value := by
  rw [run_bind]
  rcases first.run db store with ⟨_ | ⟨value, db₁⟩, store₁⟩
  · simp
  · simp only [run_pure, Prod.mk.injEq, Except.ok.injEq]
    grind

theorem fail_eq_ok {failure : ε} {db : δ} {store store' : σ} {out : α × δ} :
    (fail failure : Program κ ν δ σ ε α).run db store = (.ok out, store') ↔ False := by
  simp

theorem onStore_eq_error {name : ν} {action : σ → Except ε α × σ} {db : δ} {store store' : σ}
    {failure : ε} :
    (onStore name action : Program κ ν δ σ ε α).run db store = (.error failure, store') ↔
      action store = (.error failure, store') := by
  rw [run_onStore]
  rcases action store with ⟨_ | _, _⟩ <;> simp [Except.map]

theorem run_ask_bind (query : δ → α) (next : α → Program κ ν δ σ ε β) (db : δ) (store : σ) :
    (ask query >>= next).run db store = (next (query db)).run db store := rfl

theorem run_modify_bind (name : ν) (lock : Option κ) (change : δ → δ)
    (next : Unit → Program κ ν δ σ ε β) (db : δ) (store : σ) :
    (modify name lock change >>= next).run db store = (next ()).run (change db) store := rfl

theorem run_tryStore_bind (name : ν) (action : σ → Except ε α × σ)
    (next : Except ε α → Program κ ν δ σ ε β) (db : δ) (store : σ) :
    (tryStore name action >>= next).run db store =
      (next (action store).1).run db (action store).2 := rfl

section

variable {db : δ} {store store' : σ} {out : β × δ} {next : α → Program κ ν δ σ ε β}

theorem liftExcept_bind_ok {result : Except ε α} :
    (liftExcept result >>= next).run db store = (.ok out, store') ↔
      ∃ value, result = .ok value ∧ (next value).run db store = (.ok out, store') := by
  rw [run_bind, run_liftExcept]
  cases result <;> simp [Except.map]

theorem refuseIf_bind_ok {condition : Prop} [Decidable condition] {failure : ε}
    {next : Unit → Program κ ν δ σ ε β} :
    (refuseIf condition failure >>= next).run db store = (.ok out, store') ↔
      ¬ condition ∧ (next ()).run db store = (.ok out, store') := by
  rw [run_bind, run_refuseIf]
  by_cases holds : condition <;> simp [holds]

theorem askStore_bind_ok {name : ν} {query : σ → Except ε α} :
    (askStore name query >>= next).run db store = (.ok out, store') ↔
      ∃ value, query store = .ok value ∧ (next value).run db store = (.ok out, store') := by
  rw [run_bind, run_askStore]
  cases query store <;> simp [Except.map]

theorem onStore_bind_ok {name : ν} {action : σ → Except ε α × σ} :
    (onStore name action >>= next).run db store = (.ok out, store') ↔
      ∃ value store₁, action store = (.ok value, store₁) ∧
        (next value).run db store₁ = (.ok out, store') := by
  rw [run_bind, run_onStore]
  rcases action store with ⟨_ | _, _⟩ <;> simp [Except.map]

theorem select_bind_ok {lock : Option κ} {query : δ → Except ε α} :
    (select lock query done >>= next).run db store = (.ok out, store') ↔
      ∃ value, query db = .ok value ∧ (next value).run db store = (.ok out, store') := by
  rw [run_bind]
  simp only [run]
  cases query db <;> simp

theorem write_bind_ok {name : ν} {lock : Option κ} {statement : δ → Except ε (δ → δ)}
    {next : Unit → Program κ ν δ σ ε β} :
    (write name lock statement (done ()) >>= next).run db store = (.ok out, store') ↔
      ∃ change, statement db = .ok change ∧
        (next ()).run (change db) store = (.ok out, store') := by
  rw [run_bind]
  simp only [run]
  cases statement db <;> simp

end

/-! Programs without writes and without calls that change the store. -/

def ReadOnly (program : Program κ ν δ σ ε α) : Prop :=
  ∀ db store, (∃ value, program.run db store = (.ok (value, db), store)) ∨
    ∃ failure, program.run db store = (.error failure, store)

namespace ReadOnly

theorem pure (value : α) : ReadOnly (pure value : Program κ ν δ σ ε α) :=
  fun _ _ => .inl ⟨value, rfl⟩

theorem fail (failure : ε) : ReadOnly (fail failure : Program κ ν δ σ ε α) :=
  fun _ _ => .inr ⟨failure, rfl⟩

theorem select (lock : Option κ) (query : δ → Except ε α) :
    ReadOnly (select lock query done : Program κ ν δ σ ε α) := by
  intro db store
  simp only [run]
  cases query db with
  | ok value => exact .inl ⟨value, rfl⟩
  | error failure => exact .inr ⟨failure, rfl⟩

theorem ask (query : δ → α) : ReadOnly (ask query : Program κ ν δ σ ε α) := select none _

theorem liftExcept (result : Except ε α) :
    ReadOnly (liftExcept result : Program κ ν δ σ ε α) := by
  cases result with
  | ok value => exact pure value
  | error failure => exact fail failure

theorem refuseIf (condition : Prop) [Decidable condition] (failure : ε) :
    ReadOnly (refuseIf condition failure : Program κ ν δ σ ε Unit) := by
  unfold Program.refuseIf
  split
  · exact fail failure
  · exact pure ()

theorem askStore (name : ν) (query : σ → Except ε α) :
    ReadOnly (askStore name query : Program κ ν δ σ ε α) := by
  intro db store
  rw [run_askStore]
  cases query store with
  | ok value => exact .inl ⟨value, rfl⟩
  | error failure => exact .inr ⟨failure, rfl⟩

theorem bind {first : Program κ ν δ σ ε α} {next : α → Program κ ν δ σ ε β}
    (reads : ReadOnly first) (then_ : ∀ value, ReadOnly (next value)) :
    ReadOnly (first >>= next) := by
  intro db store
  rw [run_bind]
  rcases reads db store with ⟨value, done⟩ | ⟨failure, done⟩
  · rw [done]; exact then_ value db store
  · rw [done]; exact .inr ⟨failure, rfl⟩

theorem ok {program : Program κ ν δ σ ε α} (reads : ReadOnly program) {db db' : δ}
    {store store' : σ} {value : α} (done : program.run db store = (.ok (value, db'), store')) :
    db' = db ∧ store' = store := by
  rcases reads db store with ⟨_, same⟩ | ⟨_, same⟩ <;> rw [same] at done <;> cases done
  exact ⟨rfl, rfl⟩

theorem error {program : Program κ ν δ σ ε α} (reads : ReadOnly program) {db : δ}
    {store store' : σ} {failure : ε}
    (done : program.run db store = (.error failure, store')) : store' = store := by
  rcases reads db store with ⟨_, same⟩ | ⟨_, same⟩ <;> rw [same] at done <;> cases done
  rfl

/-- A failure before the first effect, or one of what follows. -/
theorem bind_error {first : Program κ ν δ σ ε α} {next : α → Program κ ν δ σ ε β}
    (reads : ReadOnly first) {db : δ} {store store' : σ} {failure : ε}
    (failed : (first >>= next).run db store = (.error failure, store')) :
    store' = store ∨ ∃ value, first.run db store = (.ok (value, db), store) ∧
      (next value).run db store = (.error failure, store') := by
  rcases bind_eq_error.mp failed with stopped | ⟨value, db₁, store₁, went, stopped⟩
  · exact .inl (reads.error stopped)
  · obtain ⟨rfl, rfl⟩ := reads.ok went
    exact .inr ⟨value, went, stopped⟩

theorem bind_eq_ok {first : Program κ ν δ σ ε α} {next : α → Program κ ν δ σ ε β}
    (reads : ReadOnly first) {db : δ} {store store' : σ} {out : β × δ} :
    (first >>= next).run db store = (.ok out, store') ↔
      ∃ value, first.run db store = (.ok (value, db), store) ∧
        (next value).run db store = (.ok out, store') := by
  rw [run_bind]
  rcases reads db store with ⟨value, done⟩ | ⟨failure, done⟩ <;> simp [done]

end ReadOnly

/-! What happens to the store, however a program ends: either a check stops it before
anything is called, or it goes on from where the check left it. -/

theorem ReadOnly.bind_effect {effect : σ → Prop} {first : Program κ ν δ σ ε α}
    {next : α → Program κ ν δ σ ε β} {db : δ} {store : σ} (reads : ReadOnly first)
    (stopped : effect store)
    (goes : ∀ value, first.run db store = (.ok (value, db), store) →
      effect ((next value).run db store).2) : effect ((first >>= next).run db store).2 := by
  rw [run_bind]
  rcases reads db store with ⟨value, done⟩ | ⟨failure, done⟩
  · rw [done]; exact goes value done
  · rw [done]; exact stopped

/-- A program without a call leaves the store alone. -/
def Offline (program : Program κ ν δ σ ε α) : Prop :=
  ∀ db store, (program.run db store).2 = store

namespace Offline

theorem pure (value : α) : Offline (pure value : Program κ ν δ σ ε α) := fun _ _ => rfl

theorem fail (failure : ε) : Offline (fail failure : Program κ ν δ σ ε α) := fun _ _ => rfl

theorem of_readOnly {program : Program κ ν δ σ ε α} (reads : ReadOnly program) :
    Offline program := by
  intro db store
  rcases reads db store with ⟨_, done⟩ | ⟨_, done⟩ <;> rw [done]

theorem write (name : ν) (lock : Option κ) (statement : δ → Except ε (δ → δ)) :
    Offline (write name lock statement (done ()) : Program κ ν δ σ ε Unit) := by
  intro db store
  simp only [run]
  cases statement db <;> rfl

theorem modify (name : ν) (lock : Option κ) (change : δ → δ) :
    Offline (modify name lock change : Program κ ν δ σ ε Unit) := write name lock _

theorem bind {first : Program κ ν δ σ ε α} {next : α → Program κ ν δ σ ε β}
    (offline : Offline first) (then_ : ∀ value, Offline (next value)) :
    Offline (first >>= next) := by
  intro db store
  have middle := offline db store
  rw [run_bind]
  split
  · rename_i done; rw [done] at middle; rw [then_]; exact middle
  · rename_i done; rw [done] at middle; exact middle

/-- After the last call only statements follow. -/
theorem then_effect {effect : σ → Prop} {first : Program κ ν δ σ ε α}
    {next : α → Program κ ν δ σ ε β} {db : δ} {store : σ} (offline : ∀ value, Offline (next value))
    (acted : effect (first.run db store).2) : effect ((first >>= next).run db store).2 := by
  rw [run_bind]
  split
  · rename_i done; rw [done] at acted; rw [offline]; exact acted
  · rename_i done; rw [done] at acted; exact acted

end Offline

/-! The failures a program can end with. -/

def Raises (allowed : ε → Prop) (program : Program κ ν δ σ ε α) : Prop :=
  ∀ db store failure store', program.run db store = (.error failure, store') → allowed failure

namespace Raises

variable {allowed : ε → Prop}

theorem pure (value : α) : Raises allowed (pure value : Program κ ν δ σ ε α) := by
  intro db store failure store' failed
  cases failed

theorem fail {failure : ε} (ok : allowed failure) :
    Raises allowed (fail failure : Program κ ν δ σ ε α) := by
  intro db store failure store' failed
  cases failed
  exact ok

theorem liftExcept {result : Except ε α}
    (ok : ∀ failure, result = .error failure → allowed failure) :
    Raises allowed (liftExcept result : Program κ ν δ σ ε α) := by
  cases result with
  | ok value => exact pure value
  | error failure => exact fail (ok failure rfl)

theorem refuseIf {condition : Prop} [Decidable condition] {failure : ε} (ok : allowed failure) :
    Raises allowed (refuseIf condition failure : Program κ ν δ σ ε Unit) := by
  unfold Program.refuseIf
  split
  · exact fail ok
  · exact pure ()

theorem write {name : ν} {lock : Option κ} {statement : δ → Except ε (δ → δ)}
    (ok : ∀ db failure, statement db = .error failure → allowed failure) :
    Raises allowed (write name lock statement (done ()) : Program κ ν δ σ ε Unit) := by
  intro db store failure store' failed
  simp only [run] at failed
  split at failed
  · cases failed
  · rename_i refused
    cases failed
    exact ok db _ refused

theorem select {lock : Option κ} {query : δ → Except ε α}
    (ok : ∀ db failure, query db = .error failure → allowed failure) :
    Raises allowed (select lock query done : Program κ ν δ σ ε α) := by
  intro db store failure store' failed
  simp only [run] at failed
  split at failed
  · cases failed
  · rename_i refused
    cases failed
    exact ok db _ refused

theorem modify (name : ν) (lock : Option κ) (change : δ → δ) :
    Raises allowed (modify name lock change : Program κ ν δ σ ε Unit) :=
  write fun _ _ refused => by cases refused

theorem ask (query : δ → α) : Raises allowed (ask query : Program κ ν δ σ ε α) := by
  intro db store failure store' failed
  cases failed

theorem askStore {name : ν} {query : σ → Except ε α}
    (ok : ∀ store failure, query store = .error failure → allowed failure) :
    Raises allowed (askStore name query : Program κ ν δ σ ε α) := by
  intro db store failure store' failed
  rw [run_askStore] at failed
  cases answer : query store with
  | ok value => rw [answer] at failed; cases failed
  | error raised =>
    rw [answer] at failed
    cases failed
    exact ok store _ answer

theorem onStore {name : ν} {action : σ → Except ε α × σ}
    (ok : ∀ store failure, (action store).1 = .error failure → allowed failure) :
    Raises allowed (onStore name action : Program κ ν δ σ ε α) := by
  intro db store failure store' failed
  exact ok store failure (congrArg Prod.fst (onStore_eq_error.mp failed))

theorem bind {first : Program κ ν δ σ ε α} {next : α → Program κ ν δ σ ε β}
    (raises : Raises allowed first) (then_ : ∀ value, Raises allowed (next value)) :
    Raises allowed (first >>= next) := by
  intro db store failure store' failed
  rw [run_bind] at failed
  split at failed
  · exact then_ _ _ _ _ _ failed
  · rename_i refused
    cases failed
    exact raises _ _ _ _ refused

end Raises

end Program

/-- A call to the store, with what the program had before it at that moment. -/
structure Call (ν δ σ : Type) where
  name : ν
  db : δ
  store : σ

namespace Program

variable {κ ν δ σ ε α β : Type}

/-- The calls a program makes, in order. -/
def calls : Program κ ν δ σ ε α → δ → σ → List (Call ν δ σ)
  | done _, _, _ => []
  | fail _, _, _ => []
  | select _ query next, db, store =>
    match query db with
    | .ok value => (next value).calls db store
    | .error _ => []
  | write _ _ statement next, db, store =>
    match statement db with
    | .ok change => next.calls (change db) store
    | .error _ => []
  | call name action next, db, store =>
    ⟨name, db, store⟩ :: (next (action store).1).calls db (action store).2

theorem calls_bind (first : Program κ ν δ σ ε α) (next : α → Program κ ν δ σ ε β)
    (db : δ) (store : σ) :
    (first >>= next).calls db store = first.calls db store ++
      match first.run db store with
      | (.ok (value, db'), store') => (next value).calls db' store'
      | (.error _, _) => [] := by
  change (first.andThen next).calls db store = _
  induction first generalizing db store with
  | done value => rfl
  | fail failure => rfl
  | select lock query rest ih =>
    simp only [andThen, calls, run]
    cases query db with
    | ok value => exact ih value db store
    | error failure => rfl
  | write name lock statement rest ih =>
    simp only [andThen, calls, run]
    cases statement db with
    | ok change => exact ih (change db) store
    | error failure => rfl
  | call name action rest ih =>
    simp only [andThen, calls, run, List.cons_append]
    rw [ih]

theorem calls_bind_pure (first : Program κ ν δ σ ε α) (wrap : α → β) (db : δ) (store : σ) :
    (first >>= fun value => pure (wrap value)).calls db store = first.calls db store := by
  rw [calls_bind]
  rcases first.run db store with ⟨_ | ⟨value, db'⟩, store'⟩ <;> exact List.append_nil _

/-- Every call of the program, whatever it finds, has an allowed name. -/
def Calls (allowed : ν → Prop) (program : Program κ ν δ σ ε α) : Prop :=
  ∀ db store, ∀ call ∈ program.calls db store, allowed call.name

namespace Calls

variable {allowed : ν → Prop}

theorem pure (value : α) : Calls allowed (pure value : Program κ ν δ σ ε α) :=
  fun _ _ _ => nofun

theorem fail (failure : ε) : Calls allowed (fail failure : Program κ ν δ σ ε α) :=
  fun _ _ _ => nofun

theorem select (lock : Option κ) (query : δ → Except ε α) :
    Calls allowed (select lock query done : Program κ ν δ σ ε α) := by
  intro db store
  simp only [calls]
  cases query db <;> exact fun _ => nofun

theorem ask (query : δ → α) : Calls allowed (ask query : Program κ ν δ σ ε α) := select none _

theorem liftExcept (result : Except ε α) :
    Calls allowed (liftExcept result : Program κ ν δ σ ε α) := by
  cases result with
  | ok value => exact pure value
  | error failure => exact fail failure

theorem refuseIf (condition : Prop) [Decidable condition] (failure : ε) :
    Calls allowed (refuseIf condition failure : Program κ ν δ σ ε Unit) := by
  unfold Program.refuseIf
  split
  · exact fail failure
  · exact pure ()

theorem askStore {name : ν} (ok : allowed name) (query : σ → Except ε α) :
    Calls allowed (askStore name query : Program κ ν δ σ ε α) := by
  intro db store call made
  rcases List.mem_cons.mp made with rfl | later
  · exact ok
  · have silent : Calls allowed (Program.liftExcept (query store) : Program κ ν δ σ ε α) :=
      liftExcept _
    exact silent db store call later

theorem tryStore {name : ν} (ok : allowed name) (action : σ → Except ε α × σ) :
    Calls allowed (tryStore name action : Program κ ν δ σ ε (Except ε α)) := by
  intro db store call made
  rcases List.mem_cons.mp made with rfl | later
  · exact ok
  · cases later

theorem bind {first : Program κ ν δ σ ε α} {next : α → Program κ ν δ σ ε β}
    (calls_first : Calls allowed first) (then_ : ∀ value, Calls allowed (next value)) :
    Calls allowed (first >>= next) := by
  intro db store call made
  rw [calls_bind] at made
  rcases List.mem_append.mp made with early | late
  · exact calls_first db store call early
  · split at late
    · exact then_ _ _ _ call late
    · cases late

theorem write {name : ν} {lock : Option κ} {statement : δ → Except ε (δ → δ)} :
    Calls allowed (write name lock statement (done ()) : Program κ ν δ σ ε Unit) := by
  intro db store
  simp only [calls]
  cases statement db <;> exact fun _ => nofun

theorem modify (name : ν) (lock : Option κ) (change : δ → δ) :
    Calls allowed (modify name lock change : Program κ ν δ σ ε Unit) := write

/-- A call that the first part cannot make is made by the second. -/
theorem later {first : Program κ ν δ σ ε α} {next : α → Program κ ν δ σ ε β}
    (calls_first : Calls allowed first) {db : δ} {store : σ} {call : Call ν δ σ}
    (other : ¬ allowed call.name) (made : call ∈ (first >>= next).calls db store) :
    ∃ value db' store', first.run db store = (.ok (value, db'), store') ∧
      call ∈ (next value).calls db' store' := by
  rw [calls_bind] at made
  rcases List.mem_append.mp made with early | late
  · exact absurd (calls_first db store call early) other
  · split at late
    · rename_i value db' store' went
      exact ⟨value, db', store', went, late⟩
    · cases late

end Calls

theorem mem_calls_onStore {name : ν} {action : σ → Except ε α × σ}
    {next : α → Program κ ν δ σ ε β} {db : δ} {store : σ} {call : Call ν δ σ}
    (made : call ∈ (onStore name action >>= next).calls db store) :
    call = ⟨name, db, store⟩ ∨
      ∃ value store', action store = (.ok value, store') ∧ call ∈ (next value).calls db store' := by
  rcases List.mem_cons.mp made with same | later
  · exact .inl same
  · have silent : Calls (fun _ => False)
        (liftExcept (action store).1 : Program κ ν δ σ ε α) := .liftExcept _
    obtain ⟨value, db', store', went, late⟩ := silent.later id later
    rcases answer : action store with ⟨_ | found, after⟩ <;> rw [answer] at went <;> cases went
    exact .inr ⟨value, after, rfl, late⟩

/-! What a program leaves as it was in the database, when it commits. -/

def Keeps {γ : Type} (view : δ → γ) (program : Program κ ν δ σ ε α) : Prop :=
  ∀ db store value db' store', program.run db store = (.ok (value, db'), store') →
    view db' = view db

namespace Keeps

variable {γ : Type} {view : δ → γ}

theorem of_readOnly {program : Program κ ν δ σ ε α} (reads : ReadOnly program) :
    Keeps view program := by
  intro db store value db' store' done
  rw [(reads.ok done).1]

theorem pure (value : α) : Keeps view (pure value : Program κ ν δ σ ε α) :=
  of_readOnly (.pure value)

theorem write {name : ν} {lock : Option κ} {statement : δ → Except ε (δ → δ)}
    (kept : ∀ db change, statement db = .ok change → view (change db) = view db) :
    Keeps view (write name lock statement (done ()) : Program κ ν δ σ ε Unit) := by
  intro db store value db' store' done
  simp only [run] at done
  split at done
  · rename_i change effect
    cases done
    exact kept db change effect
  · cases done

theorem modify {name : ν} {lock : Option κ} {change : δ → δ}
    (kept : ∀ db, view (change db) = view db) :
    Keeps view (modify name lock change : Program κ ν δ σ ε Unit) := by
  refine write fun db found same => ?_
  cases same
  exact kept db

theorem tryStore (name : ν) (action : σ → Except ε α × σ) :
    Keeps view (tryStore name action : Program κ ν δ σ ε (Except ε α)) := by
  intro db store value db' store' done
  cases done
  rfl

theorem bind {first : Program κ ν δ σ ε α} {next : α → Program κ ν δ σ ε β}
    (keeps : Keeps view first) (then_ : ∀ value, Keeps view (next value)) :
    Keeps view (first >>= next) := by
  intro db store value db' store' done
  obtain ⟨middle, db₁, store₁, started, finished⟩ := bind_eq_ok.mp done
  rw [then_ middle _ _ _ _ _ finished, keeps _ _ _ _ _ started]

end Keeps

end Program

/-- The committed database and the store beside it. -/
structure World (δ σ : Type) where
  db : δ
  store : σ

namespace World

variable {κ ν δ σ ε α β : Type}

/-- Run a program to its commit or its rollback. -/
def execute (world : World δ σ) (program : Program κ ν δ σ ε α) : Except ε α × World δ σ :=
  match program.run world.db world.store with
  | (.ok (value, db), store) => (.ok value, ⟨db, store⟩)
  | (.error failure, store) => (.error failure, ⟨world.db, store⟩)

theorem execute_eq_ok {world world' : World δ σ} {program : Program κ ν δ σ ε α} {value : α} :
    world.execute program = (.ok value, world') ↔
      program.run world.db world.store = (.ok (value, world'.db), world'.store) := by
  obtain ⟨db', store'⟩ := world'
  unfold execute
  rcases program.run world.db world.store with ⟨_ | ⟨found, db₁⟩, store₁⟩ <;> simp [and_assoc]

theorem execute_eq_error {world world' : World δ σ} {program : Program κ ν δ σ ε α}
    {failure : ε} :
    world.execute program = (.error failure, world') ↔
      program.run world.db world.store = (.error failure, world'.store) ∧
        world'.db = world.db := by
  obtain ⟨db', store'⟩ := world'
  unfold execute
  rcases program.run world.db world.store with ⟨_ | ⟨found, db₁⟩, store₁⟩
  · simp only [Prod.mk.injEq, Except.error.injEq, World.mk.injEq]
    tauto
  · simp

theorem execute_committed {world : World δ σ} {program : Program κ ν δ σ ε α} {value : α}
    (done : (world.execute program).1 = .ok value) :
    program.run world.db world.store =
      (.ok (value, (world.execute program).2.db), (world.execute program).2.store) :=
  execute_eq_ok.mp (Prod.ext done rfl)

/-! The last step of a request only wraps its result. -/

theorem execute_wrap_ok {world : World δ σ} {program : Program κ ν δ σ ε α} {value : α} {db : δ}
    {store : σ} (done : program.run world.db world.store = (.ok (value, db), store))
    (wrap : α → β) :
    world.execute (program >>= fun value => pure (wrap value)) =
      (.ok (wrap value), ⟨db, store⟩) := by
  apply execute_eq_ok.mpr
  exact Program.bind_pure_eq_ok.mpr ⟨value, done, rfl⟩

theorem execute_wrap_error {world : World δ σ} {program : Program κ ν δ σ ε α} {failure : ε}
    {store : σ} (refused : program.run world.db world.store = (.error failure, store))
    (wrap : α → β) :
    world.execute (program >>= fun value => pure (wrap value)) =
      (.error failure, ⟨world.db, store⟩) := by
  apply execute_eq_error.mpr
  exact ⟨Program.run_bind_error refused _, rfl⟩

/-- A property of worlds survives a request when both ways of ending it keep it. -/
theorem execute_preserves (holds : World δ σ → Prop) {world : World δ σ}
    {program : Program κ ν δ σ ε α}
    (committed : ∀ value db store,
      program.run world.db world.store = (.ok (value, db), store) → holds ⟨db, store⟩)
    (rolledBack : ∀ failure store,
      program.run world.db world.store = (.error failure, store) → holds ⟨world.db, store⟩) :
    holds (world.execute program).2 := by
  unfold execute
  split
  · rename_i done; exact committed _ _ _ done
  · rename_i done; exact rolledBack _ _ done

end World

end Kit
