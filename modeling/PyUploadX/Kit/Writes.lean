import PyUploadX.Kit.Protocol

/-! The writes of a program, each with the database before it and after it. -/
namespace Kit.Program

variable {κ ν δ σ ε α β : Type}

/-- The writes of a run, in order; those of a run that fails are among them. -/
def writes : Program κ ν δ σ ε α → δ → σ → List (δ × δ)
  | done _, _, _ => []
  | fail _, _, _ => []
  | select _ query next, db, store =>
    match query db with
    | .ok value => (next value).writes db store
    | .error _ => []
  | write _ _ statement next, db, store =>
    match statement db with
    | .ok change => (db, change db) :: next.writes (change db) store
    | .error _ => []
  | call _ action next, db, store => (next (action store).1).writes db (action store).2

/-- Every write of the run takes the database to an allowed one. -/
def WritesAlong (allowed : δ → δ → Prop) (program : Program κ ν δ σ ε α) (db : δ) (store : σ) :
    Prop :=
  ∀ write ∈ program.writes db store, allowed write.1 write.2

variable {allowed : δ → δ → Prop} {db : δ} {store : σ}

/-- The second program is run where the first one ends well. -/
theorem writesAlong_bind {first : Program κ ν δ σ ε α} {next : α → Program κ ν δ σ ε β} :
    (first >>= next).WritesAlong allowed db store ↔
      first.WritesAlong allowed db store ∧ ∀ value db' store',
        first.run db store = (.ok (value, db'), store') →
          (next value).WritesAlong allowed db' store' := by
  change (first.andThen next).WritesAlong allowed db store ↔ _
  unfold WritesAlong
  induction first generalizing db store with
  | done value =>
    simp only [andThen, writes, run]
    constructor
    · refine fun each => ⟨List.forall_mem_nil _, fun value db' store' ran => ?_⟩
      cases ran
      exact each
    · exact fun each => each.2 value db store rfl
  | fail failure =>
    simp only [andThen, writes, run]
    refine iff_of_true (List.forall_mem_nil _) ⟨List.forall_mem_nil _, fun value db' store' ran => ?_⟩
    cases ran
  | select lock query rest ih =>
    simp only [andThen, writes, run]
    cases query db with
    | ok value => exact ih value
    | error failure =>
      refine iff_of_true (List.forall_mem_nil _) ⟨List.forall_mem_nil _, fun value db' store' ran => ?_⟩
      cases ran
  | write name lock statement rest ih =>
    simp only [andThen, writes, run]
    cases statement db with
    | ok change =>
      simp only [List.forall_mem_cons, and_assoc]
      exact and_congr_right fun _ => ih
    | error failure =>
      refine iff_of_true (List.forall_mem_nil _) ⟨List.forall_mem_nil _, fun value db' store' ran => ?_⟩
      cases ran
  | call name action rest ih =>
    simp only [andThen, writes, run]
    exact ih (action store).1

theorem writesAlong_modify_bind {name : ν} {lock : Option κ} {change : δ → δ}
    {next : Unit → Program κ ν δ σ ε β} :
    (modify name lock change >>= next).WritesAlong allowed db store ↔
      allowed db (change db) ∧ (next ()).WritesAlong allowed (change db) store :=
  List.forall_mem_cons

theorem writesAlong_ask_bind {query : δ → α} {next : α → Program κ ν δ σ ε β} :
    (ask query >>= next).WritesAlong allowed db store ↔
      (next (query db)).WritesAlong allowed db store :=
  Iff.rfl

theorem writesAlong_tryStore_bind {name : ν} {action : σ → Except ε α × σ}
    {next : Except ε α → Program κ ν δ σ ε β} :
    (tryStore name action >>= next).WritesAlong allowed db store ↔
      (next (action store).1).WritesAlong allowed db (action store).2 :=
  Iff.rfl

theorem writesAlong_pure (value : α) :
    (pure value : Program κ ν δ σ ε α).WritesAlong allowed db store := by
  intro write member
  cases member

/-- A last step that only wraps the result writes nothing. -/
theorem writesAlong_bind_pure {first : Program κ ν δ σ ε α} {wrap : α → β} :
    (first >>= fun value => pure (wrap value)).WritesAlong allowed db store ↔
      first.WritesAlong allowed db store := by
  rw [writesAlong_bind]
  exact and_iff_left fun _ _ _ _ => writesAlong_pure _

/-- What every write of the program does, whatever it finds, it does along a run. -/
theorem EachWrite.along {program : Program κ ν δ σ ε α}
    (each : program.EachWrite fun _ _ change => ∀ db, allowed db (change db)) :
    program.WritesAlong allowed db store := by
  unfold WritesAlong
  induction program generalizing db store with
  | done value => exact List.forall_mem_nil _
  | fail failure => exact List.forall_mem_nil _
  | select lock query rest ih =>
    simp only [writes]
    cases query db with
    | ok value => exact ih value (each value)
    | error failure => exact List.forall_mem_nil _
  | write name lock statement rest ih =>
    simp only [writes]
    cases stated : statement db with
    | ok change => exact List.forall_mem_cons.mpr ⟨each.1 db change stated db, ih each.2⟩
    | error failure => exact List.forall_mem_nil _
  | call name action rest ih =>
    simp only [writes]
    exact ih (action store).1 (each (action store).1)

theorem EachWrite.mono {permitted : ν → Option κ → (δ → δ) → Prop}
    {granted : ν → Option κ → (δ → δ) → Prop} {program : Program κ ν δ σ ε α}
    (each : program.EachWrite permitted)
    (implies : ∀ name lock change, permitted name lock change → granted name lock change) :
    program.EachWrite granted := by
  induction program with
  | done value => trivial
  | fail failure => trivial
  | select lock query rest ih => exact fun value => ih value (each value)
  | write name lock statement rest ih =>
    exact ⟨fun db change stated => implies _ _ _ (each.1 db change stated), ih each.2⟩
  | call name action rest ih => exact fun reply => ih reply (each reply)

/-- What reads and writes nothing passes its value on. -/
theorem writesAlong_reads_bind {first : Program κ ν δ σ ε α} {next : α → Program κ ν δ σ ε β}
    (silent : first.EachWrite fun _ _ _ => False) (reads : first.ReadOnly) :
    (first >>= next).WritesAlong allowed db store ↔ ∀ value,
      first.run db store = (.ok (value, db), store) → (next value).WritesAlong allowed db store := by
  rw [writesAlong_bind]
  constructor
  · exact fun each value ran => each.2 value db store ran
  · intro each
    refine ⟨(silent.mono fun _ _ _ => False.elim).along, fun value db' store' ran => ?_⟩
    obtain ⟨rfl, rfl⟩ := reads.ok ran
    exact each value ran

theorem writesAlong_liftExcept_bind {result : Except ε α} {next : α → Program κ ν δ σ ε β} :
    ((liftExcept result : Program κ ν δ σ ε α) >>= next).WritesAlong allowed db store ↔
      ∀ value, result = .ok value → (next value).WritesAlong allowed db store := by
  cases result with
  | ok value =>
    constructor
    · intro each other same
      cases same
      exact each
    · exact fun each => each value rfl
  | error failure =>
    refine iff_of_true (List.forall_mem_nil _) fun value same => ?_
    cases same

theorem writesAlong_refuseIf_bind {condition : Prop} [Decidable condition] {failure : ε}
    {next : Unit → Program κ ν δ σ ε β} :
    ((refuseIf condition failure : Program κ ν δ σ ε Unit) >>= next).WritesAlong allowed db store ↔
      (¬ condition → (next ()).WritesAlong allowed db store) := by
  unfold refuseIf
  split
  · rename_i refused
    exact iff_of_true (List.forall_mem_nil _) fun allowed => absurd refused allowed
  · rename_i passes
    exact ⟨fun each _ => each, fun each => each passes⟩

theorem writesAlong_onStore_bind {name : ν} {action : σ → Except ε α × σ}
    {next : α → Program κ ν δ σ ε β} :
    (onStore name action >>= next).WritesAlong allowed db store ↔ ∀ value,
      (action store).1 = .ok value → (next value).WritesAlong allowed db (action store).2 :=
  writesAlong_liftExcept_bind

theorem writesAlong_write_bind {name : ν} {lock : Option κ} {statement : δ → Except ε (δ → δ)}
    {next : Unit → Program κ ν δ σ ε β} :
    (write name lock statement (done ()) >>= next).WritesAlong allowed db store ↔ ∀ change,
      statement db = .ok change →
        allowed db (change db) ∧ (next ()).WritesAlong allowed (change db) store := by
  change (write name lock statement (next ())).WritesAlong allowed db store ↔ _
  unfold WritesAlong
  simp only [writes]
  cases statement db with
  | ok change =>
    simp only [List.forall_mem_cons, Except.ok.injEq, forall_eq']
  | error failure =>
    refine iff_of_true (List.forall_mem_nil _) fun change same => ?_
    cases same

end Kit.Program
