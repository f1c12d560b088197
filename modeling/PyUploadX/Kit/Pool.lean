import Mathlib.Data.List.Perm.Basic
import PyUploadX.Kit.Runs
import PyUploadX.Kit.Task

/-! A pool of worker threads with one queue, and a semaphore that a thread takes for each task. -/
namespace Kit

inductive Worker (ω ρ : Type)
  | idle
  /-- It has a task and waits for a permit. -/
  | waiting (future : Nat) (task : Task ω ρ)
  /-- It has a permit. -/
  | working (future : Nat) (task : Task ω ρ)
  /-- It has given its permit back, and not yet set the future's result. -/
  | returning (future : Nat) (result : ρ)

namespace Worker

variable {ω ρ : Type}

/-- The future it works for, and what is left of its task. -/
def holding : Worker ω ρ → Option (Nat × Task ω ρ)
  | idle => none
  | waiting future task => some (future, task)
  | working future task => some (future, task)
  | returning future result => some (future, .done result)

def hasPermit : Worker ω ρ → Bool
  | working _ _ => true
  | _ => false

/-- The turns that it has before it at most. -/
noncomputable def remaining : Worker ω ρ → Nat
  | idle => 0
  | waiting _ task => task.cost + 3
  | working _ task => task.cost + 2
  | returning _ _ => 1

end Worker

structure Pool (ω ρ : Type) where
  world : ω
  /-- The results, in the order of submission. -/
  futures : List (Option ρ) := []
  queue : List (Nat × Task ω ρ) := []
  workers : List (Worker ω ρ)
  permits : Nat

namespace Pool

variable {ω ρ : Type}

/-- `count` threads and a semaphore of `permits`. -/
def start (world : ω) (count permits : Nat) : Pool ω ρ where
  world := world
  workers := List.replicate count .idle
  permits := permits

def submit (pool : Pool ω ρ) (task : Task ω ρ) : Pool ω ρ :=
  { pool with
    futures := pool.futures ++ [none]
    queue := pool.queue ++ [(pool.futures.length, task)] }

/-- The next step of the `i`th thread; one that has to wait stays where it is. -/
def turn (pool : Pool ω ρ) (i : Nat) : Pool ω ρ :=
  match pool.workers[i]? with
  | none => pool
  | some .idle =>
    match pool.queue with
    | [] => pool
    | (future, task) :: rest =>
      { pool with queue := rest, workers := pool.workers.set i (.waiting future task) }
  | some (.waiting future task) =>
    if 0 < pool.permits then
      { pool with
        permits := pool.permits - 1
        workers := pool.workers.set i (.working future task) }
    else pool
  | some (.working future (.done result)) =>
    { pool with
      permits := pool.permits + 1
      workers := pool.workers.set i (.returning future result) }
  | some (.working future (.step change next)) =>
    { pool with
      world := change pool.world
      workers := pool.workers.set i (.working future (next pool.world)) }
  | some (.returning future result) =>
    { pool with
      futures := pool.futures.set future (some result)
      workers := pool.workers.set i .idle }

/-- What a turn is: a thread goes from `old` to `new`, and the rest of the pool with it. -/
inductive Turn (pool : Pool ω ρ) : Worker ω ρ → Worker ω ρ → Pool ω ρ → Prop
  | takes {future : Nat} {task : Task ω ρ} {rest : List (Nat × Task ω ρ)}
      (first : pool.queue = (future, task) :: rest) (workers : List (Worker ω ρ)) :
      Turn pool .idle (.waiting future task) { pool with queue := rest, workers := workers }
  | acquires {future : Nat} {task : Task ω ρ} (free : 0 < pool.permits)
      (workers : List (Worker ω ρ)) :
      Turn pool (.waiting future task) (.working future task)
        { pool with permits := pool.permits - 1, workers := workers }
  | steps {future : Nat} {change : ω → ω} {next : ω → Task ω ρ} (workers : List (Worker ω ρ)) :
      Turn pool (.working future (.step change next)) (.working future (next pool.world))
        { pool with world := change pool.world, workers := workers }
  | releases {future : Nat} {result : ρ} (workers : List (Worker ω ρ)) :
      Turn pool (.working future (.done result)) (.returning future result)
        { pool with permits := pool.permits + 1, workers := workers }
  | returns {future : Nat} {result : ρ} (workers : List (Worker ω ρ)) :
      Turn pool (.returning future result) .idle
        { pool with futures := pool.futures.set future (some result), workers := workers }

/-- The thread whose turn it is can do nothing: it has no task, or no permit. -/
inductive Stuck (pool : Pool ω ρ) : Worker ω ρ → Prop
  | idle (empty : pool.queue = []) : Stuck pool .idle
  | waiting {future : Nat} {task : Task ω ρ} (none : pool.permits = 0) :
      Stuck pool (.waiting future task)

theorem set_perm {workers : List (Worker ω ρ)} {i : Nat} {old : Worker ω ρ}
    (found : workers[i]? = some old) :
    ∃ others, workers.Perm (old :: others) ∧
      ∀ new, (workers.set i new).Perm (new :: others) := by
  obtain ⟨bound, rfl⟩ := List.getElem?_eq_some_iff.mp found
  exact ⟨workers.eraseIdx i, (List.getElem_cons_eraseIdx_perm bound).symm,
    fun new => List.set_perm_cons_eraseIdx bound new⟩

theorem turn_cases (pool : Pool ω ρ) (i : Nat) :
    (pool.turn i = pool ∧ ∀ worker, pool.workers[i]? = some worker → pool.Stuck worker) ∨
      ∃ old new others, pool.workers.Perm (old :: others) ∧
        (pool.turn i).workers.Perm (new :: others) ∧ pool.Turn old new (pool.turn i) := by
  cases found : pool.workers[i]? with
  | none =>
    left
    unfold turn
    rw [found]
    exact ⟨rfl, fun _ present => by cases present⟩
  | some worker =>
    obtain ⟨others, before, after⟩ := set_perm found
    cases worker with
    | idle =>
      cases waiting : pool.queue with
      | nil =>
        left
        unfold turn
        rw [found, waiting]
        refine ⟨rfl, ?_⟩
        rintro _ ⟨⟩
        exact .idle waiting
      | cons entry rest =>
        obtain ⟨future, task⟩ := entry
        right
        have moved : pool.turn i = { pool with
            queue := rest, workers := pool.workers.set i (.waiting future task) } := by
          unfold turn
          rw [found, waiting]
        rw [moved]
        exact ⟨_, _, others, before, after _, .takes waiting _⟩
    | waiting future task =>
      by_cases free : 0 < pool.permits
      · right
        have moved : pool.turn i = { pool with
            permits := pool.permits - 1
            workers := pool.workers.set i (.working future task) } := by
          unfold turn
          rw [found]
          exact if_pos free
        rw [moved]
        exact ⟨_, _, others, before, after _, .acquires free _⟩
      · left
        constructor
        · unfold turn
          rw [found]
          exact if_neg free
        · rintro _ ⟨⟩
          exact .waiting (Nat.eq_zero_of_not_pos free)
    | working future task =>
      right
      cases task with
      | done result =>
        have moved : pool.turn i = { pool with
            permits := pool.permits + 1
            workers := pool.workers.set i (.returning future result) } := by
          unfold turn
          rw [found]
        rw [moved]
        exact ⟨_, _, others, before, after _, .releases _⟩
      | step change next =>
        have moved : pool.turn i = { pool with
            world := change pool.world
            workers := pool.workers.set i (.working future (next pool.world)) } := by
          unfold turn
          rw [found]
        rw [moved]
        exact ⟨_, _, others, before, after _, .steps _⟩
    | returning future result =>
      right
      have moved : pool.turn i = { pool with
          futures := pool.futures.set future (some result)
          workers := pool.workers.set i .idle } := by
        unfold turn
        rw [found]
      rw [moved]
      exact ⟨_, _, others, before, after _, .returns _⟩

/-! What the threads and the queue hold, each for a future that has no result. -/

def held (pool : Pool ω ρ) : List (Nat × Task ω ρ) :=
  pool.workers.filterMap (·.holding) ++ pool.queue

theorem held_perm {pool : Pool ω ρ} {worker : Worker ω ρ} {others : List (Worker ω ρ)}
    (workers : pool.workers.Perm (worker :: others)) :
    pool.held.Perm (worker.holding.toList ++ (others.filterMap (·.holding) ++ pool.queue)) := by
  unfold held
  rw [← List.append_assoc]
  refine List.Perm.append_right _ ((workers.filterMap _).trans (List.Perm.of_eq ?_))
  cases holds : worker.holding with
  | none => rw [List.filterMap_cons_none holds]; rfl
  | some entry => rw [List.filterMap_cons_some holds]; rfl

/-- A turn passes a task on, takes a step of one, or sets the result of a future. -/
inductive Effect (pool turned : Pool ω ρ) : Prop
  | passes (held : turned.held.Perm pool.held) (world : turned.world = pool.world)
      (futures : turned.futures = pool.futures)
  | steps {future : Nat} {change : ω → ω} {next : ω → Task ω ρ} {rest : List (Nat × Task ω ρ)}
      (before : pool.held.Perm ((future, .step change next) :: rest))
      (after : turned.held.Perm ((future, next pool.world) :: rest))
      (world : turned.world = change pool.world) (futures : turned.futures = pool.futures)
  | returns {future : Nat} {result : ρ} {rest : List (Nat × Task ω ρ)}
      (before : pool.held.Perm ((future, .done result) :: rest)) (after : turned.held.Perm rest)
      (world : turned.world = pool.world)
      (futures : turned.futures = pool.futures.set future (some result))

theorem Turn.effect {pool turned : Pool ω ρ} {old new : Worker ω ρ} {others : List (Worker ω ρ)}
    (turn : pool.Turn old new turned) (before : pool.workers.Perm (old :: others))
    (after : turned.workers.Perm (new :: others)) : pool.Effect turned := by
  have was := held_perm before
  have is := held_perm after
  cases turn with
  | @takes future task rest first workers =>
    refine .passes (is.trans (List.Perm.trans ?_ was.symm)) rfl rfl
    rw [first]
    change ((future, task) :: (others.filterMap (·.holding) ++ rest)).Perm
      (others.filterMap (·.holding) ++ (future, task) :: rest)
    exact List.perm_middle.symm
  | acquires free workers => exact .passes (is.trans was.symm) rfl rfl
  | steps workers => exact .steps was is rfl rfl
  | releases workers => exact .passes (is.trans was.symm) rfl rfl
  | returns workers => exact .returns was is rfl rfl

theorem turn_effect (pool : Pool ω ρ) (i : Nat) :
    pool.turn i = pool ∨ pool.Effect (pool.turn i) := by
  rcases pool.turn_cases i with ⟨same, _⟩ | ⟨old, new, others, before, after, turn⟩
  · exact .inl same
  · exact .inr (turn.effect before after)

/-! The order of the queue, and the permits. -/

/-- `count` threads and `limit` permits; what is held are the futures without a result, each once,
and the queue ends with the latest. -/
structure Sound (count limit : Nat) (pool : Pool ω ρ) : Prop where
  threads : pool.workers.length = count
  permits : pool.permits + pool.workers.countP (·.hasPermit) = limit
  distinct : (pool.held.map (·.1)).Nodup
  pending : ∀ future, future ∈ pool.held.map (·.1) ↔ pool.futures[future]? = some none
  order : ∃ started, started + pool.queue.length = pool.futures.length ∧
    pool.queue.map (·.1) = List.range' started pool.queue.length

variable {count limit : Nat} {pool : Pool ω ρ}

theorem held_start (world : ω) : (start world count limit : Pool ω ρ).held = [] := by
  unfold held start
  rw [List.append_nil, List.filterMap_replicate_of_none rfl]

theorem start_sound (world : ω) : (start world count limit : Pool ω ρ).Sound count limit where
  threads := List.length_replicate
  permits := by
    change limit + (List.replicate count Worker.idle).countP _ = limit
    rw [List.countP_replicate]
    rfl
  distinct := by
    rw [held_start]
    exact List.nodup_nil
  pending := by
    rw [held_start]
    intro future
    exact iff_of_false List.not_mem_nil (by simp [start])
  order := ⟨0, rfl, rfl⟩

/-- What happens to the world is nothing to the threads. -/
theorem Sound.world (sound : pool.Sound count limit) (later : ω) :
    ({ pool with world := later } : Pool ω ρ).Sound count limit :=
  ⟨sound.threads, sound.permits, sound.distinct, sound.pending, sound.order⟩

/-- No more threads work than there are permits, and threads. -/
theorem Sound.working (sound : pool.Sound count limit) :
    pool.workers.countP (·.hasPermit) ≤ min count limit := by
  have permits := sound.permits
  have threads := @List.countP_le_length _ (·.hasPermit) pool.workers
  rw [sound.threads] at threads
  omega

theorem held_submit (pool : Pool ω ρ) (task : Task ω ρ) :
    (pool.submit task).held = pool.held ++ [(pool.futures.length, task)] :=
  (List.append_assoc _ _ _).symm

theorem Sound.submit (sound : pool.Sound count limit) (task : Task ω ρ) :
    (pool.submit task).Sound count limit where
  threads := sound.threads
  permits := sound.permits
  distinct := by
    have fresh : pool.futures.length ∉ pool.held.map (·.1) := by
      rw [sound.pending, List.getElem?_eq_none (Nat.le_refl _)]
      exact (Option.some_ne_none _).symm
    rw [held_submit, List.map_append, List.nodup_append]
    refine ⟨sound.distinct, List.nodup_singleton _, ?_⟩
    rintro future held other new rfl
    obtain rfl : future = pool.futures.length := List.mem_singleton.mp new
    exact fresh held
  pending future := by
    rw [held_submit, List.map_append, List.mem_append, sound.pending]
    change _ ↔ (pool.futures ++ [none])[future]? = some none
    rcases Nat.lt_trichotomy future pool.futures.length with old | new | beyond
    · rw [List.getElem?_append_left old]
      refine or_iff_left fun member => ?_
      rw [List.map_singleton, List.mem_singleton] at member
      exact Nat.ne_of_lt old member
    · subst new
      rw [List.getElem?_concat_length]
      exact iff_of_true (.inr (List.mem_singleton.mpr rfl)) rfl
    · have absent : (pool.futures ++ [none])[future]? = none := by
        rw [List.getElem?_eq_none]
        rw [List.length_append, List.length_singleton]
        exact beyond
      rw [absent, List.getElem?_eq_none (Nat.le_of_lt beyond)]
      refine iff_of_false (fun either => ?_) (Option.some_ne_none _).symm
      rcases either with none | last
      · cases none
      · rw [List.map_singleton, List.mem_singleton] at last
        exact absurd last (Nat.ne_of_gt beyond)
  order := by
    obtain ⟨started, whole, queued⟩ := sound.order
    refine ⟨started, ?_, ?_⟩
    · change started + (pool.queue ++ _).length = (pool.futures ++ _).length
      rw [List.length_append, List.length_append, ← whole]
      exact (Nat.add_assoc _ _ _).symm
    · change (pool.queue ++ _).map _ = List.range' started (pool.queue ++ _).length
      rw [List.map_append, List.length_append, queued, List.length_singleton, List.range'_concat,
        List.map_singleton, Nat.one_mul, whole]

theorem Turn.permits {turned : Pool ω ρ} {old new : Worker ω ρ} (turn : pool.Turn old new turned) :
    turned.permits + new.hasPermit.toNat = pool.permits + old.hasPermit.toNat := by
  cases turn with
  | acquires free workers => exact Nat.sub_add_cancel free
  | takes => rfl
  | steps => rfl
  | releases => rfl
  | returns => rfl

theorem Turn.order {turned : Pool ω ρ} {old new : Worker ω ρ} (turn : pool.Turn old new turned)
    (ordered : ∃ started, started + pool.queue.length = pool.futures.length ∧
      pool.queue.map (·.1) = List.range' started pool.queue.length) :
    ∃ started, started + turned.queue.length = turned.futures.length ∧
      turned.queue.map (·.1) = List.range' started turned.queue.length := by
  obtain ⟨started, whole, queued⟩ := ordered
  cases turn with
  | takes first workers =>
    rw [first, List.length_cons] at whole queued
    rw [List.map_cons, List.range'_succ] at queued
    refine ⟨started + 1, ?_, (List.cons.inj queued).2⟩
    rw [← whole]
    exact Nat.succ_add_eq_add_succ _ _
  | returns workers =>
    refine ⟨started, ?_, queued⟩
    rw [List.length_set]
    exact whole
  | acquires => exact ⟨started, whole, queued⟩
  | steps => exact ⟨started, whole, queued⟩
  | releases => exact ⟨started, whole, queued⟩

theorem Effect.distinct {turned : Pool ω ρ} (effect : pool.Effect turned)
    (distinct : (pool.held.map (·.1)).Nodup) : (turned.held.map (·.1)).Nodup := by
  cases effect with
  | passes held => exact (held.map _).nodup_iff.mpr distinct
  | steps before after =>
    have was := (before.map (·.1)).nodup_iff.mp distinct
    exact (after.map (·.1)).nodup_iff.mpr was
  | returns before after =>
    have was := (before.map (·.1)).nodup_iff.mp distinct
    exact (after.map (·.1)).nodup_iff.mpr (List.nodup_cons.mp was).2

theorem Effect.pending {turned : Pool ω ρ} (effect : pool.Effect turned)
    (distinct : (pool.held.map (·.1)).Nodup)
    (pending : ∀ future, future ∈ pool.held.map (·.1) ↔ pool.futures[future]? = some none)
    (future : Nat) :
    future ∈ turned.held.map (·.1) ↔ turned.futures[future]? = some none := by
  cases effect with
  | passes held world futures =>
    rw [(held.map _).mem_iff, futures, pending]
  | steps before after world futures =>
    rw [(after.map _).mem_iff, futures, ← pending, (before.map _).mem_iff]
    exact Iff.rfl
  | @returns finished result rest before after world futures =>
    have was := List.nodup_cons.mp ((before.map (·.1)).nodup_iff.mp distinct)
    have ids := (before.map (·.1)).mem_iff (a := future)
    have others := (after.map (·.1)).mem_iff (a := future)
    rw [List.map_cons, List.mem_cons, pending] at ids
    rw [others, futures]
    by_cases same : finished = future
    · subst same
      rw [List.getElem?_set_self']
      refine iff_of_false was.1 fun none => ?_
      cases found : pool.futures[finished]? with
      | none => rw [found] at none; cases none
      | some result => rw [found] at none; cases none
    · rw [List.getElem?_set_ne same, ids]
      exact (or_iff_right (Ne.symm same)).symm

theorem Sound.turn (sound : pool.Sound count limit) (i : Nat) :
    (pool.turn i).Sound count limit := by
  rcases pool.turn_cases i with ⟨same, _⟩ | ⟨old, new, others, before, after, turn⟩
  · rw [same]
    exact sound
  · have effect := turn.effect before after
    have threads : (pool.turn i).workers.length = count := by
      rw [after.length_eq, List.length_cons, ← List.length_cons, ← before.length_eq]
      exact sound.threads
    have permits : (pool.turn i).permits + (pool.turn i).workers.countP (·.hasPermit) = limit := by
      have had := sound.permits
      have moved := turn.permits
      rw [before.countP_eq, List.countP_cons] at had
      rw [after.countP_eq, List.countP_cons]
      rw [Bool.toNat, Bool.toNat, Bool.cond_eq_ite, Bool.cond_eq_ite] at moved
      omega
    exact ⟨threads, permits, effect.distinct sound.distinct,
      effect.pending sound.distinct sound.pending, turn.order sound.order⟩

/-- A turn submits nothing, and a result stays what it is. -/
theorem Sound.turn_futures (sound : pool.Sound count limit) (i : Nat) :
    (pool.turn i).futures.length = pool.futures.length ∧
      ∀ (future : Nat) (result : ρ), pool.futures[future]? = some (some result) →
        (pool.turn i).futures[future]? = some (some result) := by
  rcases pool.turn_effect i with same | effect
  · rw [same]
    exact ⟨rfl, fun _ _ found => found⟩
  · cases effect with
    | passes held world futures =>
      rw [futures]
      exact ⟨rfl, fun _ _ found => found⟩
    | steps before after world futures =>
      rw [futures]
      exact ⟨rfl, fun _ _ found => found⟩
    | @returns finished other rest before after world futures =>
      have holding : (finished, .done other) ∈ pool.held := before.mem_iff.mpr List.mem_cons_self
      have pending := (sound.pending finished).mp (List.mem_map_of_mem holding)
      rw [futures, List.length_set]
      refine ⟨rfl, fun future result found => ?_⟩
      rw [List.getElem?_set_ne]
      · exact found
      · rintro rfl
        rw [pending] at found
        cases found

/-! What the tasks do to the world, and what comes of them. -/

section Tasks

/-- The task of a future, or the result that is left of it. -/
def Has (pool : Pool ω ρ) (future : Nat) (task : Task ω ρ) : Prop :=
  (future, task) ∈ pool.held ∨ ∃ result, pool.futures[future]? = some (some result) ∧
    task = .done result

variable (rely guarantee : Nat → ω → ω → Prop) (post : Nat → ρ → ω → Prop)

/-- Every task is safe as long as the others keep to what it relies on. -/
def Each (pool : Pool ω ρ) : Prop :=
  ∀ future task, pool.Has future task →
    task.Safe (rely future) (guarantee future) (post future) pool.world

/-- What one task guarantees, the others rely on. -/
structure Compatible : Prop where
  refl : ∀ future, Std.Refl (rely future)
  trans : ∀ future, IsTrans ω (rely future)
  others : ∀ {first second world later}, first ≠ second → guarantee first world later →
    rely second world later

variable {rely guarantee post}

theorem start_each (world : ω) : (start world count limit : Pool ω ρ).Each rely guarantee post := by
  rintro future task (held | ⟨result, found, _⟩)
  · rw [held_start] at held
    cases held
  · cases found

theorem Each.submit (each : pool.Each rely guarantee post) {task : Task ω ρ}
    (safe : task.Safe (rely pool.futures.length) (guarantee pool.futures.length)
      (post pool.futures.length) pool.world) :
    (pool.submit task).Each rely guarantee post := by
  rintro future other (held | ⟨result, found, rfl⟩)
  · rw [held_submit, List.mem_append] at held
    rcases held with old | new
    · exact each future other (.inl old)
    · cases List.mem_singleton.mp new
      exact safe
  · change (pool.futures ++ [none])[future]? = some (some result) at found
    refine each future _ (.inr ⟨result, ?_, rfl⟩)
    rcases Nat.lt_or_ge future pool.futures.length with old | new
    · rw [List.getElem?_append_left old] at found
      exact found
    · rw [List.getElem?_append_right new] at found
      cases List.mem_singleton.mp (List.mem_of_getElem? found)

/-- The world is changed from outside. -/
theorem Each.relied (compatible : Compatible rely guarantee)
    (each : pool.Each rely guarantee post) {later : ω}
    (relied : ∀ future, rely future pool.world later) :
    ({ pool with world := later } : Pool ω ρ).Each rely guarantee post := by
  intro future task has
  have := compatible.trans future
  exact (each future task has).later (relied future)

/-- A turn leaves the world as it is, or does in it what one of the tasks guarantees. -/
theorem Each.turn (compatible : Compatible rely guarantee) (sound : pool.Sound count limit)
    (each : pool.Each rely guarantee post) (i : Nat) :
    (pool.turn i).Each rely guarantee post ∧ ((pool.turn i).world = pool.world ∨
      ∃ future, pool.futures[future]? = some none ∧
        guarantee future pool.world (pool.turn i).world) := by
  rcases pool.turn_effect i with same | effect
  · rw [same]
    exact ⟨each, .inl rfl⟩
  · have distinct := effect.distinct sound.distinct
    cases effect with
    | passes held world futures =>
      refine ⟨fun future task has => ?_, .inl world⟩
      rw [world]
      refine each future task ?_
      unfold Has at has
      rw [futures, held.mem_iff] at has
      exact has
    | @steps stepped change next rest before after world futures =>
      have holding : (stepped, .step change next) ∈ pool.held := before.mem_iff.mpr List.mem_cons_self
      have pending := (sound.pending stepped).mp (List.mem_map_of_mem holding)
      have := compatible.refl stepped
      obtain ⟨allowed, safe⟩ := (each stepped _ (.inl holding)).next
      rw [← world] at allowed safe
      refine ⟨fun future task has => ?_, .inr ⟨stepped, pending, allowed⟩⟩
      have untouched : future ≠ stepped → pool.Has future task →
          task.Safe (rely future) (guarantee future) (post future) (pool.turn i).world := by
        intro other had
        have := compatible.trans future
        exact (each future task had).later (compatible.others (Ne.symm other) allowed)
      rcases has with held | ⟨result, found, rfl⟩
      · rcases List.mem_cons.mp (after.mem_iff.mp held) with same | old
        · cases same
          exact safe
        · have ids := (List.nodup_cons.mp ((after.map (·.1)).nodup_iff.mp distinct)).1
          refine untouched ?_ (.inl (before.mem_iff.mpr (List.mem_cons_of_mem _ old)))
          rintro rfl
          exact ids (List.mem_map.mpr ⟨_, old, rfl⟩)
      · rw [futures] at found
        refine untouched ?_ (.inr ⟨result, found, rfl⟩)
        rintro rfl
        rw [pending] at found
        cases found
    | @returns finished result rest before after world futures =>
      have holding : (finished, .done result) ∈ pool.held := before.mem_iff.mpr List.mem_cons_self
      refine ⟨fun future task has => ?_, .inl world⟩
      rw [world]
      rcases has with held | ⟨other, found, rfl⟩
      · exact each future task
          (.inl (before.mem_iff.mpr (List.mem_cons_of_mem _ (after.mem_iff.mp held))))
      · rw [futures] at found
        by_cases same : finished = future
        · subst same
          rw [List.getElem?_set_self'] at found
          obtain ⟨_, _, same⟩ := Option.map_eq_some_iff.mp found
          cases same
          exact each finished _ (.inl holding)
        · rw [List.getElem?_set_ne same] at found
          exact each future _ (.inr ⟨other, found, rfl⟩)

end Tasks

/-! The pool comes to an end. -/

section Progress

noncomputable def remaining (pool : Pool ω ρ) : Nat :=
  (pool.queue.map fun entry => entry.2.cost + 4).sum + (pool.workers.map (·.remaining)).sum

/-- Every task that is held ends after some number of steps. -/
def Bounded (pool : Pool ω ρ) : Prop := ∀ entry ∈ pool.held, ∃ most, entry.2.Within most

theorem start_bounded (world : ω) : (start world count limit : Pool ω ρ).Bounded := by
  intro entry member
  rw [held_start] at member
  cases member

theorem Effect.bounded {turned : Pool ω ρ} (effect : pool.Effect turned)
    (bounded : pool.Bounded) : turned.Bounded := by
  intro entry member
  cases effect with
  | passes held => exact bounded entry (held.mem_iff.mp member)
  | @steps stepped change next rest before after world futures =>
    rcases List.mem_cons.mp (after.mem_iff.mp member) with same | old
    · cases same
      obtain ⟨most, within⟩ := bounded (stepped, .step change next)
        (before.mem_iff.mpr List.mem_cons_self)
      exact (within.next pool.world).1
    · exact bounded entry (before.mem_iff.mpr (List.mem_cons_of_mem _ old))
  | returns before after =>
    exact bounded entry (before.mem_iff.mpr (List.mem_cons_of_mem _ (after.mem_iff.mp member)))

theorem Turn.remaining_lt {turned : Pool ω ρ} {old new : Worker ω ρ}
    {others : List (Worker ω ρ)} (turn : pool.Turn old new turned)
    (before : pool.workers.Perm (old :: others)) (after : turned.workers.Perm (new :: others))
    (bounded : pool.Bounded) : turned.remaining < pool.remaining := by
  have was := (before.map (·.remaining)).sum_nat
  have is := (after.map (·.remaining)).sum_nat
  rw [List.map_cons, List.sum_cons] at was is
  unfold remaining
  rw [was, is]
  cases turn with
  | takes first workers =>
    rw [first, List.map_cons, List.sum_cons]
    dsimp only [Worker.remaining]
    omega
  | acquires free workers =>
    dsimp only [Worker.remaining]
    omega
  | @steps future change next workers =>
    have holding : (future, Task.step change next) ∈ pool.held :=
      (held_perm before).mem_iff.mpr List.mem_cons_self
    obtain ⟨most, within⟩ := bounded _ holding
    have less := (within.next pool.world).2
    dsimp only [Worker.remaining]
    omega
  | releases workers =>
    dsimp only [Worker.remaining]
    omega
  | returns workers =>
    dsimp only [Worker.remaining]
    omega

/-- A turn either changes nothing or brings the end nearer. -/
theorem turn_remaining (bounded : pool.Bounded) (i : Nat) :
    pool.turn i = pool ∨ (pool.turn i).remaining < pool.remaining := by
  rcases pool.turn_cases i with ⟨same, _⟩ | ⟨old, new, others, before, after, turn⟩
  · exact .inl same
  · exact .inr (turn.remaining_lt before after bounded)

/-- The thread has something to do. -/
def CanTurn (pool : Pool ω ρ) (i : Nat) : Prop :=
  ∃ worker, pool.workers[i]? = some worker ∧ ¬ pool.Stuck worker

theorem CanTurn.remaining_lt {i : Nat} (can : pool.CanTurn i) (bounded : pool.Bounded) :
    (pool.turn i).remaining < pool.remaining := by
  obtain ⟨worker, found, free⟩ := can
  rcases pool.turn_cases i with ⟨_, stuck⟩ | ⟨old, new, others, before, after, turn⟩
  · exact absurd (stuck worker found) free
  · exact turn.remaining_lt before after bounded

theorem CanTurn.world {i : Nat} (can : pool.CanTurn i) (later : ω) :
    ({ pool with world := later } : Pool ω ρ).CanTurn i := by
  obtain ⟨worker, found, free⟩ := can
  refine ⟨worker, found, fun stuck => free ?_⟩
  cases stuck with
  | idle empty => exact .idle empty
  | waiting none => exact .waiting none

/-- As long as a future has no result, some thread can go on. -/
theorem Sound.progress (sound : pool.Sound count limit) (threads : 0 < count) (permits : 0 < limit)
    (unfinished : pool.held ≠ []) : ∃ i < count, pool.CanTurn i := by
  by_contra none
  have stuck : ∀ worker ∈ pool.workers, pool.Stuck worker := by
    intro worker member
    obtain ⟨i, bound, found⟩ := List.mem_iff_getElem.mp member
    by_contra free
    exact none ⟨i, sound.threads ▸ bound, worker, List.getElem?_eq_some_iff.mpr ⟨bound, found⟩, free⟩
  have free : pool.permits = limit := by
    have all := sound.permits
    rw [List.countP_eq_zero.mpr] at all
    · exact all
    · intro worker member
      cases stuck worker member with
      | idle => exact Bool.false_ne_true
      | waiting => exact Bool.false_ne_true
  have idle : ∀ worker ∈ pool.workers, worker = .idle ∧ pool.queue = [] := by
    intro worker member
    cases stuck worker member with
    | idle empty => exact ⟨rfl, empty⟩
    | waiting none => omega
  have empty : pool.queue = [] := by
    cases workers : pool.workers with
    | nil =>
      have length := sound.threads
      rw [workers] at length
      exact absurd length (Nat.ne_of_lt threads)
    | cons worker others => exact (idle worker (workers ▸ List.mem_cons_self)).2
  refine unfinished ?_
  unfold held
  rw [empty, List.append_nil, List.filterMap_eq_nil_iff]
  intro worker member
  rw [(idle worker member).1]
  rfl

theorem Turn.busy {turned : Pool ω ρ} {old new : Worker ω ρ} (turn : pool.Turn old new turned) :
    old.holding.toList ≠ [] ∨ pool.queue ≠ [] := by
  cases turn with
  | takes first workers => exact .inr (by rw [first]; exact List.cons_ne_nil _ _)
  | acquires => exact .inl (List.cons_ne_nil _ _)
  | steps => exact .inl (List.cons_ne_nil _ _)
  | releases => exact .inl (List.cons_ne_nil _ _)
  | returns => exact .inl (List.cons_ne_nil _ _)

/-- Where nothing is held, no thread has anything to do. -/
theorem turn_idle (idle : pool.held = []) (i : Nat) : pool.turn i = pool := by
  rcases pool.turn_cases i with ⟨same, _⟩ | ⟨old, new, others, before, after, turn⟩
  · exact same
  · have none := held_perm before
    rw [idle] at none
    obtain ⟨mine, rest⟩ := List.append_eq_nil_iff.mp none.symm.eq_nil
    exact (turn.busy.elim (· mine) (· (List.append_eq_nil_iff.mp rest).2)).elim

theorem remaining_start (world : ω) : (start world count limit : Pool ω ρ).remaining = 0 := by
  simp [remaining, start, Worker.remaining]

/-- A submission adds what its task costs. -/
theorem remaining_submit (task : Task ω ρ) :
    (pool.submit task).remaining = pool.remaining + (task.cost + 4) := by
  change ((pool.queue ++ [(pool.futures.length, task)]).map fun entry => entry.2.cost + 4).sum +
    (pool.workers.map (·.remaining)).sum = _
  rw [List.map_append, List.sum_append, List.map_singleton, List.sum_singleton]
  exact Nat.add_right_comm _ _ _

theorem Bounded.submit (bounded : pool.Bounded) {task : Task ω ρ} {most : Nat}
    (within : task.Within most) : (pool.submit task).Bounded := by
  intro entry member
  rw [held_submit, List.mem_append] at member
  rcases member with old | new
  · exact bounded entry old
  · cases List.mem_singleton.mp new
    exact ⟨most, within⟩

theorem Bounded.turn (bounded : pool.Bounded) (i : Nat) : (pool.turn i).Bounded := by
  rcases pool.turn_effect i with same | effect
  · rw [same]
    exact bounded
  · exact effect.bounded bounded

end Progress

end Pool

end Kit
