import Mathlib.Tactic.SplitIfs
import PyUploadX.Kit.Machine

/-! Reasoning about transactions that run side by side. Each relies on the others to
leave alone what its locks protect, and is proved safe on its own. -/
namespace Kit

variable {κ ν δ σ ε α β : Type}

/-- What a transaction that holds some rows relies on of the others, and what must hold
when a named call is made. -/
structure Protocol (κ ν δ σ : Type) where
  rely : (κ → Prop) → World δ σ → World δ σ → Prop
  refl : ∀ held world, rely held world world
  trans : ∀ {held first second third}, rely held first second → rely held second third →
    rely held first third
  calls : ν → World δ σ → Prop

namespace Protocol

variable (protocol : Protocol κ ν δ σ)

/-- A step that no other transaction minds. -/
def Compatible (held : κ → Prop) (before after : World δ σ) : Prop :=
  ∀ other : κ → Prop, (∀ key, held key → ¬ other key) → protocol.rely other before after

/-- The rows held after a statement that locks one. -/
def hold (held : κ → Prop) (lock : Option κ) (key : κ) : Prop := held key ∨ lock = some key

/-- Whatever the others do before each statement, the calls are made as they must, and the
end is as described. `assume` is taken for granted of the writes that are performed. -/
def Safe (assume : ν → Option κ → World δ σ → Prop)
    (post : (κ → Prop) → World δ σ → (δ → δ) → α → Prop) :
    Program κ ν δ σ ε α → (κ → Prop) → World δ σ → (δ → δ) → Prop
  | .done value, held, world, pending =>
    ∀ later, protocol.rely held world later → post held later pending value
  | .fail _, _, _, _ => True
  | .select lock query next, held, world, pending =>
    ∀ later, protocol.rely held world later → ∀ value, query (pending later.db) = .ok value →
      Safe assume post (next value) (hold held lock) later pending
  | .write name lock statement next, held, world, pending =>
    ∀ later, protocol.rely held world later → assume name lock later →
      ∀ change, statement (pending later.db) = .ok change →
        Safe assume post next (hold held lock) later (change ∘ pending)
  | .call name action next, held, world, pending =>
    ∀ later, protocol.rely held world later → protocol.calls name later ∧
      protocol.Compatible held later ⟨later.db, (action later.store).2⟩ ∧
      Safe assume post (next (action later.store).1) held
        ⟨later.db, (action later.store).2⟩ pending

variable {protocol} {assume : ν → Option κ → World δ σ → Prop}
  {post : (κ → Prop) → World δ σ → (δ → δ) → α → Prop} {held : κ → Prop}
  {world : World δ σ} {pending : δ → δ}

/-- Safety is not lost while the others move. -/
theorem Safe.later {program : Program κ ν δ σ ε α} {after : World δ σ}
    (safe : protocol.Safe assume post program held world pending)
    (moved : protocol.rely held world after) :
    protocol.Safe assume post program held after pending := by
  cases program with
  | done value => exact fun last relied => safe last (protocol.trans moved relied)
  | fail failure => trivial
  | select lock query next => exact fun last relied => safe last (protocol.trans moved relied)
  | write name lock statement next =>
    exact fun last relied => safe last (protocol.trans moved relied)
  | call name action next => exact fun last relied => safe last (protocol.trans moved relied)

theorem Safe.weaken {post' : (κ → Prop) → World δ σ → (δ → δ) → α → Prop}
    {program : Program κ ν δ σ ε α} (safe : protocol.Safe assume post program held world pending)
    (weaker : ∀ held world pending value, post held world pending value →
      post' held world pending value) :
    protocol.Safe assume post' program held world pending := by
  induction program generalizing held world pending with
  | done value => exact fun later relied => weaker _ _ _ _ (safe later relied)
  | fail failure => trivial
  | select lock query next ih =>
    exact fun later relied value found => ih value (safe later relied value found)
  | write name lock statement next ih =>
    exact fun later relied assumed change effect => ih (safe later relied assumed change effect)
  | call name action next ih =>
    intro later relied
    obtain ⟨made, compatible, rest⟩ := safe later relied
    exact ⟨made, compatible, ih _ rest⟩

theorem Safe.bind {first : Program κ ν δ σ ε β} {next : β → Program κ ν δ σ ε α}
    (safe : protocol.Safe assume
      (fun held world pending value => protocol.Safe assume post (next value) held world pending)
      first held world pending) :
    protocol.Safe assume post (first >>= next) held world pending := by
  change protocol.Safe assume post (first.andThen next) held world pending
  induction first generalizing held world pending with
  | done value => exact safe world (protocol.refl _ _)
  | fail failure => trivial
  | select lock query rest ih =>
    exact fun later relied value found => ih value (safe later relied value found)
  | write name lock statement rest ih =>
    exact fun later relied assumed change effect => ih (safe later relied assumed change effect)
  | call name action rest ih =>
    intro later relied
    obtain ⟨made, compatible, rest⟩ := safe later relied
    exact ⟨made, compatible, ih _ rest⟩

theorem Safe.map {first : Program κ ν δ σ ε β} {reply : β → α}
    (safe : protocol.Safe assume
      (fun held world pending value => post held world pending (reply value)) first held world
      pending) :
    protocol.Safe assume post (first >>= fun value => pure (reply value)) held world pending := by
  change protocol.Safe assume post (first.andThen _) held world pending
  induction first generalizing held world pending with
  | done value => exact safe
  | fail failure => trivial
  | select lock query rest ih =>
    exact fun later relied value found => ih value (safe later relied value found)
  | write name lock statement rest ih =>
    exact fun later relied assumed change effect => ih (safe later relied assumed change effect)
  | call name action rest ih =>
    intro later relied
    obtain ⟨made, compatible, rest⟩ := safe later relied
    exact ⟨made, compatible, ih _ rest⟩

/-! The rules for what decides between failing and going on. -/

theorem Safe.refuseIf {condition : Prop} [Decidable condition] {failure : ε}
    {next : Unit → Program κ ν δ σ ε α}
    (safe : ¬ condition → protocol.Safe assume post (next ()) held world pending) :
    protocol.Safe assume post (Program.refuseIf condition failure >>= next) held world pending := by
  unfold Program.refuseIf
  by_cases refused : condition
  · rw [if_pos refused]
    trivial
  · rw [if_neg refused]
    exact safe refused

theorem Safe.liftExcept {result : Except ε β} {next : β → Program κ ν δ σ ε α}
    (safe : ∀ value, result = .ok value → protocol.Safe assume post (next value) held world pending) :
    protocol.Safe assume post (Program.liftExcept result >>= next) held world pending := by
  cases result with
  | ok value => exact safe value rfl
  | error failure => trivial

theorem Safe.ask {query : δ → β} {next : β → Program κ ν δ σ ε α}
    (safe : ∀ after, protocol.rely held world after →
      protocol.Safe assume post (next (query (pending after.db))) held after pending) :
    protocol.Safe assume post (Program.ask query >>= next) held world pending := by
  intro after relied value found
  cases found
  have same : hold held none = held := by
    funext key
    simp [hold]
  rw [same]
  exact safe after relied

theorem Safe.select {lock : Option κ} {query : δ → Except ε β} {next : β → Program κ ν δ σ ε α}
    (safe : ∀ after, protocol.rely held world after → ∀ value,
      query (pending after.db) = .ok value →
        protocol.Safe assume post (next value) (hold held lock) after pending) :
    protocol.Safe assume post (Program.select lock query .done >>= next) held world pending := safe

theorem Safe.write {name : ν} {lock : Option κ} {statement : δ → Except ε (δ → δ)}
    {next : Unit → Program κ ν δ σ ε α}
    (safe : ∀ after, protocol.rely held world after → assume name lock after →
      ∀ change, statement (pending after.db) = .ok change →
        protocol.Safe assume post (next ()) (hold held lock) after (change ∘ pending)) :
    protocol.Safe assume post (Program.write name lock statement (.done ()) >>= next) held world
      pending := safe

theorem Safe.modify {name : ν} {lock : Option κ} {change : δ → δ}
    {next : Unit → Program κ ν δ σ ε α}
    (safe : ∀ after, protocol.rely held world after → assume name lock after →
      protocol.Safe assume post (next ()) (hold held lock) after (change ∘ pending)) :
    protocol.Safe assume post (Program.modify name lock change >>= next) held world pending := by
  intro after relied assumed other same
  cases same
  exact safe after relied assumed

theorem Safe.modify_done {post : (κ → Prop) → World δ σ → (δ → δ) → Unit → Prop} {name : ν}
    {lock : Option κ} {change : δ → δ}
    (safe : ∀ after, protocol.rely held world after → assume name lock after →
      ∀ last, protocol.rely (hold held lock) after last →
        post (hold held lock) last (change ∘ pending) ()) :
    protocol.Safe assume post (Program.modify name lock change : Program κ ν δ σ ε Unit) held world
      pending := by
  intro after relied assumed other same
  cases same
  exact safe after relied assumed

theorem Safe.tryStore {name : ν} {action : σ → Except ε β × σ}
    {next : Except ε β → Program κ ν δ σ ε α}
    (safe : ∀ after, protocol.rely held world after → protocol.calls name after ∧
      protocol.Compatible held after ⟨after.db, (action after.store).2⟩ ∧
      protocol.Safe assume post (next (action after.store).1) held
        ⟨after.db, (action after.store).2⟩ pending) :
    protocol.Safe assume post (Program.tryStore name action >>= next) held world pending := safe

theorem Safe.onStore {name : ν} {action : σ → Except ε β × σ} {next : β → Program κ ν δ σ ε α}
    (safe : ∀ after, protocol.rely held world after → protocol.calls name after ∧
      protocol.Compatible held after ⟨after.db, (action after.store).2⟩ ∧
      ∀ value, (action after.store).1 = .ok value →
        protocol.Safe assume post (next value) held ⟨after.db, (action after.store).2⟩ pending) :
    protocol.Safe assume post (Program.onStore name action >>= next) held world pending := by
  intro after relied
  obtain ⟨made, compatible, rest⟩ := safe after relied
  exact ⟨made, compatible, Safe.liftExcept rest⟩

end Protocol

/-- Every write of the program, whatever it finds, is of an allowed kind. -/
def Program.EachWrite (allowed : ν → Option κ → (δ → δ) → Prop) : Program κ ν δ σ ε α → Prop
  | .done _ => True
  | .fail _ => True
  | .select _ _ next => ∀ value, (next value).EachWrite allowed
  | .write name lock statement next =>
    (∀ db change, statement db = .ok change → allowed name lock change) ∧ next.EachWrite allowed
  | .call _ _ next => ∀ reply, (next reply).EachWrite allowed

namespace Program.EachWrite

variable {allowed : ν → Option κ → (δ → δ) → Prop}

theorem pure (value : α) : (pure value : Program κ ν δ σ ε α).EachWrite allowed := trivial

theorem fail (failure : ε) : (fail failure : Program κ ν δ σ ε α).EachWrite allowed := trivial

theorem select (lock : Option κ) (query : δ → Except ε α) :
    (select lock query done : Program κ ν δ σ ε α).EachWrite allowed := fun _ => trivial

theorem ask (query : δ → α) : (ask query : Program κ ν δ σ ε α).EachWrite allowed := fun _ => trivial

theorem liftExcept (result : Except ε α) :
    (liftExcept result : Program κ ν δ σ ε α).EachWrite allowed := by
  cases result <;> trivial

theorem refuseIf (condition : Prop) [Decidable condition] (failure : ε) :
    (refuseIf condition failure : Program κ ν δ σ ε Unit).EachWrite allowed := by
  unfold Program.refuseIf
  split <;> trivial

theorem write {name : ν} {lock : Option κ} {statement : δ → Except ε (δ → δ)}
    (ok : ∀ db change, statement db = .ok change → allowed name lock change) :
    (write name lock statement (done ()) : Program κ ν δ σ ε Unit).EachWrite allowed :=
  ⟨ok, trivial⟩

theorem modify {name : ν} {lock : Option κ} {change : δ → δ} (ok : allowed name lock change) :
    (modify name lock change : Program κ ν δ σ ε Unit).EachWrite allowed := by
  refine write fun db found same => ?_
  cases same
  exact ok

theorem askStore (name : ν) (query : σ → Except ε α) :
    (askStore name query : Program κ ν δ σ ε α).EachWrite allowed := fun _ => liftExcept _

theorem onStore (name : ν) (action : σ → Except ε α × σ) :
    (onStore name action : Program κ ν δ σ ε α).EachWrite allowed := fun _ => liftExcept _

theorem tryStore (name : ν) (action : σ → Except ε α × σ) :
    (tryStore name action : Program κ ν δ σ ε (Except ε α)).EachWrite allowed := fun _ => trivial

theorem bind {first : Program κ ν δ σ ε α} {next : α → Program κ ν δ σ ε β}
    (writes : first.EachWrite allowed) (then_ : ∀ value, (next value).EachWrite allowed) :
    (first >>= next).EachWrite allowed := by
  change (first.andThen next).EachWrite allowed
  induction first with
  | done value => exact then_ value
  | fail failure => trivial
  | select lock query rest ih => exact fun value => ih value (writes value)
  | write name lock statement rest ih => exact ⟨writes.1, ih writes.2⟩
  | call name action rest ih => exact fun reply => ih reply (writes reply)

end Program.EachWrite

namespace Protocol

variable {protocol : Protocol κ ν δ σ} {assume : ν → Option κ → World δ σ → Prop}

/-- What the others leave standing and every statement of the program keeps, holds at its
end: the invariant rule. -/
structure Invariant (protocol : Protocol κ ν δ σ) (assume : ν → Option κ → World δ σ → Prop)
    (allowed : ν → Option κ → (δ → δ) → Prop)
    (holds : (κ → Prop) → World δ σ → (δ → δ) → Prop) : Prop where
  later : ∀ {held world after pending}, holds held world pending →
    protocol.rely held world after → holds held after pending
  lock : ∀ {held world pending} lock, holds held world pending →
    holds (hold held lock) world pending
  write : ∀ {held world pending name lock change}, allowed name lock change →
    holds held world pending → assume name lock world →
      holds (hold held lock) world (change ∘ pending)
  call : ∀ {held world pending} name store, holds held world pending →
    protocol.calls name world ∧ protocol.Compatible held world ⟨world.db, store⟩ ∧
      holds held ⟨world.db, store⟩ pending

theorem Invariant.safe {allowed : ν → Option κ → (δ → δ) → Prop}
    {holds : (κ → Prop) → World δ σ → (δ → δ) → Prop}
    (invariant : protocol.Invariant assume allowed holds) {program : Program κ ν δ σ ε α}
    {held : κ → Prop} {world : World δ σ} {pending : δ → δ}
    (writes : program.EachWrite allowed) (holding : holds held world pending) :
    protocol.Safe assume (fun held world pending _ => holds held world pending) program held world
      pending := by
  induction program generalizing held world pending with
  | done value => exact fun later relied => invariant.later holding relied
  | fail failure => trivial
  | select lock query next ih =>
    exact fun later relied value _ =>
      ih value (writes value) (invariant.lock lock (invariant.later holding relied))
  | write name lock statement next ih =>
    intro later relied assumed change effect
    exact ih writes.2 (invariant.write (writes.1 _ change effect)
      (invariant.later holding relied) assumed)
  | call name action next ih =>
    intro later relied
    obtain ⟨made, compatible, kept⟩ :=
      invariant.call name (action later.store).2 (invariant.later holding relied)
    exact ⟨made, compatible, ih _ (writes _) kept⟩

end Protocol

namespace Machine

variable {machine : Machine κ ν δ σ ε α} {i j : Nat}

/-! Who holds what after a move. -/

theorem held_disjoint (other : j ≠ i) (key : κ) (mine : machine.held i key) :
    ¬ machine.held j key := by
  intro theirs
  exact other (Option.some.inj (theirs.symm.trans mine))

theorem setThread_self {thread : Thread κ ν δ σ ε α} :
    (machine.setThread i thread).threads i = thread := Function.update_self ..

theorem setThread_of_ne {thread : Thread κ ν δ σ ε α} (other : j ≠ i) :
    (machine.setThread i thread).threads j = machine.threads j := Function.update_of_ne other ..

theorem held_release_of_ne (other : j ≠ i) : (machine.release i).held j = machine.held j := by
  funext key
  simp only [release, held]
  split_ifs with mine
  · simp [mine, Ne.symm other]
  · rfl

section

variable [DecidableEq κ]

theorem held_acquire {lock : Option κ} :
    (machine.acquire i lock).held i = Protocol.hold (machine.held i) lock := by
  funext key
  by_cases same : lock = some key <;> simp [acquire, held, Protocol.hold, same]

theorem held_acquire_of_ne {lock : Option κ} (other : j ≠ i) (free : machine.Free i lock) :
    (machine.acquire i lock).held j = machine.held j := by
  funext key
  by_cases same : lock = some key
  · subst same
    rcases free with vacant | mine
    · simp [acquire, held, vacant, Ne.symm other]
    · simp [acquire, held, mine]
  · simp [acquire, held, same]

end

/-- How a transaction must end: no other minds its commit, and the commit meets the goal. -/
def Ends (protocol : Protocol κ ν δ σ) (goal : δ → α → δ → Prop) (held : κ → Prop)
    (world : World δ σ) (pending : δ → δ) (value : α) : Prop :=
  protocol.Compatible held world ⟨pending world.db, world.store⟩ ∧
    goal world.db value (pending world.db)

/-- Every running transaction is safe from where it is. -/
def Sound (protocol : Protocol κ ν δ σ) (assume : Nat → ν → Option κ → World δ σ → Prop)
    (goal : Nat → δ → α → δ → Prop) (machine : Machine κ ν δ σ ε α) : Prop :=
  ∀ i pending rest, machine.threads i = .running pending rest →
    protocol.Safe (assume i) (Ends protocol (goal i)) rest (machine.held i) machine.world pending

variable {protocol : Protocol κ ν δ σ} {assume : Nat → ν → Option κ → World δ σ → Prop}
  {goal : Nat → δ → α → δ → Prop}

theorem sound_start {db : δ} {store : σ} {programs : Nat → Program κ ν δ σ ε α}
    (safe : ∀ i, protocol.Safe (assume i) (Ends protocol (goal i)) (programs i) (fun _ => False)
      ⟨db, store⟩ id) : (start db store programs).Sound protocol assume goal := by
  intro i pending rest same
  cases same
  have nothing : (start db store programs).held i = fun _ => False := by
    funext key
    simp [start, held]
  rw [nothing]
  exact safe i

/-- After a step of one transaction it is enough that this one is safe, and that the
others may rely on what happened. -/
theorem Sound.step {after : Machine κ ν δ σ ε α} (sound : machine.Sound protocol assume goal)
    (others : ∀ j, j ≠ i → after.threads j = machine.threads j)
    (rows : ∀ j, j ≠ i → after.held j = machine.held j)
    (moved : protocol.Compatible (machine.held i) machine.world after.world)
    (own : ∀ pending rest, after.threads i = .running pending rest →
      protocol.Safe (assume i) (Ends protocol (goal i)) rest (after.held i) after.world pending) :
    after.Sound protocol assume goal := by
  intro j pending rest running
  by_cases same : j = i
  · subst same
    exact own pending rest running
  · rw [others j same] at running
    rw [rows j same]
    exact (sound j pending rest running).later (moved _ (held_disjoint same))

theorem Sound.abandon (sound : machine.Sound protocol assume goal) :
    (machine.abandon i).Sound protocol assume goal := by
  unfold Machine.abandon
  split
  · refine sound.step (fun j => setThread_of_ne) (fun j => held_release_of_ne)
      (fun _ _ => protocol.refl _ _) ?_
    intro pending rest running
    rw [setThread_self] at running
    cases running
  · exact sound

/-- A call of a sound machine is made as it must. -/
theorem Sound.call (sound : machine.Sound protocol assume goal) {name : ν}
    (calls : machine.Calls i name) : protocol.calls name machine.world := by
  obtain ⟨ρ, pending, action, next, running⟩ := calls
  exact (sound i _ _ running _ (protocol.refl _ _)).1

/-- The replies given so far. -/
def reply? (machine : Machine κ ν δ σ ε α) (i : Nat) : Option α :=
  match machine.threads i with
  | .returned value => some value
  | _ => none

theorem reply?_eq_some {value : α} :
    machine.reply? i = some value ↔ machine.threads i = .returned value := by
  unfold reply?
  split
  · rename_i returned
    simp [returned]
  · rename_i other
    simpa using other value

theorem reply?_setThread (value : α) :
    (machine.setThread i (.returned value)).reply? =
      Function.update machine.reply? i (some value) := by
  funext j
  by_cases same : j = i
  · subst same
    simp [reply?, setThread]
  · simp [reply?, setThread, same]

/-- A running transaction that does not return leaves the replies as they are. -/
theorem reply?_setThread_none {before : Machine κ ν δ σ ε α} {pending : δ → δ}
    {rest : Program κ ν δ σ ε α} {thread : Thread κ ν δ σ ε α}
    (running : before.threads i = .running pending rest)
    (same : machine.threads = before.threads)
    (quiet : ∀ value, thread ≠ .returned value) :
    (machine.setThread i thread).reply? = before.reply? := by
  funext j
  by_cases at_i : j = i
  · subst at_i
    rw [reply?, setThread_self, reply?, running]
    cases thread with
    | returned value => exact absurd rfl (quiet value)
    | running => rfl
    | failed => rfl
  · rw [reply?, setThread_of_ne at_i, reply?, same]

theorem reply?_abandon (machine : Machine κ ν δ σ ε α) (i : Nat) :
    (machine.abandon i).reply? = machine.reply? := by
  unfold Machine.abandon
  split
  · rename_i running
    exact reply?_setThread_none running rfl nofun
  · rfl

theorem db_abandon (machine : Machine κ ν δ σ ε α) (i : Nat) :
    (machine.abandon i).db = machine.db := by
  unfold Machine.abandon
  split <;> rfl

variable [DecidableEq κ]

theorem Sound.advance (sound : machine.Sound protocol assume goal)
    (assumed : ∀ name lock, machine.write? i = some (name, lock) →
      assume i name lock machine.world) :
    (machine.advance i).Sound protocol assume goal := by
  have still : protocol.Compatible (machine.held i) machine.world machine.world :=
    fun _ _ => protocol.refl _ _
  have step := machine.advance_step i
  generalize machine.advance i = after at step ⊢
  cases step with
  | stays => exact sound
  | fails _ =>
    refine sound.step (fun j => setThread_of_ne) (fun j => held_release_of_ne) still ?_
    intro pending rest running
    rw [setThread_self] at running
    cases running
  | refused failure _ =>
    refine sound.step (fun j => setThread_of_ne) (fun j _ => rfl) still ?_
    intro pending rest running
    rw [setThread_self] at running
    cases running
    trivial
  | commits running =>
    obtain ⟨compatible, _⟩ := sound i _ _ running _ (protocol.refl _ _)
    refine sound.step (fun j => setThread_of_ne) (fun j => held_release_of_ne) compatible ?_
    intro pending rest returned
    rw [setThread_self] at returned
    cases returned
  | reads running free found =>
    refine sound.step (fun j => setThread_of_ne) (fun j other => held_acquire_of_ne other free)
      still ?_
    intro pending rest next
    rw [setThread_self] at next
    cases next
    change protocol.Safe _ _ _ ((machine.acquire i _).held i) _ _
    rw [held_acquire]
    exact sound i _ _ running _ (protocol.refl _ _) _ found
  | writes running free effect =>
    refine sound.step (fun j => setThread_of_ne) (fun j other => held_acquire_of_ne other free)
      still ?_
    intro pending rest next
    rw [setThread_self] at next
    cases next
    change protocol.Safe _ _ _ ((machine.acquire i _).held i) _ _
    rw [held_acquire]
    exact sound i _ _ running _ (protocol.refl _ _) (assumed _ _ (write?_eq running free)) _ effect
  | calls running =>
    obtain ⟨_, compatible, safe⟩ := sound i _ _ running _ (protocol.refl _ _)
    refine sound.step (fun j => setThread_of_ne) (fun j _ => rfl) compatible ?_
    intro pending rest next
    rw [setThread_self] at next
    cases next
    exact safe

/-- Every write of the run is performed in a state it may assume. -/
def Obeys (assume : Nat → ν → Option κ → World δ σ → Prop) :
    Machine κ ν δ σ ε α → List Move → Prop
  | _, [] => True
  | machine, .abandon i :: rest => Obeys assume (machine.abandon i) rest
  | machine, .advance i :: rest =>
    (∀ write ∈ machine.write? i, assume i write.1 write.2 machine.world) ∧
      Obeys assume (machine.advance i) rest

instance decidableObeys [∀ i name lock world, Decidable (assume i name lock world)] :
    (machine : Machine κ ν δ σ ε α) → (moves : List Move) → Decidable (machine.Obeys assume moves)
  | _, [] => .isTrue trivial
  | machine, .abandon i :: rest => decidableObeys (machine.abandon i) rest
  | machine, .advance i :: rest =>
    haveI := decidableObeys (machine.advance i) rest
    inferInstanceAs (Decidable (_ ∧ _))

theorem obeys_true {moves : List Move} : machine.Obeys (fun _ _ _ _ => True) moves := by
  induction moves generalizing machine with
  | nil => trivial
  | cons move rest ih =>
    cases move with
    | advance i => exact ⟨fun _ _ => trivial, ih⟩
    | abandon i => exact ih

theorem obeys_append {first second : List Move} :
    machine.Obeys assume (first ++ second) ↔
      machine.Obeys assume first ∧ (machine.run first).Obeys assume second := by
  induction first generalizing machine with
  | nil => simp [Obeys, run]
  | cons move rest ih =>
    cases move with
    | advance i =>
      simp only [List.cons_append, Obeys, ih, and_assoc]
      rfl
    | abandon i => exact ih

/-- What holds of a sound machine and is kept by every move of it, a run keeps. -/
theorem Sound.run_preserves (sound : machine.Sound protocol assume goal)
    (holds : Machine κ ν δ σ ε α → Prop) (holding : holds machine)
    (advanced : ∀ machine i, machine.Sound protocol assume goal → holds machine →
      holds (machine.advance i))
    (abandoned : ∀ machine i, machine.Sound protocol assume goal → holds machine →
      holds (machine.abandon i))
    {moves : List Move} (obeys : machine.Obeys assume moves) :
    (machine.run moves).Sound protocol assume goal ∧ holds (machine.run moves) := by
  induction moves generalizing machine with
  | nil => exact ⟨sound, holding⟩
  | cons move rest ih =>
    cases move with
    | advance i =>
      obtain ⟨assumed, obeys⟩ := obeys
      exact ih (sound.advance fun name lock => assumed (name, lock)) (advanced _ i sound holding)
        obeys
    | abandon i => exact ih sound.abandon (abandoned _ i sound holding) obeys

theorem Sound.run (sound : machine.Sound protocol assume goal) {moves : List Move}
    (obeys : machine.Obeys assume moves) : (machine.run moves).Sound protocol assume goal :=
  (sound.run_preserves (fun _ => True) trivial (fun _ _ _ _ => trivial) (fun _ _ _ _ => trivial)
    obeys).1

/-- What commits change: the database as the goal says, and the reply of the transaction. -/
theorem Sound.commits (sound : machine.Sound protocol assume goal) (i : Nat) :
    ((machine.advance i).db = machine.db ∧ (machine.advance i).reply? = machine.reply?) ∨
      ∃ value, goal i machine.db value (machine.advance i).db ∧
        (machine.advance i).reply? = Function.update machine.reply? i (some value) := by
  have step := machine.advance_step i
  generalize machine.advance i = after at step ⊢
  cases step with
  | stays => exact .inl ⟨rfl, rfl⟩
  | fails running => exact .inl ⟨rfl, reply?_setThread_none running rfl nofun⟩
  | refused failure running => exact .inl ⟨rfl, reply?_setThread_none running rfl nofun⟩
  | reads running => exact .inl ⟨rfl, reply?_setThread_none running rfl nofun⟩
  | writes running => exact .inl ⟨rfl, reply?_setThread_none running rfl nofun⟩
  | calls running => exact .inl ⟨rfl, reply?_setThread_none running rfl nofun⟩
  | @commits pending value running =>
    obtain ⟨_, met⟩ := sound i _ _ running _ (protocol.refl _ _)
    exact .inr ⟨value, met, reply?_setThread _⟩

/-- What every commit keeps of the database and the replies, a run keeps. -/
theorem Sound.run_commits (sound : machine.Sound protocol assume goal)
    (holds : δ → (Nat → Option α) → Prop) (holding : holds machine.db machine.reply?)
    (commit : ∀ i db value db' replies, holds db replies → goal i db value db' →
      holds db' (Function.update replies i (some value)))
    {moves : List Move} (obeys : machine.Obeys assume moves) :
    holds (machine.run moves).db (machine.run moves).reply? := by
  refine (sound.run_preserves (fun machine => holds machine.db machine.reply?) holding ?_ ?_
    obeys).2
  · intro machine i sound holding
    rcases sound.commits i with ⟨same, replies⟩ | ⟨value, met, replies⟩
    · rw [same, replies]
      exact holding
    · rw [replies]
      exact commit i _ value _ _ holding met
  · intro machine i _ holding
    rw [db_abandon, reply?_abandon]
    exact holding

theorem advance_threads_of_ne (other : j ≠ i) :
    (machine.advance i).threads j = machine.threads j := by
  have step := machine.advance_step i
  generalize machine.advance i = after at step
  cases step with
  | stays => rfl
  | commits running => exact setThread_of_ne other
  | fails running => exact setThread_of_ne other
  | refused failure running => exact setThread_of_ne other
  | reads running free found => exact setThread_of_ne other
  | writes running free effect => exact setThread_of_ne other
  | calls running => exact setThread_of_ne other

omit [DecidableEq κ] in
theorem abandon_threads_of_ne (other : j ≠ i) :
    (machine.abandon i).threads j = machine.threads j := by
  unfold Machine.abandon
  split
  · exact setThread_of_ne other
  · rfl

/-- A transaction without a move stays where it is. -/
theorem run_threads_of_unmoved {moves : List Move} (unmoved : ∀ move ∈ moves, move.thread ≠ j) :
    (machine.run moves).threads j = machine.threads j := by
  induction moves generalizing machine with
  | nil => rfl
  | cons move rest ih =>
    have other : j ≠ move.thread := Ne.symm (unmoved move List.mem_cons_self)
    have later : ∀ move ∈ rest, move.thread ≠ j :=
      fun move member => unmoved move (List.mem_cons_of_mem _ member)
    cases move with
    | advance i => exact (ih later).trans (advance_threads_of_ne other)
    | abandon i => exact (ih later).trans (abandon_threads_of_ne other)

end Machine

end Kit
