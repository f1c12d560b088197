import Mathlib.Order.Lattice.Nat
import Mathlib.Tactic.Ring

/-! Computations that take their steps one at a time on a world they share with others. -/
namespace Kit

/-- What is left of a computation: it reads the world and changes it in one step. -/
inductive Task (ω α : Type)
  | done (result : α)
  | step (change : ω → ω) (next : ω → Task ω α)

namespace Task

variable {ω ε α β : Type}

def bind : Task ω α → (α → Task ω β) → Task ω β
  | done result, next => next result
  | step change rest, next => step change fun world => (rest world).bind next

/-- One step with a result. -/
def act (action : ω → α × ω) : Task ω α :=
  step (fun world => (action world).2) fun world => done (action world).1

/-- A turn of the computation, or an event around it. -/
def turn {η : Type} (environment : η → ω → ω) : Task ω α × ω → Option η → Task ω α × ω
  | (task, world), some event => (task, environment event world)
  | (done result, world), none => (done result, world)
  | (step change next, world), none => (next world, change world)

/-- The call is made up to `more` times again, as long as its failure is worth it; before the
`n`th time it pauses. -/
def retry (again : ε → Bool) (pause : Nat → ω → ω) (call : Task ω (Except ε α)) :
    (more : Nat) → (attempt : Nat) → Task ω (Except ε α)
  | 0, _ => call
  | more + 1, attempt => call.bind fun
    | .ok value => done (.ok value)
    | .error failure =>
      if again failure then
        step (pause (attempt + 1)) fun _ => retry again pause call more (attempt + 1)
      else done (.error failure)

/-! What is true of a computation while others change the world between its steps. -/

section Safe

variable (rely guarantee : ω → ω → Prop)

/-- As long as the others keep to `rely`, every step keeps to `guarantee`, and the result is as
`post` has it, from then on. -/
def Safe (post : α → ω → Prop) : Task ω α → ω → Prop
  | done result, world => ∀ later, rely world later → post result later
  | step change next, world => ∀ later, rely world later →
    guarantee later (change later) ∧ (next later).Safe post (change later)

variable {rely guarantee} {post post' : α → ω → Prop} {world : ω}

theorem Safe.mono {task : Task ω α} (safe : task.Safe rely guarantee post world)
    (implies : ∀ result world, post result world → post' result world) :
    task.Safe rely guarantee post' world := by
  induction task generalizing world with
  | done result => exact fun later relied => implies result later (safe later relied)
  | step change next ih =>
    exact fun later relied => ⟨(safe later relied).1, ih later (safe later relied).2⟩

/-- A computation that asks less of the others and takes less for itself. -/
theorem Safe.weaken {rely' guarantee' : ω → ω → Prop} {task : Task ω α}
    (safe : task.Safe rely guarantee post world)
    (less : ∀ world later, rely' world later → rely world later)
    (more : ∀ world later, guarantee world later → guarantee' world later) :
    task.Safe rely' guarantee' post world := by
  induction task generalizing world with
  | done result => exact fun later relied => safe later (less world later relied)
  | step change next ih =>
    intro later relied
    obtain ⟨allowed, rest⟩ := safe later (less world later relied)
    exact ⟨more later _ allowed, ih later rest⟩

theorem Safe.act {action : ω → α × ω}
    (steps : ∀ later, rely world later → guarantee later (action later).2 ∧
      ∀ last, rely (action later).2 last → post (action later).1 last) :
    (Task.act action).Safe rely guarantee post world :=
  fun later relied => ⟨(steps later relied).1, (steps later relied).2⟩

/-- What the others do leaves a computation safe. -/
theorem Safe.later [IsTrans ω rely] {task : Task ω α}
    (safe : task.Safe rely guarantee post world) {later : ω} (relied : rely world later) :
    task.Safe rely guarantee post later := by
  cases task with
  | done result => exact fun last after => safe last (trans_of rely relied after)
  | step change next => exact fun last after => safe last (trans_of rely relied after)

variable [Std.Refl rely]

theorem Safe.result {result : α} (safe : (done result).Safe rely guarantee post world) :
    post result world :=
  safe world (refl_of rely world)

theorem Safe.next {change : ω → ω} {next : ω → Task ω α}
    (safe : (step change next).Safe rely guarantee post world) :
    guarantee world (change world) ∧ (next world).Safe rely guarantee post (change world) :=
  safe world (refl_of rely world)

theorem Safe.bind {task : Task ω α} {next : α → Task ω β} {last : β → ω → Prop}
    (safe : task.Safe rely guarantee post world)
    (follows : ∀ result world, post result world →
      (next result).Safe rely guarantee last world) :
    (task.bind next).Safe rely guarantee last world := by
  induction task generalizing world with
  | done result => exact follows result world safe.result
  | step change rest ih =>
    exact fun later relied => ⟨(safe later relied).1, ih later (safe later relied).2⟩

/-- A call made again: `before` holds before each attempt, with so many others left and so many
made, and a failure that is worth another attempt leads to the next. -/
theorem Safe.retry {again : ε → Bool} {pause : Nat → ω → ω} {call : Task ω (Except ε α)}
    {before : Nat → Nat → ω → Prop} {failed : Nat → Nat → ε → ω → Prop}
    {last : Except ε α → ω → Prop}
    (attempt : ∀ more made world, before more made world → call.Safe rely guarantee
      (fun result world => match result with
        | .ok value => last (.ok value) world
        | .error failure => failed more made failure world ∧
          (again failure = false ∨ more = 0 → last (.error failure) world)) world)
    (pauses : ∀ more made failure world, failed (more + 1) made failure world →
      again failure = true → ∀ later, rely world later →
        guarantee later (pause (made + 1) later) ∧
          before more (made + 1) (pause (made + 1) later))
    (stable : ∀ result world later, last result world → rely world later → last result later)
    (more made : Nat) (start : before more made world) :
    (Task.retry again pause call more made).Safe rely guarantee last world := by
  induction more generalizing made world with
  | zero =>
    refine (attempt 0 made world start).mono fun result world ended => ?_
    cases result with
    | ok value => exact ended
    | error failure => exact ended.2 (.inr rfl)
  | succ more ih =>
    refine (attempt (more + 1) made world start).bind fun result world ended => ?_
    cases result with
    | ok value => exact fun later relied => stable _ world later ended relied
    | error failure =>
      dsimp only
      split
      · rename_i worth
        intro later relied
        obtain ⟨allowed, next⟩ := pauses more made failure world ended.1 worth later relied
        exact ⟨allowed, ih (made + 1) next⟩
      · rename_i final
        intro later relied
        exact stable _ world later (ended.2 (.inl (Bool.eq_false_of_not_eq_true final))) relied

end Safe

/-- What its own turns and what happens around it make of a computation and its world. -/
theorem Safe.turns {rely guarantee : ω → ω → Prop} [Std.Refl rely] [IsTrans ω rely]
    {post : α → ω → Prop} {η : Type} {environment : η → ω → ω}
    (relied : ∀ event world, rely world (environment event world)) {task : Task ω α} {world : ω}
    (safe : task.Safe rely guarantee post world) (turns : List (Option η)) :
    (turns.foldl (turn environment) (task, world)).1.Safe rely guarantee post
      (turns.foldl (turn environment) (task, world)).2 := by
  induction turns generalizing task world with
  | nil => exact safe
  | cons move rest ih =>
    cases move with
    | some event => exact ih (safe.later (relied event world))
    | none =>
      cases task with
      | done result => exact ih safe
      | step change next => exact ih safe.next.2

/-! How many steps a computation takes at most. -/

section Within

def Within : Task ω α → (most : Nat) → Prop
  | done _, _ => True
  | step _ next, most => ∃ fewer, most = fewer + 1 ∧ ∀ world, (next world).Within fewer

theorem Within.mono {task : Task ω α} {most more : Nat} (within : task.Within most)
    (least : most ≤ more) : task.Within more := by
  induction task generalizing most more with
  | done result => trivial
  | step change next ih =>
    obtain ⟨fewer, rfl, rest⟩ := within
    obtain ⟨others, rfl⟩ := Nat.exists_eq_add_of_le least
    exact ⟨fewer + others, by omega, fun world => ih world (rest world) (Nat.le_add_right _ _)⟩

theorem within_act (action : ω → α × ω) : (act action).Within 1 := ⟨0, rfl, fun _ => trivial⟩

theorem Within.bind {task : Task ω α} {next : α → Task ω β} {most more : Nat}
    (within : task.Within most) (follows : ∀ result, (next result).Within more) :
    (task.bind next).Within (most + more) := by
  induction task generalizing most with
  | done result => exact (follows result).mono (Nat.le_add_left more most)
  | step change rest ih =>
    obtain ⟨fewer, rfl, others⟩ := within
    exact ⟨fewer + more, by omega, fun world => ih world (others world)⟩

/-- The attempts of a call, and the pauses between them. -/
theorem Within.retry {again : ε → Bool} {pause : Nat → ω → ω} {call : Task ω (Except ε α)}
    {most : Nat} (within : call.Within most) (more attempt : Nat) :
    (Task.retry again pause call more attempt).Within (most + more * (most + 1)) := by
  induction more generalizing attempt with
  | zero => exact within.mono (Nat.le_add_right _ _)
  | succ more ih =>
    have grown : most + (more + 1) * (most + 1) = most + (most + more * (most + 1) + 1) := by ring
    rw [grown]
    refine within.bind fun result => ?_
    cases result with
    | ok value => trivial
    | error failure =>
      dsimp only
      split
      · exact ⟨_, rfl, fun _ => ih (attempt + 1)⟩
      · trivial

/-- Its own turns are counted only. -/
theorem Within.turns {η : Type} {environment : η → ω → ω} {task : Task ω α} {most : Nat}
    (within : task.Within most) (turns : List (Option η)) (world : ω) :
    (turns.foldl (turn environment) (task, world)).1.Within (most - turns.countP (·.isNone)) := by
  induction turns generalizing task most world with
  | nil => exact within
  | cons move rest ih =>
    rw [List.foldl_cons, List.countP_cons]
    cases move with
    | some event => exact ih within _
    | none =>
      cases task with
      | done result =>
        have none : (done result : Task ω α).Within 0 := trivial
        exact (ih none world).mono (by omega)
      | step change next =>
        obtain ⟨fewer, rfl, others⟩ := within
        refine (ih (others world) _).mono ?_
        rw [Option.isNone_none, if_pos rfl]
        omega

/-- After as many turns as it has steps it is done. -/
theorem Within.ends {η : Type} {environment : η → ω → ω} {task : Task ω α} {most : Nat}
    (within : task.Within most) {turns : List (Option η)}
    (enough : most ≤ turns.countP (·.isNone)) (world : ω) :
    ∃ result, (turns.foldl (turn environment) (task, world)).1 = done result := by
  have left := @Within.turns _ _ _ environment _ _ within turns world
  rw [Nat.sub_eq_zero_of_le enough] at left
  cases ended : (turns.foldl (turn environment) (task, world)).1 with
  | done result => exact ⟨result, rfl⟩
  | step change next =>
    rw [ended] at left
    obtain ⟨fewer, none, _⟩ := left
    cases none

/-- The steps it has before it at most, where there is such a number. -/
noncomputable def cost (task : Task ω α) : Nat := sInf { most | task.Within most }

theorem Within.cost_le {task : Task ω α} {most : Nat} (within : task.Within most) :
    task.cost ≤ most := Nat.sInf_le within

theorem Within.cost {task : Task ω α} {most : Nat} (within : task.Within most) :
    task.Within task.cost := by
  have bounded : { most | task.Within most }.Nonempty := ⟨most, within⟩
  exact Nat.sInf_mem bounded

/-- Every step takes one off. -/
theorem Within.next {change : ω → ω} {next : ω → Task ω α} {most : Nat}
    (within : (step change next).Within most) (world : ω) :
    (∃ most, (next world).Within most) ∧ (next world).cost < (step change next).cost := by
  obtain ⟨fewer, found, rest⟩ := within.cost
  rw [found]
  exact ⟨⟨fewer, rest world⟩, Nat.lt_succ_of_le (rest world).cost_le⟩

end Within

end Task

end Kit
