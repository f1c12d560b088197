import Mathlib.Logic.Function.Basic
import Mathlib.Tactic.SplitIfs
import PyUploadX.Kit.Program

/-! Transactions running side by side, statement by statement. A query sees the latest
committed database under the transaction's own writes; a locked row belongs to one
transaction until that ends; a commit applies all its writes at once. -/
namespace Kit

inductive Thread (κ ν δ σ ε α : Type) : Type 1
  /-- `pending` are the writes so far. -/
  | running (pending : δ → δ) (rest : Program κ ν δ σ ε α)
  | returned (value : α)
  | failed

structure Machine (κ ν δ σ ε α : Type) : Type 1 where
  /-- The committed database. -/
  db : δ
  store : σ
  holder : κ → Option Nat := fun _ => none
  threads : Nat → Thread κ ν δ σ ε α

/-- `abandon` ends a transaction from outside, by a lost connection or a crash. -/
inductive Move
  | advance (thread : Nat)
  | abandon (thread : Nat)
  deriving DecidableEq, Repr

/-- Whose move it is. -/
def Move.thread : Move → Nat
  | advance i => i
  | abandon i => i

/-- A transaction that still runs and has made its calls with this name. -/
def Thread.Past {κ ν δ σ ε α : Type} (name : ν)
    (thread : Thread κ ν δ σ ε α) : Prop :=
  ∃ (pending : δ → δ) (rest : Program κ ν δ σ ε α), thread = .running pending rest ∧
    (∀ failure, rest ≠ .fail failure) ∧ ¬ rest.Makes name

namespace Machine

variable {κ ν δ σ ε α : Type}

/-- Every program before its first statement. -/
def start (db : δ) (store : σ) (programs : Nat → Program κ ν δ σ ε α) :
    Machine κ ν δ σ ε α where
  db := db
  store := store
  threads := fun i => .running id (programs i)

def world (machine : Machine κ ν δ σ ε α) : World δ σ := ⟨machine.db, machine.store⟩

def held (machine : Machine κ ν δ σ ε α) (i : Nat) (key : κ) : Prop :=
  machine.holder key = some i

/-- No other transaction has the row. -/
def Free (machine : Machine κ ν δ σ ε α) (i : Nat) : Option κ → Prop
  | none => True
  | some key => machine.holder key = none ∨ machine.holder key = some i

instance (machine : Machine κ ν δ σ ε α) (i : Nat) (lock : Option κ) :
    Decidable (machine.Free i lock) := by
  cases lock <;> unfold Free <;> infer_instance

def setThread (machine : Machine κ ν δ σ ε α) (i : Nat) (thread : Thread κ ν δ σ ε α) :
    Machine κ ν δ σ ε α :=
  { machine with threads := Function.update machine.threads i thread }

def acquire [DecidableEq κ] (machine : Machine κ ν δ σ ε α) (i : Nat) (lock : Option κ) :
    Machine κ ν δ σ ε α :=
  { machine with holder := fun key => if lock = some key then some i else machine.holder key }

def release (machine : Machine κ ν δ σ ε α) (i : Nat) : Machine κ ν δ σ ε α :=
  { machine with
    holder := fun key => if machine.holder key = some i then none else machine.holder key }

/-- The write that a step performs, if it performs one. -/
def write? (machine : Machine κ ν δ σ ε α) (i : Nat) : Option (ν × Option κ) :=
  match machine.threads i with
  | .running _ (.write name lock _ _) => if machine.Free i lock then some (name, lock) else none
  | _ => none

theorem write?_eq {machine : Machine κ ν δ σ ε α} {i : Nat} {pending : δ → δ} {name : ν}
    {lock : Option κ} {statement : δ → Except ε (δ → δ)} {next : Program κ ν δ σ ε α}
    (running : machine.threads i = .running pending (.write name lock statement next))
    (free : machine.Free i lock) : machine.write? i = some (name, lock) := by
  rw [write?, running]
  exact if_pos free

/-- The move makes a call with this name. -/
def Calls (machine : Machine κ ν δ σ ε α) (i : Nat) (name : ν) : Prop :=
  ∃ (ρ : Type) (pending : δ → δ) (action : σ → ρ × σ) (next : ρ → Program κ ν δ σ ε α),
    machine.threads i = .running pending (.call name action next)

variable [DecidableEq κ]

/-- The next step of a transaction; one that waits for a row stays where it is. -/
def advance (machine : Machine κ ν δ σ ε α) (i : Nat) : Machine κ ν δ σ ε α :=
  match machine.threads i with
  | .returned _ => machine
  | .failed => machine
  | .running pending rest =>
    match rest with
    | .done value =>
      { machine.release i with db := pending machine.db }.setThread i (.returned value)
    | .fail _ => (machine.release i).setThread i .failed
    | .select lock query next =>
      if machine.Free i lock then
        match query (pending machine.db) with
        | .ok value => (machine.acquire i lock).setThread i (.running pending (next value))
        | .error failure => machine.setThread i (.running pending (.fail failure))
      else machine
    | .write _ lock statement next =>
      if machine.Free i lock then
        match statement (pending machine.db) with
        | .ok change =>
          (machine.acquire i lock).setThread i (.running (change ∘ pending) next)
        | .error failure => machine.setThread i (.running pending (.fail failure))
      else machine
    | .call _ action next =>
      { machine with store := (action machine.store).2 }.setThread i
        (.running pending (next (action machine.store).1))

def abandon (machine : Machine κ ν δ σ ε α) (i : Nat) : Machine κ ν δ σ ε α :=
  match machine.threads i with
  | .running _ _ => (machine.release i).setThread i .failed
  | _ => machine

def move (machine : Machine κ ν δ σ ε α) : Move → Machine κ ν δ σ ε α
  | .advance i => machine.advance i
  | .abandon i => machine.abandon i

def run (machine : Machine κ ν δ σ ε α) (moves : List Move) : Machine κ ν δ σ ε α :=
  moves.foldl move machine

theorem run_append (machine : Machine κ ν δ σ ε α) (first second : List Move) :
    machine.run (first ++ second) = (machine.run first).run second :=
  List.foldl_append

section Advance

variable {machine : Machine κ ν δ σ ε α} {i : Nat} {pending : δ → δ}

theorem advance_done {value : α} (running : machine.threads i = .running pending (.done value)) :
    machine.advance i =
      { machine.release i with db := pending machine.db }.setThread i (.returned value) := by
  unfold advance
  rw [running]

theorem advance_fail {failure : ε} (running : machine.threads i = .running pending (.fail failure)) :
    machine.advance i = (machine.release i).setThread i .failed := by
  unfold advance
  rw [running]

theorem advance_returned {value : α} (returned : machine.threads i = .returned value) :
    machine.advance i = machine := by
  unfold advance
  rw [returned]

theorem advance_failed (failed : machine.threads i = .failed) : machine.advance i = machine := by
  unfold advance
  rw [failed]

theorem advance_call {ρ : Type} {name : ν} {action : σ → ρ × σ} {next : ρ → Program κ ν δ σ ε α}
    (running : machine.threads i = .running pending (.call name action next)) :
    machine.advance i =
      { machine with store := (action machine.store).2 }.setThread i
        (.running pending (next (action machine.store).1)) := by
  unfold advance
  rw [running]

/-- A plain read. -/
theorem advance_ask {β : Type} {query : δ → β} {next : β → Program κ ν δ σ ε α}
    (running : machine.threads i =
      .running pending (.select none (fun db => .ok (query db)) next)) :
    machine.advance i = (machine.acquire i none).setThread i
      (.running pending (next (query (pending machine.db)))) := by
  unfold advance
  rw [running]
  exact if_pos trivial

/-- A write that no constraint can refuse, when the row is free and when it is not. -/
theorem advance_modify {name : ν} {lock : Option κ} {change : δ → δ}
    {next : Program κ ν δ σ ε α}
    (running : machine.threads i = .running pending (.write name lock (fun _ => .ok change) next)) :
    machine.advance i = machine ∨
      machine.advance i = (machine.acquire i lock).setThread i
        (.running (change ∘ pending) next) := by
  unfold advance
  rw [running]
  by_cases free : machine.Free i lock
  · exact .inr (if_pos free)
  · exact .inl (if_neg free)

end Advance

/-- What a step of a transaction can be. -/
inductive Step (machine : Machine κ ν δ σ ε α) (i : Nat) : Machine κ ν δ σ ε α → Prop
  | stays : Step machine i machine
  | commits {pending : δ → δ} {value : α}
      (running : machine.threads i = .running pending (.done value)) :
      Step machine i
        ({ machine.release i with db := pending machine.db }.setThread i (.returned value))
  | fails {pending : δ → δ} {rest : Program κ ν δ σ ε α}
      (running : machine.threads i = .running pending rest) :
      Step machine i ((machine.release i).setThread i .failed)
  | refused {pending : δ → δ} {rest : Program κ ν δ σ ε α} (failure : ε)
      (running : machine.threads i = .running pending rest) :
      Step machine i (machine.setThread i (.running pending (.fail failure)))
  | reads {β : Type} {pending : δ → δ} {lock : Option κ} {query : δ → Except ε β}
      {next : β → Program κ ν δ σ ε α} {value : β}
      (running : machine.threads i = .running pending (.select lock query next))
      (free : machine.Free i lock) (found : query (pending machine.db) = .ok value) :
      Step machine i ((machine.acquire i lock).setThread i (.running pending (next value)))
  | writes {pending : δ → δ} {name : ν} {lock : Option κ} {statement : δ → Except ε (δ → δ)}
      {next : Program κ ν δ σ ε α} {change : δ → δ}
      (running : machine.threads i = .running pending (.write name lock statement next))
      (free : machine.Free i lock) (effect : statement (pending machine.db) = .ok change) :
      Step machine i ((machine.acquire i lock).setThread i (.running (change ∘ pending) next))
  | calls {ρ : Type} {pending : δ → δ} {name : ν} {action : σ → ρ × σ}
      {next : ρ → Program κ ν δ σ ε α}
      (running : machine.threads i = .running pending (.call name action next)) :
      Step machine i ({ machine with store := (action machine.store).2 }.setThread i
        (.running pending (next (action machine.store).1)))

theorem advance_step (machine : Machine κ ν δ σ ε α) (i : Nat) :
    machine.Step i (machine.advance i) := by
  unfold advance
  split
  · exact .stays
  · exact .stays
  · rename_i pending rest running
    split
    · exact .commits running
    · exact .fails running
    · split_ifs with free
      · split
        · rename_i found
          exact .reads running free found
        · exact .refused _ running
      · exact .stays
    · split_ifs with free
      · split
        · rename_i effect
          exact .writes running free effect
        · exact .refused _ running
      · exact .stays
    · exact .calls running

end Machine

end Kit
