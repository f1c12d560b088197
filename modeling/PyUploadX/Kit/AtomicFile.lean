import Mathlib.Data.List.Basic
import Mathlib.Logic.Function.Basic

/-! Files that are written under another name and then renamed, by processes that may be cut off
before any of their system calls. -/
namespace Kit

/-- The regular files of a directory, by name. -/
abbrev Files (κ β : Type*) := κ → Option (List β)

inductive FileAction (κ β : Type*)
  | create (name : κ)
  | append (name : κ) (piece : List β)
  | rename (source target : κ)
  | unlink (name : κ)

section Actions

variable {κ β : Type*} [DecidableEq κ]

namespace FileAction

/-- To append to a file or to rename one that is not there changes nothing. -/
def apply (files : Files κ β) : FileAction κ β → Files κ β
  | create name => Function.update files name (some [])
  | append name piece => Function.update files name ((files name).map (· ++ piece))
  | rename source target =>
    if (files source).isSome then
      Function.update (Function.update files source none) target (files source)
    else files
  | unlink name => Function.update files name none

def names : FileAction κ β → List κ
  | create name => [name]
  | append name _ => [name]
  | rename source target => [source, target]
  | unlink name => [name]

/-- An action changes only files it names. -/
theorem apply_of_not_mem {action : FileAction κ β} {name : κ} (foreign : name ∉ action.names)
    (files : Files κ β) : action.apply files name = files name := by
  cases action with
  | create other => exact Function.update_of_ne (List.ne_of_not_mem_cons foreign) _ _
  | append other piece => exact Function.update_of_ne (List.ne_of_not_mem_cons foreign) _ _
  | rename source target =>
    have fromSource : name ≠ source := List.ne_of_not_mem_cons foreign
    have fromTarget : name ≠ target :=
      List.ne_of_not_mem_cons (List.not_mem_of_not_mem_cons foreign)
    simp only [apply]
    split
    · rw [Function.update_of_ne fromTarget, Function.update_of_ne fromSource]
    · rfl
  | unlink other => exact Function.update_of_ne (List.ne_of_not_mem_cons foreign) _ _

/-- What an action makes of the files it names depends on these alone. -/
theorem apply_congr {action : FileAction κ β} {first second : Files κ β}
    (same : ∀ name ∈ action.names, first name = second name) :
    ∀ name ∈ action.names, action.apply first name = action.apply second name := by
  intro name member
  cases action with
  | create other => simp [apply, List.mem_singleton.mp member]
  | append other piece =>
    have agree := same other List.mem_cons_self
    simp [apply, List.mem_singleton.mp member, agree]
  | rename source target =>
    have moved : first source = second source := same source List.mem_cons_self
    have agree := same name member
    simp only [apply, moved]
    split
    · simp only [Function.update_apply, agree]
    · exact agree
  | unlink other => simp [apply, List.mem_singleton.mp member]

end FileAction

/-- A file and the name it is written under. -/
structure Slot (κ : Type*) where
  target : κ
  temporary : κ
  different : temporary ≠ target

namespace Slot

def names (slot : Slot κ) : List κ := [slot.target, slot.temporary]

/-- The action names one of the two files. -/
def Touches (slot : Slot κ) (action : FileAction κ β) : Prop :=
  ∃ name ∈ action.names, name ∈ slot.names

instance (slot : Slot κ) (action : FileAction κ β) : Decidable (slot.Touches action) :=
  inferInstanceAs (Decidable (∃ name ∈ action.names, name ∈ slot.names))

/-- The actions of a trace that name a file of the slot. -/
def share (slot : Slot κ) (trace : List (FileAction κ β)) : List (FileAction κ β) :=
  trace.filter fun action => slot.Touches action

end Slot

/-- The actions that leave a slot's files alone do not matter for them, whatever else there is
in the directory. -/
theorem share_run {slot : Slot κ} {trace : List (FileAction κ β)}
    (own : ∀ action ∈ slot.share trace, ∀ name ∈ action.names, name ∈ slot.names)
    {first second : Files κ β} (same : ∀ name ∈ slot.names, first name = second name) :
    ∀ name ∈ slot.names, trace.foldl FileAction.apply first name =
      (slot.share trace).foldl FileAction.apply second name := by
  induction trace generalizing first second with
  | nil => exact same
  | cons action rest ih =>
    by_cases touches : slot.Touches action
    · have shared : slot.share (action :: rest) = action :: slot.share rest :=
        List.filter_cons_of_pos (decide_eq_true touches)
      rw [shared] at own ⊢
      apply ih fun other member => own other (List.mem_cons_of_mem action member)
      intro name member
      by_cases named : name ∈ action.names
      · apply FileAction.apply_congr _ name named
        intro other inside
        exact same other (own action List.mem_cons_self other inside)
      · rw [FileAction.apply_of_not_mem named, FileAction.apply_of_not_mem named]
        exact same name member
    · have shared : slot.share (action :: rest) = slot.share rest :=
        List.filter_cons_of_neg (by simpa using touches)
      rw [shared] at own ⊢
      apply ih own
      intro name member
      rw [FileAction.apply_of_not_mem fun named => touches ⟨name, named, member⟩]
      exact same name member

/-! One call after the other for each slot. -/

/-- What a process sets out to do with a slot: to write its file anew, in some pieces, or to
delete it. -/
inductive FileCall (β : Type*)
  | replace (pieces : List (List β))
  | remove

namespace FileCall

def actions (slot : Slot κ) : FileCall β → List (FileAction κ β)
  | replace pieces => .create slot.temporary ::
      (pieces.map (.append slot.temporary) ++ [.rename slot.temporary slot.target])
  | remove => [.unlink slot.target]

/-- How many system calls it takes. -/
def length : FileCall β → Nat
  | replace pieces => pieces.length + 2
  | remove => 1

/-- What the file holds when the call is through. -/
def result : FileCall β → Option (List β)
  | replace pieces => some pieces.flatten
  | remove => none

omit [DecidableEq κ] in
theorem names_of_mem {slot : Slot κ} {call : FileCall β} {action : FileAction κ β}
    (member : action ∈ call.actions slot) : ∀ name ∈ action.names, name ∈ slot.names := by
  cases call with
  | replace pieces =>
    simp only [actions, List.mem_cons, List.mem_append, List.mem_map] at member
    rcases member with rfl | ⟨piece, -, rfl⟩ | rfl | none
    · simp [FileAction.names, Slot.names]
    · simp [FileAction.names, Slot.names]
    · simp [FileAction.names, Slot.names]
    · cases none
  | remove =>
    cases List.mem_singleton.mp member
    simp [FileAction.names, Slot.names]

end FileCall

/-- A call and the number of its system calls that its process lives to make. -/
structure CutCall (β : Type*) where
  call : FileCall β
  lived : Nat

namespace CutCall

def actions (slot : Slot κ) (cut : CutCall β) : List (FileAction κ β) :=
  (cut.call.actions slot).take cut.lived

/-- All of the call or nothing of it. -/
def effect (before : Option (List β)) (cut : CutCall β) : Option (List β) :=
  if cut.call.length ≤ cut.lived then cut.call.result else before

theorem effect_of_le {call : FileCall β} {lived : Nat} (complete : call.length ≤ lived)
    (before : Option (List β)) : effect before ⟨call, lived⟩ = call.result :=
  if_pos complete

theorem effect_of_lt {call : FileCall β} {lived : Nat} (short : lived < call.length)
    (before : Option (List β)) : effect before ⟨call, lived⟩ = before :=
  if_neg (Nat.not_le_of_lt short)

end CutCall

/-- Pieces appended to a file that is there. -/
theorem run_appends {name : κ} {content : List β} (pieces : List (List β)) {files : Files κ β}
    (present : files name = some content) :
    (pieces.map (FileAction.append name)).foldl FileAction.apply files =
      Function.update files name (some (content ++ pieces.flatten)) := by
  induction pieces generalizing files content with
  | nil => simp [← present]
  | cons piece rest ih =>
    have written : (FileAction.append name piece).apply files name = some (content ++ piece) := by
      simp [FileAction.apply, present]
    rw [List.map_cons, List.foldl_cons, ih written]
    simp [FileAction.apply, List.append_assoc]

/-- Whatever an earlier call left under the temporary name, a call that is cut off before its
last system call leaves the file as it was. -/
theorem CutCall.run_target (slot : Slot κ) (cut : CutCall β) (files : Files κ β) :
    (cut.actions slot).foldl FileAction.apply files slot.target =
      cut.effect (files slot.target) := by
  obtain ⟨call, lived⟩ := cut
  cases lived with
  | zero =>
    rw [CutCall.effect_of_lt (by cases call <;> exact Nat.succ_pos _)]
    rfl
  | succ lived =>
    cases call with
    | remove =>
      rw [CutCall.effect_of_le (Nat.succ_le_succ (Nat.zero_le lived))]
      simp [CutCall.actions, FileCall.actions, FileCall.result, FileAction.apply]
    | replace pieces =>
      have emptied : (FileAction.create slot.temporary).apply files slot.temporary = some [] := by
        simp [FileAction.apply]
      have kept : (FileAction.create slot.temporary).apply files slot.target =
          files slot.target := by
        simp [FileAction.apply, slot.different.symm]
      by_cases through : pieces.length < lived
      · rw [CutCall.effect_of_le (Nat.succ_le_succ through)]
        simp only [CutCall.actions, FileCall.actions, List.take_succ_cons, List.foldl_cons]
        rw [List.take_of_length_le (by rw [List.length_append, List.length_map]; exact through),
          List.foldl_append, run_appends pieces emptied]
        simp [FileAction.apply, FileCall.result]
      · have short : lived ≤ pieces.length := Nat.le_of_not_lt through
        rw [CutCall.effect_of_lt (Nat.succ_lt_succ (Nat.lt_succ_of_le short))]
        simp only [CutCall.actions, FileCall.actions, List.take_succ_cons, List.foldl_cons]
        rw [List.take_append_of_le_length (by simpa using short), ← List.map_take,
          run_appends _ emptied, Function.update_of_ne slot.different.symm, kept]

theorem run_cutCalls (slot : Slot κ) (cuts : List (CutCall β)) (files : Files κ β) :
    (cuts.flatMap (CutCall.actions slot)).foldl FileAction.apply files slot.target =
      cuts.foldl CutCall.effect (files slot.target) := by
  induction cuts generalizing files with
  | nil => rfl
  | cons cut rest ih =>
    rw [List.flatMap_cons, List.foldl_append, ih, List.foldl_cons, cut.run_target]

/-- Where the calls about one file come one after the other, the file holds what the last call
that came through put there, in any interleaving with calls about other files. -/
theorem atomic_run {slot : Slot κ} {trace : List (FileAction κ β)} {cuts : List (CutCall β)}
    (serial : slot.share trace = cuts.flatMap (CutCall.actions slot)) (files : Files κ β) :
    trace.foldl FileAction.apply files slot.target =
      cuts.foldl CutCall.effect (files slot.target) := by
  have own : ∀ action ∈ slot.share trace, ∀ name ∈ action.names, name ∈ slot.names := by
    intro action member
    rw [serial] at member
    obtain ⟨cut, -, taken⟩ := List.mem_flatMap.mp member
    exact FileCall.names_of_mem (List.mem_of_mem_take taken)
  have agree : ∀ name ∈ slot.names, trace.foldl FileAction.apply files name =
      (slot.share trace).foldl FileAction.apply files name := share_run own fun _ _ => rfl
  rw [agree slot.target List.mem_cons_self, serial, run_cutCalls]

end Actions

end Kit
