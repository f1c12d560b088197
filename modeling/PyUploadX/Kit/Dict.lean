import Mathlib.Data.List.Basic
import Mathlib.Tactic.Common

/-! Nested mappings, what they hold at a path, and their deep merge. -/
namespace Kit

/-- The entries of a mapping, in the order in which they were put there. -/
inductive Dict (κ α : Type)
  | nil
  | scalar (key : κ) (value : α) (rest : Dict κ α)
  | nested (key : κ) (value rest : Dict κ α)
  deriving DecidableEq

inductive DictValue (κ α : Type)
  | scalar (value : α)
  | mapping (value : Dict κ α)
  deriving DecidableEq

/-- What is found at a path, where a mapping is not looked into. -/
inductive Shape (α : Type)
  | scalar (value : α)
  | mapping
  deriving DecidableEq

variable {κ α : Type} [DecidableEq κ]

namespace Dict

def cons (key : κ) (value : DictValue κ α) (rest : Dict κ α) : Dict κ α :=
  match value with
  | .scalar value => .scalar key value rest
  | .mapping value => .nested key value rest

def get? : Dict κ α → κ → Option (DictValue κ α)
  | nil, _ => none
  | scalar first value rest, key => if first = key then some (.scalar value) else rest.get? key
  | nested first value rest, key => if first = key then some (.mapping value) else rest.get? key

/-- `mapping[key] = value`. -/
def set : Dict κ α → κ → DictValue κ α → Dict κ α
  | nil, key, value => cons key value nil
  | scalar first old rest, key, value =>
    if first = key then cons key value rest else scalar first old (rest.set key value)
  | nested first old rest, key, value =>
    if first = key then cons key value rest else nested first old (rest.set key value)

/-- The entries of the second mapping are put into the first, mapping into mapping. -/
def deepMerge (merged : Dict κ α) : Dict κ α → Dict κ α
  | nil => merged
  | scalar key value rest => deepMerge (merged.set key (.scalar value)) rest
  | nested key value rest =>
    match merged.get? key with
    | some (.mapping inner) =>
      deepMerge (merged.set key (.mapping (deepMerge inner value))) rest
    | _ => deepMerge (merged.set key (.mapping value)) rest

/-- No key stands twice, at any depth. -/
def Unique : Dict κ α → Prop
  | nil => True
  | scalar key _ rest => rest.get? key = none ∧ rest.Unique
  | nested key value rest => rest.get? key = none ∧ value.Unique ∧ rest.Unique

end Dict

namespace DictValue

def at? : DictValue κ α → List κ → Option (Shape α)
  | scalar value, [] => some (.scalar value)
  | mapping _, [] => some .mapping
  | scalar _, _ :: _ => none
  | mapping dict, key :: rest => (dict.get? key).bind fun value => value.at? rest

/-- A scalar stands above the path. -/
def blocks : DictValue κ α → List κ → Bool
  | scalar _, _ :: _ => true
  | mapping dict, key :: rest => (dict.get? key).any fun value => value.blocks rest
  | _, [] => false

theorem at?_scalar_append (value : α) {path : List κ} (deeper : path ≠ []) :
    (scalar value).at? path = none := by
  obtain ⟨key, rest, rfl⟩ := List.exists_cons_of_ne_nil deeper
  rfl

/-- Above whatever is found there are mappings all the way. -/
theorem at?_above {value : DictValue κ α} {path rest : List κ} (deeper : rest ≠ [])
    (found : value.at? (path ++ rest) ≠ none) : value.at? path = some .mapping := by
  induction path generalizing value with
  | nil =>
    cases value with
    | scalar value => exact absurd (at?_scalar_append value deeper) found
    | mapping dict => rfl
  | cons key later ih =>
    cases value with
    | scalar value => exact absurd rfl found
    | mapping dict =>
      rw [List.cons_append, at?] at found
      rw [at?]
      cases entry : dict.get? key with
      | none =>
        rw [entry] at found
        exact absurd rfl found
      | some inner =>
        rw [entry] at found
        exact ih found

theorem blocks_iff {value : DictValue κ α} {path : List κ} :
    value.blocks path = true ↔
      ∃ front rest scalar, path = front ++ rest ∧ rest ≠ [] ∧
        value.at? front = some (.scalar scalar) := by
  induction path generalizing value with
  | nil =>
    constructor
    · intro blocked
      cases value <;> cases blocked
    · rintro ⟨front, rest, _, split, deeper, _⟩
      exact absurd (List.append_eq_nil_iff.mp split.symm).2 deeper
  | cons key later ih =>
    cases value with
    | scalar value =>
      exact iff_of_true rfl ⟨[], key :: later, value, rfl, List.cons_ne_nil _ _, rfl⟩
    | mapping dict =>
      rw [blocks]
      constructor
      · intro blocked
        obtain ⟨inner, entry, below⟩ := (Option.any_eq_true _ _).mp blocked
        obtain ⟨front, rest, scalar, rfl, deeper, found⟩ := ih.mp below
        refine ⟨key :: front, rest, scalar, rfl, deeper, ?_⟩
        rw [at?, entry]
        exact found
      · rintro ⟨front, rest, scalar, split, deeper, found⟩
        cases front with
        | nil => cases found
        | cons first front =>
          obtain ⟨rfl, rfl⟩ := List.cons.inj split
          obtain ⟨inner, entry, below⟩ := Option.bind_eq_some_iff.mp found
          exact (Option.any_eq_true _ _).mpr
            ⟨inner, entry, ih.mpr ⟨front, rest, scalar, rfl, deeper, below⟩⟩

/-- Nothing is found below a scalar. -/
theorem at?_of_blocks {value : DictValue κ α} {path : List κ} (blocked : value.blocks path = true) :
    value.at? path = none := by
  obtain ⟨front, rest, scalar, rfl, deeper, found⟩ := blocks_iff.mp blocked
  by_contra there
  rw [at?_above deeper there] at found
  cases found

end DictValue

namespace Dict

theorem get?_cons (key other : κ) (value : DictValue κ α) (rest : Dict κ α) :
    (cons key value rest).get? other = if key = other then some value else rest.get? other := by
  cases value <;> rfl

theorem get?_set (dict : Dict κ α) (key other : κ) (value : DictValue κ α) :
    (dict.set key value).get? other = if key = other then some value else dict.get? other := by
  induction dict with
  | nil => exact get?_cons key other value nil
  | scalar first old rest ih =>
    unfold set
    split
    · rename_i same
      rw [get?_cons, get?, same]
      split
      · rfl
      · rfl
    · rename_i aside
      rw [get?, get?, ih]
      split
      · rename_i here
        rw [if_neg fun same => aside (here.trans same.symm)]
      · rfl
  | nested first old rest _ ih =>
    unfold set
    split
    · rename_i same
      rw [get?_cons, get?, same]
      split
      · rfl
      · rfl
    · rename_i aside
      rw [get?, get?, ih]
      split
      · rename_i here
        rw [if_neg fun same => aside (here.trans same.symm)]
      · rfl

/-- What one key holds after a merge. -/
def mergeValue (base : Option (DictValue κ α)) (value : DictValue κ α) : DictValue κ α :=
  match base, value with
  | some (.mapping inner), .mapping value => .mapping (deepMerge inner value)
  | _, value => value

theorem deepMerge_nested (merged : Dict κ α) (key : κ) (value rest : Dict κ α) :
    deepMerge merged (nested key value rest) =
      deepMerge (merged.set key (mergeValue (merged.get? key) (.mapping value))) rest := by
  rw [deepMerge]
  rcases merged.get? key with _ | _ | _
  · rfl
  · rfl
  · rfl

theorem get?_deepMerge {override : Dict κ α} (unique : override.Unique) (base : Dict κ α)
    (key : κ) :
    (deepMerge base override).get? key =
      match override.get? key with
      | none => base.get? key
      | some value => some (mergeValue (base.get? key) value) := by
  induction override generalizing base with
  | nil => rfl
  | scalar first value rest ih =>
    rw [deepMerge, ih unique.2, get?_set, get?]
    by_cases same : first = key
    · subst same
      rw [unique.1, if_pos rfl, if_pos rfl]
      rcases base.get? first with _ | _ | _
      · rfl
      · rfl
      · rfl
    · rw [if_neg same, if_neg same]
  | nested first value rest _ ih =>
    rw [deepMerge_nested, ih unique.2.2, get?_set, get?]
    by_cases same : first = key
    · subst same
      rw [unique.1, if_pos rfl, if_pos rfl]
    · rw [if_neg same, if_neg same]

theorem Unique.of_get? {dict : Dict κ α} (unique : dict.Unique) {key : κ} {value : Dict κ α}
    (found : dict.get? key = some (.mapping value)) : value.Unique := by
  induction dict with
  | nil => cases found
  | scalar first old rest ih =>
    rw [get?] at found
    split at found
    · cases found
    · exact ih unique.2 found
  | nested first old rest _ ih =>
    rw [get?] at found
    split at found
    · cases found
      exact unique.2.1
    · exact ih unique.2.2 found

/-- At each path the override counts, then what it merges into, unless a scalar of the override
stands above the path. -/
theorem at?_deepMerge {override : Dict κ α} (unique : override.Unique) (base : Dict κ α)
    (path : List κ) :
    (DictValue.mapping (deepMerge base override)).at? path =
      ((DictValue.mapping override).at? path).or
        (if (DictValue.mapping override).blocks path then none
          else (DictValue.mapping base).at? path) := by
  induction path generalizing base override with
  | nil => rfl
  | cons key rest ih =>
    have merged := get?_deepMerge unique base key
    rw [DictValue.at?, DictValue.at?, DictValue.at?, DictValue.blocks]
    obtain absent | ⟨value | value, entry⟩ := Option.eq_none_or_eq_some (override.get? key)
    · rw [absent] at merged
      simp [absent, merged]
    · have plain : mergeValue (base.get? key) (.scalar value) = .scalar value := by
        rcases base.get? key with _ | _ | _
        · rfl
        · rfl
        · rfl
      rw [entry] at merged
      dsimp only at merged
      rw [plain] at merged
      rw [merged, entry]
      cases rest with
      | nil => rfl
      | cons next later => rfl
    · rw [entry] at merged
      dsimp only at merged
      rw [merged, entry]
      obtain absent | ⟨old | inner, under⟩ := Option.eq_none_or_eq_some (base.get? key)
      · simp [absent, mergeValue]
      · rw [under]
        cases rest with
        | nil => rfl
        | cons next later => simp [mergeValue, DictValue.at?]
      · rw [under]
        exact ih (unique.of_get? entry) inner

end Dict

def DictValue.Unique : DictValue κ α → Prop
  | scalar _ => True
  | mapping dict => dict.Unique

namespace Dict

theorem unique_nil : (nil : Dict κ α).Unique := trivial

theorem unique_cons {key : κ} {value : DictValue κ α} {rest : Dict κ α}
    (absent : rest.get? key = none) (inner : value.Unique) (unique : rest.Unique) :
    (cons key value rest).Unique := by
  cases value with
  | scalar value => exact ⟨absent, unique⟩
  | mapping value => exact ⟨absent, inner, unique⟩

theorem Unique.set {dict : Dict κ α} (unique : dict.Unique) (key : κ) {value : DictValue κ α}
    (inner : value.Unique) : (dict.set key value).Unique := by
  induction dict with
  | nil => exact unique_cons rfl inner trivial
  | scalar first old rest ih =>
    unfold Dict.set
    split
    · rename_i same
      exact unique_cons (same ▸ unique.1) inner unique.2
    · rename_i aside
      refine ⟨?_, ih unique.2⟩
      rw [get?_set, if_neg (Ne.symm aside)]
      exact unique.1
  | nested first old rest _ ih =>
    unfold Dict.set
    split
    · rename_i same
      exact unique_cons (same ▸ unique.1) inner unique.2.2
    · rename_i aside
      refine ⟨?_, unique.2.1, ih unique.2.2⟩
      rw [get?_set, if_neg (Ne.symm aside)]
      exact unique.1

end Dict

/-- A mapping as a program can have it. -/
structure Mapping (κ α : Type) [DecidableEq κ] where
  entries : Dict κ α
  unique : entries.Unique

namespace Mapping

def empty : Mapping κ α := ⟨.nil, trivial⟩

def at? (mapping : Mapping κ α) (path : List κ) : Option (Shape α) :=
  (DictValue.mapping mapping.entries).at? path

def blocks (mapping : Mapping κ α) (path : List κ) : Bool :=
  (DictValue.mapping mapping.entries).blocks path

end Mapping

end Kit
