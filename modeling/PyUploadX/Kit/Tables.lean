import Mathlib.Data.List.Nodup

/-! Tables as lists of rows. The rows are numbered from a counter, and a view is what a
predicate leaves of a table; a total splits along a predicate. -/
namespace Kit.Table

variable {ρ : Type} {key : ρ → Nat} {next : Nat} {rows : List ρ}

/-- Every row has a number of its own, and the counter is past all of them. -/
structure Numbered (key : ρ → Nat) (next : Nat) (rows : List ρ) : Prop where
  unique : (rows.map key).Nodup
  old : ∀ row ∈ rows, key row < next

namespace Numbered

theorem nil (key : ρ → Nat) (next : Nat) : Numbered key next [] :=
  ⟨List.nodup_nil, fun _ => nofun⟩

theorem later (numbered : Numbered key next rows) {next' : Nat} (later : next ≤ next') :
    Numbered key next' rows :=
  ⟨numbered.unique, fun row member => Nat.lt_of_lt_of_le (numbered.old row member) later⟩

theorem eq_of_key (numbered : Numbered key next rows) {first second : ρ} (member : first ∈ rows)
    (member' : second ∈ rows) (same : key first = key second) : first = second :=
  List.inj_on_of_nodup_map numbered.unique member member' same

theorem update (numbered : Numbered key next rows) {selected : ρ → Prop} [DecidablePred selected]
    {change : ρ → ρ} (kept : ∀ row, key (change row) = key row) :
    Numbered key next (rows.map fun row => if selected row then change row else row) := by
  have keys : ∀ row, key (if selected row then change row else row) = key row := by
    intro row
    split
    · exact kept row
    · rfl
  constructor
  · have same : (key ∘ fun row => if selected row then change row else row) = key := funext keys
    rw [List.map_map, same]
    exact numbered.unique
  · intro row membership
    obtain ⟨before, member, rfl⟩ := List.mem_map.mp membership
    rw [keys]
    exact numbered.old before member

/-- Rows that take the next numbers. -/
theorem append (numbered : Numbered key next rows) {added : List ρ}
    (fresh : added.map key = List.range' next added.length) :
    Numbered key (next + added.length) (rows ++ added) := by
  have number : ∀ row ∈ added, next ≤ key row ∧ key row < next + added.length := by
    intro row member
    have among : key row ∈ List.range' next added.length := by
      rw [← fresh]
      exact List.mem_map_of_mem member
    exact List.mem_range'_1.mp among
  constructor
  · rw [List.map_append, List.nodup_append]
    refine ⟨numbered.unique, ?_, ?_⟩
    · rw [fresh]
      exact List.nodup_range'
    · intro first old second new same
      obtain ⟨row, member, rfl⟩ := List.mem_map.mp old
      obtain ⟨row', member', rfl⟩ := List.mem_map.mp new
      have := numbered.old row member
      have := (number row' member').1
      omega
  · intro row member
    rcases List.mem_append.mp member with old | new
    · exact Nat.lt_of_lt_of_le (numbered.old row old) (Nat.le_add_right _ _)
    · exact (number row new).2

end Numbered

/-- The row of an id, after a statement that keeps the ids. -/
theorem find?_update {key : ρ → Nat} {selected : ρ → Prop} [DecidablePred selected]
    {change : ρ → ρ} (kept : ∀ row, key (change row) = key row) (id : Nat) :
    (rows.map fun row => if selected row then change row else row).find? (key · = id) =
      (rows.find? (key · = id)).map fun row => if selected row then change row else row := by
  rw [List.find?_map]
  congr 2
  funext row
  simp only [Function.comp_apply]
  split
  · rw [kept]
  · rfl

section Views

variable {view : ρ → Bool}

/-- A statement that selects rows outside the view, and leaves them outside. -/
theorem filter_update {selected : ρ → Prop} [DecidablePred selected] {change : ρ → ρ}
    (outside : ∀ row ∈ rows, selected row → view row = false ∧ view (change row) = false) :
    (rows.map fun row => if selected row then change row else row).filter view =
      rows.filter view := by
  induction rows with
  | nil => rfl
  | cons row rest ih =>
    have tail := ih fun other member => outside other (List.mem_cons_of_mem _ member)
    rw [List.map_cons]
    split
    · rename_i hit
      obtain ⟨before, after⟩ := outside row List.mem_cons_self hit
      rw [List.filter_cons_of_neg (by rw [after]; exact Bool.false_ne_true),
        List.filter_cons_of_neg (by rw [before]; exact Bool.false_ne_true), tail]
    · rw [List.filter_cons, List.filter_cons, tail]

theorem filter_append {added : List ρ} (outside : ∀ row ∈ added, view row = false) :
    (rows ++ added).filter view = rows.filter view := by
  have none : added.filter view = [] :=
    List.filter_eq_nil_iff.mpr fun row member => by rw [outside row member]; exact Bool.false_ne_true
  rw [List.filter_append, none, List.append_nil]

/-- What only rows outside the view satisfy, no row of the view does. -/
theorem any_filter_eq_false {satisfies : ρ → Bool}
    (outside : ∀ row ∈ rows, satisfies row = true → view row = false) :
    (rows.filter view).any satisfies = false := by
  rw [List.any_eq_false]
  intro row member holds
  obtain ⟨present, shown⟩ := List.mem_filter.mp member
  rw [outside row present holds] at shown
  exact Bool.false_ne_true shown

end Views

section Totals

variable (size : ρ → Int)

def total (rows : List ρ) : Int := rows.foldl (fun sum row => sum + size row) 0

theorem foldl_total (start : Int) (rows : List ρ) :
    rows.foldl (fun sum row => sum + size row) start = start + total size rows := by
  unfold total
  induction rows generalizing start with
  | nil => simp
  | cons row rest ih => simp only [List.foldl_cons, ih (start + size row), ih (0 + size row)]; omega

theorem total_cons (row : ρ) (rest : List ρ) :
    total size (row :: rest) = size row + total size rest := by
  have step := foldl_total size (0 + size row) rest
  rw [Int.zero_add] at step
  unfold total
  rw [List.foldl_cons, Int.zero_add, step]
  rfl

theorem total_map {change : ρ → ρ} (kept : ∀ row, size (change row) = size row) (rows : List ρ) :
    total size (rows.map change) = total size rows := by
  induction rows with
  | nil => rfl
  | cons row rest ih => rw [List.map_cons, total_cons, total_cons, kept, ih]

theorem total_split (part : ρ → Bool) (rows : List ρ) :
    total size rows =
      total size (rows.filter part) + total size (rows.filter fun row => !part row) := by
  induction rows with
  | nil => rfl
  | cons row rest ih =>
    cases inside : part row
    · rw [List.filter_cons_of_neg (by rw [inside]; exact Bool.false_ne_true),
        List.filter_cons_of_pos (by rw [inside]; rfl), total_cons, total_cons, ih]
      omega
    · rw [List.filter_cons_of_pos inside, List.filter_cons_of_neg (by rw [inside]; decide),
        total_cons, total_cons, ih]
      omega

end Totals

end Kit.Table
