import Mathlib.Data.List.Sort

/-! Rows in the order of an `ORDER BY`: its terms, their missing values, and the one order
that they give rows with keys of their own. -/
namespace Kit.OrderBy

open Std

variable {ρ α : Type}

/-- Values that may be missing, the missing ones below or above the others. -/
def withNulls (low : Bool) (cmp : α → α → Ordering) : Option α → Option α → Ordering
  | none, none => .eq
  | none, some _ => if low then .lt else .gt
  | some _, none => if low then .gt else .lt
  | some first, some second => cmp first second

/-- Rows are compared by a value of theirs. -/
def along (value : ρ → α) (cmp : α → α → Ordering) (first second : ρ) : Ordering :=
  cmp (value first) (value second)

/-- `DESC`. -/
def descending (cmp : ρ → ρ → Ordering) (first second : ρ) : Ordering := cmp second first

/-- The terms, each of which decides where the ones before it tie. -/
def byTerms : List (ρ → ρ → Ordering) → ρ → ρ → Ordering
  | [] => fun _ _ => .eq
  | term :: rest => compareLex term (byTerms rest)

def arrange (cmp : ρ → ρ → Ordering) (rows : List ρ) : List ρ :=
  rows.mergeSort fun first second => (cmp first second).isLE

instance withNulls_oriented (low : Bool) (cmp : α → α → Ordering) [OrientedCmp cmp] :
    OrientedCmp (withNulls low cmp) where
  eq_swap {first second} := by
    cases first <;> cases second
    · rfl
    · cases low <;> rfl
    · cases low <;> rfl
    · exact @OrientedCmp.eq_swap _ cmp _ _ _

instance withNulls_trans (low : Bool) (cmp : α → α → Ordering) [TransCmp cmp] :
    TransCmp (withNulls low cmp) where
  isLE_trans {first second third} before after := by
    cases first <;> cases second <;> cases third
    case some.some.some => exact @TransCmp.isLE_trans _ cmp _ _ _ _ before after
    all_goals cases low <;> simp [withNulls] at *

/-- Values that tie, tie wherever the missing ones are. -/
theorem withNulls_tie {low : Bool} {cmp : α → α → Ordering} {first second : Option α} (low' : Bool)
    (tie : withNulls low cmp first second = .eq) : withNulls low' cmp first second = .eq := by
  cases first <;> cases second
  · rfl
  · cases low <;> cases tie
  · cases low <;> cases tie
  · exact tie

instance along_trans (value : ρ → α) (cmp : α → α → Ordering) [TransCmp cmp] :
    TransCmp (along value cmp) where
  eq_swap {first second} := @OrientedCmp.eq_swap _ cmp _ (value first) (value second)
  isLE_trans {_ _ _} before after := @TransCmp.isLE_trans _ cmp _ _ _ _ before after

instance descending_trans (cmp : ρ → ρ → Ordering) [TransCmp cmp] : TransCmp (descending cmp) :=
  @TransCmp.opposite _ cmp _

theorem byTerms_trans {terms : List (ρ → ρ → Ordering)} (each : ∀ term ∈ terms, TransCmp term) :
    TransCmp (byTerms terms) := by
  induction terms with
  | nil => exact { eq_swap := rfl, isLE_trans := fun _ _ => rfl }
  | cons term rest ih =>
    obtain ⟨first, later⟩ := List.forall_mem_cons.mp each
    have := ih later
    exact inferInstanceAs (TransCmp (compareLex term (byTerms rest)))

section Arrange

variable {cmp : ρ → ρ → Ordering}

theorem arrange_perm (cmp : ρ → ρ → Ordering) (rows : List ρ) : (arrange cmp rows).Perm rows :=
  List.mergeSort_perm rows _

theorem arrange_pairwise [TransCmp cmp] (rows : List ρ) :
    (arrange cmp rows).Pairwise fun first second => (cmp first second).isLE = true := by
  refine List.pairwise_mergeSort (fun _ _ _ => TransCmp.isLE_trans) (fun first second => ?_) rows
  rw [@OrientedCmp.eq_swap _ cmp _ second first]
  cases cmp first second <;> rfl

/-- Rows of which no two tie are arranged strictly. -/
theorem arrange_strict [TransCmp cmp] {rows : List ρ} (apart : rows.Nodup)
    (untied : ∀ first ∈ rows, ∀ second ∈ rows, cmp first second = .eq → first = second) :
    (arrange cmp rows).Pairwise fun first second => cmp first second = .lt := by
  have perm := arrange_perm cmp rows
  have distinct : (arrange cmp rows).Nodup := perm.nodup_iff.mpr apart
  have sorted := (@arrange_pairwise _ cmp _ rows).and distinct
  refine sorted.imp_of_mem fun {first second} present present' order => ?_
  rcases Ordering.isLE_iff_eq_lt_or_eq_eq.mp order.1 with below | tie
  · exact below
  · exact absurd (untied first (perm.mem_iff.mp present) second (perm.mem_iff.mp present') tie) order.2

/-- Their order does not depend on the order they are read in. -/
theorem arrange_congr [TransCmp cmp] {rows rows' : List ρ} (same : rows.Perm rows')
    (untied : ∀ first ∈ rows, ∀ second ∈ rows, cmp first second = .eq → first = second) :
    arrange cmp rows = arrange cmp rows' := by
  have perm := arrange_perm cmp rows
  have perm' := arrange_perm cmp rows'
  refine List.Perm.eq_of_pairwise (fun first second member member' below above => ?_)
    (@arrange_pairwise _ cmp _ rows) (arrange_pairwise rows')
    (perm.trans (same.trans perm'.symm))
  refine untied first (perm.mem_iff.mp member) second ?_ ?_
  · exact same.mem_iff.mpr (perm'.mem_iff.mp member')
  · rw [@OrientedCmp.eq_swap _ cmp _ second first] at above
    exact Ordering.eq_eq_of_isLE_of_isLE_swap below above

end Arrange

end Kit.OrderBy
