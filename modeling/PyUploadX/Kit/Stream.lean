import Mathlib.Algebra.BigOperators.Group.List.Basic
import Mathlib.Algebra.GroupWithZero.Nat
import Mathlib.Data.List.Perm.Subperm
import Mathlib.Tactic.Common

/-! Reading a byte stream chunk by chunk, and cutting one into equal slices. -/
namespace Kit

variable {α γ : Type}

/-- `while chunk := stream.read(size): consume(chunk)`; one unit of fuel per read. -/
def readLoop (size : Nat) (consume : γ → List α → γ) : Nat → List α → γ → γ
  | 0, _, state => state
  | fuel + 1, stream, state =>
    if stream.take size = [] then state
    else readLoop size consume fuel (stream.drop size) (consume state (stream.take size))

/-- The rule of the reading loop: what one chunk preserves holds of the whole
stream once the fuel covers it. -/
theorem readLoop_invariant {size : Nat} {consume : γ → List α → γ}
    (holds : List α → γ → Prop) (positive : 0 < size)
    (step : ∀ seen state piece, holds seen state → holds (seen ++ piece) (consume state piece))
    {fuel : Nat} {seen stream : List α} {state : γ} (enough : stream.length < fuel)
    (start : holds seen state) :
    holds (seen ++ stream) (readLoop size consume fuel stream state) := by
  induction fuel generalizing seen stream state with
  | zero => omega
  | succ fuel ih =>
    unfold readLoop
    split
    · rename_i finished
      have done : stream = [] := by
        rcases List.take_eq_nil_iff.mp finished with zero | nil
        · omega
        · exact nil
      simpa [done] using start
    · rename_i more
      have nonempty : stream ≠ [] := by rintro rfl; simp at more
      have shorter : (stream.drop size).length < fuel := by
        have := List.length_pos_iff.mpr nonempty
        rw [List.length_drop]; omega
      have next := ih shorter (step seen state (stream.take size) start)
      rwa [List.append_assoc, List.take_append_drop] at next

/-- The `index`-th slice (from zero) of at most `size` elements. -/
def slice (size : Nat) (content : List α) (index : Nat) : List α :=
  (content.drop (index * size)).take size

theorem slice_length (size : Nat) (content : List α) (index : Nat) :
    (slice size content index).length = min size (content.length - index * size) := by
  simp [slice]

theorem flatMap_slice (size : Nat) (content : List α) (count : Nat) :
    (List.range count).flatMap (slice size content) = content.take (count * size) := by
  induction count with
  | zero => simp
  | succ count ih =>
    rw [List.range_succ, List.flatMap_append, ih, Nat.succ_mul, List.take_add]
    simp [slice]

/-- Enough slices put back together give the content. -/
theorem flatMap_slice_eq {size : Nat} {content : List α} {count : Nat}
    (covers : content.length ≤ count * size) :
    (List.range count).flatMap (slice size content) = content := by
  rw [flatMap_slice, List.take_of_length_le covers]

/-- Lengths of the slices of a content of `total` elements add up to `total`. -/
theorem sum_slice_lengths {size total count : Nat} (covers : total ≤ count * size) :
    ((List.range count).map (fun index => min size (total - index * size))).sum = total := by
  have content : (List.range count).flatMap (slice size (List.replicate total ())) =
      List.replicate total () := flatMap_slice_eq (by simpa using covers)
  have lengths := congrArg List.length content
  rw [List.length_flatMap] at lengths
  simpa [slice_length] using lengths

/-- Distinct pieces out of a whole, with nothing missing from its sum, are the whole: no
piece is empty. -/
theorem perm_of_sum_eq {pieces whole : List Nat} {size : Nat → Nat} (nodup : pieces.Nodup)
    (within : pieces ⊆ whole) (positive : ∀ piece ∈ whole, 0 < size piece)
    (sums : (pieces.map size).sum = (whole.map size).sum) : pieces.Perm whole := by
  obtain ⟨ordered, same, sublist⟩ := nodup.subperm within
  obtain ⟨rest, added⟩ := sublist.exists_perm_append
  have split : whole.Perm (pieces ++ rest) := added.trans (same.append_right rest)
  have total := (split.map size).sum_eq
  rw [List.map_append, List.sum_append] at total
  have nothing : (rest.map size).sum = 0 := by omega
  have none : rest = [] := by
    cases rest with
    | nil => rfl
    | cons piece others =>
      have member : piece ∈ whole := split.mem_iff.mpr (by simp)
      have filled := positive piece member
      rw [List.map_cons, List.sum_cons] at nothing
      omega
  rw [none, List.append_nil] at split
  exact split.symm

end Kit
