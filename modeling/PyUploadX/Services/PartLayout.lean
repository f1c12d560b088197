import PyUploadX.Kit.Stream
import PyUploadX.Services.Upload

/-! How a session cuts its bytes into parts: the lengths that add up to the total. -/
namespace PyUploadX

open Kit UploadService

/-- What part `n` has to hold: `min(part_size, total_size - offset)` bytes. -/
def UploadSession.partLength (upload : UploadSession) (partNumber : Nat) : Nat :=
  min upload.partSize (upload.totalSize - upload.partOffset partNumber)

theorem totalParts_covers (totalSize : Nat) {partSize : Nat} (positive : 0 < partSize) :
    totalSize ≤ totalParts totalSize partSize * partSize := by
  have quotient := Nat.div_add_mod (totalSize + partSize - 1) partSize
  have remainder := Nat.mod_lt (totalSize + partSize - 1) positive
  have enough : (totalSize + partSize - 1) / partSize * partSize ≤
      totalParts totalSize partSize * partSize := Nat.mul_le_mul_right _ (Nat.le_max_right _ _)
  rw [Nat.mul_comm] at quotient
  omega

theorem one_le_totalParts (totalSize partSize : Nat) : 1 ≤ totalParts totalSize partSize :=
  Nat.le_max_left _ _

theorem totalParts_zero {partSize : Nat} (positive : 0 < partSize) : totalParts 0 partSize = 1 := by
  have short : (0 + partSize - 1) / partSize = 0 := Nat.div_eq_of_lt (by omega)
  rw [totalParts, short, Nat.max_eq_left (Nat.zero_le 1)]

/-- Every part of a non-empty upload starts before the end. -/
theorem partOffset_lt {totalSize partSize number : Nat} (positive : 0 < partSize)
    (nonempty : 0 < totalSize) (last : number ≤ totalParts totalSize partSize) :
    (number - 1) * partSize < totalSize := by
  have parts : totalParts totalSize partSize = (totalSize + partSize - 1) / partSize := by
    apply Nat.max_eq_right
    rw [Nat.le_div_iff_mul_le positive]
    omega
  have quotient := Nat.div_mul_le_self (totalSize + partSize - 1) partSize
  have start : (number - 1) * partSize ≤ (totalParts totalSize partSize - 1) * partSize :=
    Nat.mul_le_mul_right _ (Nat.sub_le_sub_right last 1)
  rw [← parts] at quotient
  have whole := Nat.sub_mul (totalParts totalSize partSize) 1 partSize
  omega

section Session

variable {upload : UploadSession} (positive : 0 < upload.partSize)
  (parts : upload.totalParts = totalParts upload.totalSize upload.partSize)

include positive parts

theorem sum_partLength :
    ((List.range' 1 upload.totalParts).map upload.partLength).sum = upload.totalSize := by
  have covers : upload.totalSize ≤ upload.totalParts * upload.partSize := by
    rw [parts]
    exact totalParts_covers _ positive
  have slices := sum_slice_lengths covers
  have shifted : (List.range' 1 upload.totalParts).map upload.partLength =
      (List.range upload.totalParts).map fun index =>
        min upload.partSize (upload.totalSize - index * upload.partSize) := by
    rw [List.range_eq_range', List.range'_eq_map_range, List.map_map, ← List.range_eq_range']
    apply List.map_congr_left
    intro index _
    unfold UploadSession.partLength UploadSession.partOffset
    simp
  rw [shifted, slices]

theorem partLength_pos (nonempty : 0 < upload.totalSize) {number : Nat}
    (last : number ≤ upload.totalParts) : 0 < upload.partLength number := by
  have offset := partOffset_lt positive nonempty (parts ▸ last)
  unfold UploadSession.partLength UploadSession.partOffset
  omega

end Session

end PyUploadX
