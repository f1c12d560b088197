import PyUploadX.Services.PartLayout
import PyUploadX.System

/-! The parts the SDK cuts a file into and sends through the proxy endpoint. -/
namespace PyUploadX

open Kit UploadService

namespace Sdk

/-- `file.seek(offset)` and `file.read(size)`: a negative size reads to the end. -/
def readAt (content : Bytes) (offset : Nat) (size : Int) : Bytes :=
  if size < 0 then content.drop offset else (content.drop offset).take size.toNat

def partOffset (partSize partNumber : Nat) : Nat := (partNumber - 1) * partSize

def partLength (totalSize partSize partNumber : Nat) : Int :=
  min (partSize : Int) (totalSize - partOffset partSize partNumber)

def partBody (content : Bytes) (totalSize partSize partNumber : Nat) : Bytes :=
  readAt content (partOffset partSize partNumber) (partLength totalSize partSize partNumber)

/-- `_part_sha256`: it stops at once when nothing remains. -/
def partSha256 (sha256 : Bytes → String) (content : Bytes) (totalSize partSize partNumber : Nat) :
    String :=
  sha256 ((content.drop (partOffset partSize partNumber)).take
    (partLength totalSize partSize partNumber).toNat)

/-- The request `upload_part` sends for one part of a session. -/
def uploadPart (sha256 : Bytes → String) (identity : Identity) (session : UploadSession)
    (content : Bytes) (partNumber : Nat) : Request :=
  .proxyUploadPart identity session.id partNumber
    (partBody content session.totalSize session.partSize partNumber)
    (some (partSha256 sha256 content session.totalSize session.partSize partNumber))

theorem partBody_eq_slice {content : Bytes} {partSize partNumber : Nat} (positive : 0 < partSize)
    (last : partNumber ≤ totalParts content.length partSize) :
    partBody content content.length partSize partNumber =
      slice partSize content (partNumber - 1) := by
  have starts : partOffset partSize partNumber ≤ content.length := by
    rcases Nat.eq_zero_or_pos content.length with empty | nonempty
    · rw [empty, totalParts_zero positive] at last
      have first : partNumber - 1 = 0 := by omega
      rw [partOffset, first, Nat.zero_mul]
      exact Nat.zero_le _
    · exact (partOffset_lt positive nonempty last).le
  have length : (content.drop (partOffset partSize partNumber)).length =
      content.length - partOffset partSize partNumber := List.length_drop
  have size : (partLength content.length partSize partNumber).toNat =
      min partSize (content.length - partOffset partSize partNumber) := by
    unfold partLength
    omega
  have nonnegative : ¬ partLength content.length partSize partNumber < 0 := by
    unfold partLength
    omega
  unfold partBody readAt
  rw [if_neg nonnegative, size, ← length, ← List.take_eq_take_min]
  rfl

end Sdk

end PyUploadX
