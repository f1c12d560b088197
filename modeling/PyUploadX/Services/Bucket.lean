import PyUploadX.Core.Ranges
import PyUploadX.Services.Setting

/-! Buckets: the configured ones, and those a tenant creates. -/
namespace PyUploadX

open Kit

namespace BucketService

def isBucketEdgeChar (char : Char) : Bool := char.isLower || char.isDigit

def isBucketChar (char : Char) : Bool := isBucketEdgeChar char || char == '.' || char == '-'

/-- `^[a-z0-9][a-z0-9.-]{1,61}[a-z0-9]$`. -/
def matchesBucketName (name : List Char) : Bool :=
  3 ≤ name.length && name.length ≤ 63 && name.all isBucketChar &&
    name.head?.any isBucketEdgeChar && name.getLast?.any isBucketEdgeChar

/-- `".." in name`. -/
def hasDoubleDot : List Char → Bool
  | '.' :: '.' :: _ => true
  | _ :: rest => hasDoubleDot rest
  | [] => false

def validateName (name : String) : Except Failure String :=
  let stripped := stripBy isSpace name.toList
  if matchesBucketName stripped = false ∨ hasDoubleDot stripped = true then
    .error (.api .invalidBucketName)
  else .ok (String.ofList stripped)

variable {σ : Type} (app : AppState σ)

def createBucket (identity : Identity) (name : String) : Handler σ String := do
  let name ← Program.liftExcept (validateName name)
  let stored ← Program.askStore .bucketExists (app.storage.bucketExists name)
  Program.refuseIf (stored = true) (.api (.bucketAlreadyExists name))
  let existing ← BucketRepository.getByName identity.tenantId name
  Program.refuseIf (existing ≠ none) (.api (.bucketAlreadyExists name))
  Program.onStore .createBucket (app.storage.createBucket name)
  BucketRepository.create {
    tenantId := identity.tenantId, name, createdBy := identity.principalId }
  return name

def deleteBucket (identity : Identity) (name : String) : Handler σ String := do
  let name ← Program.liftExcept (validateName name)
  Program.refuseIf (name ∈ app.settings.storage.allowedBuckets) (.api (.bucketNotDeletable name))
  let some bucket ← BucketRepository.getByName identity.tenantId name
    | Program.fail (.api (.bucketNotFound name))
  let stored ← Program.askStore .bucketExists (app.storage.bucketExists name)
  Program.refuseIf (stored = false) (.api (.bucketNotFound name))
  Program.onStore .deleteBucket (app.storage.deleteBucket name)
  BucketRepository.delete bucket
  return name

def isBucketAllowed (tenantId bucket : String) : Handler σ Bool := do
  if bucket ∈ app.settings.storage.allowedBuckets then return true
  let existing ← BucketRepository.getByName tenantId bucket
  return existing.isSome

end BucketService

end PyUploadX
