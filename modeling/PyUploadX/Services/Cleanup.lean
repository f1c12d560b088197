import PyUploadX.Db.Repositories

/-! Expiry of idle upload sessions. -/
namespace PyUploadX

open Kit

namespace CleanupService

variable {σ : Type}

/-- The sessions a batch selects; the statement asks for no order. -/
def expirable (db : Database) (batchSize : Nat) (now : Timestamp) : List Uuid :=
  ((db.uploadSessions.filter fun upload =>
    (upload.status = .initiated ∨ upload.status = .uploading) ∧ upload.expiresAt ≤ now).map
      (·.id)).take batchSize

/-- `UPDATE … WHERE id IN (ids)`, row by row; the status is not looked at again. -/
def expireAll : List Uuid → Handler σ Unit
  | [] => return ()
  | id :: rest => do
    Program.modify .expireSession (some (.upload id))
      (·.updateUpload id (·.setStatus .expired))
    expireAll rest

def expireUploadSessions (batchSize : Nat) (now : Timestamp) : Handler σ Nat := do
  let ids ← Program.ask (expirable · batchSize now)
  expireAll ids
  return ids.length

end CleanupService

end PyUploadX
