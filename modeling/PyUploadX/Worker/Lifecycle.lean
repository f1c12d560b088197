import PyUploadX.Services.File

/-! The lifecycle worker. -/
namespace PyUploadX

open Kit

namespace LifecycleWorker

variable {σ : Type} (app : AppState σ)

/-- The files that are due, the most overdue first. -/
def dueFiles (db : Database) (batchSize : Nat) (now : Timestamp) : List FileObject :=
  ((db.fileObjects.filter fun file =>
    file.status = .active ∧ file.nextActionAt.any (· ≤ now) ∧
      file.lifecycleStatus = .active).insertionSort
        fun first second => first.nextActionAt.getD 0 ≤ second.nextActionAt.getD 0).take batchSize

/-- One row that does not load fails the whole statement. -/
def selectDue (batchSize : Nat) (now : Timestamp) : Handler σ (List FileObject) :=
  Program.select none
    (fun db =>
      let due := dueFiles db batchSize now
      if due.all (·.loadable) then .ok due else .error .lookup)
    .done

def enqueue (message : WebhookOutboxMessage) : Handler σ Unit :=
  Program.modify .enqueue none fun db => { db with webhookOutbox := db.webhookOutbox ++ [message] }

/-- The event and the outbox message of an action that was taken. -/
def announce (file : FileObject) (toStatus : LifecycleStatus) (now : Timestamp) :
    Handler σ Unit := do
  let eventType := "lifecycle." ++ file.lifecycleAction.formatted
  addEvent {
    tenantId := file.tenantId, fileId := file.id, eventType
    fromStatus := file.lifecycleStatus, toStatus }
  enqueue {
    tenantId := file.tenantId, eventType, fileId := file.id, bucket := file.bucket
    objectKey := file.objectKey, action := file.lifecycleAction, nextAttemptAt := now }

/-- The body of the loop; the result counts the file as processed or not. A deletion the
storage refuses leaves the file in status `deleting`. -/
def processFile (file : FileObject) (now : Timestamp) : Handler σ Nat := do
  if file.legalHold then
    addEvent {
      tenantId := file.tenantId, fileId := file.id, eventType := "lifecycle.blocked"
      fromStatus := file.lifecycleStatus, toStatus := file.lifecycleStatus
      reason := some "legal_hold" }
    return 0
  else
    match file.lifecycleAction with
    | .delete =>
      FileRepository.flushDeleting file.id
      let outcome ← Program.tryStore (.deleteObject file.id)
        (app.storage.deleteObject file.bucket file.objectKey)
      match outcome with
      | .ok () =>
        FileRepository.flushFile file.id (FileService.markDeleted now)
        announce file .deleted now
        return 1
      | .error _ =>
        FileRepository.flushFile file.id fun row =>
          { row with deleteAttempts := file.deleteAttempts + 1 }
        return 0
    | .notify =>
      FileRepository.flushFile file.id (·.setLifecycleStatus .expired)
      announce file .expired now
      return 1
    | _ =>
      FileRepository.flushFile file.id fun row => { row with nextActionAt := none }
      announce file file.lifecycleStatus now
      return 1

def processAll : List FileObject → Timestamp → Handler σ Nat
  | [], _ => return 0
  | file :: rest, now => do
    let processed ← processFile app file now
    let others ← processAll rest now
    return processed + others

def processBatch (batchSize : Nat) (now : Timestamp) : Handler σ Nat := do
  let files ← selectDue batchSize now
  processAll app files now

end LifecycleWorker

end PyUploadX
