import PyUploadX.DirectoryUpload.Manifest
import PyUploadX.DirectoryUpload.StateMachine
import PyUploadX.Services.Common

/-! Directory uploads: a job, its manifest, and the results of its entries. -/
namespace PyUploadX

open Kit

structure CreateJob where
  rootDirectoryName : String := ""
  bucket : String
  destinationPrefix : String := ""
  conflictPolicy : String := "reject"
  source : String := "sdk"
  lifecycle : Option LifecycleRequest := none

/-- An entry as the client describes it. -/
structure EntryRequest where
  entryType : String := "file"
  relativePath : String := ""
  sizeBytes : Int := 0
  lastModifiedNs : Option Int := none
  contentType : Option String := none
  fingerprint : Option String := none
  fullSha256 : Option String := none
  lifecycle : Option LifecycleRequest := none

/-- The counts a client may send with its manifest. -/
structure ManifestCounts where
  files : Option Int := none
  directories : Option Int := none

structure EntryResult where
  status : String := "uploaded"
  fileId : Option Uuid := none
  errorCode : Option String := none
  errorMessage : Option String := none

namespace DirectoryUploadService

section Entries

/-- `_transition`. -/
def moveTo (target : DirectoryJobStatus) (job : DirectoryUploadJob) :
    Except Failure DirectoryUploadJob :=
  (job.status.transition target).map fun status => { job with status }

def setStatus (status : DirectoryJobStatus) (job : DirectoryUploadJob) : DirectoryUploadJob :=
  { job with status }

/-- What a flush writes of a counter: one that was raised by nothing is not written. -/
def raised (read count current : Int) : Int := if count = 0 then current else read + count

def newEntry (job : DirectoryUploadJob) (raw : EntryRequest) (normalized : ObjectKey)
    (objectKey : String) (entryType : EntryType) (id : Uuid) : DirectoryUploadEntry where
  id := id
  directoryUploadId := job.id
  entryType := entryType
  relativePath := raw.relativePath
  normalizedPath := normalized
  objectKey := objectKey
  sizeBytes := raw.sizeBytes
  lastModifiedNs := raw.lastModifiedNs
  contentType := raw.contentType
  fingerprint := raw.fingerprint
  fullSha256 := raw.fullSha256
  requestedLifecycle := orLifecycle raw.lifecycle job.requestedLifecycle
  effectiveLifecycle := job.effectiveLifecycle
  status := .pending

/-- The loop over the batch; `existing` are the paths the job has, and `id` is the id of
the next entry. -/
def collectEntries (nfc : String → String) (limits : DirectoryUploadLimits)
    (job : DirectoryUploadJob) :
    Uuid → List ObjectKey → List EntryRequest → Except Failure (List DirectoryUploadEntry)
  | _, _, [] => .ok []
  | id, existing, raw :: rest => do
    let normalized ← normalizeRelativePath nfc limits.maximumPathDepth
      limits.maximumRelativePathBytes raw.relativePath
    if normalized ∈ existing then .error (.api (.duplicateNormalizedPath normalized.text))
    else do
      let objectKey ← joinPrefix nfc job.destinationPrefix normalized.text
      let entryType ← EntryType.ofText raw.entryType
      let entries ← collectEntries nfc limits job (id + 1) (normalized :: existing) rest
      return newEntry job raw normalized objectKey entryType id :: entries

/-- The rows of a batch, counted by their type. -/
def countTotals (entries : List DirectoryUploadEntry) : Totals :=
  let files := entries.filter (·.entryType = .file)
  { files := files.length
    directories := entries.length - files.length
    entries := entries.length }

/-- The bytes of the files of a batch. -/
def countBytes (entries : List DirectoryUploadEntry) : Int :=
  (entries.filter (·.entryType = .file)).foldl (fun bytes entry => bytes + entry.sizeBytes) 0

/-- The counters of the job after the loop. -/
def raiseTotals (read : DirectoryUploadJob) (entries : List DirectoryUploadEntry)
    (job : DirectoryUploadJob) : DirectoryUploadJob :=
  let files := entries.filter (·.entryType = .file)
  { job with
    totalFiles := raised read.totalFiles files.length job.totalFiles
    totalDirectories := raised read.totalDirectories (entries.length - files.length)
      job.totalDirectories
    totalBytes := raised read.totalBytes (countBytes entries) job.totalBytes
    totalEntries := raised read.totalEntries entries.length job.totalEntries }

end Entries

variable {σ : Type} (app : AppState σ)

def createJob (identity : Identity) (request : CreateJob) (now : Timestamp) :
    Handler σ DirectoryUploadJob := do
  let config := app.settings.directoryUpload
  Program.refuseIf (config.enabled = false) (.api .directoryUploadDisabled)
  Program.refuseIf (request.bucket ∉ app.settings.storage.allowedBuckets)
    (.api (.invalidBucket request.bucket))
  let policy := orText (some request.conflictPolicy) config.conflicts.defaultPolicy
  Program.refuseIf (policy ∉ config.conflicts.allowedPolicies) (.api (.invalidConflictPolicy policy))
  let destinationPrefix := stripSlashes request.destinationPrefix
  let _ ← Program.liftExcept (if destinationPrefix = "" then .ok ()
    else (normalizeRelativePath app.nfc 64 1024 destinationPrefix).map fun _ => ())
  let effectiveLifecycle ← effectiveLifecycle app request.lifecycle now
  let source ← Program.liftExcept (DirectorySource.ofText request.source)
  let conflictPolicy ← Program.liftExcept (ConflictPolicy.ofText policy)
  let lifetime ← SettingService.getSessionExpiry app
  let id ← newId
  let job : DirectoryUploadJob := {
    id
    tenantId := identity.tenantId
    principalId := identity.principalId
    source
    rootDirectoryName := request.rootDirectoryName
    bucket := request.bucket
    destinationPrefix
    status := .created
    conflictPolicy
    requestedLifecycle := request.lifecycle
    effectiveLifecycle
    expiresAt := now + seconds lifetime }
  DirectoryRepository.insertJob app.settings.database.dialect job
  return job

section Jobs

/-- The job of the tenant. -/
def getJob (identity : Identity) (jobId : Uuid) (forUpdate : Bool := false) :
    Handler σ DirectoryUploadJob := do
  let some job ← DirectoryRepository.getJob jobId identity.tenantId forUpdate
    | Program.fail (.api .directoryUploadNotFound)
  return job

/-- The entry is looked up by its id alone and compared with the job that was named. -/
def getEntry (jobId entryId : Uuid) : Handler σ DirectoryUploadEntry := do
  let found ← DirectoryRepository.getEntry entryId
  match found with
  | none => Program.fail (.api .entryNotFound)
  | some entry =>
    Program.refuseIf (entry.directoryUploadId ≠ jobId) (.api .entryNotFound)
    return entry

/-- `job.status` moves to `manifest_uploading` with the first request; nothing is
written otherwise. -/
def startManifest (job : DirectoryUploadJob) : Handler σ Unit :=
  if job.status = .created then do
    let moved ← Program.liftExcept (moveTo .manifestUploading job)
    DirectoryRepository.updateJob job.totals ⟨0, 0, 0⟩ job.id (setStatus moved.status)
  else return ()

end Jobs

/-- The job is read without a lock, and its counters are written from what was read. -/
def addEntries (identity : Identity) (jobId : Uuid) (entries : List EntryRequest) :
    Handler σ Nat := do
  let job ← getJob identity jobId
  Program.refuseIf (job.status ≠ .created ∧ job.status ≠ .manifestUploading)
    (.api (.uploadStateConflict "Entries can only be added before the manifest is finalized."))
  let limits := app.settings.directoryUpload.limits
  Program.refuseIf (limits.maximumEntriesPerManifestRequest < entries.length)
    (.api (.tooManyEntries limits.maximumEntriesPerManifestRequest))
  startManifest job
  let present ← DirectoryRepository.listEntries job.id
  let id ← newId
  let added ← Program.liftExcept (collectEntries app.nfc limits job id
    (present.map (·.normalizedPath)) entries)
  -- One flush writes the counters that changed and the rows.
  Program.refuseIf (countBytes added ≠ 0 ∧ bigInteger (job.totalBytes + countBytes added) = false)
    .data
  DirectoryRepository.updateJob job.totals (countTotals added) job.id (raiseTotals job added)
  DirectoryRepository.insertEntries app.settings.database.dialect added
  Metrics.inc (countBytes added)
  return added.length

/-- The counts are compared one by one; a count that was not sent differs. -/
def checkCounts (job : DirectoryUploadJob) : Option ManifestCounts → Except Failure Unit
  | none => .ok ()
  | some counts =>
    if counts.files ≠ some job.totalFiles then
      .error (.api (.manifestIncomplete "Manifest file count does not match."))
    else if counts.directories ≠ some job.totalDirectories then
      .error (.api (.manifestIncomplete "Manifest directory count does not match."))
    else .ok ()

def completeManifest (identity : Identity) (jobId : Uuid) (expectedHash : Option String)
    (counts : Option ManifestCounts) : Handler σ DirectoryUploadJob := do
  let job ← getJob identity jobId true
  Program.refuseIf (job.status ≠ .created ∧ job.status ≠ .manifestUploading)
    (.api (.uploadStateConflict "Manifest has already been completed."))
  let entries ← DirectoryRepository.listEntries job.id
  Program.refuseIf (entries = []) (.api (.manifestIncomplete "Manifest contains no entries."))
  let actualHash := manifestHashFromEntries app.sha256
    ((entries.filter (·.entryType = .file)).map (·.manifestEntry))
  let expected := orText expectedHash actualHash
  Program.refuseIf (expected ≠ actualHash) (.api (.manifestHashMismatch expected actualHash))
  Program.liftExcept (checkCounts job counts)
  let moved ← Program.liftExcept (moveTo .ready { job with manifestHash := some actualHash })
  DirectoryRepository.flushJob job.id fun row =>
    { row with manifestHash := some actualHash, status := moved.status }
  return moved

section Results

/-- The entries of a page in the order of their paths, and the cursor of the next page. -/
def pageOf (cursor : Option String) (limit : Int) (entries : List DirectoryUploadEntry) :
    List DirectoryUploadEntry × Option String :=
  let limit := (min (max limit 1) 1000).toNat
  let later := match firstText cursor none with
    | none => entries
    | some cursor => entries.filter fun entry => cursor < entry.normalizedPath.text
  let sorted := later.insertionSort fun first second =>
    ¬ second.normalizedPath.text < first.normalizedPath.text
  let page := sorted.take limit
  (page, if limit < sorted.length then (page.getLast?.map (·.normalizedPath.text)) else none)

def listEntries (identity : Identity) (jobId : Uuid) (cursor : Option String) (limit : Int) :
    Handler σ (List DirectoryUploadEntry × Option String) := do
  let _ ← getJob identity jobId
  let entries ← DirectoryRepository.listEntries jobId
  return pageOf cursor limit entries

def initiateEntry (identity : Identity) (jobId entryId : Uuid) :
    Handler σ DirectoryUploadEntry := do
  let entry ← getEntry jobId entryId
  let job ← getJob identity jobId
  startManifest job
  let change := fun row : DirectoryUploadEntry =>
    { row with status := .uploading, attemptCount := entry.attemptCount + 1 }
  DirectoryRepository.flushEntry entryId change
  return change entry

def markEntryResult (identity : Identity) (jobId entryId : Uuid) (result : EntryResult) :
    Handler σ DirectoryUploadEntry := do
  let status ← Program.liftExcept (EntryStatus.ofText result.status)
  let entry ← getEntry jobId entryId
  let _ ← getJob identity jobId
  let change := fun row : DirectoryUploadEntry =>
    { row with
      status
      fileId := result.fileId
      errorCode := result.errorCode
      errorMessage := result.errorMessage }
  DirectoryRepository.flushEntry entryId change
  let _ ← DirectoryRepository.aggregateProgress jobId
  return change entry

/-- The row after the move, which is also what is written of it. -/
def flushMove (target : DirectoryJobStatus) (job : DirectoryUploadJob) :
    Handler σ DirectoryUploadJob := do
  let moved ← Program.liftExcept (moveTo target job)
  DirectoryRepository.flushJob job.id (setStatus moved.status)
  return moved

def retry (identity : Identity) (jobId : Uuid) : Handler σ DirectoryUploadJob := do
  let job ← getJob identity jobId
  Program.refuseIf
    (job.status = .completed ∨ job.status = .completedWithErrors ∨ job.status = .cancelled)
    (.api (.uploadStateConflict "Job has already finished."))
  flushMove .uploading job

def complete (identity : Identity) (jobId : Uuid) : Handler σ DirectoryUploadJob := do
  let job ← getJob identity jobId true
  if job.status = .completed then return job
  else do
    Program.refuseIf
      (job.status ≠ .uploading ∧ job.status ≠ .ready ∧ job.status ≠ .paused)
      (.api (.uploadStateConflict "Job is not in an uploadable state."))
    let failed ← DirectoryRepository.countEntriesByStatus job.id .failed
    Program.refuseIf (failed ≠ 0) (.api (.directoryHasFailedEntries failed))
    let job ← flushMove .finalizing job
    let progress ← DirectoryRepository.aggregateProgress job.id
    flushMove .completed (progress.record job)

/-- A cancelled job is moved once more, which the table does not allow. -/
def cancel (identity : Identity) (jobId : Uuid) : Handler σ DirectoryUploadJob := do
  let job ← getJob identity jobId true
  Program.refuseIf (job.status = .completed ∨ job.status = .completedWithErrors)
    (.api (.uploadStateConflict "Job has already completed."))
  let job ← Program.liftExcept
    (if job.status = .cancelled then .ok job else moveTo .cancelling job)
  flushMove .cancelled job

end Results

/-- `PATCH …/lifecycle`: the configured default, without the overrides. -/
def patchLifecycle (identity : Identity) (jobId : Uuid) (requested : Option LifecycleRequest)
    (now : Timestamp) : Handler σ DirectoryUploadJob := do
  let job ← getJob identity jobId
  let effective ← Program.liftExcept (computeEffectiveLifecycle requested
    app.settings.lifecycle.defaultPolicy app.settings.lifecycle.policy now)
  let change := fun row : DirectoryUploadJob =>
    { row with requestedLifecycle := requested, effectiveLifecycle := some effective }
  DirectoryRepository.flushJob job.id change
  return change job

end DirectoryUploadService

end PyUploadX
