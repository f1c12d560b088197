import PyUploadX.Lifecycle.StateMachine
import PyUploadX.Services.Common

/-! Upload sessions. Each request reads the clock once, as `now`. -/
namespace PyUploadX

open Kit

structure CreateSession where
  bucket : String
  objectKey : String
  originalFilename : String := ""
  contentType : Option String := none
  totalSize : Int
  partSize : Option Int := none
  uploadMode : String := "automatic"
  fileFingerprint : Option String := none
  expectedSha256 : Option String := none
  lifecycle : Option LifecycleRequest := none
  /-- No statement of `create_session` reads it. -/
  metadata : List (String × String) := []

namespace UploadSession

/-- `upload.storage_upload_id`, where it is not empty. -/
def storageId? (upload : UploadSession) : Option StorageUploadId :=
  match upload.storageUploadId with
  | some (.issued text) => if text = "" then none else some (.issued text)
  | other => other

/-- `upload.storage_upload_id or str(upload.id)`. -/
def storageKey (upload : UploadSession) : StorageUploadId :=
  upload.storageId?.getD (.session upload.id)

/-- `(part_number - 1) * upload.part_size`. -/
def partOffset (upload : UploadSession) (partNumber : Nat) : Nat :=
  (partNumber - 1) * upload.partSize

end UploadSession

namespace UploadService

/-- `max(1, math.ceil(total_size / part_size))`; the quotient is exact as long as the
limits let through fewer than 2^52 bytes. -/
def totalParts (totalSize partSize : Nat) : Nat := max 1 ((totalSize + partSize - 1) / partSize)

/-- The part size and the number of parts of a session. -/
def partLayout (multipart : MultipartConfig) (totalSize : Nat) (partSize : Int) :
    Except Failure (Nat × Nat) :=
  if ¬ (multipart.minimumPartSizeBytes ≤ partSize ∧ partSize ≤ multipart.maximumPartSizeBytes) then
    .error (.api (.invalidPartSize partSize multipart.minimumPartSizeBytes
      multipart.maximumPartSizeBytes))
  else if partSize = 0 then .error .zeroDivision
  else
    let parts := totalParts totalSize partSize.toNat
    if multipart.maximumParts < parts then
      .error (.api (.tooManyParts parts multipart.maximumParts))
    else .ok (partSize.toNat, parts)

section Requests

variable {σ : Type} (app : AppState σ)

def chooseMode (totalSize : Nat) (uploadMode : String) : Handler σ UploadMode := do
  let defaultMode ← SettingService.getDefaultMode app
  let modeValue := orText (some uploadMode) defaultMode
  if modeValue = "automatic" then
    let threshold ← SettingService.getDirectThreshold app
    if app.settings.uploads.multipart.enabled = true ∧ threshold < totalSize then
      return .presigned
    else return .proxy
  else if modeValue = "proxy" then return .proxy
  else if modeValue = "presigned" then
    Program.refuseIf (app.storage.capabilities.multipart = false ∧ 0 < totalSize)
      (.api (.storageCapabilityNotSupported "multipart"))
    return .presigned
  else Program.fail (.api (.invalidUploadMode uploadMode))

def initiateMultipart (identity : Identity) (mode : UploadMode) (bucket : String)
    (objectKey : ObjectKey) (contentType : Option String) :
    Handler σ (Option StorageUploadId) := do
  if mode = .presigned then
    let issued ← Program.onStore .initiateMultipartUpload
      (app.storage.initiateMultipartUpload bucket objectKey contentType
        [("tenant_id", identity.tenantId), ("principal_id", identity.principalId)])
    return if app.storage.isLocal then none else some (.issued issued)
  else return none

/-- The session row that `create_session` adds. -/
def newSession (identity : Identity) (request : CreateSession) (safeKey : ObjectKey)
    (layout : Nat × Nat) (mode : UploadMode) (effective : Option EffectiveLifecycle)
    (storageUploadId : Option StorageUploadId) (lifetime : Int) (id : Uuid) (now : Timestamp) :
    UploadSession where
  id := id
  tenantId := identity.tenantId
  principalId := identity.principalId
  backend := app.settings.storage.backend
  uploadMode := mode
  bucket := request.bucket
  objectKey := safeKey
  storageUploadId := if app.storage.isLocal then some (.session id) else storageUploadId
  originalFilename := orText (some request.originalFilename) safeKey.filename
  contentType := request.contentType
  totalSize := request.totalSize.toNat
  partSize := layout.1
  totalParts := layout.2
  fileFingerprint := request.fileFingerprint
  expectedSha256 := request.expectedSha256
  status := .initiated
  requestedLifecycle := request.lifecycle
  effectiveLifecycle := effective
  expiresAt := now + seconds lifetime
  lastActivityAt := now
  createdAt := now

def createSession (identity : Identity) (request : CreateSession) (now : Timestamp) :
    Handler σ UploadSession := do
  validateBucket app identity request.bucket
  let safeKey ← Program.liftExcept (validateObjectKey app request.objectKey)
  let maximumBytes ← SettingService.getMaxFileSize app
  Program.refuseIf (request.totalSize < 0) (.api .invalidFileSize)
  Program.refuseIf (maximumBytes < request.totalSize) (.api (.fileTooLarge maximumBytes))
  let defaultPartSize ← SettingService.getDefaultPartSize app
  let layout ← Program.liftExcept (partLayout app.settings.uploads.multipart
    request.totalSize.toNat (request.partSize.getD defaultPartSize))
  let mode ← chooseMode app request.totalSize.toNat request.uploadMode
  refuseExisting app request.bucket safeKey
  let effective ← effectiveLifecycle app request.lifecycle now
  let storageUploadId ←
    initiateMultipart app identity mode request.bucket safeKey request.contentType
  let lifetime ← SettingService.getSessionExpiry app
  let id ← newId
  let upload :=
    newSession app identity request safeKey layout mode effective storageUploadId lifetime id now
  UploadRepository.insertUpload app.settings.database.dialect upload
  return upload

end Requests

section Requests

variable {σ : Type}

def getSession (identity : Identity) (uploadId : Uuid) : Handler σ UploadSession := do
  let some upload ← UploadRepository.getUpload uploadId identity.tenantId
    | Program.fail (.api (.uploadNotFound uploadId))
  return upload

def ensureActive (upload : UploadSession) : Except Failure Unit :=
  match upload.status with
  | .completed => .error (.api .uploadAlreadyCompleted)
  | .aborted => .error (.api .uploadAborted)
  | .expired => .error (.api .uploadExpired)
  | _ => .ok ()

/-- The part number, once it is known to be in `1..total_parts`. -/
def checkPartNumber (upload : UploadSession) (partNumber : Int) : Except Failure Nat :=
  if 1 ≤ partNumber ∧ partNumber ≤ upload.totalParts then .ok partNumber.toNat
  else .error (.api (.invalidPartNumber partNumber upload.totalParts))

def checkPartSize (minimum : Nat) (upload : UploadSession) (partNumber sizeBytes : Nat) :
    Except Failure Unit :=
  let lastPart := partNumber = upload.totalParts
  if upload.partSize < sizeBytes ∨
      (sizeBytes < minimum ∧ ¬ lastPart ∧ 1 < upload.totalParts) then
    .error (.api (.invalidPartSize sizeBytes minimum upload.partSize))
  else .ok ()

def listCommittedParts (identity : Identity) (uploadId : Uuid) : Handler σ (List UploadPart) := do
  let _ ← getSession identity uploadId
  PartRepository.listPartsForUpload uploadId

/-- The row of a part that the storage took. -/
def storedRow (upload : UploadSession) (partNumber : Nat) (stored : UploadedPart)
    (checksumSha256 : Option String) : UploadPart where
  uploadId := upload.id
  partNumber := partNumber
  offsetBytes := upload.partOffset partNumber
  sizeBytes := stored.sizeBytes
  etag := some stored.etag
  checksumSha256 := firstText stored.checksumSha256 checksumSha256
  status := .committed

/-- The row of a part that the client reports. -/
def reportedRow (upload : UploadSession) (partNumber : Nat) (etag : String) (sizeBytes : Int)
    (checksumSha256 : Option String) : UploadPart where
  uploadId := upload.id
  partNumber := partNumber
  offsetBytes := upload.partOffset partNumber
  sizeBytes := sizeBytes
  etag := some etag
  checksumSha256 := checksumSha256
  status := .committed

variable (app : AppState σ)

/-- `sorted(set(part_numbers))`, each with its URL. -/
def presignPartUrls (upload : UploadSession) (storageUploadId : StorageUploadId) (expires : Int)
    (partNumbers : List Int) : Except Failure (List (Nat × PresignedUrl)) :=
  (partNumbers.dedup.insertionSort (· ≤ ·)).mapM fun partNumber => do
    let partNumber ← checkPartNumber upload partNumber
    let url ← app.storage.createPresignedUploadPartUrl upload.bucket upload.objectKey
      storageUploadId partNumber expires
    return (partNumber, url)

def presignParts (identity : Identity) (uploadId : Uuid) (partNumbers : List Int)
    (expiresSeconds : Option Int) : Handler σ (List (Nat × PresignedUrl)) := do
  let upload ← getSession identity uploadId
  Program.liftExcept (ensureActive upload)
  match app.storage.capabilities.presignedUploadPart, upload.storageUploadId with
  | true, some storageUploadId =>
    let maximum := app.settings.uploads.multipart.maximumPresignBatchSize
    Program.refuseIf (maximum < partNumbers.length) (.api (.presignBatchTooLarge maximum))
    let presign := app.settings.presign
    let expires := (orNumber expiresSeconds none).getD presign.uploadPartExpiresSeconds
    Program.liftExcept (presignPartUrls app upload storageUploadId
      (min expires presign.maximumExpiresSeconds) partNumbers)
  | _, _ => Program.fail (.api (.storageCapabilityNotSupported "presigned_upload_part"))

/-- The status is read in one statement and overwritten by id in another. -/
def proxyUploadPart (identity : Identity) (uploadId : Uuid) (partNumber : Int) (stream : Bytes)
    (sizeBytes : Nat) (checksumSha256 : Option String) (now : Timestamp) :
    Handler σ UploadPart := do
  let upload ← getSession identity uploadId
  Program.liftExcept (ensureActive upload)
  let partNumber ← Program.liftExcept (checkPartNumber upload partNumber)
  Program.liftExcept (checkPartSize app.settings.uploads.multipart.minimumPartSizeBytes upload
    partNumber sizeBytes)
  if upload.status = .initiated then UploadRepository.updateStatus upload.id .uploading
  let stored ← Program.onStore .uploadPart
    (app.storage.uploadPart upload.bucket upload.objectKey upload.storageKey partNumber stream
      sizeBytes checksumSha256)
  let part := storedRow upload partNumber stored checksumSha256
  PartRepository.upsertPart part
  UploadRepository.touchActivity upload.id now
  return part

/-- The client's word is taken for the part: storage is not asked. -/
def commitPart (identity : Identity) (uploadId : Uuid) (partNumber : Int) (etag : String)
    (sizeBytes : Int) (checksumSha256 : Option String) (now : Timestamp) : Handler σ Unit := do
  let upload ← getSession identity uploadId
  Program.liftExcept (ensureActive upload)
  let partNumber ← Program.liftExcept (checkPartNumber upload partNumber)
  PartRepository.upsertPart (reportedRow upload partNumber etag sizeBytes checksumSha256)
  Metrics.inc sizeBytes
  UploadRepository.touchActivity upload.id now

def committedOf (parts : List UploadPart) : List UploadPart :=
  parts.filter fun part => part.status = .committed

/-- The numbers of `1..total_parts` outside a set. -/
def missingNumbers (totalParts : Nat) (present : List Nat) : List Nat :=
  (List.range' 1 totalParts).filter (· ∉ present)

/-- The listing of the storage, where there is one; an API error counts as an empty one. -/
def storedNumbers (upload : UploadSession) : Handler σ (List Nat) := do
  match upload.storageId? with
  | some storageUploadId =>
    if app.storage.capabilities.listParts then
      let listing ← Program.tryStore .listParts fun store =>
        (app.storage.listParts upload.bucket upload.objectKey storageUploadId store, store)
      match listing with
      | .ok parts => return parts.map (·.partNumber)
      | .error failure => if failure.isApiError then return [] else Program.fail failure
    else return []
  | none => return []

def resume (identity : Identity) (uploadId : Uuid) (now : Timestamp) :
    Handler σ (UploadSession × List Nat) := do
  let upload ← getSession identity uploadId
  Program.refuseIf (upload.status = .aborted) (.api .uploadAborted)
  Program.refuseIf (upload.status = .expired) (.api .uploadExpired)
  let rows ← PartRepository.listPartsForUpload upload.id
  let committed := (committedOf rows).map (·.partNumber)
  let stored ← storedNumbers app upload
  let missing := missingNumbers upload.totalParts (committed ++ stored)
  UploadRepository.touchActivity upload.id now
  return (upload, missing)

/-- `type("P", (), {…})`: what is handed to the storage for a row. -/
def handedRow (part : UploadPart) : UploadedPart where
  partNumber := part.partNumber
  etag := part.etag.getD ""
  sizeBytes := part.sizeBytes

/-- The first stored part whose ETag contradicts the committed row of its number. -/
def etagMismatch (committed : List UploadPart) (stored : List UploadedPart) : Option Nat :=
  (stored.find? fun part =>
    match committed.find? fun row => row.partNumber = part.partNumber with
    | some row => row.etag.getD "" ≠ "" ∧ part.etag ≠ "" ∧ row.etag.getD "" ≠ part.etag
    | none => false).map (·.partNumber)

/-- The parts to assemble: what the storage lists, and only if it lists nothing at all on
the local adapter, or cannot list, what the table says. -/
def storedParts (upload : UploadSession) (committed : List UploadPart) :
    Handler σ (List UploadedPart) := do
  match upload.storageId? with
  | some storageUploadId =>
    if app.storage.capabilities.listParts then
      let listed ← Program.askStore .listParts
        (app.storage.listParts upload.bucket upload.objectKey storageUploadId)
      let stored :=
        if listed = [] ∧ app.storage.isLocal = true then committed.map handedRow else listed
      match etagMismatch committed stored with
      | some partNumber => Program.fail (.api (.partEtagMismatch partNumber))
      | none => return stored
    else return committed.map handedRow
  | none => return committed.map handedRow

/-- Everything `complete` decides before it writes: the parts handed to the storage. -/
def partsToComplete (upload : UploadSession) : Handler σ (List UploadedPart) := do
  let rows ← PartRepository.listPartsForUpload upload.id
  let committed := committedOf rows
  Program.refuseIf (committed.length < upload.totalParts)
    (.api (.missingParts (missingNumbers upload.totalParts (committed.map (·.partNumber)))))
  let parts ← storedParts app upload committed
  if upload.status ≠ .uploading ∧ upload.status ≠ .initiated then
    let _ ← Program.liftExcept (transitionUpload upload.status .completing)
  return parts

/-- The row of a completed upload: its size is the declared one. -/
def completedFileObject (identity : Identity) (upload : UploadSession) (id : Uuid)
    (stored : StoredObject) (now : Timestamp) : FileObject :=
  let columns := lifecycleColumns
    (if app.settings.lifecycle.enabled then upload.effectiveLifecycle else none)
  { id
    tenantId := identity.tenantId
    principalId := identity.principalId
    bucket := upload.bucket
    objectKey := upload.objectKey
    storageBackend := upload.backend
    originalFilename := upload.originalFilename
    sizeBytes := upload.totalSize
    contentType := upload.contentType
    etag := stored.etag
    checksumAlgorithm := (firstText upload.expectedSha256 none).map fun _ => "sha256"
    checksumValue := upload.expectedSha256
    fileFingerprint := upload.fileFingerprint
    uploadId := some upload.id
    metadata := []
    status := .active
    lifecycleMode := columns.mode
    lifecycleAction := lifecycleAction upload.effectiveLifecycle
    lifecycleStatus := .active
    ttlSeconds := columns.ttlSeconds
    expiresAt := columns.expiresAt
    nextActionAt := columns.nextActionAt
    lifecycleSource := lifecycleSource upload.requestedLifecycle
    completedAt := now
    createdAt := now }

/-- The writing half of `complete`. -/
def assemble (identity : Identity) (upload : UploadSession) (parts : List UploadedPart)
    (now : Timestamp) : Handler σ FileObject := do
  UploadRepository.flushUpload upload.id (·.setStatus .completing)
  let stored ← Program.onStore .completeMultipartUpload
    (app.storage.completeMultipartUpload upload.bucket upload.objectKey upload.storageKey parts)
  let id ← newId
  let file := completedFileObject app identity upload id stored now
  FileRepository.insertFile app.settings.database.dialect file
  UploadRepository.flushUpload upload.id (·.setCompleted id)
  return file

/-- The file of a session that was completed before. -/
def completedFile (identity : Identity) (upload : UploadSession) :
    Handler σ (Option FileObject) := do
  if upload.status = .completed then
    match upload.completedFileId with
    | some fileId => FileRepository.getFile fileId identity.tenantId
    | none => return none
  else return none

def complete (identity : Identity) (uploadId : Uuid) (now : Timestamp) : Handler σ FileObject := do
  let some upload ← UploadRepository.getUpload uploadId identity.tenantId true
    | Program.fail (.api (.uploadNotFound uploadId))
  match ← completedFile identity upload with
  | some existing => return existing
  | none =>
    Program.refuseIf (upload.status = .aborted) (.api .uploadAborted)
    Program.refuseIf (upload.status = .expired) (.api .uploadExpired)
    let parts ← partsToComplete app upload
    assemble app identity upload parts now

/-- `except ApiError: pass`. -/
def ignoreApiError : Except Failure Unit → Except Failure Unit
  | .ok () => .ok ()
  | .error failure => if failure.isApiError then .ok () else .error failure

def abort (identity : Identity) (uploadId : Uuid) : Handler σ UploadSession := do
  let some upload ← UploadRepository.getUpload uploadId identity.tenantId true
    | Program.fail (.api (.uploadNotFound uploadId))
  Program.refuseIf (upload.status = .completed) (.api .uploadAlreadyCompleted)
  if upload.status = .aborted ∨ upload.status = .expired then return upload
  let _ ← Program.liftExcept (transitionUpload upload.status .aborting)
  UploadRepository.flushUpload upload.id (·.setStatus .aborting)
  if let some storageUploadId := upload.storageId? then
    let outcome ← Program.tryStore .abortMultipartUpload
      (app.storage.abortMultipartUpload upload.bucket upload.objectKey storageUploadId)
    Program.liftExcept (ignoreApiError outcome)
  UploadRepository.flushUpload upload.id (·.setStatus .aborted)
  return upload.setStatus .aborted

def refresh (identity : Identity) (uploadId : Uuid) (now : Timestamp) :
    Handler σ UploadSession := do
  Program.refuseIf (app.settings.uploads.session.refreshEnabled = false) (.api .refreshDisabled)
  let some upload ← UploadRepository.getUpload uploadId identity.tenantId true
    | Program.fail (.api (.uploadNotFound uploadId))
  Program.refuseIf (upload.status.terminal = true)
    (.api (.uploadStateConflict "Cannot refresh a finished upload session."))
  let lifetime ← SettingService.getSessionExpiry app
  Program.refuseIf
    (upload.createdAt + seconds app.settings.uploads.session.maximumLifetimeSeconds < now)
    (.api .uploadExpired)
  let expiresAt := now + seconds lifetime
  UploadRepository.flushUpload upload.id (·.prolong expiresAt now)
  return upload.prolong expiresAt now

end Requests

end UploadService

end PyUploadX
