import PyUploadX.Core.Ranges
import PyUploadX.Services.Common

/-! Uploads in one request, downloads, and deletion. -/
namespace PyUploadX

open Kit

structure ProxyUpload where
  bucket : String
  objectKey : String
  originalFilename : String := ""
  contentType : Option String := none
  stream : Bytes
  checksumSha256 : Option String := none
  fileFingerprint : Option String := none
  lifecycle : Option LifecycleRequest := none
  metadata : List (String × String) := []

/-- `size`: the endpoint counts the bytes of the stream before it calls the service. -/
def ProxyUpload.sizeBytes (request : ProxyUpload) : Nat := request.stream.length

namespace FileService

variable {σ : Type} (app : AppState σ)

/-- Every check `proxy_upload` makes before it writes, and the policy it decides on. -/
def validateUpload (identity : Identity) (request : ProxyUpload) (now : Timestamp) :
    Handler σ (ObjectKey × Option EffectiveLifecycle) := do
  validateBucket app identity request.bucket
  let safeKey ← Program.liftExcept (validateObjectKey app request.objectKey)
  let maximumBytes ← SettingService.getMaxFileSize app
  Program.refuseIf (maximumBytes < request.sizeBytes)
    (.api (.fileTooLarge app.settings.uploads.fileSize.maximumBytes))
  refuseExisting app request.bucket safeKey
  let effective ← effectiveLifecycle app request.lifecycle now
  return (safeKey, effective)

def uploadedFileObject (identity : Identity) (request : ProxyUpload) (safeKey : ObjectKey)
    (effective : Option EffectiveLifecycle) (id : Uuid) (stored : StoredObject)
    (now : Timestamp) : FileObject :=
  let columns := lifecycleColumns effective
  { id
    tenantId := identity.tenantId
    principalId := identity.principalId
    bucket := request.bucket
    objectKey := safeKey
    storageBackend := app.storage.backendName
    originalFilename := orText (some request.originalFilename) safeKey.filename
    sizeBytes := stored.sizeBytes
    contentType := request.contentType
    etag := stored.etag
    checksumAlgorithm := (firstText request.checksumSha256 none).map fun _ => "sha256"
    checksumValue := request.checksumSha256
    fileFingerprint := request.fileFingerprint
    uploadId := none
    metadata := request.metadata
    status := .active
    lifecycleMode := columns.mode
    lifecycleAction := lifecycleAction effective
    lifecycleStatus := .active
    ttlSeconds := columns.ttlSeconds
    expiresAt := columns.expiresAt
    nextActionAt := columns.nextActionAt
    lifecycleSource := lifecycleSource request.lifecycle
    completedAt := now
    createdAt := now }

/-- The object is written before its row. -/
def proxyUpload (identity : Identity) (request : ProxyUpload) (now : Timestamp) :
    Handler σ FileObject := do
  let (safeKey, effective) ← validateUpload app identity request now
  let stored ← Program.onStore .putObject
    (app.storage.putObject request.bucket safeKey request.stream request.contentType
      (some request.sizeBytes) request.checksumSha256)
  let id ← newId
  let file := uploadedFileObject app identity request safeKey effective id stored now
  FileRepository.insertFile app.settings.database.dialect file
  return file

def get (identity : Identity) (fileId : Uuid) : Handler σ FileObject := do
  let found ← FileRepository.getFile fileId identity.tenantId
  match found with
  | none => Program.fail (.api (.fileNotFound fileId))
  | some file =>
    Program.refuseIf (file.status = .deleted) (.api (.fileNotFound fileId))
    return file

/-- An empty header counts as missing. -/
def requestedRange (rangeHeader : Option String) (size : Nat) : Except Failure (Option ByteRange) :=
  match firstText rangeHeader none with
  | none => .ok none
  | some header => (parseByteRange header size).map some

def download (identity : Identity) (fileId : Uuid) (rangeHeader : Option String) :
    Handler σ (FileObject × Option ByteRange × Bytes) := do
  let file ← get identity fileId
  let range ← Program.liftExcept (requestedRange rangeHeader file.sizeBytes)
  let content ← Program.askStore .getObject
    (app.storage.getObject file.bucket file.objectKey ((range.map (·.start)).getD 0)
      (range.map (·.length)))
  return (file, range, content)

/-- A download by a permanent link whose token was verified. -/
def downloadForLink (fileId : Uuid) (rangeHeader : Option String) :
    Handler σ (FileObject × Option ByteRange × Bytes) := do
  let found ← FileRepository.getFileOfAnyTenant fileId
  match found with
  | none => Program.fail (.api (.fileNotFound fileId))
  | some file =>
    Program.refuseIf (file.status = .deleted) (.api (.fileNotFound fileId))
    let range ← Program.liftExcept (requestedRange rangeHeader file.sizeBytes)
    let content ← Program.askStore .getObject
      (app.storage.getObject file.bucket file.objectKey ((range.map (·.start)).getD 0)
        (range.map (·.length)))
    return (file, range, content)

/-- The permanent link of a file: the token is `sign(file_id, secret)`. -/
structure PermanentLink where
  baseUrl : String
  fileId : Uuid
  secret : String
  deriving DecidableEq

def createPermanentLink (identity : Identity) (fileId : Uuid) (baseUrl : String) :
    Handler σ PermanentLink := do
  Program.refuseIf (app.settings.permanentLink.enabled = false) (.api .permanentLinkDisabled)
  match firstText app.settings.permanentLink.secret none with
  | none => Program.fail (.api .permanentLinkNotConfigured)
  | some secret =>
    let _ ← get identity fileId
    return { baseUrl, fileId, secret }

/-- `min(expires_seconds or default, maximum)`. -/
def presignExpiry (presign : PresignConfig) (expiresSeconds : Option Int) : Int :=
  min ((orNumber expiresSeconds none).getD presign.defaultExpiresSeconds)
    presign.maximumExpiresSeconds

def presignDownload (identity : Identity) (fileId : Uuid) (expiresSeconds : Option Int) :
    Handler σ PresignedUrl := do
  let file ← get identity fileId
  Program.refuseIf (app.storage.capabilities.presignedGet = false)
    (.api (.storageCapabilityNotSupported "presigned_get"))
  Program.liftExcept (app.storage.createPresignedGetUrl file.bucket file.objectKey
    (presignExpiry app.settings.presign expiresSeconds))

def presignPut (identity : Identity) (bucket objectKey : String) (contentType : Option String)
    (expiresSeconds : Option Int) : Handler σ PresignedUrl := do
  validateBucket app identity bucket
  let safeKey ← Program.liftExcept (validateObjectKey app objectKey)
  Program.refuseIf (app.storage.capabilities.presignedPut = false)
    (.api (.storageCapabilityNotSupported "presigned_put"))
  Program.liftExcept (app.storage.createPresignedPutUrl bucket safeKey
    (presignExpiry app.settings.presign expiresSeconds) contentType)

/-- What an upload answers: the file, and a link that expires where the backend signs one. -/
structure UploadResult where
  file : FileObject
  downloadUrl : Option PresignedUrl
  expiresIn : Option Int
  deriving DecidableEq

def serializeUploadResult (file : FileObject) : Handler σ UploadResult :=
  let unsigned : UploadResult := { file, downloadUrl := none, expiresIn := none }
  if app.storage.capabilities.presignedGet = true then
    let expires := presignExpiry app.settings.presign none
    match app.storage.createPresignedGetUrl file.bucket file.objectKey expires with
    | .ok url => return { file, downloadUrl := some url, expiresIn := some expires }
    | .error (.api (.storageCapabilityNotSupported _)) => return unsigned
    | .error failure => Program.fail failure
  else return unsigned

/-- What `delete` and the lifecycle worker leave of a deleted file. -/
def markDeleted (now : Timestamp) (file : FileObject) : FileObject :=
  { file with status := .deleted, deletedAt := some now, lifecycleStatus := .deleted }

def delete (identity : Identity) (fileId : Uuid) (now : Timestamp) : Handler σ Unit := do
  let found ← FileRepository.getFile fileId identity.tenantId true
  match found with
  | none => Program.fail (.api (.fileNotFound fileId))
  | some file =>
    Program.refuseIf (file.status = .deleted) (.api (.fileNotFound fileId))
    Program.refuseIf (file.legalHold = true) (.api .fileUnderLegalHold)
    Program.onStore (.deleteObject fileId) (app.storage.deleteObject file.bucket file.objectKey)
    FileRepository.flushFile fileId (markDeleted now)

end FileService

end PyUploadX
