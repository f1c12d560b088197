import PyUploadX.Services.File
import PyUploadX.Services.Lifecycle
import PyUploadX.Services.Upload

/-! The endpoints that only read. -/
namespace PyUploadX

open Kit

inductive ReadRequest
  | getUpload (uploadId : Uuid)
  | listParts (uploadId : Uuid)
  | presignParts (uploadId : Uuid) (partNumbers : List Int) (expiresSeconds : Option Int)
  | listFiles (query : FileRepository.FileQuery)
  | getFile (fileId : Uuid)
  | download (fileId : Uuid) (rangeHeader : Option String)
  | createPermanentLink (fileId : Uuid) (baseUrl : String)
  | presignDownload (fileId : Uuid) (expiresSeconds : Option Int)
  | getLifecycle (fileId : Uuid)
  | presignGet (bucket objectKey : String) (expiresSeconds : Option Int)

inductive ReadReply
  | upload (upload : UploadSession)
  | parts (parts : List UploadPart)
  | partUrls (urls : List (Nat × PresignedUrl))
  | files (items : List FileObject) (total : Nat)
  | file (file : FileObject)
  | content (file : FileObject) (range : Option ByteRange) (content : Bytes)
  | permanentLink (link : FileService.PermanentLink)
  | url (url : PresignedUrl)
  | lifecycle (view : LifecycleService.LifecycleView)
  deriving DecidableEq

variable {σ : Type} (app : AppState σ)

/-- `POST /presign/get`: the bucket is looked up in the configuration, the row of the
object is not looked up at all. -/
def presignGet (bucket objectKey : String) (expiresSeconds : Option Int) :
    Except Failure PresignedUrl :=
  if bucket ∉ app.settings.storage.allowedBuckets then .error (.api (.invalidBucket bucket))
  else do
    let objectKey ← normalizeRelativePath app.nfc 64 1024 objectKey
    app.storage.createPresignedGetUrl bucket objectKey
      (FileService.presignExpiry app.settings.presign expiresSeconds)

def read (identity : Identity) (request : ReadRequest) : Handler σ ReadReply :=
  match request with
  | .getUpload uploadId => do
    return .upload (← UploadService.getSession identity uploadId)
  | .listParts uploadId => do
    return .parts (← UploadService.listCommittedParts identity uploadId)
  | .presignParts uploadId partNumbers expiresSeconds => do
    return .partUrls (← UploadService.presignParts app identity uploadId partNumbers expiresSeconds)
  | .listFiles query => do
    let (items, total) ← FileRepository.listFiles identity.tenantId query
    return .files items total
  | .getFile fileId => do
    return .file (← FileService.get identity fileId)
  | .download fileId rangeHeader => do
    let (file, range, content) ← FileService.download app identity fileId rangeHeader
    return .content file range content
  | .createPermanentLink fileId baseUrl => do
    return .permanentLink (← FileService.createPermanentLink app identity fileId baseUrl)
  | .presignDownload fileId expiresSeconds => do
    return .url (← FileService.presignDownload app identity fileId expiresSeconds)
  | .getLifecycle fileId => do
    return .lifecycle (← LifecycleService.getLifecycle identity fileId)
  | .presignGet bucket objectKey expiresSeconds => do
    return .url (← Program.liftExcept (presignGet app bucket objectKey expiresSeconds))

end PyUploadX
