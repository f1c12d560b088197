import PyUploadX.Config.Settings
import PyUploadX.DirectoryUpload.Paths

/-! The tables, and the enum columns. Enum columns are stored as text without
validation, so a lifecycle column can hold a text outside its enum. -/
namespace PyUploadX

inductive UploadMode
  | automatic
  | proxy
  | presigned
  deriving DecidableEq, Repr

inductive UploadStatus
  | initiated
  | uploading
  | completing
  | completed
  | aborting
  | aborted
  | expired
  deriving DecidableEq, Repr

inductive PartStatus
  | pending
  | uploaded
  | committed
  | failed
  deriving DecidableEq, Repr

inductive FileStatus
  | active
  | deleted
  deriving DecidableEq, Repr

inductive LifecycleMode
  | permanent
  | ttl
  | expiresAt
  | temporary
  | slidingTtl
  /-- A stored text that is no member of the enum. -/
  | unlisted (text : String)
  deriving DecidableEq, Repr

inductive LifecycleAction
  | delete
  | notify
  | none
  /-- A stored text that is no member of the enum. -/
  | unlisted (text : String)
  deriving DecidableEq, Repr

inductive LifecycleStatus
  | active
  | expiring
  | expired
  | deleting
  | deleted
  | archiving
  | archived
  | restoring
  deriving DecidableEq, Repr

namespace LifecycleMode

def ofText : String → LifecycleMode
  | "permanent" => permanent
  | "ttl" => ttl
  | "expires_at" => expiresAt
  | "temporary" => temporary
  | "sliding_ttl" => slidingTtl
  | text => unlisted text

def value : LifecycleMode → String
  | permanent => "permanent"
  | ttl => "ttl"
  | expiresAt => "expires_at"
  | temporary => "temporary"
  | slidingTtl => "sliding_ttl"
  | unlisted text => text

/-- `f"{mode}"`: a formatted member is its class and its name. -/
def formatted (mode : LifecycleMode) : String := "LifecycleMode." ++ mode.value

def listed : LifecycleMode → Bool
  | unlisted _ => false
  | _ => true

/-- The texts of the five modes. -/
def texts : List String := ["permanent", "ttl", "expires_at", "temporary", "sliding_ttl"]

theorem value_ofText (text : String) : (ofText text).value = text := by
  unfold ofText
  split <;> rfl

theorem ofText_eq_permanent {text : String} : ofText text = permanent ↔ text = "permanent" := by
  unfold ofText
  split <;> simp_all

end LifecycleMode

namespace LifecycleAction

def ofText : String → LifecycleAction
  | "delete" => delete
  | "notify" => notify
  | "none" => none
  | text => unlisted text

def value : LifecycleAction → String
  | delete => "delete"
  | notify => "notify"
  | none => "none"
  | unlisted text => text

/-- `f"{action}"`. -/
def formatted (action : LifecycleAction) : String := "LifecycleAction." ++ action.value

def listed : LifecycleAction → Bool
  | unlisted _ => false
  | _ => true

theorem value_ofText (text : String) : (ofText text).value = text := by
  unfold ofText
  split <;> rfl

theorem ofText_eq_none {text : String} : ofText text = none ↔ text = "none" := by
  unfold ofText
  split <;> simp_all

end LifecycleAction

inductive DirectorySource
  | sdk
  | portal
  deriving DecidableEq, Repr

inductive DirectoryJobStatus
  | created
  | manifestUploading
  | ready
  | uploading
  | paused
  | finalizing
  | completed
  | cancelling
  | cancelled
  | completedWithErrors
  deriving DecidableEq, Repr

inductive EntryType
  | file
  | directory
  deriving DecidableEq, Repr

inductive EntryStatus
  | pending
  | uploading
  | uploaded
  | skipped
  | failed
  deriving DecidableEq, Repr

inductive ConflictPolicy
  | reject
  | skip
  | overwrite
  | rename
  | compare
  deriving DecidableEq, Repr

/-- What an enum class raises when it is called with a text outside its members. -/
def notAMember (text enum : String) : Failure := .value s!"'{text}' is not a valid {enum}"

def DirectorySource.ofText : String → Except Failure DirectorySource
  | "sdk" => .ok sdk
  | "portal" => .ok portal
  | text => .error (notAMember text "DirectorySource")

def DirectoryJobStatus.value : DirectoryJobStatus → String
  | created => "created"
  | manifestUploading => "manifest_uploading"
  | ready => "ready"
  | uploading => "uploading"
  | paused => "paused"
  | finalizing => "finalizing"
  | completed => "completed"
  | cancelling => "cancelling"
  | cancelled => "cancelled"
  | completedWithErrors => "completed_with_errors"

def EntryType.ofText : String → Except Failure EntryType
  | "file" => .ok file
  | "directory" => .ok directory
  | text => .error (notAMember text "EntryType")

def EntryType.value : EntryType → String
  | file => "file"
  | directory => "directory"

def EntryStatus.ofText : String → Except Failure EntryStatus
  | "pending" => .ok pending
  | "uploading" => .ok uploading
  | "uploaded" => .ok uploaded
  | "skipped" => .ok skipped
  | "failed" => .ok failed
  | text => .error (notAMember text "EntryStatus")

def ConflictPolicy.ofText : String → Except Failure ConflictPolicy
  | "reject" => .ok reject
  | "skip" => .ok skip
  | "overwrite" => .ok overwrite
  | "rename" => .ok rename
  | "compare" => .ok compare
  | text => .error (notAMember text "ConflictPolicy")

structure Identity where
  tenantId : String
  principalId : String
  deriving DecidableEq, Repr

/-- The id a storage backend knows a multipart upload by: `str(upload.id)`, or a
text issued by the service. -/
inductive StorageUploadId
  | session (uploadId : Uuid)
  | issued (text : String)
  deriving DecidableEq, Repr

/-- A JSON object with a client's lifecycle wishes; `{}` is the empty object. -/
structure LifecycleRequest where
  mode : Option String := none
  action : Option String := none
  ttlSeconds : Option Int := none
  /-- The inner `none` is a text that `fromisoformat` rejects. -/
  expiresAt : Option (Option Timestamp) := none
  /-- A member that is null or that nobody reads. -/
  unread : Bool := false
  deriving DecidableEq, Repr

/-- `first or second` for objects: an empty one counts as missing. -/
def orLifecycle (first second : Option LifecycleRequest) : Option LifecycleRequest :=
  if first.getD {} = {} then second else first

structure EffectiveLifecycle where
  mode : String
  action : String
  ttlSeconds : Option Int
  expiresAt : Option Timestamp
  deriving DecidableEq, Repr

inductive LifecycleSource
  | client
  | server
  deriving DecidableEq, Repr

/-- Whether a text column of a length takes a text. PostgreSQL knows no zero character, and beyond
the length it takes nothing but blanks (which it drops, and the rows here keep). -/
def Dialect.takes (dialect : Dialect) (length : Nat) (text : String) : Bool :=
  dialect = .other ||
    text.toList.all (· ≠ Char.ofNat 0) && (text.toList.drop length).all (· = ' ')

/-- Texts from a client, each for a column of a length. The server's own texts (names and policies
of the configuration, normalized keys, digests of the storage) fit theirs. -/
def Dialect.takesAll (dialect : Dialect) (columns : List (Nat × Option String)) : Bool :=
  columns.all fun column => column.2.all (dialect.takes column.1)

/-- Whether a `BigInteger` column takes a number. -/
def bigInteger (value : Int) : Bool :=
  -0x8000000000000000 ≤ value && value < 0x8000000000000000

structure FileObject where
  id : Uuid
  tenantId : String
  principalId : String
  bucket : String
  objectKey : ObjectKey
  storageBackend : StorageBackend
  originalFilename : String
  sizeBytes : Nat
  contentType : Option String
  etag : Option String
  checksumAlgorithm : Option String
  checksumValue : Option String
  fileFingerprint : Option String
  uploadId : Option Uuid
  metadata : List (String × String)
  status : FileStatus
  lifecycleMode : LifecycleMode
  lifecycleAction : LifecycleAction
  lifecycleStatus : LifecycleStatus
  ttlSeconds : Option Int
  expiresAt : Option Timestamp
  nextActionAt : Option Timestamp
  legalHold : Bool := false
  lifecycleSource : LifecycleSource
  deleteAttempts : Nat := 0
  completedAt : Timestamp
  createdAt : Timestamp
  deletedAt : Option Timestamp := none
  deriving DecidableEq

def FileObject.fits (dialect : Dialect) (file : FileObject) : Bool :=
  dialect.takesAll [(1024, some file.originalFilename), (255, file.contentType),
    (128, file.checksumValue), (255, file.fileFingerprint)]

/-- The row reads back as an object: both lifecycle columns name enum members. -/
def FileObject.loadable (file : FileObject) : Bool :=
  file.lifecycleMode.listed && file.lifecycleAction.listed

/-- `file_obj.lifecycle_status = …`. -/
def FileObject.setLifecycleStatus (status : LifecycleStatus) (file : FileObject) : FileObject :=
  { file with lifecycleStatus := status }

structure UploadSession where
  id : Uuid
  tenantId : String
  principalId : String
  backend : StorageBackend
  uploadMode : UploadMode
  bucket : String
  objectKey : ObjectKey
  storageUploadId : Option StorageUploadId
  originalFilename : String
  contentType : Option String
  totalSize : Nat
  partSize : Nat
  totalParts : Nat
  fileFingerprint : Option String
  expectedSha256 : Option String
  status : UploadStatus
  requestedLifecycle : Option LifecycleRequest
  effectiveLifecycle : Option EffectiveLifecycle
  completedFileId : Option Uuid := none
  expiresAt : Timestamp
  lastActivityAt : Timestamp
  createdAt : Timestamp
  deriving DecidableEq

namespace UploadSession

def fits (dialect : Dialect) (upload : UploadSession) : Bool :=
  dialect.takesAll [(1024, some upload.originalFilename), (255, upload.contentType),
    (128, upload.expectedSha256), (255, upload.fileFingerprint)]

def setStatus (status : UploadStatus) (upload : UploadSession) : UploadSession :=
  { upload with status }

def setCompleted (fileId : Uuid) (upload : UploadSession) : UploadSession :=
  { upload with status := .completed, completedFileId := some fileId }

def touch (now : Timestamp) (upload : UploadSession) : UploadSession :=
  { upload with lastActivityAt := now }

def prolong (expiresAt now : Timestamp) (upload : UploadSession) : UploadSession :=
  { upload with expiresAt, lastActivityAt := now }

end UploadSession

structure UploadPart where
  uploadId : Uuid
  partNumber : Nat
  offsetBytes : Nat
  sizeBytes : Int
  etag : Option String
  checksumSha256 : Option String
  status : PartStatus
  deriving DecidableEq, Repr

structure DirectoryUploadJob where
  id : Uuid
  tenantId : String
  principalId : String
  source : DirectorySource
  rootDirectoryName : String
  bucket : String
  destinationPrefix : String
  status : DirectoryJobStatus
  conflictPolicy : ConflictPolicy
  totalEntries : Int := 0
  totalFiles : Int := 0
  totalDirectories : Int := 0
  totalBytes : Int := 0
  uploadedFiles : Int := 0
  uploadedBytes : Int := 0
  failedFiles : Int := 0
  skippedFiles : Int := 0
  manifestHash : Option String := none
  requestedLifecycle : Option LifecycleRequest
  effectiveLifecycle : Option EffectiveLifecycle
  expiresAt : Timestamp
  deriving DecidableEq

def DirectoryUploadJob.fits (dialect : Dialect) (job : DirectoryUploadJob) : Bool :=
  dialect.takesAll [(1024, some job.rootDirectoryName), (1024, some job.destinationPrefix)]

structure DirectoryUploadEntry where
  id : Uuid
  directoryUploadId : Uuid
  entryType : EntryType
  relativePath : String
  normalizedPath : ObjectKey
  objectKey : String
  sizeBytes : Int
  lastModifiedNs : Option Int
  contentType : Option String
  fingerprint : Option String
  fullSha256 : Option String
  uploadId : Option Uuid := none
  fileId : Option Uuid := none
  status : EntryStatus
  errorCode : Option String := none
  errorMessage : Option String := none
  requestedLifecycle : Option LifecycleRequest
  effectiveLifecycle : Option EffectiveLifecycle
  attemptCount : Nat := 0
  deriving DecidableEq

def DirectoryUploadEntry.fits (dialect : Dialect) (entry : DirectoryUploadEntry) : Bool :=
  dialect.takesAll [(1024, some entry.relativePath), (1024, some entry.normalizedPath.text),
    (1024, some entry.objectKey), (255, entry.contentType), (255, entry.fingerprint),
    (128, entry.fullSha256)] && bigInteger entry.sizeBytes && entry.lastModifiedNs.all bigInteger

structure LifecycleEvent where
  tenantId : String
  fileId : Uuid
  eventType : String
  fromStatus : LifecycleStatus
  toStatus : LifecycleStatus
  reason : Option String := none
  deriving DecidableEq, Repr

structure WebhookOutboxMessage where
  tenantId : String
  eventType : String
  fileId : Uuid
  bucket : String
  objectKey : ObjectKey
  action : LifecycleAction
  nextAttemptAt : Timestamp
  deriving DecidableEq

structure StorageBucket where
  tenantId : String
  name : String
  createdBy : String
  deriving DecidableEq, Repr

structure Database where
  fileObjects : List FileObject := []
  uploadSessions : List UploadSession := []
  uploadParts : List UploadPart := []
  directoryUploadJobs : List DirectoryUploadJob := []
  directoryUploadEntries : List DirectoryUploadEntry := []
  lifecycleEvents : List LifecycleEvent := []
  webhookOutbox : List WebhookOutboxMessage := []
  storageBuckets : List StorageBucket := []
  overrides : Overrides := {}
  /-- The next fresh `uuid4()`. -/
  nextId : Uuid := 0

end PyUploadX
