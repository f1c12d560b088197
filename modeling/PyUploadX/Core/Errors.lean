import PyUploadX.Kit.FileTree

/-! The structured API errors and the other exceptions a request can end with. -/
namespace PyUploadX

abbrev Uuid := Nat
abbrev Bytes := List UInt8
/-- Microseconds since the epoch. -/
abbrev Timestamp := Int

/-- `timedelta(seconds=…)`. -/
def seconds (count : Int) : Int := count * 1000000

/-- One constructor per `ApiError` class, or per code where the class is used directly. -/
inductive ApiError
  | uploadNotFound (uploadId : Uuid)
  | uploadAlreadyCompleted
  | uploadAborted
  | uploadExpired
  | uploadStateConflict (message : String)
  | invalidPartNumber (partNumber : Int) (maximumParts : Nat)
  | invalidPartSize (sizeBytes : Int) (minimum maximum : Nat)
  | missingParts (missing : List Nat)
  | partEtagMismatch (partNumber : Nat)
  | checksumMismatch
  | objectAlreadyExists (bucket objectKey : String)
  | invalidRelativePath (message : String)
  | invalidLifecyclePolicy (message : String)
  | ttlOutOfRange (ttlSeconds : Int) (minimum maximum : Int)
  | fileUnderLegalHold
  | storageCapabilityNotSupported (capability : String)
  | storageUnavailable (message : String)
  | invalidBucket (bucket : String)
  | invalidBucketName
  | bucketAlreadyExists (name : String)
  | bucketNotDeletable (name : String)
  | bucketNotFound (name : String)
  | bucketNotEmpty (name : String)
  | invalidFileSize
  | fileTooLarge (maximumBytes : Int)
  | tooManyParts (totalParts maximumParts : Nat)
  | invalidUploadMode (mode : String)
  | refreshDisabled
  | fileNotFound (fileId : Uuid)
  | objectNotFound
  | multipartNotFound
  | objectMissing (bucket objectKey : String)
  | rangeNotSatisfiable (message : String)
  | permanentLinkDisabled
  | permanentLinkNotConfigured
  | presignBatchTooLarge (maximum : Nat)
  | directoryUploadDisabled
  | directoryUploadNotFound
  | invalidConflictPolicy (policy : String)
  | tooManyEntries (maximum : Nat)
  | duplicateNormalizedPath (path : String)
  | manifestIncomplete (message : String)
  | manifestHashMismatch (expected actual : String)
  | entryNotFound
  | directoryHasFailedEntries (failed : Nat)
  | invalidSettings (message : String)
  deriving DecidableEq, Repr

namespace ApiError

def code : ApiError → String
  | uploadNotFound _ => "UPLOAD_NOT_FOUND"
  | uploadAlreadyCompleted => "UPLOAD_ALREADY_COMPLETED"
  | uploadAborted => "UPLOAD_ABORTED"
  | uploadExpired => "UPLOAD_EXPIRED"
  | uploadStateConflict _ => "UPLOAD_STATE_CONFLICT"
  | invalidPartNumber _ _ => "INVALID_PART_NUMBER"
  | invalidPartSize _ _ _ => "INVALID_PART_SIZE"
  | missingParts _ => "MISSING_PARTS"
  | partEtagMismatch _ => "PART_ETAG_MISMATCH"
  | checksumMismatch => "CHECKSUM_MISMATCH"
  | objectAlreadyExists _ _ => "OBJECT_ALREADY_EXISTS"
  | invalidRelativePath _ => "INVALID_RELATIVE_PATH"
  | invalidLifecyclePolicy _ => "INVALID_LIFECYCLE_POLICY"
  | ttlOutOfRange _ _ _ => "TTL_OUT_OF_RANGE"
  | fileUnderLegalHold => "FILE_UNDER_LEGAL_HOLD"
  | storageCapabilityNotSupported _ => "STORAGE_CAPABILITY_NOT_SUPPORTED"
  | storageUnavailable _ => "STORAGE_UNAVAILABLE"
  | invalidBucket _ => "INVALID_BUCKET"
  | invalidBucketName => "INVALID_BUCKET_NAME"
  | bucketAlreadyExists _ => "BUCKET_ALREADY_EXISTS"
  | bucketNotDeletable _ => "BUCKET_NOT_DELETABLE"
  | bucketNotFound _ => "BUCKET_NOT_FOUND"
  | bucketNotEmpty _ => "BUCKET_NOT_EMPTY"
  | invalidFileSize => "INVALID_FILE_SIZE"
  | fileTooLarge _ => "FILE_TOO_LARGE"
  | tooManyParts _ _ => "TOO_MANY_PARTS"
  | invalidUploadMode _ => "INVALID_UPLOAD_MODE"
  | refreshDisabled => "REFRESH_DISABLED"
  | fileNotFound _ => "FILE_NOT_FOUND"
  | objectNotFound => "FILE_NOT_FOUND"
  | multipartNotFound => "UPLOAD_NOT_FOUND"
  | objectMissing _ _ => "FILE_NOT_FOUND"
  | rangeNotSatisfiable _ => "RANGE_NOT_SATISFIABLE"
  | permanentLinkDisabled => "PERMANENT_LINK_DISABLED"
  | permanentLinkNotConfigured => "PERMANENT_LINK_NOT_CONFIGURED"
  | presignBatchTooLarge _ => "PRESIGN_BATCH_TOO_LARGE"
  | directoryUploadDisabled => "DIRECTORY_UPLOAD_DISABLED"
  | directoryUploadNotFound => "DIRECTORY_UPLOAD_NOT_FOUND"
  | invalidConflictPolicy _ => "INVALID_CONFLICT_POLICY"
  | tooManyEntries _ => "TOO_MANY_ENTRIES"
  | duplicateNormalizedPath _ => "DUPLICATE_NORMALIZED_PATH"
  | manifestIncomplete _ => "MANIFEST_INCOMPLETE"
  | manifestHashMismatch _ _ => "MANIFEST_HASH_MISMATCH"
  | entryNotFound => "ENTRY_NOT_FOUND"
  | directoryHasFailedEntries _ => "DIRECTORY_HAS_FAILED_ENTRIES"
  | invalidSettings _ => "INVALID_SETTINGS"

def statusCode : ApiError → Nat
  | uploadExpired => 410
  | invalidPartNumber _ _ | invalidPartSize _ _ _ => 400
  | uploadNotFound _ | bucketNotFound _ | fileNotFound _ | objectNotFound | multipartNotFound
  | objectMissing _ _ | directoryUploadNotFound | entryNotFound => 404
  | rangeNotSatisfiable _ => 416
  | invalidRelativePath _ | invalidLifecyclePolicy _ | ttlOutOfRange _ _ _ | invalidBucket _
  | invalidBucketName | invalidFileSize | fileTooLarge _ | tooManyParts _ _
  | invalidUploadMode _ | presignBatchTooLarge _ | invalidConflictPolicy _
  | tooManyEntries _ | invalidSettings _ => 422
  | bucketNotDeletable _ => 403
  | storageCapabilityNotSupported _ | permanentLinkDisabled | permanentLinkNotConfigured => 501
  | storageUnavailable _ => 503
  | _ => 409

def message : ApiError → String
  | uploadNotFound uploadId => s!"Upload {uploadId} does not exist."
  | uploadAlreadyCompleted => "Upload has already been completed."
  | uploadAborted => "Upload has been aborted."
  | uploadExpired => "Upload session has expired."
  | uploadStateConflict message => message
  | invalidPartNumber partNumber maximumParts =>
    s!"Part number {partNumber} is out of range (1..{maximumParts})."
  | invalidPartSize sizeBytes minimum maximum =>
    s!"Part size {sizeBytes} is out of range ({minimum}..{maximum})."
  | missingParts _ => "Upload cannot be completed; parts are missing."
  | partEtagMismatch partNumber => s!"ETag for part {partNumber} does not match storage."
  | checksumMismatch => "Checksum verification failed."
  | objectAlreadyExists bucket objectKey => s!"Object {bucket}/{objectKey} already exists."
  | invalidRelativePath message => message
  | invalidLifecyclePolicy message => message
  | ttlOutOfRange ttlSeconds minimum maximum =>
    s!"TTL {ttlSeconds}s is outside the allowed range ({minimum}s..{maximum}s)."
  | fileUnderLegalHold => "File is under legal hold and cannot be modified or deleted."
  | storageCapabilityNotSupported capability => s!"Storage backend does not support {capability}."
  | storageUnavailable message => message
  | invalidBucket bucket => s!"Bucket '{bucket}' is not allowed."
  | invalidBucketName =>
    "Bucket name must be 3-63 chars of lowercase letters, digits, dots and hyphens."
  | bucketAlreadyExists name => s!"Bucket '{name}' already exists."
  | bucketNotDeletable name => s!"Bucket '{name}' is configured and cannot be deleted."
  | bucketNotFound name => s!"Bucket '{name}' does not exist."
  | bucketNotEmpty name => s!"Bucket '{name}' is not empty."
  | invalidFileSize => "total_size must be non-negative."
  | fileTooLarge maximumBytes => s!"File size exceeds the maximum of {maximumBytes} bytes."
  | tooManyParts totalParts maximumParts =>
    s!"File requires {totalParts} parts; maximum is {maximumParts}."
  | invalidUploadMode mode => s!"Unknown upload mode: {mode}"
  | refreshDisabled => "Session refresh is disabled."
  | fileNotFound fileId => s!"File {fileId} does not exist."
  | objectNotFound => "Object does not exist."
  | multipartNotFound => "Multipart upload does not exist."
  | objectMissing bucket objectKey => s!"Object {bucket}/{objectKey} does not exist."
  | rangeNotSatisfiable message => message
  | permanentLinkDisabled => "Permanent links are disabled."
  | permanentLinkNotConfigured =>
    "Set UPLOAD_PERMANENT_LINK_SECRET to enable permanent links."
  | presignBatchTooLarge maximum => s!"At most {maximum} part URLs per request."
  | directoryUploadDisabled => "Directory upload is disabled."
  | directoryUploadNotFound => "Directory upload job does not exist."
  | invalidConflictPolicy policy => s!"Unknown conflict policy: {policy}"
  | tooManyEntries maximum => s!"At most {maximum} entries per request."
  | duplicateNormalizedPath path => s!"Duplicate normalized path: {path}"
  | manifestIncomplete message => message
  | manifestHashMismatch _ _ => "Manifest hash does not match."
  | entryNotFound => "Directory entry does not exist."
  | directoryHasFailedEntries failed => s!"Directory upload has {failed} failed entries."
  | invalidSettings message => message

def retryable : ApiError → Bool
  | storageUnavailable _ => true
  | _ => false

end ApiError

/-- Everything a request handler can raise. -/
inductive Failure
  | api (error : ApiError)
  /-- A constraint violated at flush. -/
  | integrity
  /-- A value that its column does not take, refused at flush. -/
  | data
  /-- An enum column holds a text outside its enum. -/
  | lookup
  | zeroDivision
  /-- An `OSError` that leaves the local adapter as it is. -/
  | os (errno : Kit.Errno)
  | value (message : String)
  | overflow (message : String)
  /-- The commit did not reach the database. -/
  | connectionLost
  /-- A server-driven loop that has not ended. -/
  | diverged
  deriving DecidableEq, Repr

namespace Failure

def isApiError : Failure → Bool
  | api _ => true
  | _ => false

/-- Every error that is not an `ApiError` reaches the client as an internal error. -/
def statusCode : Failure → Nat
  | .api error => error.statusCode
  | _ => 500

end Failure

end PyUploadX
