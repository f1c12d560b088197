import PyUploadX.Db.Models

/-! The storage adapter protocol, over an arbitrary state of the backend. -/
namespace PyUploadX

structure StorageCapabilities where
  multipart : Bool
  presignedPut : Bool
  presignedGet : Bool
  presignedUploadPart : Bool
  listParts : Bool
  serverSideChecksum : Bool

structure StoredObject where
  bucket : String
  objectKey : ObjectKey
  sizeBytes : Nat
  etag : Option String := none
  contentType : Option String := none

structure UploadedPart where
  partNumber : Nat
  etag : String
  sizeBytes : Int
  checksumSha256 : Option String := none
  deriving DecidableEq, Repr

/-- The request that a presigned URL carries. -/
inductive PresignedRequest
  | putObject (bucket : String) (objectKey : ObjectKey) (contentType : Option String)
  | getObject (bucket : String) (objectKey : ObjectKey)
  | uploadPart (bucket : String) (objectKey : ObjectKey) (storageUploadId : StorageUploadId)
      (partNumber : Nat)
  deriving DecidableEq

structure PresignedUrl where
  request : PresignedRequest
  expiresSeconds : Int
  deriving DecidableEq

/-- The object that a GET of the URL asks for. -/
def PresignedUrl.object? (url : PresignedUrl) : Option (String × ObjectKey) :=
  match url.request with
  | .getObject bucket objectKey => some (bucket, objectKey)
  | .putObject _ _ _ | .uploadPart _ _ _ _ => none

/-- A checksum came with the stream, and it is another one. -/
def Mismatched (sha256 : Bytes → String) (stream : Bytes) (checksumSha256 : Option String) : Prop :=
  checksumSha256 ≠ none ∧ checksumSha256 ≠ some (sha256 stream)

/-- `σ` is everything the backend remembers; a call that fails may have changed it. -/
structure StorageAdapter (σ : Type) where
  backendName : StorageBackend
  /-- `isinstance(storage, LocalStorageAdapter)`. -/
  isLocal : Bool
  capabilities : StorageCapabilities
  createBucket : String → σ → Except Failure Unit × σ
  bucketExists : String → σ → Except Failure Bool
  deleteBucket : String → σ → Except Failure Unit × σ
  putObject (bucket : String) (objectKey : ObjectKey) (stream : Bytes)
    (contentType : Option String) (sizeBytes : Option Nat) (checksumSha256 : Option String) :
    σ → Except Failure StoredObject × σ
  /-- The chunks of the stream, put together. -/
  getObject (bucket : String) (objectKey : ObjectKey) (offset : Nat) (length : Option Nat) :
    σ → Except Failure Bytes
  deleteObject (bucket : String) (objectKey : ObjectKey) : σ → Except Failure Unit × σ
  objectExists (bucket : String) (objectKey : ObjectKey) : σ → Except Failure Bool
  initiateMultipartUpload (bucket : String) (objectKey : ObjectKey)
    (contentType : Option String) (metadata : List (String × String)) :
    σ → Except Failure String × σ
  uploadPart (bucket : String) (objectKey : ObjectKey) (storageUploadId : StorageUploadId)
    (partNumber : Nat) (stream : Bytes) (sizeBytes : Nat) (checksumSha256 : Option String) :
    σ → Except Failure UploadedPart × σ
  listParts (bucket : String) (objectKey : ObjectKey) (storageUploadId : StorageUploadId) :
    σ → Except Failure (List UploadedPart)
  completeMultipartUpload (bucket : String) (objectKey : ObjectKey)
    (storageUploadId : StorageUploadId) (parts : List UploadedPart) :
    σ → Except Failure StoredObject × σ
  abortMultipartUpload (bucket : String) (objectKey : ObjectKey)
    (storageUploadId : StorageUploadId) : σ → Except Failure Unit × σ
  createPresignedPutUrl (bucket : String) (objectKey : ObjectKey) (expiresSeconds : Int)
    (contentType : Option String) : Except Failure PresignedUrl
  createPresignedGetUrl (bucket : String) (objectKey : ObjectKey) (expiresSeconds : Int) :
    Except Failure PresignedUrl
  createPresignedUploadPartUrl (bucket : String) (objectKey : ObjectKey)
    (storageUploadId : StorageUploadId) (partNumber : Nat) (expiresSeconds : Int) :
    Except Failure PresignedUrl

end PyUploadX
