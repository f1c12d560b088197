import Mathlib.Data.List.Sort
import PyUploadX.Storage.Base

/-! The S3 adapter, over whatever client the SDK provides. -/
namespace PyUploadX

inductive S3Error
  | client (code : String)
  | botoCore
  deriving DecidableEq, Repr

structure S3Part where
  partNumber : Nat
  etag : Option String
  size : Option Nat
  deriving DecidableEq, Repr

structure ListPartsPage where
  parts : List S3Part
  isTruncated : Bool
  nextPartNumberMarker : Option Nat

/-- `Range: bytes=start-last`. -/
structure S3Range where
  start : Nat
  last : Option Int

/-- The calls of the boto3 client that the adapter makes. -/
structure S3Client (σ : Type) where
  createBucket : String → σ → Except S3Error Unit × σ
  headBucket : String → σ → Except S3Error Unit
  deleteBucket : String → σ → Except S3Error Unit × σ
  putObject (bucket : String) (key : ObjectKey) (body : Bytes) :
    σ → Except S3Error (Option String) × σ
  getObject (bucket : String) (key : ObjectKey) (range : Option S3Range) : σ → Except S3Error Bytes
  deleteObject (bucket : String) (key : ObjectKey) : σ → Except S3Error Unit × σ
  headObject (bucket : String) (key : ObjectKey) : σ → Except S3Error Unit
  createMultipartUpload (bucket : String) (key : ObjectKey) : σ → Except S3Error String × σ
  uploadPart (bucket : String) (key : ObjectKey) (uploadId : StorageUploadId)
    (partNumber : Nat) (body : Bytes) : σ → Except S3Error (Option String) × σ
  listParts (bucket : String) (key : ObjectKey) (uploadId : StorageUploadId)
    (partNumberMarker : Nat) : σ → Except S3Error ListPartsPage
  completeMultipartUpload (bucket : String) (key : ObjectKey) (uploadId : StorageUploadId)
    (parts : List (Nat × String)) : σ → Except S3Error (Option String) × σ
  abortMultipartUpload (bucket : String) (key : ObjectKey) (uploadId : StorageUploadId) :
    σ → Except S3Error Unit × σ
  /-- Signing either fails or gives the URL of this very request. -/
  generatePresignedUrl (request : PresignedRequest) (expiresIn : Int) : Except S3Error Unit

namespace S3StorageAdapter

/-- `_raise`. -/
def raised : S3Error → Failure
  | .client code =>
    if code = "NoSuchKey" ∨ code = "404" then .api .objectNotFound
    else if code = "NoSuchUpload" then .api .multipartNotFound
    else .api (.storageUnavailable "s3 operation failed")
  | .botoCore => .api (.storageUnavailable "s3 operation failed")

/-- A call whose errors all go through `_raise`. -/
def call {σ α β : Type} (response : Except S3Error α × σ) (result : α → β) : Except Failure β × σ :=
  match response with
  | (.ok value, state) => (.ok (result value), state)
  | (.error error, state) => (.error (raised error), state)

/-- `value.strip('"')`. -/
def stripQuotes (value : String) : String :=
  String.ofList (((value.toList.dropWhile (· == '"')).reverse.dropWhile (· == '"')).reverse)

def etagOf : Option String → Option String
  | some value => if value = "" then none else some (stripQuotes value)
  | none => none

variable {σ : Type} (client : S3Client σ)

def createBucket (bucket : String) (state : σ) : Except Failure Unit × σ :=
  match client.createBucket bucket state with
  | (.error (.client code), state) =>
    if code = "BucketAlreadyExists" ∨ code = "BucketAlreadyOwnedByYou" then
      (.error (.api (.bucketAlreadyExists bucket)), state)
    else (.error (raised (.client code)), state)
  | response => call response id

def bucketExists (bucket : String) (state : σ) : Except Failure Bool :=
  match client.headBucket bucket state with
  | .ok () => .ok true
  | .error (.client code) =>
    if code = "404" ∨ code = "NotFound" ∨ code = "NoSuchBucket" then .ok false
    else .error (raised (.client code))
  | .error error => .error (raised error)

def deleteBucket (bucket : String) (state : σ) : Except Failure Unit × σ :=
  match client.deleteBucket bucket state with
  | (.error (.client code), state) =>
    if code = "BucketNotEmpty" then (.error (.api (.bucketNotEmpty bucket)), state)
    else if code = "404" ∨ code = "NotFound" ∨ code = "NoSuchBucket" then (.ok (), state)
    else (.error (raised (.client code)), state)
  | response => call response id

/-- The checksum is compared after the object has been put. -/
def putObject (sha256 : Bytes → String) (bucket : String) (objectKey : ObjectKey) (stream : Bytes)
    (contentType : Option String) (sizeBytes : Option Nat) (checksumSha256 : Option String)
    (state : σ) : Except Failure StoredObject × σ :=
  match client.putObject bucket objectKey stream state with
  | (.error error, state) => (.error (raised error), state)
  | (.ok etag, state) =>
    if checksumSha256 ≠ none ∧ checksumSha256 ≠ some (sha256 stream) then
      (.error (.api .checksumMismatch), state)
    else
      (.ok {
        bucket, objectKey, contentType
        sizeBytes := sizeBytes.getD 0
        etag := etagOf etag }, state)

/-- The `Range` parameter, which is left out when the whole object is read. -/
def rangeOf (offset : Nat) (length : Option Nat) : Option S3Range :=
  if offset ≠ 0 ∨ length ≠ none then
    some { start := offset, last := length.map fun count : Nat => (offset : Int) + count - 1 }
  else none

/-- An outcome of the client as the adapter reports it. -/
def reported {α : Type} : Except S3Error α → Except Failure α
  | .ok value => .ok value
  | .error error => .error (raised error)

def getObject (bucket : String) (objectKey : ObjectKey) (offset : Nat) (length : Option Nat)
    (state : σ) : Except Failure Bytes :=
  reported (client.getObject bucket objectKey (rangeOf offset length) state)

def deleteObject (bucket : String) (objectKey : ObjectKey) (state : σ) : Except Failure Unit × σ :=
  call (client.deleteObject bucket objectKey state) id

def objectExists (bucket : String) (objectKey : ObjectKey) (state : σ) : Except Failure Bool :=
  match client.headObject bucket objectKey state with
  | .ok () => .ok true
  | .error (.client code) =>
    if code = "404" ∨ code = "NoSuchKey" ∨ code = "NotFound" then .ok false
    else .error (raised (.client code))
  | .error error => .error (raised error)

def uploadPart (bucket : String) (objectKey : ObjectKey) (storageUploadId : StorageUploadId)
    (partNumber : Nat) (stream : Bytes) (sizeBytes : Nat) (checksumSha256 : Option String)
    (state : σ) : Except Failure UploadedPart × σ :=
  call (client.uploadPart bucket objectKey storageUploadId partNumber stream state) fun etag => {
    partNumber, sizeBytes, checksumSha256
    etag := (etagOf etag).getD "" }

def listedPart (part : S3Part) : UploadedPart where
  partNumber := part.partNumber
  etag := (etagOf part.etag).getD ""
  sizeBytes := part.size.getD 0

/-- The loop over the pages of `ListParts`; one unit of fuel per page. -/
def listPages (bucket : String) (objectKey : ObjectKey) (storageUploadId : StorageUploadId)
    (state : σ) : Nat → Nat → List UploadedPart → Except Failure (List UploadedPart)
  | 0, _, _ => .error .diverged
  | fuel + 1, marker, parts =>
    match client.listParts bucket objectKey storageUploadId marker state with
    | .error error => .error (raised error)
    | .ok response =>
      let parts := parts ++ response.parts.map listedPart
      if response.isTruncated then
        listPages bucket objectKey storageUploadId state fuel
          (response.nextPartNumberMarker.getD marker) parts
      else .ok parts

/-- The payload of `CompleteMultipartUpload`, in ascending order of part numbers. -/
def completionPayload (parts : List UploadedPart) : List (Nat × String) :=
  (parts.insertionSort fun first second => first.partNumber ≤ second.partNumber).map fun part =>
    (part.partNumber, "\"" ++ part.etag ++ "\"")

def completeMultipartUpload (bucket : String) (objectKey : ObjectKey)
    (storageUploadId : StorageUploadId) (parts : List UploadedPart) (state : σ) :
    Except Failure StoredObject × σ :=
  call (client.completeMultipartUpload bucket objectKey storageUploadId (completionPayload parts)
    state) fun etag => { bucket, objectKey, sizeBytes := 0, etag := etagOf etag }

/-- `generate_presigned_url`. -/
def presign (request : PresignedRequest) (expiresSeconds : Int) : Except Failure PresignedUrl :=
  match client.generatePresignedUrl request expiresSeconds with
  | .ok () => .ok { request, expiresSeconds }
  | .error error => .error (raised error)

def capabilities : StorageCapabilities where
  multipart := true
  presignedPut := true
  presignedGet := true
  presignedUploadPart := true
  listParts := true
  serverSideChecksum := false

end S3StorageAdapter

open S3StorageAdapter in
/-- `pages` bounds how many pages of a parts listing are followed. -/
def S3StorageAdapter (sha256 : Bytes → String) (pages : Nat) {σ : Type} (client : S3Client σ) :
    StorageAdapter σ where
  backendName := .s3
  isLocal := false
  capabilities := capabilities
  createBucket := createBucket client
  bucketExists := bucketExists client
  deleteBucket := deleteBucket client
  putObject := putObject client sha256
  getObject := getObject client
  deleteObject := deleteObject client
  objectExists := objectExists client
  initiateMultipartUpload := fun bucket objectKey _ _ state =>
    call (client.createMultipartUpload bucket objectKey state) id
  uploadPart := uploadPart client
  listParts := fun bucket objectKey storageUploadId state =>
    listPages client bucket objectKey storageUploadId state pages 0 []
  completeMultipartUpload := completeMultipartUpload client
  abortMultipartUpload := fun bucket objectKey storageUploadId state =>
    call (client.abortMultipartUpload bucket objectKey storageUploadId state) id
  createPresignedPutUrl := fun bucket objectKey expiresSeconds contentType =>
    presign client (.putObject bucket objectKey (contentType.filter (· ≠ ""))) expiresSeconds
  createPresignedGetUrl := fun bucket objectKey => presign client (.getObject bucket objectKey)
  createPresignedUploadPartUrl := fun bucket objectKey storageUploadId partNumber =>
    presign client (.uploadPart bucket objectKey storageUploadId partNumber)

end PyUploadX
