import Mathlib.Data.List.Sort
import PyUploadX.Kit.Stream
import PyUploadX.Storage.Base

/-! The adapter over a directory tree. Objects live below the root, part files
below the multipart root; the two are kept apart here. -/
namespace PyUploadX

open Kit

abbrev PartFiles := AList (fun _ : Nat => Bytes)

structure LocalState where
  tree : FileTree String Bytes := FileTree.empty
  staging : AList (fun _ : StorageUploadId => PartFiles) := ∅
  /-- The I/O errors to come, one entry per write or unlink: `some n` fails after
  `n` bytes. When the list is used up, no more errors occur. -/
  faults : List (Option Nat) := []

namespace LocalStorageAdapter

def chunkSize : Nat := 1024 * 1024

/-- What the copy loops accumulate: the digest's input, the count, the file. -/
structure Copied where
  digested : Bytes := []
  written : Nat := 0
  out : Bytes := []
  deriving DecidableEq

def Copied.write (copied : Copied) (chunk : Bytes) : Copied where
  digested := copied.digested ++ chunk
  written := copied.written + chunk.length
  out := copied.out ++ chunk

def copyStream (stream : Bytes) (copied : Copied) : Copied :=
  readLoop chunkSize Copied.write (stream.length + 1) stream copied

theorem copyStream_eq (stream : Bytes) (copied : Copied) :
    copyStream stream copied = copied.write stream := by
  have step : ∀ (seen : Bytes) (state : Copied) (piece : Bytes), state = copied.write seen →
      state.write piece = copied.write (seen ++ piece) := by
    intro seen state piece same
    subst same
    simp [Copied.write, Nat.add_assoc]
  have start : copied = copied.write [] := by simp [Copied.write]
  have positive : 0 < chunkSize := by simp [chunkSize]
  exact readLoop_invariant (fun seen state => state = copied.write seen) positive step
    (Nat.lt_succ_self _) start

/-- `safe_join(root, bucket, *object_key.split("/"))`, relative to the root. -/
def objectPath (bucket : String) (objectKey : ObjectKey) : List String :=
  bucket :: objectKey.segments

/-- `path.with_suffix(path.suffix + ".tmp")`: the last name gets the extra suffix. -/
def temporaryPath : List String → List String
  | [] => []
  | [name] => [name ++ ".tmp"]
  | name :: rest => name :: temporaryPath rest

def takeFault (state : LocalState) : Option Nat × LocalState :=
  match state.faults with
  | [] => (none, state)
  | fault :: rest => (fault, { state with faults := rest })

def partFiles (state : LocalState) (storageUploadId : StorageUploadId) : PartFiles :=
  (state.staging.lookup storageUploadId).getD ∅

def setPartFiles (state : LocalState) (storageUploadId : StorageUploadId) (files : PartFiles) :
    LocalState :=
  { state with staging := state.staging.insert storageUploadId files }

/-- `shutil.rmtree` of the session's staging directory. -/
def dropStaging (state : LocalState) (storageUploadId : StorageUploadId) : LocalState :=
  { state with staging := state.staging.erase storageUploadId }

def createBucket (bucket : String) (state : LocalState) : Except Failure Unit × LocalState :=
  if state.tree.exists? [bucket] then
    (.error (.api (.bucketAlreadyExists bucket)), state)
  else (.ok (), { state with tree := state.tree.set [bucket] .directory })

def bucketExists (bucket : String) (state : LocalState) : Except Failure Bool :=
  .ok (state.tree.isDirectory [bucket])

def deleteBucket (bucket : String) (state : LocalState) : Except Failure Unit × LocalState :=
  if state.tree.isDirectory [bucket] = false then (.ok (), state)
  else if state.tree.hasFileBelow [bucket] then
    (.error (.api (.bucketNotEmpty bucket)), state)
  else (.ok (), { state with tree := state.tree.removeTree [bucket] })

/-- The `except OSError` of `put_object`: the temporary file goes. -/
def abandonWrite (state : LocalState) (tree : FileTree String Bytes) (temporary : List String) :
    Except Failure StoredObject × LocalState :=
  match tree.unlink temporary with
  | .ok tree => (.error (.api (.storageUnavailable "local write failed")), { state with tree })
  | .error errno => (.error (.os errno), { state with tree })

def putObject (sha256 : Bytes → String) (bucket : String) (objectKey : ObjectKey) (stream : Bytes)
    (contentType : Option String) (sizeBytes : Option Nat) (checksumSha256 : Option String)
    (state : LocalState) : Except Failure StoredObject × LocalState :=
  let destination := objectPath bucket objectKey
  let temporary := temporaryPath destination
  let copied := copyStream stream {}
  match state.tree.mkdirParents destination.dropLast with
  | .error errno => (.error (.os errno), state)
  | .ok tree =>
    let (fault, state) := takeFault state
    match tree.writeFile temporary (copied.out.take (fault.getD copied.out.length)) with
    | .error _ => abandonWrite state tree temporary
    | .ok opened =>
      match fault, opened.replace temporary destination with
      | none, .ok replaced =>
        if checksumSha256 ≠ none ∧ checksumSha256 ≠ some (sha256 copied.digested) then
          (.error (.api .checksumMismatch), { state with tree := replaced.remove destination })
        else
          (.ok {
            bucket, objectKey, contentType
            sizeBytes := sizeBytes.getD copied.written
            etag := some (sha256 copied.digested) },
          { state with tree := replaced })
      | _, _ => abandonWrite state opened temporary

def readSize : Option Nat → Nat
  | none => chunkSize
  | some remaining => min chunkSize remaining

/-- The loop of `chunks`: what is read until the length is used up or the file ends. -/
def readChunks : Nat → Option Nat → Bytes → List Bytes
  | 0, _, _ => []
  | fuel + 1, remaining, rest =>
    if remaining = some 0 then []
    else
      let size := readSize remaining
      let chunk := rest.take size
      if chunk = [] then []
      else chunk :: readChunks fuel (remaining.map (· - chunk.length)) (rest.drop size)

def getObject (bucket : String) (objectKey : ObjectKey) (offset : Nat) (length : Option Nat)
    (state : LocalState) : Except Failure Bytes :=
  match state.tree.node? (objectPath bucket objectKey) with
  | none => .error (.api (.objectMissing bucket objectKey.text))
  | some .directory => .error (.os .isDirectory)
  | some (.file content) =>
    .ok (readChunks (content.length + 1) length (content.drop offset)).flatten

def deleteObject (bucket : String) (objectKey : ObjectKey) (state : LocalState) :
    Except Failure Unit × LocalState :=
  let (fault, state) := takeFault state
  match fault, state.tree.unlink (objectPath bucket objectKey) with
  | none, .ok tree => (.ok (), { state with tree })
  | none, .error errno => (.error (.os errno), state)
  | some _, _ => (.error (.os .io), state)

/-- `Path.exists()`, which a directory satisfies as well. -/
def objectExists (bucket : String) (objectKey : ObjectKey) (state : LocalState) :
    Except Failure Bool :=
  .ok (state.tree.exists? (objectPath bucket objectKey))

def uploadPart (sha256 : Bytes → String) (storageUploadId : StorageUploadId) (partNumber : Nat)
    (stream : Bytes) (sizeBytes : Nat) (state : LocalState) :
    Except Failure UploadedPart × LocalState :=
  let copied := copyStream stream {}
  let (fault, state) := takeFault state
  let files := partFiles state storageUploadId
  if fault ≠ none then
    (.error (.api (.storageUnavailable "local part write failed")),
      setPartFiles state storageUploadId (files.erase partNumber))
  else if copied.written ≠ sizeBytes then
    (.error (.value "part size mismatch"),
      setPartFiles state storageUploadId (files.erase partNumber))
  else
    (.ok {
      partNumber
      etag := sha256 copied.digested
      sizeBytes := copied.written
      checksumSha256 := some (sha256 copied.digested) },
    setPartFiles state storageUploadId (files.insert partNumber copied.out))

/-- The part files in the order of their zero-padded names. -/
def listParts (storageUploadId : StorageUploadId) (state : LocalState) :
    Except Failure (List UploadedPart) :=
  let files := partFiles state storageUploadId
  .ok ((files.keys.insertionSort (· ≤ ·)).map fun partNumber => {
    partNumber
    etag := ""
    sizeBytes := ((files.lookup partNumber).getD []).length })

/-- The merge loop; the failure branch holds what was written before a missing part. -/
def mergeParts (files : PartFiles) : List UploadedPart → Copied → Except Copied Copied
  | [], copied => .ok copied
  | part :: rest, copied =>
    match files.lookup part.partNumber with
    | none => .error copied
    | some content => mergeParts files rest (copyStream content copied)

def sortedParts (parts : List UploadedPart) : List UploadedPart :=
  parts.insertionSort fun first second => first.partNumber ≤ second.partNumber

/-- The temporary file stays behind when the merge fails; the staging directory
goes in every case once the temporary file is about to be opened. -/
def completeMultipartUpload (sha256 : Bytes → String) (bucket : String) (objectKey : ObjectKey)
    (storageUploadId : StorageUploadId) (parts : List UploadedPart) (state : LocalState) :
    Except Failure StoredObject × LocalState :=
  let destination := objectPath bucket objectKey
  let temporary := temporaryPath destination
  match state.tree.mkdirParents destination.dropLast with
  | .error errno => (.error (.os errno), state)
  | .ok tree =>
    let (fault, state) := takeFault state
    let merged := mergeParts (partFiles state storageUploadId) (sortedParts parts) {}
    let state := dropStaging state storageUploadId
    let written := match merged with
      | .ok copied => copied.out
      | .error copied => copied.out
    match tree.writeFile temporary (written.take (fault.getD written.length)) with
    | .error errno => (.error (.os errno), { state with tree })
    | .ok opened =>
      match fault, merged with
      | none, .ok copied =>
        match opened.replace temporary destination with
        | .error errno => (.error (.os errno), { state with tree := opened })
        | .ok replaced =>
          (.ok {
            bucket, objectKey
            sizeBytes := copied.written
            etag := some (sha256 copied.digested) },
          { state with tree := replaced })
      | none, .error _ => (.error (.os .noEntry), { state with tree := opened })
      | some _, _ => (.error (.os .io), { state with tree := opened })

def abortMultipartUpload (storageUploadId : StorageUploadId) (state : LocalState) :
    Except Failure Unit × LocalState :=
  (.ok (), dropStaging state storageUploadId)

def capabilities : StorageCapabilities where
  multipart := true
  presignedPut := false
  presignedGet := false
  presignedUploadPart := false
  listParts := true
  serverSideChecksum := true

end LocalStorageAdapter

open LocalStorageAdapter in
/-- `sha256` stands for `hashlib.sha256(…).hexdigest()`. -/
def LocalStorageAdapter (sha256 : Bytes → String) : StorageAdapter LocalState where
  backendName := .local
  isLocal := true
  capabilities := capabilities
  createBucket := createBucket
  bucketExists := bucketExists
  deleteBucket := deleteBucket
  putObject := putObject sha256
  getObject := getObject
  deleteObject := deleteObject
  objectExists := objectExists
  initiateMultipartUpload := fun _ _ _ _ state => (.ok "", state)
  uploadPart := fun _ _ storageUploadId partNumber stream sizeBytes _ =>
    uploadPart sha256 storageUploadId partNumber stream sizeBytes
  listParts := fun _ _ storageUploadId => listParts storageUploadId
  completeMultipartUpload := completeMultipartUpload sha256
  abortMultipartUpload := fun _ _ storageUploadId => abortMultipartUpload storageUploadId
  createPresignedPutUrl := fun _ _ _ _ =>
    .error (.api (.storageCapabilityNotSupported "presigned_put"))
  createPresignedGetUrl := fun _ _ _ =>
    .error (.api (.storageCapabilityNotSupported "presigned_get"))
  createPresignedUploadPartUrl := fun _ _ _ _ _ =>
    .error (.api (.storageCapabilityNotSupported "presigned_upload_part"))

end PyUploadX
