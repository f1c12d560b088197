import PyUploadX.Kit.SharedFile
import PyUploadX.Services.PartLedger
import PyUploadX.Storage.Reading

/-! `proxy_upload_part` on the local adapter, with the file of the part opened and written
chunk by chunk. -/
namespace PyUploadX

open Kit UploadService

namespace LocalStorageAdapter

def partFile? (state : LocalState) (uploadId : StorageUploadId) (partNumber : Nat) :
    Option Bytes :=
  (partFiles state uploadId).lookup partNumber

def setPartFile (uploadId : StorageUploadId) (partNumber : Nat) (content : Bytes)
    (state : LocalState) : LocalState :=
  setPartFiles state uploadId ((partFiles state uploadId).insert partNumber content)

def unlinkPart (uploadId : StorageUploadId) (partNumber : Nat) (state : LocalState) : LocalState :=
  setPartFiles state uploadId ((partFiles state uploadId).erase partNumber)

/-- `out.write(chunk)` through a handle that stands at a position of its own, whatever became
of the file meanwhile. -/
def writePart (uploadId : StorageUploadId) (partNumber position : Nat) (chunk : Bytes)
    (state : LocalState) : LocalState :=
  let content := (partFile? state uploadId partNumber).getD []
  setPartFile uploadId partNumber (writeAt 0 content position chunk) state

/-- The copy loop; its handle stands at the count of bytes written. -/
def copyPart (uploadId : StorageUploadId) (partNumber : Nat) :
    List Bytes → Copied → Handler LocalState Copied
  | [], copied => return copied
  | chunk :: rest, copied => do
    Program.act .writePart (writePart uploadId partNumber copied.written chunk)
    copyPart uploadId partNumber rest (copied.write chunk)

/-- The end of `upload_part`, after the copy loop. -/
def finishPart (sha256 : Bytes → String) (uploadId : StorageUploadId) (partNumber sizeBytes : Nat)
    (copied : Copied) : Handler LocalState UploadedPart := do
  if copied.written ≠ sizeBytes then
    Program.act .unlinkPart (unlinkPart uploadId partNumber)
    Program.fail (.value "part size mismatch")
  else
    return {
      partNumber
      etag := sha256 copied.digested
      sizeBytes := copied.written
      checksumSha256 := some (sha256 copied.digested) }

/-- The chunks that the loop reads. -/
def chunksOf (stream : Bytes) : List Bytes := readChunks (stream.length + 1) none stream

/-- `upload_part` on a disk without I/O errors. -/
def uploadPartStepwise (sha256 : Bytes → String) (uploadId : StorageUploadId) (partNumber : Nat)
    (stream : Bytes) (sizeBytes : Nat) : Handler LocalState UploadedPart := do
  Program.act .openPart (setPartFile uploadId partNumber [])
  let copied ← copyPart uploadId partNumber (chunksOf stream) {}
  finishPart sha256 uploadId partNumber sizeBytes copied

theorem chunksOf_flatten (stream : Bytes) : (chunksOf stream).flatten = stream :=
  readChunks_flatten (Nat.lt_succ_self _)

theorem partFile?_setPartFile (uploadId : StorageUploadId) (partNumber : Nat) (content : Bytes)
    (state : LocalState) :
    partFile? (setPartFile uploadId partNumber content state) uploadId partNumber =
      some content := by
  rw [partFile?, setPartFile, partFiles_setPartFiles, if_pos rfl, AList.lookup_insert]

private theorem setPartFile_setPartFile (uploadId : StorageUploadId) (partNumber : Nat)
    (first second : Bytes) (state : LocalState) :
    setPartFile uploadId partNumber second (setPartFile uploadId partNumber first state) =
      setPartFile uploadId partNumber second state := by
  have files : partFiles (setPartFile uploadId partNumber first state) uploadId =
      (partFiles state uploadId).insert partNumber first := by
    rw [setPartFile, partFiles_setPartFiles, if_pos rfl]
  rw [setPartFile, files, AList.insert_insert]
  simp only [setPartFile, setPartFiles, AList.insert_insert]

private theorem unlinkPart_setPartFile (uploadId : StorageUploadId) (partNumber : Nat) (content : Bytes)
    (state : LocalState) :
    unlinkPart uploadId partNumber (setPartFile uploadId partNumber content state) =
      unlinkPart uploadId partNumber state := by
  have files : partFiles (setPartFile uploadId partNumber content state) uploadId =
      (partFiles state uploadId).insert partNumber content := by
    rw [setPartFile, partFiles_setPartFiles, if_pos rfl]
  have erased : ((partFiles state uploadId).insert partNumber content).erase partNumber =
      (partFiles state uploadId).erase partNumber := by
    apply AList.ext
    change List.kerase partNumber ((partFiles state uploadId).insert partNumber content).entries =
      List.kerase partNumber (partFiles state uploadId).entries
    rw [AList.entries_insert]
    apply List.kerase_cons_eq
    rfl
  rw [unlinkPart, files, erased]
  simp only [setPartFile, setPartFiles, AList.insert_insert, unlinkPart]

/-- Alone, the copy loop appends what is left to the file. -/
theorem copyPart_run (uploadId : StorageUploadId) (partNumber : Nat) (chunks : List Bytes)
    (copied : Copied) (counted : copied.written = copied.out.length) (db : Database)
    (state : LocalState) :
    (copyPart uploadId partNumber chunks copied).run db
        (setPartFile uploadId partNumber copied.out state) =
      (.ok (copied.write chunks.flatten, db),
        setPartFile uploadId partNumber (copied.write chunks.flatten).out state) := by
  induction chunks generalizing copied with
  | nil => simp [copyPart, Copied.write]
  | cons chunk rest ih =>
    have next : writePart uploadId partNumber copied.written chunk
        (setPartFile uploadId partNumber copied.out state) =
          setPartFile uploadId partNumber (copied.write chunk).out state := by
      rw [writePart, partFile?_setPartFile, Option.getD_some, setPartFile_setPartFile, counted,
        writeAt_end, Copied.write]
    have counted' : (copied.write chunk).written = (copied.write chunk).out.length := by
      simp [Copied.write, counted]
    have step : (copyPart uploadId partNumber (chunk :: rest) copied).run db
        (setPartFile uploadId partNumber copied.out state) =
          (copyPart uploadId partNumber rest (copied.write chunk)).run db
            (writePart uploadId partNumber copied.written chunk
              (setPartFile uploadId partNumber copied.out state)) := rfl
    rw [step, next, ih _ counted', List.flatten_cons, Copied.write_append]

/-- With nobody else at work, `upload_part` step by step does what it does at once. -/
theorem uploadPartStepwise_run (sha256 : Bytes → String) (uploadId : StorageUploadId)
    (partNumber : Nat) (stream : Bytes) (sizeBytes : Nat) (db : Database) {state : LocalState}
    (quiet : state.faults = []) :
    (uploadPartStepwise sha256 uploadId partNumber stream sizeBytes).run db state =
      (Program.onStore .uploadPart (uploadPart sha256 uploadId partNumber stream sizeBytes) :
        Handler LocalState UploadedPart).run db state := by
  have copies := copyPart_run uploadId partNumber (chunksOf stream) {} rfl db state
  rw [chunksOf_flatten] at copies
  have opens : (uploadPartStepwise sha256 uploadId partNumber stream sizeBytes).run db state =
      (copyPart uploadId partNumber (chunksOf stream) {} >>=
        finishPart sha256 uploadId partNumber sizeBytes).run db
          (setPartFile uploadId partNumber [] state) := rfl
  rw [opens, Program.run_bind_ok copies, Program.run_onStore]
  unfold finishPart uploadPart
  simp only [takeFault_quiet quiet, copyStream_eq]
  by_cases short : (Copied.write {} stream).written = sizeBytes
  · simp only [short, ne_eq, not_true_eq_false, if_false]
    rfl
  · simp only [ne_eq, short, not_false_eq_true, if_true, not_true_eq_false, if_false]
    change (Except.error _, unlinkPart _ _ (setPartFile _ _ _ state)) = _
    rw [unlinkPart_setPartFile]
    rfl

end LocalStorageAdapter

namespace UploadService

variable {σ : Type} (app : AppState σ)

/-- What `proxy_upload_part` does once the storage has taken the part. -/
def recordPart (upload : UploadSession) (partNumber : Nat) (checksumSha256 : Option String)
    (now : Timestamp) (stored : UploadedPart) : Handler σ UploadPart := do
  let part := storedRow upload partNumber stored checksumSha256
  PartRepository.upsertPart part
  UploadRepository.touchActivity upload.id now
  return part

/-- `proxy_upload_part` over any way to store the part. -/
def proxyUploadPartWith (identity : Identity) (uploadId : Uuid) (partNumber : Int)
    (sizeBytes : Nat) (checksumSha256 : Option String) (now : Timestamp)
    (uploadPart : UploadSession → Nat → Handler σ UploadedPart) : Handler σ UploadPart := do
  let upload ← getSession identity uploadId
  Program.liftExcept (ensureActive upload)
  let partNumber ← Program.liftExcept (checkPartNumber upload partNumber)
  Program.liftExcept (checkPartSize app.settings.uploads.multipart.minimumPartSizeBytes upload
    partNumber sizeBytes)
  if upload.status = .initiated then UploadRepository.updateStatus upload.id .uploading
  let stored ← uploadPart upload partNumber
  recordPart upload partNumber checksumSha256 now stored

private theorem proxyUploadPart_eq (identity : Identity) (uploadId : Uuid) (partNumber : Int)
    (stream : Bytes) (sizeBytes : Nat) (checksumSha256 : Option String) (now : Timestamp) :
    proxyUploadPart app identity uploadId partNumber stream sizeBytes checksumSha256 now =
      proxyUploadPartWith app identity uploadId partNumber sizeBytes checksumSha256 now
        fun upload partNumber => Program.onStore .uploadPart
          (app.storage.uploadPart upload.bucket upload.objectKey upload.storageKey partNumber
            stream sizeBytes checksumSha256) := rfl

/-- Two ways to store a part that do the same alone make the same of the whole request. -/
theorem proxyUploadPartWith_congr {identity : Identity} {uploadId : Uuid} {partNumber : Int}
    {sizeBytes : Nat} {checksumSha256 : Option String} {now : Timestamp}
    {first second : UploadSession → Nat → Handler σ UploadedPart} {db : Database} {store : σ}
    (alike : ∀ upload number db, (first upload number).run db store =
      (second upload number).run db store) :
    (proxyUploadPartWith app identity uploadId partNumber sizeBytes checksumSha256 now first).run
        db store =
      (proxyUploadPartWith app identity uploadId partNumber sizeBytes checksumSha256 now
        second).run db store := by
  have bound : ∀ (upload : UploadSession) number db,
      (first upload number >>= recordPart upload number checksumSha256 now).run db store =
        (second upload number >>= recordPart upload number checksumSha256 now).run db store := by
    intro upload number db
    rw [Program.run_bind, alike, Program.run_bind]
  have checked : ∀ {α : Type} (result : Except Failure α) (next next' : α → Handler σ UploadPart),
      (∀ value, (next value).run db store = (next' value).run db store) →
      ((Program.liftExcept result : Handler σ α) >>= next).run db store =
        ((Program.liftExcept result : Handler σ α) >>= next').run db store := by
    intro α result next next' same
    cases result with
    | ok value => exact same value
    | error failure => rfl
  unfold proxyUploadPartWith
  rcases getSession_readOnly (σ := σ) identity uploadId db store with
    ⟨upload, session⟩ | ⟨failure, refused⟩
  · rw [Program.run_bind_ok session, Program.run_bind_ok session]
    refine checked _ _ _ fun _ => checked _ _ _ fun number => checked _ _ _ fun _ => ?_
    dsimp only
    split
    · exact bound upload number _
    · exact bound upload number _
  · rw [Program.run_bind_error refused, Program.run_bind_error refused]

end UploadService

/-- A proxied part of some session. -/
structure PartRequest where
  identity : Identity
  body : Bytes
  checksumSha256 : Option String
  now : Timestamp

/-- The request with its file opened and written chunk by chunk. -/
def PartRequest.program (app : AppState LocalState) (uploadId : Uuid) (partNumber : Int)
    (request : PartRequest) : Handler LocalState UploadPart :=
  proxyUploadPartWith app request.identity uploadId partNumber request.body.length
    request.checksumSha256 request.now fun upload number =>
      LocalStorageAdapter.uploadPartStepwise app.sha256 upload.storageKey number request.body
        request.body.length

/-- Alone, it is `proxy_upload_part`. -/
theorem PartRequest.program_run (settings : Settings) (nfc : String → String)
    (sha256 : Bytes → String) (uploadId : Uuid) (partNumber : Int) (request : PartRequest)
    (db : Database) {store : LocalState} (quiet : store.faults = []) :
    (request.program (localApp settings nfc sha256) uploadId partNumber).run db store =
      (proxyUploadPart (localApp settings nfc sha256) request.identity uploadId partNumber
        request.body request.body.length request.checksumSha256 request.now).run db store := by
  rw [proxyUploadPart_eq]
  apply proxyUploadPartWith_congr
  intro upload number db
  exact LocalStorageAdapter.uploadPartStepwise_run sha256 _ _ _ _ db quiet

end PyUploadX
