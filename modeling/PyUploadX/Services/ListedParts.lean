import PyUploadX.Services.WholeUpload
import PyUploadX.Storage.PartPages

/-! What completing an upload makes of a listing that S3 hands out in pages. -/
namespace PyUploadX

open Kit UploadService S3StorageAdapter

namespace UploadService

variable {σ : Type} {app : AppState σ}

/-- A listing that contradicts the rows is not handed over. -/
theorem partsToComplete_mismatch {upload : UploadSession} {db : Database} {store : σ}
    {failure : Failure}
    (enough : upload.totalParts ≤ (committedOf (db.partsOf upload.id)).length)
    (refused : (storedParts app upload (committedOf (db.partsOf upload.id))).run db store =
      (.error failure, store)) :
    (partsToComplete app upload).run db store = (.error failure, store) := by
  unfold partsToComplete PartRepository.listPartsForUpload
  rw [Program.run_ask_bind, Program.run_bind_ok (Program.refuseIf_false (by omega) _ _),
    Program.run_bind_error refused]

/-- An open session with enough rows is completed with what is compared with them. -/
theorem complete_compared {identity : Identity} {upload : UploadSession} (now : Timestamp)
    {db : Database} {store : σ} {parts : List UploadedPart}
    (found : db.findUpload upload.id identity.tenantId = some upload)
    (open_ : upload.status = .initiated ∨ upload.status = .uploading)
    (enough : upload.totalParts ≤ (committedOf (db.partsOf upload.id)).length)
    (compared : (storedParts app upload (committedOf (db.partsOf upload.id))).run db store =
      ((etagMismatch (committedOf (db.partsOf upload.id)) parts).elim (.ok (parts, db))
        fun number => .error (.api (.partEtagMismatch number)), store)) :
    (complete app identity upload.id now).run db store =
      (etagMismatch (committedOf (db.partsOf upload.id)) parts).elim
        ((assemble app identity upload parts now).run db store)
        fun number => (.error (.api (.partEtagMismatch number)), store) := by
  have unfinished : upload.status.terminal = false := by
    rcases open_ with status | status <;> rw [status] <;> rfl
  rw [complete_unfinished app now found unfinished store]
  cases verdict : etagMismatch (committedOf (db.partsOf upload.id)) parts with
  | none =>
    rw [verdict] at compared
    rw [Program.run_bind_ok (partsToComplete_run enough compared open_)]
    rfl
  | some number =>
    rw [verdict] at compared
    rw [Program.run_bind_error (partsToComplete_mismatch enough compared)]
    rfl

end UploadService

variable {σ : Type} {client : S3Client σ} {state : σ} {bucket : String} {key : ObjectKey}
  {uploadId : StorageUploadId} {held : List S3Part}

/-- However the server pages the parts it holds, the listing ends with each of them once, in
ascending order; `complete` compares all of them with the rows, and all of them are named
when the object is put together. -/
theorem complete_sees_every_part (settings : Settings) (nfc : String → String)
    (sha256 : Bytes → String) {pages : Nat}
    (server : client.PagesParts state bucket key uploadId held) (enough : held.length < pages) :
    (S3StorageAdapter sha256 pages client).listParts bucket key uploadId state =
        .ok (held.map listedPart) ∧
      ((held.map listedPart).Pairwise fun first second => first.partNumber < second.partNumber) ∧
      (∀ identity upload now db, upload.bucket = bucket → upload.objectKey = key →
        upload.storageId? = some uploadId →
        db.findUpload upload.id identity.tenantId = some upload →
        upload.status = .initiated ∨ upload.status = .uploading →
        upload.totalParts ≤ (committedOf (db.partsOf upload.id)).length →
        (complete (s3App settings nfc sha256 pages client) identity upload.id now).run db state =
          (etagMismatch (committedOf (db.partsOf upload.id)) (held.map listedPart)).elim
            ((assemble (s3App settings nfc sha256 pages client) identity upload
              (held.map listedPart) now).run db state)
            fun number => (.error (.api (.partEtagMismatch number)), state)) ∧
      completionPayload (held.map listedPart) =
        held.map fun part => (part.partNumber, "\"" ++ (etagOf part.etag).getD "" ++ "\"") := by
  have listed := listParts_all sha256 server enough
  have ascending := listed_ascending server.ascending
  refine ⟨listed, ascending, ?_, ?_⟩
  · rintro identity upload now db rfl rfl issued found open_ rows
    exact complete_compared now found open_ rows (storedParts_listed issued rfl rfl listed)
  · rw [completionPayload_ascending ascending, List.map_map]
    rfl

def threeParts : AList fun _ : Nat => Bytes :=
  AList.insert 1 [1, 2] (AList.insert 3 [5] (AList.insert 2 [3, 4] ∅))

/-- An S3 service that has them, with the lengths of the parts as their tags. -/
def threePartS3 : MemoryS3 := { smallS3 with uploads := AList.insert (.issued "u") threeParts ∅ }

def threePartUpload : UploadSession where
  id := 0
  tenantId := "tenant"
  principalId := "principal"
  backend := .s3
  uploadMode := .presigned
  bucket := "files"
  objectKey := ⟨["large.bin"], by decide, by decide⟩
  storageUploadId := some (.issued "u")
  originalFilename := "large.bin"
  contentType := none
  totalSize := 5
  partSize := 2
  totalParts := 3
  fileFingerprint := none
  expectedSha256 := none
  status := .uploading
  requestedLifecycle := none
  effectiveLifecycle := none
  expiresAt := 1
  lastActivityAt := 0
  createdAt := 0

/-- The row of one of its parts. -/
def threePartRow (partNumber : Nat) (etag : String) : UploadPart where
  uploadId := 0
  partNumber
  offsetBytes := 2 * (partNumber - 1)
  sizeBytes := 2
  etag := some etag
  checksumSha256 := none
  status := .committed

/-- The tag of the last part is not the one in the storage. -/
def threePartTables : Database where
  uploadSessions := [threePartUpload]
  uploadParts := [threePartRow 1 "2", threePartRow 2 "2", threePartRow 3 "2"]

theorem complete_sees_part_on_second_page :
    (S3StorageAdapter (fun _ => "") 4
        (MemoryS3.pagingClient (fun content => toString content.length) 2)).listParts "files"
      threePartUpload.objectKey (.issued "u") threePartS3 =
        .ok [⟨1, "2", 2, none⟩, ⟨2, "2", 2, none⟩, ⟨3, "1", 1, none⟩] ∧
      (complete (s3App (smallSettings .s3) id (fun _ => "") 4
          (MemoryS3.pagingClient (fun content => toString content.length) 2)) smallTenant 0 0).run
        threePartTables threePartS3 = (.error (.api (.partEtagMismatch 3)), threePartS3) := by
  have paged := MemoryS3.pagingClient_pagesParts (fun content => toString content.length)
    (by decide : 0 < 2) "files" threePartUpload.objectKey
    (rfl : threePartS3.uploads.lookup (.issued "u") = some threeParts) (by decide)
  obtain ⟨listed, _, completed, _⟩ := complete_sees_every_part (smallSettings .s3) id
    (fun _ => "") paged (by decide : _ < 4)
  refine ⟨listed, ?_⟩
  exact completed smallTenant threePartUpload 0 threePartTables rfl rfl rfl rfl (.inr rfl)
    (by decide)

end PyUploadX
