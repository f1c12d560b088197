import PyUploadX.Sdk.Download
import PyUploadX.System.ActiveFiles
import PyUploadX.System.OverriddenSettings
import PyUploadX.System.PermanentLinks

/-! A file from its upload to its download, with other requests in between. -/
namespace PyUploadX

open Kit

/-- An adapter serves what it holds, by ranges too, and a put that is told the size reports
it. -/
structure ServesStored {σ : Type} (adapter : StorageAdapter σ) (view : StoreView σ) : Prop where
  stored : ∀ {store bucket key content}, view.object? store bucket key = some content →
    adapter.stored store bucket key = .ok content
  ranges : adapter.ReadsRanges
  sized : ∀ {bucket key stream contentType size checksum store stored store'},
    adapter.putObject bucket key stream contentType (some size) checksum store =
      (.ok stored, store') → stored.sizeBytes = size

open S3StorageAdapter in
theorem s3ServesStored (sha256 : Bytes → String) (pages : Nat) {σ : Type} {client : S3Client σ}
    {view : StoreView σ} (service : client.CutsRanges) (documented : service.Documented)
    (gets : ∀ {state bucket key content}, view.object? state bucket key = some content →
      client.getObject bucket key none state = .ok content) :
    ServesStored (S3StorageAdapter sha256 pages client) view where
  stored := by
    intro state bucket key content found
    change reported (client.getObject bucket key none state) = .ok content
    rw [gets found]
    rfl
  ranges := s3ReadsRanges sha256 pages service documented
  sized := by
    intro bucket key stream contentType size checksum state stored state' put
    change putObject client sha256 bucket key stream contentType (some size) checksum state = _ at put
    unfold putObject at put
    split at put
    · cases put
    · split at put
      · cases put
      · cases put
        rfl

variable {σ : Type} {app : AppState σ}

/-! What later requests leave of a file. -/

/-- The size of a row is never changed. -/
theorem Change.sizes {asked : Request} {db db' : Database} (change : Change app asked db db')
    {fileId : Uuid} {size : Nat} (old : fileId < db.nextId)
    (sized : ∀ row ∈ db.fileObjects, row.id = fileId → row.sizeBytes = size) :
    ∀ row ∈ db'.fileObjects, row.id = fileId → row.sizeBytes = size := by
  refine change.forall_files (fun kind row kept => ?_) (fun turn row kept => ?_) ?_ sized
  · cases kind <;> exact kept
  · cases turn <;> exact kept
  · intro file fresh named
    exact absurd (named.symm.trans fresh) old.ne

section Uploaded

variable {identity : Identity} {upload : ProxyUpload} {time : Timestamp} {file : FileObject}

variable {before later : List Timed}

end Uploaded

end PyUploadX
