import PyUploadX.Services.File
import PyUploadX.Services.Upload
import PyUploadX.Storage.Local
import PyUploadX.Storage.MemoryS3

/-! The application over the adapter its settings select (`build_storage`). -/
namespace PyUploadX

/-- The application on `storage.backend: local`. -/
def localApp (settings : Settings) (nfc : String → String) (sha256 : Bytes → String) :
    AppState LocalState where
  settings := settings
  storage := LocalStorageAdapter sha256
  nfc := nfc
  sha256 := sha256

/-- The application on `storage.backend: s3`. -/
def s3App (settings : Settings) (nfc : String → String) (sha256 : Bytes → String) (pages : Nat)
    {σ : Type} (client : S3Client σ) : AppState σ where
  settings := settings
  storage := S3StorageAdapter sha256 pages client
  nfc := nfc
  sha256 := sha256

/-- A configuration with one bucket and parts of at most four bytes. -/
def smallSettings (backend : StorageBackend) : Settings where
  storage := { backend, defaultBucket := "files", allowedBuckets := ["files"] }
  uploads := { multipart := {
    defaultPartSizeBytes := 2, minimumPartSizeBytes := 1, maximumPartSizeBytes := 4 } }

/-- `smallSettings` on disk, for names that are already in normal form. -/
def smallLocalApp : AppState LocalState :=
  localApp (smallSettings .local) id fun content => toString content.length

/-- `smallSettings` on an S3 service with its bucket. -/
def smallS3App : AppState MemoryS3 :=
  s3App (smallSettings .s3) id (fun content => toString content.length) 4
    (MemoryS3.client fun content => toString content.length)

def smallS3 : MemoryS3 := { buckets := ["files"] }

def smallTenant : Identity := ⟨"tenant", "principal"⟩

/-- A client of another tenant, without a file of its own. -/
def strangerTenant : Identity := ⟨"stranger", "principal"⟩

def smallSession : CreateSession where
  bucket := "files"
  objectKey := "a.bin"
  totalSize := 4

def smallUpload : ProxyUpload where
  bucket := "files"
  objectKey := "a.bin"
  stream := [1, 2, 3, 4]

end PyUploadX
