import PyUploadX.Storage.Factory
import PyUploadX.System.DefaultBucket
import PyUploadX.System.JobGuards
import PyUploadX.System.OverriddenSettings

/-! The entry points that take the name of a bucket, beside the list of the buckets that a tenant
may use. -/
namespace PyUploadX

open Kit

variable {σ : Type}

/-- A request that names a bucket to write to or to read from. -/
inductive BucketUse
  | createSession (request : CreateSession)
  | proxyUpload (request : ProxyUpload)
  | presignPut (bucket objectKey : String) (contentType : Option String)
      (expiresSeconds : Option Int)
  | presignGet (bucket objectKey : String) (expiresSeconds : Option Int)
  | createJob (request : CreateJob)

namespace BucketUse

def bucket : BucketUse → String
  | .createSession request => request.bucket
  | .proxyUpload request => request.bucket
  | .presignPut bucket _ _ _ | .presignGet bucket _ _ => bucket
  | .createJob request => request.bucket

def program (app : AppState σ) (identity : Identity) (now : Timestamp) : BucketUse → Handler σ Unit
  | .createSession request => do
    let _ ← UploadService.createSession app identity request now
  | .proxyUpload request => do
    let _ ← FileService.proxyUpload app identity request now
  | .presignPut bucket objectKey contentType expiresSeconds => do
    let _ ← FileService.presignPut app identity bucket objectKey contentType expiresSeconds
  | .presignGet bucket objectKey expiresSeconds => do
    let _ ← Program.liftExcept (PyUploadX.presignGet app bucket objectKey expiresSeconds)
  | .createJob request => do
    let _ ← DirectoryUploadService.createJob app identity request now

/-- The request is answered with `INVALID_BUCKET`. -/
def Refused (app : AppState σ) (world : World Database σ) (identity : Identity) (now : Timestamp)
    (use : BucketUse) : Prop :=
  (world.execute (use.program app identity now)).1 = .error (.api (.invalidBucket use.bucket))

end BucketUse

def NotBucket (failure : Failure) : Prop := ∀ bucket, failure ≠ .api (.invalidBucket bucket)

def Failure.isInvalidBucket : Failure → Bool
  | .api (.invalidBucket _) => true
  | _ => false

private theorem notBucket_of {failure : Failure} (other : failure.isInvalidBucket = false) :
    NotBucket failure := by
  intro bucket same
  rw [same] at other
  cases other

/-- The backend has no `INVALID_BUCKET` of its own. -/
structure LeavesBuckets (storage : StorageAdapter σ) : Prop where
  objectExists : ∀ bucket key store failure,
    storage.objectExists bucket key store = .error failure → NotBucket failure
  initiateMultipartUpload : ∀ bucket key contentType metadata store failure,
    (storage.initiateMultipartUpload bucket key contentType metadata store).1 = .error failure →
      NotBucket failure
  putObject : ∀ bucket key stream contentType sizeBytes checksum store failure,
    (storage.putObject bucket key stream contentType sizeBytes checksum store).1 =
      .error failure → NotBucket failure
  createPresignedPutUrl : ∀ bucket key expires contentType failure,
    storage.createPresignedPutUrl bucket key expires contentType = .error failure →
      NotBucket failure
  createPresignedGetUrl : ∀ bucket key expires failure,
    storage.createPresignedGetUrl bucket key expires = .error failure → NotBucket failure

section Backends

open LocalStorageAdapter in
private theorem abandonWrite_notBucket {state : LocalState} {tree : FileTree String Bytes}
    {temporary : List String} {failure : Failure}
    (failed : (abandonWrite state tree temporary).1 = .error failure) : NotBucket failure := by
  unfold abandonWrite at failed
  split at failed <;>
  · cases failed
    exact notBucket_of rfl

private theorem localLeavesBuckets (sha256 : Bytes → String) :
    LeavesBuckets (LocalStorageAdapter sha256) where
  objectExists := fun _ _ _ _ failed => by cases failed
  initiateMultipartUpload := fun _ _ _ _ _ _ failed => by cases failed
  putObject := by
    intro bucket key stream contentType sizeBytes checksum state failure failed
    simp only [LocalStorageAdapter, LocalStorageAdapter.putObject] at failed
    split at failed
    · cases failed
      exact notBucket_of rfl
    · split at failed
      · exact abandonWrite_notBucket failed
      · split at failed
        · split at failed <;> cases failed
          exact notBucket_of rfl
        · exact abandonWrite_notBucket failed
  createPresignedPutUrl := fun _ _ _ _ _ failed => by cases failed; exact notBucket_of rfl
  createPresignedGetUrl := fun _ _ _ _ failed => by cases failed; exact notBucket_of rfl

private theorem raised_notBucket (error : S3Error) : NotBucket (S3StorageAdapter.raised error) := by
  cases error with
  | client code =>
    simp only [S3StorageAdapter.raised]
    split_ifs <;> exact notBucket_of rfl
  | botoCore => exact notBucket_of rfl

private theorem presign_notBucket {client : S3Client σ} {request : PresignedRequest} {expires : Int}
    {failure : Failure}
    (failed : S3StorageAdapter.presign client request expires = .error failure) :
    NotBucket failure := by
  unfold S3StorageAdapter.presign at failed
  split at failed
  · cases failed
  · cases failed
    exact raised_notBucket _

private theorem s3LeavesBuckets (sha256 : Bytes → String) (pages : Nat) (client : S3Client σ) :
    LeavesBuckets (S3StorageAdapter sha256 pages client) where
  objectExists := by
    intro bucket key state failure failed
    simp only [S3StorageAdapter, S3StorageAdapter.objectExists] at failed
    split at failed
    · cases failed
    · split at failed <;> cases failed
      exact raised_notBucket _
    · cases failed
      exact raised_notBucket _
  initiateMultipartUpload := by
    intro bucket key contentType metadata state failure failed
    simp only [S3StorageAdapter, S3StorageAdapter.call] at failed
    split at failed <;> cases failed
    exact raised_notBucket _
  putObject := by
    intro bucket key stream contentType sizeBytes checksum state failure failed
    simp only [S3StorageAdapter, S3StorageAdapter.putObject] at failed
    split at failed
    · cases failed
      exact raised_notBucket _
    · split at failed <;> cases failed
      exact notBucket_of rfl
  createPresignedPutUrl := fun _ _ _ _ _ failed => presign_notBucket failed
  createPresignedGetUrl := fun _ _ _ _ failed => presign_notBucket failed

end Backends

section Checks

variable {app : AppState σ} {world : World Database σ} {identity : Identity} {db : Database}
  {bucket : String}

/-- The tenant may use the bucket. -/
def Usable (settings : Settings) (db : Database) (tenantId bucket : String) : Prop :=
  bucket ∈ settings.storage.allowedBuckets ∨ (db.findBucket tenantId bucket).isSome = true

private theorem listed_iff {tenantId : String} :
    bucket ∈ BucketService.listBucketsForTenant app.settings db tenantId ↔
      Usable app.settings db tenantId bucket := by
  unfold BucketService.listBucketsForTenant Usable Database.findBucket
  rw [List.mem_insertionSort, List.mem_dedup, List.mem_append]
  refine or_congr_right ?_
  rw [List.find?_isSome]
  simp [and_assoc]

private theorem execute_refused {α : Type} {program : Handler σ α} {failure : Failure} :
    (world.execute program).1 = .error failure ↔
      (program.run world.db world.store).1 = .error failure := by
  unfold World.execute
  split <;> rename_i ran <;> rw [ran] <;> simp

/-- Where only the first check names a bucket, it decides. -/
theorem validateBucket_refused_iff {α : Type} {next : Unit → Handler σ α}
    (raises : (next ()).Raises NotBucket) :
    (world.execute (validateBucket app identity bucket >>= next)).1 =
        .error (.api (.invalidBucket bucket)) ↔
      ¬ Usable app.settings world.db identity.tenantId bucket := by
  rw [execute_refused]
  constructor
  · intro refused usable
    rw [Program.run_bind, validateBucket_iff.mpr usable] at refused
    exact raises _ _ _ _ (Prod.ext refused rfl) bucket rfl
  · intro unusable
    have unlisted : bucket ∉ app.settings.storage.allowedBuckets := fun member =>
      unusable (.inl member)
    have missing : (world.db.findBucket identity.tenantId bucket).isSome = false :=
      Bool.eq_false_iff.mpr fun there => unusable (.inr there)
    unfold validateBucket BucketService.isBucketAllowed BucketRepository.getByName
    rw [if_neg unlisted, Program.bind_assoc, Program.bind_assoc, Program.run_ask_bind]
    change ((Program.refuseIf ((world.db.findBucket identity.tenantId bucket).isSome = false) _ >>=
      next).run world.db world.store).1 = _
    unfold Program.refuseIf
    rw [if_pos missing]
    rfl

private theorem refuseIf_refused_iff {α : Type} {condition : Prop} [Decidable condition]
    {next : Unit → Handler σ α} (raises : (next ()).Raises NotBucket) :
    (world.execute (Program.refuseIf condition (.api (.invalidBucket bucket)) >>= next)).1 =
        .error (.api (.invalidBucket bucket)) ↔ condition := by
  rw [execute_refused]
  unfold Program.refuseIf
  split
  · rename_i refused
    exact iff_of_true rfl refused
  · rename_i passed
    refine iff_of_false (fun refused => ?_) passed
    exact raises _ _ _ _ (Prod.ext refused rfl) bucket rfl

end Checks

/-! What the other steps of the requests fail with. -/

section Raises

variable {app : AppState σ} {identity : Identity}

private theorem normalizeRelativePath_notBucket {nfc : String → String} {maximumDepth maximumBytes : Nat}
    {rawPath : String} {failure : Failure}
    (failed : normalizeRelativePath nfc maximumDepth maximumBytes rawPath = .error failure) :
    NotBucket failure := by
  obtain ⟨message, rfl⟩ := normalizeRelativePath_error failed
  exact notBucket_of rfl

private theorem effectiveLifecycle_notBucket (requested : Option LifecycleRequest) (base : Timestamp) :
    (effectiveLifecycle app requested base).Raises NotBucket := by
  unfold effectiveLifecycle
  split
  · refine .bind (.ask _) fun _ => .bind (.liftExcept fun failure failed => ?_) fun _ => .pure _
    rcases computeEffectiveLifecycle_error failed with
      ⟨_, rfl⟩ | ⟨_, _, _, rfl⟩ | ⟨_, rfl⟩ | ⟨_, rfl⟩
    · exact notBucket_of rfl
    · exact notBucket_of rfl
    · exact notBucket_of rfl
    · exact notBucket_of rfl
  · exact .pure _

private theorem refuseExisting_notBucket (leaves : LeavesBuckets app.storage) (bucket : String)
    (key : ObjectKey) : (refuseExisting app bucket key).Raises NotBucket := by
  unfold refuseExisting
  split
  · exact .bind (.askStore (leaves.objectExists bucket key)) fun _ => .refuseIf (notBucket_of rfl)
  · exact .pure _

open UploadService

private theorem partLayout_notBucket {multipart : MultipartConfig} {totalSize : Nat} {partSize : Int}
    {failure : Failure} (failed : partLayout multipart totalSize partSize = .error failure) :
    NotBucket failure := by
  unfold partLayout at failed
  split at failed
  · cases failed
    exact notBucket_of rfl
  · split at failed
    · cases failed
      exact notBucket_of rfl
    · dsimp only at failed
      split at failed <;> cases failed
      exact notBucket_of rfl

private theorem chooseMode_notBucket (totalSize : Nat) (uploadMode : String) :
    (chooseMode app totalSize uploadMode).Raises NotBucket := by
  refine .bind (.ask _) fun defaultMode => ?_
  dsimp only
  split
  · refine .bind (.ask _) fun threshold => ?_
    split <;> exact .pure _
  · split
    · exact .pure _
    · split
      · exact .bind (.refuseIf (notBucket_of rfl)) fun _ => .pure _
      · exact .fail (notBucket_of rfl)

private theorem initiateMultipart_notBucket (leaves : LeavesBuckets app.storage) (mode : UploadMode)
    (bucket : String) (key : ObjectKey) (contentType : Option String) :
    (initiateMultipart app identity mode bucket key contentType).Raises NotBucket := by
  unfold initiateMultipart
  split
  · exact .bind (.onStore (leaves.initiateMultipartUpload bucket key contentType _)) fun _ =>
      .pure _
  · exact .pure _

private theorem validateObjectKey_notBucket (objectKey : String) :
    (Program.liftExcept (validateObjectKey app objectKey) : Handler σ ObjectKey).Raises NotBucket :=
  .liftExcept fun _ failed => normalizeRelativePath_notBucket failed

end Raises

/-- The entry point agrees with the list, whether it refuses the bucket or not. -/
def BucketUse.Agrees (settings : Settings) (db : Database) (tenantId : String) : BucketUse → Prop
  | .createSession _ | .proxyUpload _ | .presignPut _ _ _ _ => True
  | .presignGet bucket _ _ =>
    bucket ∈ settings.storage.allowedBuckets ∨ (db.findBucket tenantId bucket).isSome = false
  | .createJob request =>
    if settings.directoryUpload.enabled = true then
      request.bucket ∈ settings.storage.allowedBuckets ∨
        (db.findBucket tenantId request.bucket).isSome = false
    else Usable settings db tenantId request.bucket

section Uses

variable {app : AppState σ} {world : World Database σ} {identity : Identity} {now : Timestamp}

private theorem createSession_refused_iff (leaves : LeavesBuckets app.storage) (request : CreateSession) :
    (BucketUse.createSession request).Refused app world identity now ↔
      ¬ Usable app.settings world.db identity.tenantId request.bucket := by
  unfold BucketUse.Refused BucketUse.program UploadService.createSession
  dsimp only
  rw [Program.bind_assoc]
  refine validateBucket_refused_iff (.bind ?_ fun _ => .pure _)
  refine .bind (validateObjectKey_notBucket _) fun _ => .bind (.ask _) fun _ =>
    .bind (.refuseIf (notBucket_of rfl)) fun _ => .bind (.refuseIf (notBucket_of rfl)) fun _ =>
    .bind (.ask _) fun _ => .bind (.liftExcept fun _ failed => partLayout_notBucket failed) fun _ =>
    .bind (chooseMode_notBucket _ _) fun _ => .bind (refuseExisting_notBucket leaves _ _) fun _ =>
    .bind (effectiveLifecycle_notBucket _ _) fun _ =>
    .bind (initiateMultipart_notBucket leaves _ _ _ _) fun _ => .bind (.ask _) fun _ =>
    .bind (.ask _) fun _ => .bind (.write fun db failure failed => ?_) fun _ => .pure _
  split at failed <;> cases failed
  exact notBucket_of rfl

private theorem proxyUpload_refused_iff (leaves : LeavesBuckets app.storage) (request : ProxyUpload) :
    (BucketUse.proxyUpload request).Refused app world identity now ↔
      ¬ Usable app.settings world.db identity.tenantId request.bucket := by
  unfold BucketUse.Refused BucketUse.program
  dsimp only
  rw [proxyUpload_eq, Program.bind_assoc]
  refine validateBucket_refused_iff (.bind ?_ fun _ => .pure _)
  refine .bind (validateObjectKey_notBucket _) fun safeKey => .bind (.ask _) fun _ =>
    .bind (.refuseIf (notBucket_of rfl)) fun _ => ?_
  refine .bind (refuseExisting_notBucket leaves _ _) fun _ =>
    .bind (effectiveLifecycle_notBucket _ _) fun _ =>
    .bind (.onStore (leaves.putObject _ _ _ _ _ _)) fun _ => .bind (.ask _) fun _ =>
    .bind (.write fun db failure failed => ?_) fun _ => .pure _
  split at failed
  · cases failed
    exact notBucket_of rfl
  split at failed <;> cases failed
  exact notBucket_of rfl

private theorem presignPut_refused_iff (leaves : LeavesBuckets app.storage) (bucket objectKey : String)
    (contentType : Option String) (expiresSeconds : Option Int) :
    (BucketUse.presignPut bucket objectKey contentType expiresSeconds).Refused app world identity
        now ↔ ¬ Usable app.settings world.db identity.tenantId bucket := by
  unfold BucketUse.Refused BucketUse.program FileService.presignPut
  dsimp only
  rw [Program.bind_assoc]
  refine validateBucket_refused_iff (.bind ?_ fun _ => .pure _)
  exact .bind (validateObjectKey_notBucket _) fun _ => .bind (.refuseIf (notBucket_of rfl)) fun _ =>
    .liftExcept fun _ failed => leaves.createPresignedPutUrl _ _ _ _ _ failed

private theorem presignGet_refused_iff (leaves : LeavesBuckets app.storage) (bucket objectKey : String)
    (expiresSeconds : Option Int) :
    (BucketUse.presignGet bucket objectKey expiresSeconds).Refused app world identity now ↔
      bucket ∉ app.settings.storage.allowedBuckets := by
  unfold BucketUse.Refused BucketUse.program PyUploadX.presignGet
  dsimp only
  rw [execute_refused]
  split
  · rename_i unlisted
    exact iff_of_true rfl unlisted
  · rename_i listed
    refine iff_of_false (fun refused => ?_) listed
    have raises : (Program.liftExcept (do
        let objectKey ← normalizeRelativePath app.nfc 64 1024 objectKey
        app.storage.createPresignedGetUrl bucket objectKey
          (FileService.presignExpiry app.settings.presign expiresSeconds)) >>=
          fun _ => pure () : Handler σ Unit).Raises NotBucket := by
      refine .bind (.liftExcept fun failure failed => ?_) fun _ => .pure _
      rcases except_bind_eq_error.mp failed with normalized | ⟨key, _, failed⟩
      · exact normalizeRelativePath_notBucket normalized
      · exact leaves.createPresignedGetUrl _ _ _ _ failed
    exact raises _ _ _ _ (Prod.ext refused rfl) bucket rfl

private theorem createJob_refused_iff (request : CreateJob) :
    (BucketUse.createJob request).Refused app world identity now ↔
      app.settings.directoryUpload.enabled = true ∧
        request.bucket ∉ app.settings.storage.allowedBuckets := by
  unfold BucketUse.Refused BucketUse.program DirectoryUploadService.createJob
  dsimp only
  rw [Program.bind_assoc]
  by_cases enabled : app.settings.directoryUpload.enabled = true
  · have started : Program.refuseIf (app.settings.directoryUpload.enabled = false)
        (.api .directoryUploadDisabled) = (pure () : Handler σ Unit) :=
      if_neg (by rw [enabled]; exact nofun)
    rw [started]
    change (world.execute ((Program.refuseIf
      (request.bucket ∉ app.settings.storage.allowedBuckets) _ >>= _) >>= _)).1 = _ ↔ _
    rw [Program.bind_assoc]
    refine (refuseIf_refused_iff (.bind ?_ fun _ => .pure _)).trans (and_iff_right enabled).symm
    refine .bind (.refuseIf (notBucket_of rfl)) fun _ => .bind (.liftExcept fun failure failed => ?_)
      fun _ => .bind (effectiveLifecycle_notBucket _ _) fun _ =>
      .bind (.liftExcept fun failure failed => ?_) fun _ =>
      .bind (.liftExcept fun failure failed => ?_) fun _ => .bind (.ask _) fun _ =>
      .bind (.ask _) fun _ => .bind (.write fun _ failure failed => ?_) fun _ => .pure _
    · split at failed
      · cases failed
      · cases normalized : normalizeRelativePath app.nfc 64 1024
          (stripSlashes request.destinationPrefix) with
        | error raised =>
          rw [normalized] at failed
          cases failed
          exact normalizeRelativePath_notBucket normalized
        | ok key =>
          rw [normalized] at failed
          cases failed
    · unfold DirectorySource.ofText at failed
      split at failed <;> cases failed
      exact notBucket_of rfl
    · unfold ConflictPolicy.ofText at failed
      split at failed <;> cases failed
      exact notBucket_of rfl
    · split at failed <;> cases failed
      exact notBucket_of rfl
  · refine iff_of_false (fun refused => ?_) fun both => enabled both.1
    have disabled : app.settings.directoryUpload.enabled = false := Bool.eq_false_iff.mpr enabled
    have stopped : Program.refuseIf (app.settings.directoryUpload.enabled = false)
        (.api .directoryUploadDisabled) = (Program.fail (.api .directoryUploadDisabled) :
          Handler σ Unit) := if_pos disabled
    rw [stopped] at refused
    cases refused

/-- An entry point refuses what is not listed, and nothing else, exactly where it agrees. -/
theorem agrees_iff (leaves : LeavesBuckets app.storage) (use : BucketUse) :
    (use.Refused app world identity now ↔
      use.bucket ∉ BucketService.listBucketsForTenant app.settings world.db identity.tenantId) ↔
      use.Agrees app.settings world.db identity.tenantId := by
  rw [listed_iff]
  cases use with
  | createSession request => exact iff_of_true (createSession_refused_iff leaves request) trivial
  | proxyUpload request => exact iff_of_true (proxyUpload_refused_iff leaves request) trivial
  | presignPut bucket objectKey contentType expiresSeconds =>
    exact iff_of_true (presignPut_refused_iff leaves _ _ _ _) trivial
  | presignGet bucket objectKey expiresSeconds =>
    rw [presignGet_refused_iff leaves]
    simp only [BucketUse.bucket, BucketUse.Agrees, Usable]
    grind
  | createJob request =>
    rw [createJob_refused_iff]
    simp only [BucketUse.bucket, BucketUse.Agrees, Usable]
    grind

end Uses

/-- On either adapter, in whatever state a run of requests leaves the records: an entry point
refuses exactly the buckets that are not listed for the tenant if and only if it agrees with the
list on this one. -/
theorem bucket_checks_agree_iff (settings : Settings) (nfc : String → String)
    (sha256 : Bytes → String) (requests : List Timed) (identity : Identity) (use : BucketUse)
    (now : Timestamp) :
    (∀ world : World Database LocalState,
      let app := localApp settings nfc sha256
      let reached := after app world requests
      (use.Refused app reached identity now ↔
        use.bucket ∉ BucketService.listBucketsForTenant settings reached.db identity.tenantId) ↔
        use.Agrees settings reached.db identity.tenantId) ∧
    ∀ (pages : Nat) {σ : Type} (client : S3Client σ) (world : World Database σ),
      let app := s3App settings nfc sha256 pages client
      let reached := after app world requests
      (use.Refused app reached identity now ↔
        use.bucket ∉ BucketService.listBucketsForTenant settings reached.db identity.tenantId) ↔
        use.Agrees settings reached.db identity.tenantId :=
  ⟨fun _ => @agrees_iff _ (localApp settings nfc sha256) _ identity now
      (localLeavesBuckets sha256) use,
    fun pages _ client _ => @agrees_iff _ (s3App settings nfc sha256 pages client) _ identity now
      (s3LeavesBuckets sha256 pages client) use⟩

/-- A tenant is listed a bucket it has created, and refused a link to an object in it. -/
theorem created_bucket_is_refused :
    ¬ ∀ (requests : List Timed) (identity : Identity) (use : BucketUse) (now : Timestamp),
      use.Refused smallS3App (after smallS3App ⟨{}, smallS3⟩ requests) identity now ↔
        use.bucket ∉ BucketService.listBucketsForTenant smallS3App.settings
          (after smallS3App ⟨{}, smallS3⟩ requests).db identity.tenantId := by
  intro agree
  have leaves : LeavesBuckets smallS3App.storage := s3LeavesBuckets _ 4 _
  have recorded : ((after smallS3App ⟨{}, smallS3⟩ teamCreated).db.findBucket
      smallTenant.tenantId "team").isSome = true := by decide
  have refused : (BucketUse.presignGet "team" "a.bin" none).Refused smallS3App
      (after smallS3App ⟨{}, smallS3⟩ teamCreated) smallTenant 0 :=
    (presignGet_refused_iff leaves "team" "a.bin" none).mpr (by decide)
  exact (agree teamCreated smallTenant (.presignGet "team" "a.bin" none) 0).mp refused
    (listed_iff.mpr (.inr recorded))

end PyUploadX
