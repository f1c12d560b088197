import PyUploadX.Kit.Mirror
import PyUploadX.Services.DirectoryUpload
import PyUploadX.Services.File
import PyUploadX.Services.Lifecycle
import PyUploadX.Services.SettingUpdate
import PyUploadX.Services.Upload
import PyUploadX.Storage.Factory
import PyUploadX.System.BucketRecords

/-! A server with overrides beside one whose configuration has the overridden values. -/
namespace PyUploadX

open Kit SettingService

/-- The configuration with the overridden values written into it. -/
def Settings.overridden (settings : Settings) (overrides : Overrides) : Settings :=
  let effective := getEffective settings overrides
  { settings with
    storage := { settings.storage with defaultBucket := effective.defaultBucket }
    presign := { settings.presign with defaultExpiresSeconds := effective.presignDefaultSeconds }
    uploads := { settings.uploads with
      defaultMode := effective.defaultMode
      directUploadThresholdBytes := effective.directThreshold
      multipart := { settings.uploads.multipart with
        defaultPartSizeBytes := effective.defaultPartSize }
      session := { settings.uploads.session with expiresAfterSeconds := effective.sessionExpiry }
      fileSize := { settings.uploads.fileSize with maximumBytes := effective.maxFileSize } }
    lifecycle := { settings.lifecycle with defaultPolicy := effective.lifecycleDefault } }

/-- Without overrides it has the effective values of the other. -/
theorem getEffective_overridden (settings : Settings) (overrides : Overrides) :
    getEffective (settings.overridden overrides) {} = getEffective settings overrides := rfl

def AppState.configured {σ : Type} (app : AppState σ) (overrides : Overrides) : AppState σ :=
  { app with settings := app.settings.overridden overrides }

/-- The database with these overrides. -/
def Database.overriddenBy (overrides : Overrides) (db : Database) : Database := { db with overrides }

variable {σ : Type} (app : AppState σ) (overrides : Overrides)

/-- The two servers mirror each other: one reads overrides, one its configuration. -/
abbrev Consistent {α : Type} (handler : AppState σ → Handler σ α) : Prop :=
  Mirrors (Database.overriddenBy overrides) (Database.overriddenBy {}) (handler app)
    (handler (app.configured overrides))

section Readers

variable {app overrides}

private theorem getDefaultMode_consistent : Consistent app overrides getDefaultMode := by
  unfold Consistent
  rw [getDefaultMode_eq, getDefaultMode_eq]
  exact .ask fun db => rfl

private theorem validateBucket_consistent (identity : Identity) (bucket : String) :
    Consistent app overrides (validateBucket · identity bucket) := by
  change Mirrors _ _ (validateBucket app identity bucket) (validateBucket app identity bucket)
  unfold validateBucket BucketService.isBucketAllowed
  refine .bind ?_ fun allowed => .refuseIf _ _
  split
  · exact .pure _
  · exact .bind (.ask fun db => rfl) fun existing => .pure _

private theorem refuseExisting_consistent (bucket : String) (objectKey : ObjectKey) :
    Consistent app overrides (refuseExisting · bucket objectKey) := by
  change Mirrors _ _ (refuseExisting app bucket objectKey) (refuseExisting app bucket objectKey)
  unfold refuseExisting
  split
  · exact .bind (.askStore _ _) fun stored => .refuseIf _ _
  · exact .pure _

private theorem effectiveLifecycle_consistent (requested : Option LifecycleRequest) (base : Timestamp) :
    Consistent app overrides (effectiveLifecycle · requested base) := by
  change Mirrors _ _ (effectiveLifecycle app requested base)
    (effectiveLifecycle (app.configured overrides) requested base)
  unfold effectiveLifecycle
  by_cases enabled : app.settings.lifecycle.enabled = true
  · have enabled' : (app.configured overrides).settings.lifecycle.enabled = true := enabled
    rw [if_pos enabled, if_pos enabled']
    refine .bind (.ask fun db => rfl) fun default => ?_
    exact .bind (.liftExcept _) fun effective => .pure _
  · have disabled : ¬ (app.configured overrides).settings.lifecycle.enabled = true := enabled
    rw [if_neg enabled, if_neg disabled]
    exact .pure _

private theorem chooseMode_consistent (totalSize : Nat) (uploadMode : String) :
    Consistent app overrides (UploadService.chooseMode · totalSize uploadMode) := by
  refine .bind getDefaultMode_consistent fun defaultMode => ?_
  dsimp only
  split
  · refine .bind (.ask fun db => rfl) fun threshold => ?_
    by_cases large : app.settings.uploads.multipart.enabled = true ∧ threshold < totalSize
    · have large' : (app.configured overrides).settings.uploads.multipart.enabled = true ∧
          threshold < totalSize := large
      rw [if_pos large, if_pos large']
      exact .pure _
    · have small : ¬ ((app.configured overrides).settings.uploads.multipart.enabled = true ∧
          threshold < totalSize) := large
      rw [if_neg large, if_neg small]
      exact .pure _
  · split
    · exact .pure _
    · split
      · exact .bind (.refuseIf _ _) fun _ => .pure _
      · exact .fail _

private theorem initiateMultipart_consistent (identity : Identity) (mode : UploadMode) (bucket : String)
    (objectKey : ObjectKey) (contentType : Option String) :
    Consistent app overrides
      (UploadService.initiateMultipart · identity mode bucket objectKey contentType) := by
  change Mirrors _ _ (UploadService.initiateMultipart app identity mode bucket objectKey contentType)
    (UploadService.initiateMultipart app identity mode bucket objectKey contentType)
  unfold UploadService.initiateMultipart
  split
  · exact .bind (.onStore _ _) fun issued => .pure _
  · exact .pure _

/-- Every reader of `create_session` reads the effective value. -/
theorem createSession_consistent (identity : Identity) (request : CreateSession) (now : Timestamp) :
    Consistent app overrides (UploadService.createSession · identity request now) := by
  refine .bind (validateBucket_consistent identity request.bucket) fun _ => ?_
  refine .bind (.liftExcept (validateObjectKey app request.objectKey)) fun safeKey => ?_
  refine .bind (.ask fun db => rfl) fun maximumBytes => ?_
  refine .bind (.refuseIf _ _) fun _ => .bind (.refuseIf _ _) fun _ => ?_
  refine .bind (.ask fun db => rfl) fun defaultPartSize => ?_
  refine .bind (.liftExcept _) fun layout => .bind (chooseMode_consistent _ _) fun mode => ?_
  refine .bind (refuseExisting_consistent _ _) fun _ => ?_
  refine .bind (effectiveLifecycle_consistent _ _) fun effective => ?_
  refine .bind (initiateMultipart_consistent _ _ _ _ _) fun storageUploadId => ?_
  refine .bind (.ask fun db => rfl) fun lifetime => .bind (.ask fun db => rfl) fun id => ?_
  refine .bind (.write (fun db => rfl) fun db change stated => ?_) fun _ => .pure _
  split at stated
  · cases stated
    exact ⟨rfl, rfl⟩
  · cases stated

private theorem createJob_consistent (identity : Identity) (request : CreateJob) (now : Timestamp) :
    Consistent app overrides (DirectoryUploadService.createJob · identity request now) := by
  refine .bind (.refuseIf _ _) fun _ => .bind (.refuseIf _ _) fun _ => ?_
  refine .bind (.refuseIf _ _) fun _ => .bind (.liftExcept _) fun _ => ?_
  refine .bind (effectiveLifecycle_consistent _ _) fun effective => ?_
  refine .bind (.liftExcept _) fun source => .bind (.liftExcept _) fun conflictPolicy => ?_
  refine .bind (.ask fun db => rfl) fun lifetime => .bind (.ask fun db => rfl) fun id => ?_
  refine .bind (.write (fun db => rfl) fun db change stated => ?_) fun _ => .pure _
  split at stated
  · cases stated
    exact ⟨rfl, rfl⟩
  · cases stated

end Readers

/-- A backend that signs URLs signs any, for as long as it is asked to. -/
structure Signs (storage : StorageAdapter σ) : Prop where
  get : storage.capabilities.presignedGet = true → ∀ bucket objectKey, ∃ request, ∀ expiresSeconds,
    storage.createPresignedGetUrl bucket objectKey expiresSeconds = .ok ⟨request, expiresSeconds⟩
  put : storage.capabilities.presignedPut = true → ∀ bucket objectKey contentType, ∃ request,
    ∀ expiresSeconds, storage.createPresignedPutUrl bucket objectKey expiresSeconds contentType =
      .ok ⟨request, expiresSeconds⟩

/-- The row that a request of the tenant reads. -/
def Database.Reads (db : Database) (identity : Identity) (fileId : Uuid) (file : FileObject) :
    Prop :=
  db.findFile fileId identity.tenantId = some file ∧ file.loadable = true

/-- Both defaults give a URL the same time. -/
def SameExpiry (expiresSeconds : Option Int) : Prop :=
  FileService.presignExpiry app.settings.presign expiresSeconds =
    FileService.presignExpiry (app.configured overrides).settings.presign expiresSeconds

/-- The configured default and the effective one are adjudicated alike. -/
def SamePolicy (requested : LifecycleRequest) (completedAt : Timestamp) : Prop :=
  LifecycleService.effective app requested completedAt =
    LifecycleService.effective (app.configured overrides) requested completedAt

/-- The requests whose answers the writable settings decide. -/
inductive SettingsReader
  | proxyUpload (identity : Identity) (request : ProxyUpload)
  | createSession (identity : Identity) (request : CreateSession)
  | createJob (identity : Identity) (request : CreateJob)
  | presignDownload (identity : Identity) (fileId : Uuid) (expiresSeconds : Option Int)
  | presignPut (identity : Identity) (bucket objectKey : String) (contentType : Option String)
      (expiresSeconds : Option Int)
  | uploadResult (file : FileObject)
  | updateLifecycle (identity : Identity) (fileId : Uuid) (requested : LifecycleRequest)
  | extend (identity : Identity) (fileId : Uuid) (extendSeconds : Int)

/-- Both servers answer the request alike and commit the same rows. -/
def SettingsReader.Alike (world : World Database σ) (now : Timestamp) : SettingsReader → Prop :=
  let alike := fun {α : Type} (handler : AppState σ → Handler σ α) =>
    AnswersAlike (Database.overriddenBy overrides) (Database.overriddenBy {}) (handler app)
      (handler (app.configured overrides)) world
  fun
  | .proxyUpload identity request => alike (FileService.proxyUpload · identity request now)
  | .createSession identity request => alike (UploadService.createSession · identity request now)
  | .createJob identity request => alike (DirectoryUploadService.createJob · identity request now)
  | .presignDownload identity fileId expiresSeconds =>
    alike (FileService.presignDownload · identity fileId expiresSeconds)
  | .presignPut identity bucket objectKey contentType expiresSeconds =>
    alike (FileService.presignPut · identity bucket objectKey contentType expiresSeconds)
  | .uploadResult file => alike (FileService.serializeUploadResult · file)
  | .updateLifecycle identity fileId requested =>
    alike (LifecycleService.updateLifecycle · identity fileId requested)
  | .extend identity fileId extendSeconds =>
    alike (LifecycleService.extend · identity fileId extendSeconds now)

/-- The request gets as far as a value of the configuration that is overridden by another:
the maximum in the message of a file that is too large, the default of an expiry, the
default policy of a change of lifecycle. -/
def SettingsReader.ReadsStatic (db : Database) (now : Timestamp) : SettingsReader → Prop
  | .proxyUpload identity request =>
    let maximumBytes := (getEffective app.settings overrides).maxFileSize
    (request.bucket ∈ app.settings.storage.allowedBuckets ∨
      (db.findBucket identity.tenantId request.bucket).isSome = true) ∧
    (validateObjectKey app request.objectKey).isOk = true ∧
    maximumBytes < request.sizeBytes ∧ app.settings.uploads.fileSize.maximumBytes ≠ maximumBytes
  | .createSession _ _ | .createJob _ _ => False
  | .presignDownload identity fileId expiresSeconds =>
    (∃ file, db.Reads identity fileId file ∧ file.status ≠ .deleted) ∧
    app.storage.capabilities.presignedGet = true ∧ ¬ SameExpiry app overrides expiresSeconds
  | .presignPut identity bucket objectKey _ expiresSeconds =>
    (bucket ∈ app.settings.storage.allowedBuckets ∨
      (db.findBucket identity.tenantId bucket).isSome = true) ∧
    (validateObjectKey app objectKey).isOk = true ∧
    app.storage.capabilities.presignedPut = true ∧ ¬ SameExpiry app overrides expiresSeconds
  | .uploadResult _ =>
    app.storage.capabilities.presignedGet = true ∧ ¬ SameExpiry app overrides none
  | .updateLifecycle identity fileId requested =>
    ∃ file, db.Reads identity fileId file ∧ file.legalHold = false ∧
      ¬ SamePolicy app overrides requested file.completedAt
  | .extend identity fileId extendSeconds =>
    ∃ file, db.Reads identity fileId file ∧
      (file.lifecycleMode ≠ .permanent ∧ file.lifecycleMode ≠ .expiresAt) ∧ 0 < extendSeconds ∧
      inCalendar (extendedTo file extendSeconds now) = true ∧
      ¬ SamePolicy app overrides (extensionRequest file extendSeconds now)
        file.completedAt

section Parting

variable {app overrides} {world : World Database σ} {now : Timestamp} {identity : Identity}
  {fileId : Uuid}

private theorem loadFile_some {found : Option FileObject} {file : FileObject} :
    FileRepository.loadFile found = .ok (some file) ↔ found = some file ∧ file.loadable = true := by
  constructor
  · intro read
    obtain ⟨rfl, loads⟩ := FileRepository.loadFile_ok read
    exact ⟨rfl, loads file rfl⟩
  · rintro ⟨rfl, loads⟩
    exact if_pos loads

private theorem lockFile_consistent :
    Mirrors (Database.overriddenBy overrides) (Database.overriddenBy {})
      (LifecycleService.lockFile identity fileId : Handler σ FileObject)
      (LifecycleService.lockFile identity fileId) := by
  refine .bind (.select fun db => rfl) fun found => ?_
  cases found with
  | none => exact .fail _
  | some file => exact .pure _

private theorem lockFile_iff {file : FileObject} {db : Database} {store : σ} :
    (LifecycleService.lockFile identity fileId : Handler σ FileObject).run db store =
      (.ok (file, db), store) ↔ db.Reads identity fileId file := by
  constructor
  · intro found
    obtain ⟨present, loads, _⟩ := lockFile_ok found
    exact ⟨present, loads⟩
  · intro reads
    unfold LifecycleService.lockFile FileRepository.getFile
    rw [Program.select_bind_ok]
    exact ⟨some file, loadFile_some.mpr reads, rfl⟩

private theorem get_consistent :
    Mirrors (Database.overriddenBy overrides) (Database.overriddenBy {})
      (FileService.get identity fileId : Handler σ FileObject) (FileService.get identity fileId) := by
  refine .bind (.select fun db => rfl) fun found => ?_
  cases found with
  | none => exact .fail _
  | some file => exact .bind (.refuseIf _ _) fun _ => .pure _

theorem get_iff {file : FileObject} {db : Database} {store : σ} :
    (FileService.get identity fileId : Handler σ FileObject).run db store =
      (.ok (file, db), store) ↔ db.Reads identity fileId file ∧ file.status ≠ .deleted := by
  unfold FileService.get FileRepository.getFile
  rw [Program.select_bind_ok]
  constructor
  · rintro ⟨found, read, rest⟩
    cases found with
    | none => cases rest
    | some other =>
      obtain ⟨present, rest⟩ := Program.refuseIf_bind_ok.mp rest
      cases rest
      exact ⟨loadFile_some.mp read, present⟩
  · rintro ⟨reads, present⟩
    exact ⟨some file, loadFile_some.mpr reads, Program.refuseIf_bind_ok.mpr ⟨present, rfl⟩⟩

/-- A URL that is signed on both servers is the same when its time is. -/
theorem answersAlike_signed {expires expires' : Int} {sign : Int → Except Failure PresignedUrl}
    {request : PresignedRequest} (signs : ∀ expires, sign expires = .ok ⟨request, expires⟩) :
    AnswersAlike (Database.overriddenBy overrides) (Database.overriddenBy {})
      (Program.liftExcept (sign expires) : Handler σ PresignedUrl)
      (Program.liftExcept (sign expires')) world ↔ expires = expires' := by
  rw [answersAlike_liftExcept, signs, signs]
  constructor
  · intro same
    exact (PresignedUrl.mk.inj (Except.ok.inj same)).2
  · rintro rfl
    rfl

private theorem presignDownload_alike (signs : Signs app.storage) (expiresSeconds : Option Int) :
    (SettingsReader.presignDownload identity fileId expiresSeconds).Alike app overrides world now ↔
      ¬ (SettingsReader.presignDownload identity fileId expiresSeconds).ReadsStatic app overrides
        world.db now := by
  refine (answersAlike_bind get_consistent (get_readOnly _ _) (get_readOnly _ _)).trans ?_
  simp only [get_iff]
  constructor
  · rintro alike ⟨⟨file, found⟩, capable, differs⟩
    obtain ⟨request, signed⟩ := signs.get capable file.bucket file.objectKey
    have parts := answersAlike_refuseIf.mp (alike file found) (by simp [capable])
    exact differs ((answersAlike_signed signed).mp parts)
  · intro static file found
    refine answersAlike_refuseIf.mpr fun uncapable => ?_
    have capable : app.storage.capabilities.presignedGet = true := Bool.not_eq_false _ ▸ uncapable
    obtain ⟨request, signed⟩ := signs.get capable file.bucket file.objectKey
    refine (answersAlike_signed signed).mpr ?_
    by_contra differs
    exact static ⟨⟨file, found⟩, capable, differs⟩

theorem validateBucket_iff {bucket : String} {db : Database} {store : σ} :
    (validateBucket app identity bucket).run db store = (.ok ((), db), store) ↔
      bucket ∈ app.settings.storage.allowedBuckets ∨
        (db.findBucket identity.tenantId bucket).isSome = true := by
  rw [← @isBucketAllowed_iff _ app _ _ db store]
  unfold validateBucket
  rw [(isBucketAllowed_readOnly _ _).bind_eq_ok]
  constructor
  · rintro ⟨allowed, decided, passed⟩
    cases allowed with
    | true => exact decided
    | false => cases passed
  · exact fun decided => ⟨true, decided, rfl⟩

theorem answersAlike_key {α : Type} {objectKey : String} {next next' : ObjectKey → Handler σ α} :
    AnswersAlike (Database.overriddenBy overrides) (Database.overriddenBy {})
      (Program.liftExcept (validateObjectKey app objectKey) >>= next)
      (Program.liftExcept (validateObjectKey app objectKey) >>= next') world ↔
      ∀ safeKey, validateObjectKey app objectKey = .ok safeKey →
        AnswersAlike (Database.overriddenBy overrides) (Database.overriddenBy {}) (next safeKey)
          (next' safeKey) world := by
  cases validateObjectKey app objectKey with
  | error failure =>
    refine iff_of_true ?_ fun safeKey same => by cases same
    exact (Mirrors.fail failure).answersAlike world
  | ok safeKey => exact ⟨fun alike other same => by cases same; exact alike, fun alike => alike _ rfl⟩

private theorem presignPut_alike (signs : Signs app.storage) (bucket objectKey : String)
    (contentType : Option String) (expiresSeconds : Option Int) :
    (SettingsReader.presignPut identity bucket objectKey contentType expiresSeconds).Alike app
        overrides world now ↔
      ¬ (SettingsReader.presignPut identity bucket objectKey contentType expiresSeconds).ReadsStatic
        app overrides world.db now := by
  refine (answersAlike_bind (validateBucket_consistent identity bucket) (validateBucket_readOnly _ _)
    (validateBucket_readOnly _ _)).trans ?_
  constructor
  · rintro alike ⟨allowed, accepted, capable, differs⟩
    cases valid : validateObjectKey app objectKey with
    | error failure =>
      rw [valid] at accepted
      cases accepted
    | ok safeKey =>
      obtain ⟨request, signed⟩ := signs.put capable bucket safeKey contentType
      have first := answersAlike_key.mp (alike () (validateBucket_iff.mpr allowed)) safeKey valid
      have parts := answersAlike_refuseIf.mp first (by simp [capable])
      exact differs ((@answersAlike_signed _ _ _ _ _
        (app.storage.createPresignedPutUrl bucket safeKey · contentType) _ signed).mp parts)
  · intro static _ allowed
    refine answersAlike_key.mpr fun safeKey valid => answersAlike_refuseIf.mpr fun uncapable => ?_
    have capable : app.storage.capabilities.presignedPut = true := Bool.not_eq_false _ ▸ uncapable
    obtain ⟨request, signed⟩ := signs.put capable bucket safeKey contentType
    refine (@answersAlike_signed _ _ _ _ _
      (app.storage.createPresignedPutUrl bucket safeKey · contentType) _ signed).mpr ?_
    by_contra differs
    have listed := (@validateBucket_iff _ app identity _ (world.db.overriddenBy overrides)
      world.store).mp allowed
    exact static ⟨listed, by rw [valid]; rfl, capable, differs⟩

private theorem serializeUploadResult_signed {app : AppState σ} {file : FileObject}
    {request : PresignedRequest} (capable : app.storage.capabilities.presignedGet = true)
    (signed : ∀ expires, app.storage.createPresignedGetUrl file.bucket file.objectKey expires =
      .ok ⟨request, expires⟩) :
    let expires := FileService.presignExpiry app.settings.presign none
    FileService.serializeUploadResult app file = pure {
      file, downloadUrl := some ⟨request, expires⟩, expiresIn := some expires } := by
  unfold FileService.serializeUploadResult
  rw [if_pos capable]
  dsimp only
  rw [signed]

private theorem uploadResult_alike (signs : Signs app.storage) (file : FileObject) :
    (SettingsReader.uploadResult file).Alike app overrides world now ↔
      ¬ (SettingsReader.uploadResult file).ReadsStatic app overrides world.db now := by
  change AnswersAlike _ _ (FileService.serializeUploadResult app file)
    (FileService.serializeUploadResult (app.configured overrides) file) world ↔ _
  by_cases capable : app.storage.capabilities.presignedGet = true
  · obtain ⟨request, signed⟩ := signs.get capable file.bucket file.objectKey
    rw [serializeUploadResult_signed capable signed,
      @serializeUploadResult_signed _ (app.configured overrides) file request capable signed,
      answersAlike_pure]
    constructor
    · rintro same ⟨_, differs⟩
      exact differs (Option.some.inj (congrArg FileService.UploadResult.expiresIn same))
    · intro static
      have same : SameExpiry app overrides none := by
        by_contra differs
        exact static ⟨capable, differs⟩
      unfold SameExpiry at same
      rw [same]
  · have uncapable : ¬ (app.configured overrides).storage.capabilities.presignedGet = true := capable
    unfold FileService.serializeUploadResult
    rw [if_neg capable, if_neg uncapable]
    exact iff_of_true (answersAlike_pure.mpr rfl) fun static => capable static.1

/-- The policy that is adjudicated shows in the row, and in the answer. -/
theorem apply_injective (file : FileObject) (source : LifecycleSource) :
    Function.Injective fun effective =>
      { LifecycleService.apply effective file with lifecycleSource := source } := by
  intro first second same
  have mode : LifecycleMode.ofText first.mode = LifecycleMode.ofText second.mode :=
    congrArg FileObject.lifecycleMode same
  have action : LifecycleAction.ofText first.action = LifecycleAction.ofText second.action :=
    congrArg FileObject.lifecycleAction same
  have modes := congrArg LifecycleMode.value mode
  have actions := congrArg LifecycleAction.value action
  rw [LifecycleMode.value_ofText, LifecycleMode.value_ofText] at modes
  rw [LifecycleAction.value_ofText, LifecycleAction.value_ofText] at actions
  have ttlSeconds : first.ttlSeconds = second.ttlSeconds := congrArg FileObject.ttlSeconds same
  have expiresAt : first.expiresAt = second.expiresAt := congrArg FileObject.expiresAt same
  obtain ⟨_, _, _, _⟩ := first
  cases modes
  cases actions
  cases ttlSeconds
  cases expiresAt
  rfl

/-- The end of a change of lifecycle: the row, the event, and the row as the answer. -/
theorem answersAlike_flush {first second : Except Failure EffectiveLifecycle}
    {change : EffectiveLifecycle → FileObject → FileObject} {file : FileObject}
    {event : LifecycleEvent} (tells : Function.Injective fun effective => change effective file) :
    AnswersAlike (Database.overriddenBy overrides) (Database.overriddenBy {})
      (do
        let effective ← Program.liftExcept first
        FileRepository.flushFile fileId (change effective)
        addEvent event
        return change effective file : Handler σ FileObject)
      (do
        let effective ← Program.liftExcept second
        FileRepository.flushFile fileId (change effective)
        addEvent event
        return change effective file) world ↔ first = second := by
  refine answersAlike_liftExcept_bind (fun effective => ?_) (fun effective world => rfl) tells
  refine .bind (.modify (fun _ => rfl) fun _ => rfl) fun _ => ?_
  exact .bind (.modify (fun _ => rfl) fun _ => rfl) fun _ => .pure _

private theorem updateLifecycle_alike (requested : LifecycleRequest) :
    (SettingsReader.updateLifecycle identity fileId requested).Alike app overrides world now ↔
      ¬ (SettingsReader.updateLifecycle identity fileId requested).ReadsStatic app overrides world.db
        now := by
  refine (answersAlike_bind lockFile_consistent (lockFile_readOnly _ _)
    (lockFile_readOnly _ _)).trans ?_
  simp only [lockFile_iff]
  constructor
  · rintro alike ⟨file, found, unheld, differs⟩
    have parts := answersAlike_refuseIf.mp (alike file found) (by simp [unheld])
    exact differs ((answersAlike_flush (apply_injective file .client)).mp parts)
  · intro static file found
    refine answersAlike_refuseIf.mpr fun unheld => ?_
    refine (answersAlike_flush (apply_injective file .client)).mpr ?_
    by_contra differs
    exact static ⟨file, found, Bool.eq_false_iff.mpr unheld, differs⟩

private theorem extend_alike (extendSeconds : Int) :
    (SettingsReader.extend identity fileId extendSeconds).Alike app overrides world now ↔
      ¬ (SettingsReader.extend identity fileId extendSeconds).ReadsStatic app overrides world.db
        now := by
  refine (answersAlike_bind lockFile_consistent (lockFile_readOnly _ _)
    (lockFile_readOnly _ _)).trans ?_
  simp only [lockFile_iff]
  have tells : ∀ file, Function.Injective fun effective => LifecycleService.apply effective file :=
    fun file first second same => apply_injective file .client (congrArg
      (fun changed : FileObject => { changed with lifecycleSource := .client }) same)
  constructor
  · rintro alike ⟨file, found, running, positive, dated, differs⟩
    have first := answersAlike_refuseIf.mp (alike file found) (not_or.mpr running)
    have second := answersAlike_refuseIf.mp first (Int.not_le.mpr positive)
    have parts := answersAlike_liftExcept_same.mp second _ (addSeconds_ok.mpr ⟨dated, rfl⟩)
    exact differs ((answersAlike_flush (tells file)).mp parts)
  · intro static file found
    refine answersAlike_refuseIf.mpr fun running => answersAlike_refuseIf.mpr fun positive =>
      answersAlike_liftExcept_same.mpr fun expiresAt added => ?_
    obtain ⟨dated, rfl⟩ := addSeconds_ok.mp added
    refine (answersAlike_flush (tells file)).mpr ?_
    by_contra differs
    exact static ⟨file, found, not_or.mp running, Int.not_le.mp positive, dated, differs⟩

/-- What `proxy_upload` does once the file is not too large. -/
def afterSize (app : AppState σ) (identity : Identity) (request : ProxyUpload) (now : Timestamp)
    (safeKey : ObjectKey) : Handler σ FileObject := do
  refuseExisting app request.bucket safeKey
  let effective ← effectiveLifecycle app request.lifecycle now
  let stored ← Program.onStore .putObject
    (app.storage.putObject request.bucket safeKey request.stream request.contentType
      (some request.sizeBytes) request.checksumSha256)
  let id ← newId
  let file := FileService.uploadedFileObject app identity request safeKey effective id stored now
  FileRepository.insertFile app.settings.database.dialect file
  return file

theorem proxyUpload_eq (app : AppState σ) (identity : Identity) (request : ProxyUpload)
    (now : Timestamp) :
    FileService.proxyUpload app identity request now = (do
      validateBucket app identity request.bucket
      let safeKey ← Program.liftExcept (validateObjectKey app request.objectKey)
      let maximumBytes ← SettingService.getMaxFileSize app
      Program.refuseIf (maximumBytes < request.sizeBytes)
        (.api (.fileTooLarge app.settings.uploads.fileSize.maximumBytes))
      afterSize app identity request now safeKey) := by
  unfold FileService.proxyUpload FileService.validateUpload afterSize
  simp only [Program.bind_assoc]
  rfl

private theorem afterSize_consistent (request : ProxyUpload) (safeKey : ObjectKey) :
    Consistent app overrides (afterSize · identity request now safeKey) := by
  refine .bind (refuseExisting_consistent _ _) fun _ => ?_
  refine .bind (effectiveLifecycle_consistent _ _) fun effective => ?_
  refine .bind (.onStore _ _) fun stored => .bind (.ask fun db => rfl) fun id => ?_
  refine .bind (.write (fun db => rfl) fun db change stated => ?_) fun _ => .pure _
  split at stated
  · cases stated
  split at stated
  · cases stated
  · cases stated
    exact ⟨rfl, rfl⟩

theorem answersAlike_size (request : ProxyUpload) (safeKey : ObjectKey) :
    AnswersAlike (Database.overriddenBy overrides) (Database.overriddenBy {})
      (do
        let maximumBytes ← SettingService.getMaxFileSize app
        Program.refuseIf (maximumBytes < request.sizeBytes)
          (.api (.fileTooLarge app.settings.uploads.fileSize.maximumBytes))
        afterSize app identity request now safeKey : Handler σ FileObject)
      (do
        let maximumBytes ← SettingService.getMaxFileSize (app.configured overrides)
        Program.refuseIf (maximumBytes < request.sizeBytes)
          (.api (.fileTooLarge (app.configured overrides).settings.uploads.fileSize.maximumBytes))
        afterSize (app.configured overrides) identity request now safeKey) world ↔
      ((getEffective app.settings overrides).maxFileSize < request.sizeBytes →
        app.settings.uploads.fileSize.maximumBytes =
          (getEffective app.settings overrides).maxFileSize) := by
  change AnswersAlike _ _
    (Program.refuseIf ((getEffective app.settings overrides).maxFileSize < request.sizeBytes) _ >>=
      fun _ => _)
    (Program.refuseIf ((getEffective app.settings overrides).maxFileSize < request.sizeBytes) _ >>=
      fun _ => _) world ↔ _
  unfold Program.refuseIf
  by_cases large : (getEffective app.settings overrides).maxFileSize < request.sizeBytes
  · rw [if_pos large, if_pos large]
    refine answersAlike_fail.trans ⟨fun same _ => ?_, fun same => ?_⟩
    · exact ApiError.fileTooLarge.inj (Failure.api.inj same)
    · rw [same large]
      rfl
  · rw [if_neg large, if_neg large]
    refine iff_of_true ?_ fun tooLarge => absurd tooLarge large
    exact (afterSize_consistent request safeKey).answersAlike world

private theorem proxyUpload_alike (request : ProxyUpload) :
    (SettingsReader.proxyUpload identity request).Alike app overrides world now ↔
      ¬ (SettingsReader.proxyUpload identity request).ReadsStatic app overrides world.db now := by
  change AnswersAlike _ _ (FileService.proxyUpload app identity request now)
    (FileService.proxyUpload (app.configured overrides) identity request now) world ↔ _
  rw [proxyUpload_eq, proxyUpload_eq]
  refine (answersAlike_bind (validateBucket_consistent identity request.bucket)
    (validateBucket_readOnly _ _) (validateBucket_readOnly _ _)).trans ?_
  constructor
  · rintro alike ⟨allowed, accepted, large, differs⟩
    cases valid : validateObjectKey app request.objectKey with
    | error failure =>
      rw [valid] at accepted
      cases accepted
    | ok safeKey =>
      have sized := answersAlike_key.mp (alike () (validateBucket_iff.mpr allowed)) safeKey valid
      exact differs ((answersAlike_size request safeKey).mp sized large)
  · intro static _ allowed
    have listed := (@validateBucket_iff _ app identity _ (world.db.overriddenBy overrides)
      world.store).mp allowed
    refine answersAlike_key.mpr fun safeKey valid => (answersAlike_size request safeKey).mpr ?_
    intro large
    by_contra differs
    exact static ⟨listed, by rw [valid]; rfl, large, differs⟩

end Parting

/-- After any accepted updates: a server with overrides answers a request as one with the
overridden values in its configuration does, and commits the same rows, exactly when the
request reads no configured value that is overridden by another. -/
theorem overridden_server_agrees {σ : Type} (app : AppState σ) (signs : Signs app.storage)
    (updates : List SettingsUpdate) (request : SettingsReader) (world : World Database σ)
    (now : Timestamp) :
    let overrides := (afterUpdates app.settings updates).overrides
    request.Alike app overrides world now ↔ ¬ request.ReadsStatic app overrides world.db now := by
  intro overrides
  cases request with
  | proxyUpload identity request => exact proxyUpload_alike request
  | createSession identity request =>
    exact iff_of_true ((createSession_consistent identity request now).answersAlike world) id
  | createJob identity request =>
    exact iff_of_true ((createJob_consistent identity request now).answersAlike world) id
  | presignDownload identity fileId expiresSeconds => exact presignDownload_alike signs expiresSeconds
  | presignPut identity bucket objectKey contentType expiresSeconds =>
    exact presignPut_alike signs bucket objectKey contentType expiresSeconds
  | uploadResult file => exact uploadResult_alike signs file
  | updateLifecycle identity fileId requested => exact updateLifecycle_alike requested
  | extend identity fileId extendSeconds => exact extend_alike extendSeconds

/-- `{"storage": {"presign_default_expires_seconds": 600}}`. -/
def shorterLinks : SettingsUpdate where
  payload := .object [("storage", .object [("presign_default_expires_seconds", .int 600)])]
  allowedBuckets := ["files"]

private theorem smallS3_signs : Signs smallS3App.storage where
  get _ bucket objectKey := ⟨.getObject bucket objectKey, fun _ => rfl⟩
  put _ bucket objectKey contentType :=
    ⟨.putObject bucket objectKey (contentType.filter (· ≠ "")), fun _ => rfl⟩

/-- With a time of its own, a URL for a stored file is the same after the update. -/
theorem overridden_server_agrees_small :
    let overrides := (afterUpdates smallS3App.settings [shorterLinks]).overrides
    let world := after smallS3App ⟨{}, smallS3⟩ [(.proxyUpload smallTenant smallUpload, 0)]
    overrides.presignDefaultExpiresSeconds = some 600 ∧
      (serve smallS3App world (.read smallTenant (.presignDownload 0 (some 60)), 1)).1.isOk = true ∧
      (SettingsReader.presignDownload smallTenant 0 (some 60)).Alike smallS3App overrides world 1 := by
  refine ⟨by decide +kernel, by decide +kernel, ?_⟩
  refine (overridden_server_agrees smallS3App smallS3_signs [shorterLinks] _ _ _).mpr ?_
  rintro ⟨_, _, differs⟩
  exact differs rfl

/-- A URL that is signed for a PUT lasts as long as the configuration says. -/
theorem signed_url_ignores_override :
    (update smallS3App.settings shorterLinks {}).isOk = true ∧
      ¬ (SettingsReader.presignPut smallTenant "files" "a.bin" none none).Alike smallS3App
        (afterUpdates smallS3App.settings [shorterLinks]).overrides ⟨{}, smallS3⟩ 0 := by
  refine ⟨by decide +kernel, fun alike => ?_⟩
  have differs : ¬ SameExpiry smallS3App
      (afterUpdates smallS3App.settings [shorterLinks]).overrides none := by
    unfold SameExpiry
    decide +kernel
  exact (presignPut_alike smallS3_signs "files" "a.bin" none none).mp alike
    ⟨.inl (by decide), by decide +kernel, rfl, differs⟩

end PyUploadX
