import PyUploadX.Kit.Tables
import PyUploadX.Kit.Writes
import PyUploadX.System

/-! The statements of the requests that assign no status: reads, and writes of other
columns and other tables. -/
namespace PyUploadX

open Kit Kit.Program

namespace Database

variable (db : Database)

/-- The status of a session, where there is one of that id. -/
def uploadStatus? (uploadId : Uuid) : Option UploadStatus :=
  (db.uploadSessions.find? (·.id = uploadId)).map (·.status)

/-- The lifecycle status of a file, where there is one of that id. -/
def lifecycleStatus? (fileId : Uuid) : Option LifecycleStatus :=
  (db.fileObjects.find? (·.id = fileId)).map (·.lifecycleStatus)

theorem uploadStatus?_updateUpload (uploadId other : Uuid)
    {change : UploadSession → UploadSession} (kept : ∀ upload, (change upload).id = upload.id) :
    (db.updateUpload uploadId change).uploadStatus? other =
      (db.uploadSessions.find? (·.id = other)).map fun upload =>
        (if upload.id = uploadId then change upload else upload).status := by
  unfold uploadStatus? updateUpload
  rw [@Table.find?_update _ _ (·.id) _ _ change kept other, Option.map_map]
  rfl

theorem lifecycleStatus?_updateFile (fileId other : Uuid) {change : FileObject → FileObject}
    (kept : ∀ file, (change file).id = file.id) :
    (db.updateFile fileId change).lifecycleStatus? other =
      (db.fileObjects.find? (·.id = other)).map fun file =>
        (if file.id = fileId then change file else file).lifecycleStatus := by
  unfold lifecycleStatus? updateFile
  rw [@Table.find?_update _ _ (·.id) _ _ change kept other, Option.map_map]
  rfl

end Database

/-- A write that leaves every row in its status; it may add rows. -/
structure KeepsStatuses (change : Database → Database) : Prop where
  uploads : ∀ db uploadId, ∀ status ∈ Database.uploadStatus? db uploadId,
    status ∈ (change db).uploadStatus? uploadId
  files : ∀ db fileId, ∀ status ∈ Database.lifecycleStatus? db fileId,
    status ∈ (change db).lifecycleStatus? fileId

namespace KeepsStatuses

theorem of_same {change : Database → Database}
    (uploads : ∀ db, (change db).uploadSessions = db.uploadSessions)
    (files : ∀ db, (change db).fileObjects = db.fileObjects) : KeepsStatuses change := by
  constructor
  · intro db uploadId
    unfold Database.uploadStatus?
    rw [uploads]
    exact fun _ => id
  · intro db fileId
    unfold Database.lifecycleStatus?
    rw [files]
    exact fun _ => id

theorem updateUpload {uploadId : Uuid} {change : UploadSession → UploadSession}
    (kept : ∀ upload, (change upload).id = upload.id)
    (still : ∀ upload, (change upload).status = upload.status) :
    KeepsStatuses (·.updateUpload uploadId change) := by
  refine ⟨fun db other status known => ?_, fun db fileId status => id⟩
  rw [db.uploadStatus?_updateUpload uploadId other kept]
  obtain ⟨upload, found, rfl⟩ := Option.map_eq_some_iff.mp known
  refine Option.map_eq_some_iff.mpr ⟨upload, found, ?_⟩
  split
  · exact still upload
  · rfl

theorem updateFile {fileId : Uuid} {change : FileObject → FileObject}
    (kept : ∀ file, (change file).id = file.id)
    (still : ∀ file, (change file).lifecycleStatus = file.lifecycleStatus) :
    KeepsStatuses (·.updateFile fileId change) := by
  refine ⟨fun db uploadId status => id, fun db other status known => ?_⟩
  rw [db.lifecycleStatus?_updateFile fileId other kept]
  obtain ⟨file, found, rfl⟩ := Option.map_eq_some_iff.mp known
  refine Option.map_eq_some_iff.mpr ⟨file, found, ?_⟩
  split
  · exact still file
  · rfl

theorem insertUpload (upload : UploadSession) : KeepsStatuses (·.insertUpload upload) := by
  refine ⟨fun db uploadId status known => ?_, fun db fileId status => id⟩
  obtain ⟨row, found, rfl⟩ := Option.map_eq_some_iff.mp known
  refine Option.map_eq_some_iff.mpr ⟨row, ?_, rfl⟩
  exact List.find?_append.trans (by rw [found, Option.some_or])

theorem addFile (file : FileObject) : KeepsStatuses (·.addFile file) := by
  refine ⟨fun db uploadId status => id, fun db fileId status known => ?_⟩
  obtain ⟨row, found, rfl⟩ := Option.map_eq_some_iff.mp known
  refine Option.map_eq_some_iff.mpr ⟨row, ?_, rfl⟩
  exact List.find?_append.trans (by rw [found, Option.some_or])

end KeepsStatuses

/-- A statement that assigns no status. -/
abbrev Still (_ : Operation) (_ : Option Row) (change : Database → Database) : Prop :=
  KeepsStatuses change

variable {σ : Type} {app : AppState σ}
  {allowed : Operation → Option Row → (Database → Database) → Prop}

section Reads

private theorem isBucketAllowed_writesNone (tenantId bucket : String) :
    (BucketService.isBucketAllowed app tenantId bucket).EachWrite allowed := by
  unfold BucketService.isBucketAllowed
  split
  · exact .pure _
  · exact .bind (.ask _) fun _ => .pure _

private theorem validateBucket_writesNone (identity : Identity) (bucket : String) :
    (validateBucket app identity bucket).EachWrite allowed :=
  .bind (isBucketAllowed_writesNone _ _) fun _ => .refuseIf _ _

private theorem refuseExisting_writesNone (bucket : String) (objectKey : ObjectKey) :
    (refuseExisting app bucket objectKey).EachWrite allowed := by
  unfold refuseExisting
  split
  · exact .bind (.askStore _ _) fun _ => .refuseIf _ _
  · exact .pure _

private theorem effectiveLifecycle_writesNone (requested : Option LifecycleRequest) (base : Timestamp) :
    (effectiveLifecycle app requested base).EachWrite allowed := by
  unfold effectiveLifecycle
  split
  · exact .bind (.ask _) fun _ => .bind (.liftExcept _) fun _ => .pure _
  · exact .pure _

private theorem chooseMode_writesNone (totalSize : Nat) (uploadMode : String) :
    (UploadService.chooseMode app totalSize uploadMode).EachWrite allowed := by
  unfold UploadService.chooseMode
  refine .bind (.ask _) fun _ => ?_
  dsimp only
  split
  · refine .bind (.ask _) fun _ => ?_
    split <;> exact .pure _
  · split
    · exact .pure _
    · split
      · exact .bind (.refuseIf _ _) fun _ => .pure _
      · exact .fail _

private theorem initiateMultipart_writesNone (identity : Identity) (mode : UploadMode) (bucket : String)
    (objectKey : ObjectKey) (contentType : Option String) :
    (UploadService.initiateMultipart app identity mode bucket objectKey contentType).EachWrite
      allowed := by
  unfold UploadService.initiateMultipart
  split
  · exact .bind (.onStore _ _) fun _ => .pure _
  · exact .pure _

theorem getSession_writesNone (identity : Identity) (uploadId : Uuid) :
    (UploadService.getSession identity uploadId : Handler σ UploadSession).EachWrite allowed := by
  refine .bind (.select _ _) fun found => ?_
  cases found with
  | none => exact .fail _
  | some upload => exact .pure _

theorem storedParts_writesNone (upload : UploadSession) (committed : List UploadPart) :
    (UploadService.storedParts app upload committed).EachWrite allowed := by
  unfold UploadService.storedParts
  split
  · split
    · refine .bind (.askStore _ _) fun listed => ?_
      dsimp only
      split
      · exact .fail _
      · exact .pure _
    · exact .pure _
  · exact .pure _

theorem partsToComplete_writesNone (upload : UploadSession) :
    (UploadService.partsToComplete app upload).EachWrite allowed := by
  refine .bind (.ask _) fun rows => .bind (.refuseIf _ _) fun _ =>
    .bind (storedParts_writesNone _ _) fun parts => ?_
  dsimp only
  split
  · exact .bind (.liftExcept _) fun _ => .pure _
  · exact .pure _

private theorem storedNumbers_writesNone (upload : UploadSession) :
    (UploadService.storedNumbers app upload).EachWrite allowed := by
  unfold UploadService.storedNumbers
  split
  · split
    · refine .bind (.tryStore _ _) fun listing => ?_
      cases listing with
      | ok parts => exact .pure _
      | error failure =>
        dsimp only
        split
        · exact .pure _
        · exact .fail _
    · exact .pure _
  · exact .pure _

private theorem validateUpload_writesNone (identity : Identity) (request : ProxyUpload) (now : Timestamp) :
    (FileService.validateUpload app identity request now).EachWrite allowed :=
  .bind (validateBucket_writesNone _ _) fun _ => .bind (.liftExcept _) fun _ =>
    .bind (.ask _) fun _ => .bind (.refuseIf _ _) fun _ =>
    .bind (refuseExisting_writesNone _ _) fun _ =>
    .bind (effectiveLifecycle_writesNone _ _) fun _ => .pure _

private theorem lockFile_writesNone (identity : Identity) (fileId : Uuid) :
    (LifecycleService.lockFile identity fileId : Handler σ FileObject).EachWrite allowed := by
  refine .bind (.select _ _) fun found => ?_
  cases found with
  | none => exact .fail _
  | some file => exact .pure _

private theorem get_writesNone (identity : Identity) (fileId : Uuid) :
    (FileService.get identity fileId : Handler σ FileObject).EachWrite allowed := by
  refine .bind (.select _ _) fun found => ?_
  cases found with
  | none => exact .fail _
  | some file => exact .bind (.refuseIf _ _) fun _ => .pure _

theorem read_writesNone (identity : Identity) (request : ReadRequest) :
    (read app identity request).EachWrite allowed := by
  cases request with
  | getUpload uploadId => exact .bind (getSession_writesNone _ _) fun _ => .pure _
  | listParts uploadId =>
    exact .bind (.bind (getSession_writesNone _ _) fun _ => .ask _) fun _ => .pure _
  | presignParts uploadId partNumbers expiresSeconds =>
    refine .bind (.bind (getSession_writesNone _ _) fun upload => .bind (.liftExcept _) fun _ => ?_)
      fun _ => .pure _
    split
    · exact .bind (.refuseIf _ _) fun _ => .liftExcept _
    · exact .fail _
  | listFiles query => exact .bind (.select _ _) fun _ => .pure _
  | getFile fileId => exact .bind (get_writesNone _ _) fun _ => .pure _
  | download fileId rangeHeader =>
    exact .bind (.bind (get_writesNone _ _) fun _ => .bind (.liftExcept _) fun _ =>
      .bind (.askStore _ _) fun _ => .pure _) fun _ => .pure _
  | createPermanentLink fileId baseUrl =>
    refine .bind (.bind (.refuseIf _ _) fun _ => ?_) fun _ => .pure _
    split
    · exact .fail _
    · exact .bind (get_writesNone _ _) fun _ => .pure _
  | presignDownload fileId expiresSeconds =>
    exact .bind (.bind (get_writesNone _ _) fun _ => .bind (.refuseIf _ _) fun _ =>
      .liftExcept _) fun _ => .pure _
  | getLifecycle fileId =>
    refine .bind (.bind (.select _ _) fun found => ?_) fun _ => .pure _
    cases found with
    | none => exact .fail _
    | some file => exact .pure _
  | presignGet bucket objectKey expiresSeconds => exact .bind (.liftExcept _) fun _ => .pure _

end Reads

section Requests

/-- A row whose status is not among the columns that are written. -/
theorem touch_still (uploadId : Uuid) (now : Timestamp) :
    KeepsStatuses (·.updateUpload uploadId (·.touch now)) :=
  .updateUpload (fun _ => rfl) fun _ => rfl

theorem upsertPart_still (part : UploadPart) : KeepsStatuses (·.upsertPart part) :=
  .of_same (fun db => db.upsertPart_uploadSessions part) fun db => db.upsertPart_fileObjects part

private theorem insertUpload_still (dialect : Dialect) (upload : UploadSession) :
    (UploadRepository.insertUpload dialect upload : Handler σ Unit).EachWrite Still := by
  refine .write fun db change stated => ?_
  split at stated
  · cases stated
    exact .insertUpload upload
  · cases stated

private theorem insertFile_still (dialect : Dialect) (file : FileObject) :
    (FileRepository.insertFile dialect file : Handler σ Unit).EachWrite Still := by
  refine .write fun db change stated => ?_
  split at stated
  · cases stated
  split at stated
  · cases stated
  · cases stated
    exact .addFile file

theorem addEvent_still (event : LifecycleEvent) : (addEvent event : Handler σ Unit).EachWrite Still :=
  .modify (.of_same (fun _ => rfl) fun _ => rfl)

theorem createBucket_still (identity : Identity) (name : String) :
    (BucketService.createBucket app identity name).EachWrite Still := by
  refine .bind (.liftExcept _) fun _ => .bind (.askStore _ _) fun _ => .bind (.refuseIf _ _) fun _ =>
    .bind (.ask _) fun _ => .bind (.refuseIf _ _) fun _ => .bind (.onStore _ _) fun _ =>
    .bind (.write fun db change stated => ?_) fun _ => .pure _
  split at stated
  · cases stated
  · cases stated
    exact .of_same (fun _ => rfl) fun _ => rfl

theorem deleteBucket_still (identity : Identity) (name : String) :
    (BucketService.deleteBucket app identity name).EachWrite Still := by
  refine .bind (.liftExcept _) fun _ => .bind (.refuseIf _ _) fun _ => .bind (.ask _) fun found => ?_
  cases found with
  | none => exact .fail _
  | some bucket =>
    exact .bind (.askStore _ _) fun _ => .bind (.refuseIf _ _) fun _ =>
      .bind (.onStore _ _) fun _ =>
      .bind (.modify (.of_same (fun _ => rfl) fun _ => rfl)) fun _ => .pure _

theorem createSession_still (identity : Identity) (request : CreateSession) (now : Timestamp) :
    (UploadService.createSession app identity request now).EachWrite Still :=
  .bind (validateBucket_writesNone _ _) fun _ => .bind (.liftExcept _) fun _ =>
    .bind (.ask _) fun _ => .bind (.refuseIf _ _) fun _ => .bind (.refuseIf _ _) fun _ =>
    .bind (.ask _) fun _ => .bind (.liftExcept _) fun _ =>
    .bind (chooseMode_writesNone _ _) fun _ => .bind (refuseExisting_writesNone _ _) fun _ =>
    .bind (effectiveLifecycle_writesNone _ _) fun _ =>
    .bind (initiateMultipart_writesNone _ _ _ _ _) fun _ => .bind (.ask _) fun _ =>
    .bind (.ask _) fun _ => .bind (insertUpload_still _ _) fun _ => .pure _

theorem putPresigned_still (uploadId : Uuid) (partNumber : Nat) (body : Bytes) :
    (putPresigned app uploadId partNumber body).EachWrite allowed := by
  refine .bind (.ask _) fun found => ?_
  cases found with
  | none => exact .fail _
  | some upload =>
    dsimp only
    split
    · exact .fail _
    · exact .bind (.refuseIf _ _) fun _ => .bind (.liftExcept _) fun _ =>
        .bind (.onStore _ _) fun _ => .pure _

theorem commitPart_still (identity : Identity) (uploadId : Uuid) (partNumber : Int) (etag : String)
    (sizeBytes : Int) (checksumSha256 : Option String) (now : Timestamp) :
    (UploadService.commitPart identity uploadId partNumber etag sizeBytes checksumSha256 now :
      Handler σ Unit).EachWrite Still :=
  .bind (getSession_writesNone _ _) fun _ => .bind (.liftExcept _) fun _ =>
    .bind (.liftExcept _) fun _ => .bind (.modify (upsertPart_still _)) fun _ =>
    .bind (.refuseIf _ _) fun _ => .modify (touch_still _ _)

theorem resume_still (identity : Identity) (uploadId : Uuid) (now : Timestamp) :
    (UploadService.resume app identity uploadId now).EachWrite Still :=
  .bind (getSession_writesNone _ _) fun _ => .bind (.refuseIf _ _) fun _ =>
    .bind (.refuseIf _ _) fun _ => .bind (.ask _) fun _ =>
    .bind (storedNumbers_writesNone _) fun _ => .bind (.modify (touch_still _ _)) fun _ => .pure _

theorem refresh_still (identity : Identity) (uploadId : Uuid) (now : Timestamp) :
    (UploadService.refresh app identity uploadId now).EachWrite Still := by
  refine .bind (.refuseIf _ _) fun _ => .bind (.select _ _) fun found => ?_
  cases found with
  | none => exact .fail _
  | some upload =>
    exact .bind (.refuseIf _ _) fun _ => .bind (.ask _) fun _ => .bind (.refuseIf _ _) fun _ =>
      .bind (.modify (.updateUpload (fun _ => rfl) fun _ => rfl)) fun _ => .pure _

theorem proxyUpload_still (identity : Identity) (request : ProxyUpload) (now : Timestamp) :
    (FileService.proxyUpload app identity request now).EachWrite Still :=
  .bind (validateUpload_writesNone _ _ _) fun _ => .bind (.onStore _ _) fun _ =>
    .bind (.ask _) fun _ => .bind (insertFile_still _ _) fun _ => .pure _

theorem updateLifecycle_still (identity : Identity) (fileId : Uuid) (requested : LifecycleRequest) :
    (LifecycleService.updateLifecycle app identity fileId requested).EachWrite Still :=
  .bind (lockFile_writesNone _ _) fun _ => .bind (.refuseIf _ _) fun _ =>
    .bind (.liftExcept _) fun _ => .bind (.modify (.updateFile (fun _ => rfl) fun _ => rfl)) fun _ =>
    .bind (addEvent_still _) fun _ => .pure _

theorem extend_still (identity : Identity) (fileId : Uuid) (extendSeconds : Int) (now : Timestamp) :
    (LifecycleService.extend app identity fileId extendSeconds now).EachWrite Still :=
  .bind (lockFile_writesNone _ _) fun _ => .bind (.refuseIf _ _) fun _ =>
    .bind (.refuseIf _ _) fun _ => .bind (.liftExcept _) fun _ => .bind (.liftExcept _) fun _ =>
    .bind (.modify (.updateFile (fun _ => rfl) fun _ => rfl)) fun _ =>
    .bind (addEvent_still _) fun _ => .pure _

theorem makePermanent_still (identity : Identity) (fileId : Uuid) :
    (LifecycleService.makePermanent app identity fileId).EachWrite Still :=
  .bind (.refuseIf _ _) fun _ => .bind (lockFile_writesNone _ _) fun _ =>
    .bind (.refuseIf _ _) fun _ => .bind (.modify (.updateFile (fun _ => rfl) fun _ => rfl)) fun _ =>
    .bind (addEvent_still _) fun _ => .pure _

theorem setLegalHold_still (identity : Identity) (fileId : Uuid) (hold : Bool) :
    (LifecycleService.setLegalHold identity fileId hold : Handler σ FileObject).EachWrite Still :=
  .bind (lockFile_writesNone _ _) fun _ =>
    .bind (.modify (.updateFile (fun _ => rfl) fun _ => rfl)) fun _ =>
    .bind (addEvent_still _) fun _ => .pure _

end Requests

/-! Directory requests write jobs and entries. -/

section Directories

open DirectoryUploadService

variable {identity : Identity} {jobId : Uuid}

private theorem updateJob_still {name : Operation} {lock : Option Row}
    {change : DirectoryUploadJob → DirectoryUploadJob} :
    (Program.modify name lock (·.updateJob jobId change) : Handler σ Unit).EachWrite Still :=
  .modify (.of_same (fun _ => rfl) fun _ => rfl)

private theorem job_writesNone (forUpdate : Bool) :
    (getJob identity jobId forUpdate : Handler σ DirectoryUploadJob).EachWrite allowed := by
  refine .bind (.select _ _) fun found => ?_
  cases found with
  | none => exact .fail _
  | some job => exact .pure _

private theorem entry_writesNone (entryId : Uuid) :
    (getEntry jobId entryId : Handler σ DirectoryUploadEntry).EachWrite allowed := by
  refine .bind (.ask _) fun found => ?_
  cases found with
  | none => exact .fail _
  | some entry => exact .bind (.refuseIf _ _) fun _ => .pure _

private theorem startManifest_still (job : DirectoryUploadJob) :
    (startManifest job : Handler σ Unit).EachWrite Still := by
  unfold startManifest
  split
  · exact .bind (.liftExcept _) fun _ => updateJob_still
  · exact .pure _

private theorem flushMove_still (target : DirectoryJobStatus) (job : DirectoryUploadJob) :
    (flushMove target job : Handler σ DirectoryUploadJob).EachWrite Still :=
  .bind (.liftExcept _) fun _ => .bind updateJob_still fun _ => .pure _

private theorem aggregateProgress_still :
    (DirectoryRepository.aggregateProgress jobId : Handler σ Progress).EachWrite Still :=
  .bind (.ask _) fun _ => .bind (.modify (.of_same (fun _ => rfl) fun _ => rfl)) fun _ => .pure _

private theorem flushEntry_still {entryId : Uuid} {change : DirectoryUploadEntry → DirectoryUploadEntry} :
    (DirectoryRepository.flushEntry entryId change : Handler σ Unit).EachWrite Still :=
  .modify (.of_same (fun _ => rfl) fun _ => rfl)

private theorem createJob_still (request : CreateJob) (now : Timestamp) :
    (createJob app identity request now).EachWrite Still := by
  refine .bind (.refuseIf _ _) fun _ => .bind (.refuseIf _ _) fun _ => .bind (.refuseIf _ _) fun _ =>
    .bind (.liftExcept _) fun _ => .bind (effectiveLifecycle_writesNone _ _) fun _ =>
    .bind (.liftExcept _) fun _ => .bind (.liftExcept _) fun _ => .bind (.ask _) fun _ =>
    .bind (.ask _) fun _ => .bind (.write fun db change stated => ?_) fun _ => .pure _
  split at stated
  · cases stated
    exact .of_same (fun _ => rfl) fun _ => rfl
  · cases stated

private theorem addEntries_still (entries : List EntryRequest) :
    (addEntries app identity jobId entries).EachWrite Still := by
  refine .bind (job_writesNone _) fun _ => .bind (.refuseIf _ _) fun _ =>
    .bind (.refuseIf _ _) fun _ => .bind (startManifest_still _) fun _ => .bind (.ask _) fun _ =>
    .bind (.ask _) fun _ => .bind (.liftExcept _) fun _ => .bind (.refuseIf _ _) fun _ =>
    .bind updateJob_still fun _ => .bind (.write fun db change stated => ?_) fun _ =>
    .bind (.refuseIf _ _) fun _ => .pure _
  split at stated
  · cases stated
  split at stated
  · cases stated
    exact .of_same (fun _ => rfl) fun _ => rfl
  · cases stated

private theorem completeManifest_still (expectedHash : Option String) (counts : Option ManifestCounts) :
    (completeManifest app identity jobId expectedHash counts).EachWrite Still :=
  .bind (job_writesNone _) fun _ => .bind (.refuseIf _ _) fun _ => .bind (.ask _) fun _ =>
    .bind (.refuseIf _ _) fun _ => .bind (.refuseIf _ _) fun _ => .bind (.liftExcept _) fun _ =>
    .bind (.liftExcept _) fun _ => .bind updateJob_still fun _ => .pure _

private theorem completeJob_still :
    (DirectoryUploadService.complete identity jobId :
      Handler σ DirectoryUploadJob).EachWrite Still := by
  refine .bind (job_writesNone _) fun job => ?_
  split
  · exact .pure _
  · exact .bind (.refuseIf _ _) fun _ => .bind (.ask _) fun _ => .bind (.refuseIf _ _) fun _ =>
      .bind (flushMove_still _ _) fun _ => .bind aggregateProgress_still fun _ =>
      flushMove_still _ _

theorem directoryUpload_still (request : DirectoryRequest) (now : Timestamp) :
    (directoryUpload app identity request now).EachWrite Still := by
  cases request with
  | createJob request => exact .bind (createJob_still _ _) fun _ => .pure _
  | addEntries jobId entries => exact .bind (addEntries_still _) fun _ => .pure _
  | completeManifest jobId expectedHash counts =>
    exact .bind (completeManifest_still _ _) fun _ => .pure _
  | getJob jobId => exact .bind (job_writesNone _) fun _ => .pure _
  | listEntries jobId cursor limit =>
    exact .bind (.bind (job_writesNone _) fun _ => .bind (.ask _) fun _ => .pure _) fun _ => .pure _
  | getManifest jobId =>
    exact .bind (.bind (job_writesNone _) fun _ => .bind (.ask _) fun _ => .pure _) fun _ => .pure _
  | initiateEntry jobId entryId =>
    exact .bind (.bind (entry_writesNone _) fun _ => .bind (job_writesNone _) fun _ =>
      .bind (startManifest_still _) fun _ => .bind flushEntry_still fun _ => .pure _) fun _ => .pure _
  | markEntryResult jobId entryId result =>
    exact .bind (.bind (.liftExcept _) fun _ => .bind (entry_writesNone _) fun _ =>
      .bind (job_writesNone _) fun _ => .bind flushEntry_still fun _ =>
      .bind aggregateProgress_still fun _ => .pure _) fun _ => .pure _
  | retry jobId =>
    exact .bind (.bind (job_writesNone _) fun _ => .bind (.refuseIf _ _) fun _ =>
      flushMove_still _ _) fun _ => .pure _
  | complete jobId => exact .bind completeJob_still fun _ => .pure _
  | cancel jobId =>
    exact .bind (.bind (job_writesNone _) fun _ => .bind (.refuseIf _ _) fun _ =>
      .bind (.liftExcept _) fun _ => flushMove_still _ _) fun _ => .pure _
  | patchLifecycle jobId requested =>
    exact .bind (.bind (job_writesNone _) fun _ => .bind (.liftExcept _) fun _ =>
      .bind updateJob_still fun _ => .pure _) fun _ => .pure _

end Directories

end PyUploadX
