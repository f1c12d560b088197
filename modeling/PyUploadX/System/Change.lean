import PyUploadX.Services.DirectoryOutcomes
import PyUploadX.Services.ReadOutcomes
import PyUploadX.Worker.Outcomes

/-! The committed effect of one request on the database: one case for each kind of
write, with what its request checked first. -/
namespace PyUploadX

open Kit

variable {σ : Type}

/-- A policy the server adjudicated. -/
def Adjudicated (app : AppState σ) (policy : EffectiveLifecycle) : Prop :=
  ∃ requested serverDefault base, computeEffectiveLifecycle requested serverDefault
    app.settings.lifecycle.policy base = .ok policy

/-- The changes requests make to a file row. -/
inductive FileChange (app : AppState σ) : (FileObject → FileObject) → Prop
  | deleted (now : Timestamp) : FileChange app (FileService.markDeleted now)
  | updated {policy : EffectiveLifecycle} (adjudicated : Adjudicated app policy) :
      FileChange app fun row =>
        { LifecycleService.apply policy row with lifecycleSource := .client }
  | extended {policy : EffectiveLifecycle} (adjudicated : Adjudicated app policy) :
      FileChange app (LifecycleService.apply policy)
  | permanent : FileChange app LifecycleService.permanently
  | held (hold : Bool) : FileChange app fun row => { row with legalHold := hold }

/-- What `create_session` establishes about the row it adds. -/
structure NewSession (app : AppState σ) (db : Database) (upload : UploadSession) : Prop where
  fresh : upload.id = db.nextId
  initiated : upload.status = .initiated
  unassembled : upload.completedFileId = none
  positive : 0 < upload.partSize
  wide : app.settings.uploads.multipart.minimumPartSizeBytes ≤ upload.partSize
  parts : upload.totalParts = UploadService.totalParts upload.totalSize upload.partSize
  fits : upload.fits app.settings.database.dialect = true
  policy : ∀ policy ∈ upload.effectiveLifecycle,
    app.settings.lifecycle.enabled = true ∧ Adjudicated app policy
  storageId : app.storage.isLocal = true → upload.storageUploadId = some (.session upload.id)

inductive Change (app : AppState σ) (asked : Request) : Database → Database → Prop
  | none (db : Database) : Change app asked db db
  | buckets {db db' : Database} (files : db'.fileObjects = db.fileObjects)
      (sessions : db'.uploadSessions = db.uploadSessions)
      (parts : db'.uploadParts = db.uploadParts) (ids : db'.nextId = db.nextId)
      (jobs : db'.directoryUploadJobs = db.directoryUploadJobs)
      (entries : db'.directoryUploadEntries = db.directoryUploadEntries) :
      Change app asked db db'
  | created {db : Database} {identity : Identity} {request : CreateSession} {upload : UploadSession}
      (asks : asked = .createSession identity request) (new : NewSession app db upload)
      (owner : upload.tenantId = identity.tenantId) :
      Change app asked db (db.insertUpload upload)
  | part {db : Database} {upload : UploadSession} {part : UploadPart} {now : Timestamp}
      (starts : Bool) (found : upload ∈ db.uploadSessions)
      (unfinished : upload.status.terminal = false)
      (starting : starts = true → upload.status = .initiated)
      (owner : part.uploadId = upload.id) (first : 1 ≤ part.partNumber)
      (last : part.partNumber ≤ upload.totalParts) (committed : part.status = .committed)
      (asks : asked.partOwner? = some upload.id)
      (tenant : asked.tenant? = some upload.tenantId) :
      Change app asked db
        (((if starts then db.updateUpload upload.id (·.setStatus .uploading) else db).upsertPart
          part).updateUpload upload.id (·.touch now))
  | touched (db : Database) (uploadId : Uuid) (now : Timestamp)
      (owned : ∃ upload ∈ db.uploadSessions,
        upload.id = uploadId ∧ asked.tenant? = some upload.tenantId) :
      Change app asked db (db.updateUpload uploadId (·.touch now))
  | prolonged (db : Database) (uploadId : Uuid) (expiresAt now : Timestamp)
      (owned : ∃ upload ∈ db.uploadSessions,
        upload.id = uploadId ∧ asked.tenant? = some upload.tenantId) :
      Change app asked db (db.updateUpload uploadId (·.prolong expiresAt now))
  | aborted {db : Database} {upload : UploadSession} (found : upload ∈ db.uploadSessions)
      (unfinished : upload.status.terminal = false)
      (tenant : asked.tenant? = some upload.tenantId) :
      Change app asked db (db.updateUpload upload.id (·.setStatus .aborted))
  | expired {db : Database} {ids : List Uuid}
      (unfinished : ∀ id ∈ ids, ∃ upload ∈ db.uploadSessions,
        upload.id = id ∧ upload.status.terminal = false) (nobody : asked.tenant? = none) :
      Change app asked db (ids.foldl (fun db id => db.updateUpload id (·.setStatus .expired)) db)
  | completed {db : Database} {identity : Identity} {uploadId : Uuid} {upload : UploadSession}
      {stored : StoredObject} {now : Timestamp} (asks : asked = .complete identity uploadId)
      (found : upload ∈ db.uploadSessions)
      (owner : upload.tenantId = identity.tenantId)
      (unfinished : upload.status.terminal = false)
      (vacant : db.occupied identity.tenantId upload.bucket upload.objectKey = false) :
      Change app asked db (uploadCompleted db upload
        (UploadService.completedFileObject app identity upload db.nextId stored now))
  | uploaded {db : Database} {identity : Identity} {request : ProxyUpload} {safeKey : ObjectKey}
      {effective : Option EffectiveLifecycle} {stored : StoredObject} {now : Timestamp}
      (asks : asked = .proxyUpload identity request)
      (policy : ∀ policy ∈ effective, Adjudicated app policy)
      (vacant : db.occupied identity.tenantId request.bucket safeKey = false) :
      Change app asked db (db.addFile
        (FileService.uploadedFileObject app identity request safeKey effective db.nextId stored
          now))
  | file {db db' : Database} {fileId : Uuid} {change : FileObject → FileObject}
      (kind : FileChange app change) (same : LifecycleWorker.SameUploads db db')
      (files : db'.fileObjects = (db.updateFile fileId change).fileObjects)
      (owned : ∃ file ∈ db.fileObjects,
        file.id = fileId ∧ asked.tenant? = some file.tenantId) : Change app asked db db'
  | batch {db db' : Database} {batchSize : Nat} {now : Timestamp} {store store' : σ}
      (same : LifecycleWorker.SameUploads db db')
      (loads : ∀ file ∈ LifecycleWorker.dueFiles db batchSize now, file.loadable = true)
      (turns : LifecycleWorker.Turns app now (LifecycleWorker.dueFiles db batchSize now)
        db.fileObjects store db'.fileObjects store') (nobody : asked.tenant? = none) :
      Change app asked db db'
  | directories {db db' : Database} {identity : Identity} {request : DirectoryRequest}
      (asks : asked = .directoryUpload identity request)
      (changes : DirectoryChanges identity.tenantId db db') : Change app asked db db'

variable {app : AppState σ}

private theorem effectiveLifecycle_adjudicated {requested : Option LifecycleRequest} {base : Timestamp}
    {db db' : Database} {store store' : σ} {effective : Option EffectiveLifecycle}
    (decided : (effectiveLifecycle app requested base).run db store =
      (.ok (effective, db'), store')) (policy : EffectiveLifecycle) (member : policy ∈ effective) :
    app.settings.lifecycle.enabled = true ∧ Adjudicated app policy := by
  rcases effectiveLifecycle_ok decided with ⟨_, empty⟩ | ⟨enabled, found, same, accepted⟩
  · simp [empty] at member
  · subst same
    cases member
    exact ⟨enabled, _, _, _, accepted⟩

private theorem partLayout_ok {multipart : MultipartConfig} {totalSize : Nat} {partSize : Int}
    {layout : Nat × Nat}
    (laidOut : UploadService.partLayout multipart totalSize partSize = .ok layout) :
    multipart.minimumPartSizeBytes ≤ layout.1 ∧ layout.1 ≤ multipart.maximumPartSizeBytes ∧
      0 < layout.1 ∧ layout.2 = UploadService.totalParts totalSize layout.1 ∧
      layout.2 ≤ multipart.maximumParts ∧ partSize = layout.1 := by
  unfold UploadService.partLayout at laidOut
  split_ifs at laidOut with range zero
  simp only at laidOut
  split at laidOut
  · cases laidOut
  · rename_i enough
    cases laidOut
    dsimp only
    refine ⟨by omega, by omega, by omega, rfl, by omega, by omega⟩

theorem createSession_new {identity : Identity} {request : CreateSession} {now : Timestamp}
    {db db' : Database} {store store' : σ} {upload : UploadSession}
    (done : (UploadService.createSession app identity request now).run db store =
      (.ok (upload, db'), store')) :
    NewSession app db upload ∧ upload.tenantId = identity.tenantId ∧ db' = db.insertUpload upload := by
  obtain ⟨safeKey, layout, mode, effective, storageUploadId, lifetime, _, _, laidOut, _, _, decided,
    _, rfl, rfl⟩ := createSession_ok done
  obtain ⟨wide, _, positive, parts, _⟩ := partLayout_ok laidOut
  refine ⟨?_, rfl, rfl⟩
  exact {
    fresh := rfl
    initiated := rfl
    unassembled := rfl
    positive
    wide
    parts
    fits := createSession_fits done
    policy := effectiveLifecycle_adjudicated decided
    storageId := fun onDisk => if_pos onDisk }

theorem unfinished_of_status {status : UploadStatus}
    (either : status = .uploading ∨ status = .initiated) : status.terminal = false := by
  rcases either with rfl | rfl <;> rfl

private theorem expirable_unfinished {db : Database} {batchSize : Nat} {now : Timestamp} {id : Uuid}
    (selected : id ∈ CleanupService.expirable db batchSize now) :
    ∃ upload ∈ db.uploadSessions, upload.id = id ∧ upload.status.terminal = false := by
  obtain ⟨upload, member, same⟩ := List.mem_map.mp (List.mem_of_mem_take selected)
  obtain ⟨present, conditions⟩ := List.mem_filter.mp member
  simp only [decide_eq_true_eq] at conditions
  exact ⟨upload, present, same, unfinished_of_status (by tauto)⟩

private theorem findUpload_owned {db : Database} {asked : Request} {identity : Identity} {uploadId : Uuid}
    {upload : UploadSession} (found : db.findUpload uploadId identity.tenantId = some upload)
    (tenant : asked.tenant? = some identity.tenantId) :
    asked.tenant? = some upload.tenantId :=
  tenant.trans (congrArg some (Database.findUpload_some found).2.2.symm)

private theorem findFile_owned {db : Database} {asked : Request} {identity : Identity} {fileId : Uuid}
    {file : FileObject} (found : db.findFile fileId identity.tenantId = some file)
    (tenant : asked.tenant? = some identity.tenantId) :
    ∃ file ∈ db.fileObjects, file.id = fileId ∧ asked.tenant? = some file.tenantId := by
  obtain ⟨member, named, owner⟩ := Database.findFile_some found
  exact ⟨file, member, named, tenant.trans (congrArg some owner.symm)⟩

/-- A committed request makes one of the changes. -/
theorem handle_change {asked : Request} {now : Timestamp} {db db' : Database}
    {store store' : σ} {reply : Reply}
    (done : (handle app asked now).run db store = (.ok (reply, db'), store')) :
    Change app asked db db' := by
  cases asked with
  | createBucket identity name =>
    obtain ⟨_, done, _⟩ := Program.bind_pure_eq_ok.mp done
    obtain ⟨rfl, _⟩ := createBucket_ok done
    exact .buckets rfl rfl rfl rfl rfl rfl
  | deleteBucket identity name =>
    obtain ⟨_, done, _⟩ := Program.bind_pure_eq_ok.mp done
    obtain ⟨rfl, _⟩ := deleteBucket_ok done
    exact .buckets rfl rfl rfl rfl rfl rfl
  | createSession identity request =>
    obtain ⟨upload, done, _⟩ := Program.bind_pure_eq_ok.mp done
    obtain ⟨new, owner, rfl⟩ := createSession_new done
    exact .created rfl new owner
  | proxyUploadPart identity uploadId partNumber body checksumSha256 =>
    obtain ⟨part, done, _⟩ := Program.bind_pure_eq_ok.mp done
    obtain ⟨upload, number, stored, found, unfinished, inRange, _, _, rfl, rfl⟩ :=
      proxyUploadPart_ok done
    obtain ⟨first, last, _⟩ := checkPartNumber_ok inRange
    have started : (if upload.status = .initiated then
          db.updateUpload upload.id (·.setStatus .uploading) else db) =
        if decide (upload.status = .initiated) = true then
          db.updateUpload upload.id (·.setStatus .uploading) else db := by
      simp only [decide_eq_true_eq]
    rw [partAccepted, started]
    obtain ⟨member, named, _⟩ := Database.findUpload_some found
    exact .part _ member unfinished (by simp) rfl first last rfl (congrArg some named.symm)
      (findUpload_owned found rfl)
  | lostPart identity uploadId partNumber body checksumSha256 =>
    rw [handle, Program.bind_eq_ok] at done
    obtain ⟨_, _, _, _, ended⟩ := done
    cases ended
  | directPart uploadId partNumber body =>
    obtain ⟨_, done, _⟩ := Program.bind_pure_eq_ok.mp done
    rw [putPresigned_ok done]
    exact .none db
  | commitPart identity uploadId partNumber etag sizeBytes checksumSha256 =>
    obtain ⟨_, done, _⟩ := Program.bind_pure_eq_ok.mp done
    obtain ⟨upload, number, found, unfinished, inRange, rfl, _⟩ := commitPart_ok done
    obtain ⟨first, last, _⟩ := checkPartNumber_ok inRange
    obtain ⟨member, named, _⟩ := Database.findUpload_some found
    exact .part false member unfinished (by simp) rfl first last rfl (congrArg some named.symm)
      (findUpload_owned found rfl)
  | resume identity uploadId =>
    obtain ⟨⟨upload, missing⟩, done, _⟩ := Program.bind_pure_eq_ok.mp done
    obtain ⟨_, found, _, _, rfl, _⟩ := resume_ok done
    exact .touched _ _ _ ⟨upload, (Database.findUpload_some found).1, rfl, findUpload_owned found rfl⟩
  | complete identity uploadId =>
    obtain ⟨file, done, _⟩ := Program.bind_pure_eq_ok.mp done
    obtain ⟨upload, found, ⟨_, _, _, rfl, _⟩ | ⟨parts, stored, status, _, _, rfl, vacant, rfl⟩⟩ :=
      complete_ok done
    · exact .none _
    · obtain ⟨member, _, owner⟩ := Database.findUpload_some found
      exact .completed rfl member owner (unfinished_of_status status) vacant
  | abort identity uploadId =>
    obtain ⟨_, done, _⟩ := Program.bind_pure_eq_ok.mp done
    obtain ⟨upload, found, ⟨_, rfl, _⟩ | ⟨status, rfl, _⟩⟩ := abort_ok done
    · exact .none _
    · exact .aborted (Database.findUpload_some found).1 (unfinished_of_status status)
        (findUpload_owned found rfl)
  | refresh identity uploadId =>
    obtain ⟨_, done, _⟩ := Program.bind_pure_eq_ok.mp done
    obtain ⟨upload, expiresAt, found, _, rfl, _⟩ := refresh_ok done
    exact .prolonged _ _ _ _
      ⟨upload, (Database.findUpload_some found).1, rfl, findUpload_owned found rfl⟩
  | expireUploadSessions batchSize =>
    obtain ⟨_, done, _⟩ := Program.bind_pure_eq_ok.mp done
    rw [expireUploadSessions_run] at done
    cases done
    exact .expired (fun id selected => expirable_unfinished selected) rfl
  | proxyUpload identity request =>
    obtain ⟨file, done, _⟩ := Program.bind_pure_eq_ok.mp done
    obtain ⟨safeKey, effective, stored, valid, _, rfl, vacant, rfl⟩ := proxyUpload_ok done
    obtain ⟨_, _, decided⟩ := validateUpload_ok valid
    exact .uploaded rfl (fun policy member => (effectiveLifecycle_adjudicated decided policy member).2)
      vacant
  | delete identity fileId =>
    obtain ⟨_, done, _⟩ := Program.bind_pure_eq_ok.mp done
    obtain ⟨file, found, _, _, _, rfl⟩ := delete_ok done
    exact .file (.deleted now) ⟨rfl, rfl, rfl, rfl, rfl, rfl⟩ rfl
      (findFile_owned found rfl)
  | updateLifecycle identity fileId requested =>
    obtain ⟨_, done, _⟩ := Program.bind_pure_eq_ok.mp done
    obtain ⟨file, policy, event, found, _, accepted, rfl, _⟩ := updateLifecycle_ok done
    exact .file (.updated ⟨_, _, _, accepted⟩) ⟨rfl, rfl, rfl, rfl, rfl, rfl⟩ rfl
      (findFile_owned found rfl)
  | extend identity fileId extendSeconds =>
    obtain ⟨_, done, _⟩ := Program.bind_pure_eq_ok.mp done
    obtain ⟨file, policy, event, found, ⟨_, _, _, _, _, accepted⟩, rfl, _⟩ := extend_ok done
    exact .file (.extended ⟨_, _, _, accepted⟩) ⟨rfl, rfl, rfl, rfl, rfl, rfl⟩ rfl
      (findFile_owned found rfl)
  | makePermanent identity fileId =>
    obtain ⟨_, done, _⟩ := Program.bind_pure_eq_ok.mp done
    obtain ⟨file, event, found, _, rfl, _⟩ := makePermanent_ok done
    exact .file .permanent ⟨rfl, rfl, rfl, rfl, rfl, rfl⟩ rfl
      (findFile_owned found rfl)
  | setLegalHold identity fileId hold =>
    obtain ⟨_, done, _⟩ := Program.bind_pure_eq_ok.mp done
    obtain ⟨file, event, found, rfl, _⟩ := setLegalHold_ok done
    exact .file (.held hold) ⟨rfl, rfl, rfl, rfl, rfl, rfl⟩ rfl
      (findFile_owned found rfl)
  | processBatch batchSize =>
    obtain ⟨_, done, _⟩ := Program.bind_pure_eq_ok.mp done
    rcases LifecycleWorker.processBatch_cases app batchSize now db store with
      failed | ⟨processed, db₂, store₂, finished, same, loads, turns⟩
    · rw [failed] at done; cases done
    · rw [finished] at done
      cases done
      exact .batch same loads turns rfl
  | read identity request =>
    obtain ⟨_, done, _⟩ := Program.bind_pure_eq_ok.mp done
    rw [((read_readOnly identity request).ok done).1]
    exact .none _
  | directoryUpload identity request =>
    obtain ⟨_, done, _⟩ := Program.bind_pure_eq_ok.mp done
    exact .directories rfl (directoryUpload_ensures db store _ db' _ rfl done)

/-- Whatever a request does to the database is one of the changes. -/
theorem serve_change (app : AppState σ) (world : World Database σ) (timed : Timed) :
    Change app timed.1 world.db (serve app world timed).2.db :=
  World.execute_preserves (fun after => Change app timed.1 world.db after.db)
    (fun _ _ _ done => handle_change done) fun _ _ _ => .none world.db

end PyUploadX
