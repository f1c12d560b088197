import PyUploadX.System

/-! What the requests do when they succeed: one lemma for each service function,
naming its guards, the rows it writes and the store it leaves. -/
namespace PyUploadX

open Kit

variable {σ : Type} {app : AppState σ}

section Checks

theorem isBucketAllowed_readOnly (tenantId bucket : String) :
    (BucketService.isBucketAllowed app tenantId bucket).ReadOnly := by
  unfold BucketService.isBucketAllowed
  split
  · exact .pure _
  · exact .bind (.ask _) fun _ => .pure _

theorem validateBucket_readOnly (identity : Identity) (bucket : String) :
    (validateBucket app identity bucket).ReadOnly :=
  .bind (isBucketAllowed_readOnly _ _) fun _ => .refuseIf _ _

theorem refuseExisting_readOnly (bucket : String) (objectKey : ObjectKey) :
    (refuseExisting app bucket objectKey).ReadOnly := by
  unfold refuseExisting
  split
  · exact .bind (.askStore _ _) fun _ => .refuseIf _ _
  · exact .pure _

theorem effectiveLifecycle_readOnly (requested : Option LifecycleRequest) (base : Timestamp) :
    (effectiveLifecycle app requested base).ReadOnly := by
  unfold effectiveLifecycle
  split
  · exact .bind (.ask _) fun _ => .bind (.liftExcept _) fun _ => .pure _
  · exact .pure _

theorem chooseMode_readOnly (totalSize : Nat) (uploadMode : String) :
    (UploadService.chooseMode app totalSize uploadMode).ReadOnly := by
  unfold UploadService.chooseMode
  refine .bind (.ask _) fun _ => ?_
  dsimp only
  split
  · refine .bind (.ask _) fun _ => ?_
    split <;> exact .pure _
  · split
    · exact .pure _
    · split
      · exact .bind (.refuseIf _ _) fun _ => .pure _
      · exact .fail _

theorem getSession_readOnly (identity : Identity) (uploadId : Uuid) :
    (UploadService.getSession identity uploadId : Handler σ UploadSession).ReadOnly := by
  refine .bind (.select _ _) fun found => ?_
  cases found with
  | none => exact .fail _
  | some upload => exact .pure _

/-- Under the policy `reject` a passed conflict check means a vacant key. -/
theorem refuseExisting_ok {bucket : String} {objectKey : ObjectKey} {db db' : Database}
    {store store' : σ} {out : Unit}
    (passed : (refuseExisting app bucket objectKey).run db store = (.ok (out, db'), store'))
    (reject : app.settings.uploads.objectConflictPolicy = "reject") :
    app.storage.objectExists bucket objectKey store = .ok false := by
  unfold refuseExisting at passed
  rw [if_pos reject] at passed
  rw [Program.askStore_bind_ok] at passed
  obtain ⟨stored, answer, passed⟩ := passed
  rw [Program.run_refuseIf] at passed
  cases stored with
  | true => simp at passed
  | false => exact answer

/-- An effective policy comes from the adjudication, and only while lifecycles are enabled. -/
theorem effectiveLifecycle_ok {requested : Option LifecycleRequest} {base : Timestamp}
    {db db' : Database} {store store' : σ} {effective : Option EffectiveLifecycle}
    (decided : (effectiveLifecycle app requested base).run db store =
      (.ok (effective, db'), store')) :
    (app.settings.lifecycle.enabled = false ∧ effective = none) ∨
    (app.settings.lifecycle.enabled = true ∧ ∃ policy, effective = some policy ∧
      computeEffectiveLifecycle requested
        (db.overrides.lifecycleDefault.getD app.settings.lifecycle.defaultPolicy)
        app.settings.lifecycle.policy base = .ok policy) := by
  unfold effectiveLifecycle at decided
  split at decided
  · rename_i enabled
    simp only [SettingService.getLifecycleDefault, Program.run_ask_bind,
      Program.liftExcept_bind_ok, Program.pure_eq_ok] at decided
    obtain ⟨policy, accepted, same, _⟩ := decided
    cases same
    exact .inr ⟨enabled, policy, rfl, accepted⟩
  · rename_i disabled
    rw [Program.pure_eq_ok] at decided
    cases decided.1
    exact .inl ⟨by simpa using disabled, rfl⟩

theorem getSession_ok {identity : Identity} {uploadId : Uuid} {upload : UploadSession}
    {db db' : Database} {store store' : σ}
    (found : (UploadService.getSession identity uploadId : Handler σ UploadSession).run db store =
      (.ok (upload, db'), store')) :
    db.findUpload uploadId identity.tenantId = some upload := by
  unfold UploadService.getSession UploadRepository.getUpload at found
  rw [Program.select_bind_ok] at found
  obtain ⟨value, query, found⟩ := found
  cases query
  split at found
  · rename_i present
    rw [Program.pure_eq_ok] at found
    cases found.1
    exact present
  · cases found

theorem lockFile_ok {identity : Identity} {fileId : Uuid} {file : FileObject}
    {db db' : Database} {store store' : σ}
    (found : (LifecycleService.lockFile identity fileId : Handler σ FileObject).run db store =
      (.ok (file, db'), store')) :
    db.findFile fileId identity.tenantId = some file ∧ file.loadable = true ∧
      db' = db ∧ store' = store := by
  unfold LifecycleService.lockFile FileRepository.getFile at found
  rw [Program.select_bind_ok] at found
  obtain ⟨value, query, found⟩ := found
  obtain ⟨present, loads⟩ := FileRepository.loadFile_ok query
  split at found
  · rw [Program.pure_eq_ok] at found
    obtain ⟨same, sameStore⟩ := found
    cases same
    exact ⟨present, loads file rfl, rfl, sameStore⟩
  · cases found

end Checks

section Uploads

open UploadService

theorem initiateMultipart_ok {identity : Identity} {mode : UploadMode} {bucket : String}
    {objectKey : ObjectKey} {contentType : Option String} {db db' : Database} {store store' : σ}
    {storageUploadId : Option StorageUploadId}
    (done : (initiateMultipart app identity mode bucket objectKey contentType).run db store =
      (.ok (storageUploadId, db'), store')) :
    db' = db ∧
      ((mode ≠ .presigned ∧ storageUploadId = none ∧ store' = store) ∨
        ∃ metadata issued,
          app.storage.initiateMultipartUpload bucket objectKey contentType metadata store =
              (.ok issued, store') ∧
            storageUploadId = if app.storage.isLocal then none else some (.issued issued)) := by
  unfold initiateMultipart at done
  split at done
  · rw [Program.onStore_bind_ok] at done
    obtain ⟨issued, store₁, initiated, done⟩ := done
    rw [Program.pure_eq_ok] at done
    obtain ⟨same, sameStore⟩ := done
    cases same
    subst sameStore
    exact ⟨rfl, .inr ⟨_, issued, initiated, rfl⟩⟩
  · rename_i proxied
    rw [Program.pure_eq_ok] at done
    obtain ⟨same, sameStore⟩ := done
    cases same
    exact ⟨rfl, .inl ⟨proxied, rfl, sameStore⟩⟩

/-- A session that is created, with its effective lifetime. -/
theorem createSession_granted {identity : Identity} {request : CreateSession} {now : Timestamp}
    {db db' : Database} {store store' : σ} {upload : UploadSession}
    (done : (createSession app identity request now).run db store =
      (.ok (upload, db'), store')) :
    ∃ safeKey layout mode effective storageUploadId,
      validateObjectKey app request.objectKey = .ok safeKey ∧
      0 ≤ request.totalSize ∧
      partLayout app.settings.uploads.multipart request.totalSize.toNat
        (request.partSize.getD (db.overrides.defaultPartSizeBytes.getD
          app.settings.uploads.multipart.defaultPartSizeBytes)) = .ok layout ∧
      (chooseMode app request.totalSize.toNat request.uploadMode).run db store =
        (.ok (mode, db), store) ∧
      (refuseExisting app request.bucket safeKey).run db store = (.ok ((), db), store) ∧
      (effectiveLifecycle app request.lifecycle now).run db store =
        (.ok (effective, db), store) ∧
      (initiateMultipart app identity mode request.bucket safeKey request.contentType).run
        db store = (.ok (storageUploadId, db), store') ∧
      upload = newSession app identity request safeKey layout mode effective storageUploadId
        (db.overrides.sessionExpiresAfterSeconds.getD
          app.settings.uploads.session.expiresAfterSeconds) db.nextId now ∧
      db' = db.insertUpload upload ∧ upload.fits app.settings.database.dialect = true := by
  unfold createSession at done
  rw [(validateBucket_readOnly _ _).bind_eq_ok] at done
  obtain ⟨_, _, done⟩ := done
  simp only [Program.liftExcept_bind_ok, Program.refuseIf_bind_ok, SettingService.getMaxFileSize,
    SettingService.getDefaultPartSize, Program.run_ask_bind] at done
  obtain ⟨safeKey, normalized, nonnegative, _, layout, laidOut, done⟩ := done
  rw [(chooseMode_readOnly _ _).bind_eq_ok] at done
  obtain ⟨mode, chosen, done⟩ := done
  rw [(refuseExisting_readOnly _ _).bind_eq_ok] at done
  obtain ⟨_, vacant, done⟩ := done
  rw [(effectiveLifecycle_readOnly _ _).bind_eq_ok] at done
  obtain ⟨effective, decided, done⟩ := done
  rw [Program.bind_eq_ok] at done
  obtain ⟨storageUploadId, db₁, store₁, initiated, done⟩ := done
  obtain ⟨same, _⟩ := initiateMultipart_ok initiated
  subst same
  simp only [SettingService.getSessionExpiry, newId, Program.run_ask_bind,
    UploadRepository.insertUpload_bind_ok, Program.pure_eq_ok] at done
  obtain ⟨fits, same, sameStore⟩ := done
  cases same
  subst sameStore
  exact ⟨safeKey, layout, mode, effective, storageUploadId, normalized, by omega, laidOut, chosen,
    vacant, decided, initiated, rfl, rfl, fits⟩

theorem createSession_ok {identity : Identity} {request : CreateSession} {now : Timestamp}
    {db db' : Database} {store store' : σ} {upload : UploadSession}
    (done : (createSession app identity request now).run db store =
      (.ok (upload, db'), store')) :
    ∃ safeKey layout mode effective storageUploadId lifetime,
      validateObjectKey app request.objectKey = .ok safeKey ∧
      0 ≤ request.totalSize ∧
      partLayout app.settings.uploads.multipart request.totalSize.toNat
        (request.partSize.getD (db.overrides.defaultPartSizeBytes.getD
          app.settings.uploads.multipart.defaultPartSizeBytes)) = .ok layout ∧
      (chooseMode app request.totalSize.toNat request.uploadMode).run db store =
        (.ok (mode, db), store) ∧
      (refuseExisting app request.bucket safeKey).run db store = (.ok ((), db), store) ∧
      (effectiveLifecycle app request.lifecycle now).run db store =
        (.ok (effective, db), store) ∧
      (initiateMultipart app identity mode request.bucket safeKey request.contentType).run
        db store = (.ok (storageUploadId, db), store') ∧
      upload = newSession app identity request safeKey layout mode effective storageUploadId
        lifetime db.nextId now ∧
      db' = db.insertUpload upload := by
  obtain ⟨safeKey, layout, mode, effective, storageUploadId, normalized, nonnegative, laidOut, chosen,
    vacant, decided, initiated, row, inserted, _⟩ := createSession_granted done
  exact ⟨safeKey, layout, mode, effective, storageUploadId, _, normalized, nonnegative, laidOut,
    chosen, vacant, decided, initiated, row, inserted⟩

theorem createSession_fits {identity : Identity} {request : CreateSession} {now : Timestamp}
    {db db' : Database} {store store' : σ} {upload : UploadSession}
    (done : (createSession app identity request now).run db store =
      (.ok (upload, db'), store')) : upload.fits app.settings.database.dialect = true := by
  obtain ⟨_, _, _, _, _, _, _, _, _, _, _, _, _, _, fits⟩ := createSession_granted done
  exact fits

private theorem ensureActive_ok {upload : UploadSession} {out : Unit}
    (active : ensureActive upload = .ok out) : upload.status.terminal = false := by
  unfold ensureActive at active
  cases status : upload.status <;> simp_all [UploadStatus.terminal]

theorem checkPartNumber_ok {upload : UploadSession} {partNumber : Int} {number : Nat}
    (inRange : checkPartNumber upload partNumber = .ok number) :
    1 ≤ number ∧ number ≤ upload.totalParts ∧ partNumber = number := by
  unfold checkPartNumber at inRange
  split at inRange
  · rename_i bounds
    cases inRange
    omega
  · cases inRange

/-- The rows after an accepted part. -/
def partAccepted (db : Database) (upload : UploadSession) (part : UploadPart) (now : Timestamp) :
    Database :=
  ((if upload.status = .initiated then
      db.updateUpload upload.id (·.setStatus .uploading) else db).upsertPart
    part).updateUpload upload.id (·.touch now)

theorem proxyUploadPart_ok {identity : Identity} {uploadId : Uuid} {partNumber : Int}
    {stream : Bytes} {sizeBytes : Nat} {checksumSha256 : Option String} {now : Timestamp}
    {db db' : Database} {store store' : σ} {part : UploadPart}
    (done : (proxyUploadPart app identity uploadId partNumber stream sizeBytes checksumSha256
      now).run db store = (.ok (part, db'), store')) :
    ∃ upload number stored,
      db.findUpload uploadId identity.tenantId = some upload ∧
      upload.status.terminal = false ∧
      checkPartNumber upload partNumber = .ok number ∧
      checkPartSize app.settings.uploads.multipart.minimumPartSizeBytes upload number sizeBytes =
        .ok () ∧
      app.storage.uploadPart upload.bucket upload.objectKey upload.storageKey number stream
        sizeBytes checksumSha256 store = (.ok stored, store') ∧
      part = storedRow upload number stored checksumSha256 ∧
      db' = partAccepted db upload part now := by
  unfold proxyUploadPart at done
  rw [(getSession_readOnly _ _).bind_eq_ok] at done
  obtain ⟨upload, found, done⟩ := done
  simp only [Program.liftExcept_bind_ok] at done
  obtain ⟨_, active, number, inRange, _, sized, done⟩ := done
  refine ⟨upload, number, ?_⟩
  simp only [UploadRepository.updateStatus, PartRepository.upsertPart,
    UploadRepository.touchActivity] at done
  unfold partAccepted
  split at done <;> rename_i status
  · simp only [Program.onStore_bind_ok, Program.run_modify_bind, Program.pure_eq_ok] at done
    obtain ⟨stored, store₁, put, same, sameStore⟩ := done
    cases same
    subst sameStore
    exact ⟨stored, getSession_ok found, ensureActive_ok active, inRange, sized, put, rfl,
      by rw [if_pos status]⟩
  · simp only [Program.onStore_bind_ok, Program.run_modify_bind, Program.pure_eq_ok] at done
    obtain ⟨stored, store₁, put, same, sameStore⟩ := done
    cases same
    subst sameStore
    exact ⟨stored, getSession_ok found, ensureActive_ok active, inRange, sized, put, rfl,
      by rw [if_neg status]⟩

theorem commitPart_ok {identity : Identity} {uploadId : Uuid} {partNumber : Int} {etag : String}
    {sizeBytes : Int} {checksumSha256 : Option String} {now : Timestamp}
    {db db' : Database} {store store' : σ} {out : Unit}
    (done : (commitPart identity uploadId partNumber etag sizeBytes checksumSha256 now :
      Handler σ Unit).run db store = (.ok (out, db'), store')) :
    ∃ upload number,
      db.findUpload uploadId identity.tenantId = some upload ∧
      upload.status.terminal = false ∧
      checkPartNumber upload partNumber = .ok number ∧
      db' = (db.upsertPart (reportedRow upload number etag sizeBytes checksumSha256)).updateUpload
        upload.id (·.touch now) ∧
      store' = store ∧ 0 ≤ sizeBytes := by
  unfold commitPart Metrics.inc at done
  rw [(getSession_readOnly _ _).bind_eq_ok] at done
  obtain ⟨upload, found, done⟩ := done
  simp only [Program.liftExcept_bind_ok, Program.refuseIf_bind_ok, PartRepository.upsertPart,
    UploadRepository.touchActivity, Program.run_modify_bind, Program.run_modify] at done
  obtain ⟨_, active, number, inRange, counted, done⟩ := done
  cases done
  exact ⟨upload, number, getSession_ok found, ensureActive_ok active, inRange, rfl, rfl,
    Int.not_lt.mp counted⟩

theorem storedNumbers_readOnly (upload : UploadSession) :
    (storedNumbers app upload).ReadOnly := by
  intro db store
  unfold storedNumbers
  split
  · split
    · rw [Program.run_tryStore_bind]
      dsimp only
      split
      · exact .inl ⟨_, rfl⟩
      · split
        · exact .inl ⟨_, rfl⟩
        · exact .inr ⟨_, rfl⟩
    · exact .inl ⟨_, rfl⟩
  · exact .inl ⟨_, rfl⟩

theorem resume_ok {identity : Identity} {uploadId : Uuid} {now : Timestamp}
    {db db' : Database} {store store' : σ} {upload : UploadSession} {missing : List Nat}
    (done : (resume app identity uploadId now).run db store =
      (.ok ((upload, missing), db'), store')) :
    ∃ stored,
      db.findUpload uploadId identity.tenantId = some upload ∧
      (storedNumbers app upload).run db store = (.ok (stored, db), store) ∧
      missing = missingNumbers upload.totalParts
        ((committedOf (db.partsOf upload.id)).map (·.partNumber) ++ stored) ∧
      db' = db.updateUpload upload.id (·.touch now) ∧
      store' = store := by
  unfold resume at done
  rw [(getSession_readOnly _ _).bind_eq_ok] at done
  obtain ⟨found, session, done⟩ := done
  simp only [Program.refuseIf_bind_ok, PartRepository.listPartsForUpload,
    Program.run_ask_bind] at done
  obtain ⟨_, _, done⟩ := done
  rw [(storedNumbers_readOnly _).bind_eq_ok] at done
  obtain ⟨stored, listing, done⟩ := done
  simp only [UploadRepository.touchActivity, Program.run_modify_bind, Program.pure_eq_ok] at done
  obtain ⟨same, sameStore⟩ := done
  cases same
  exact ⟨stored, getSession_ok session, listing, rfl, rfl, sameStore⟩

private theorem storedParts_readOnly (upload : UploadSession) (committed : List UploadPart) :
    (storedParts app upload committed).ReadOnly := by
  unfold storedParts
  split
  · split
    · refine .bind (.askStore _ _) fun listed => ?_
      dsimp only
      split
      · exact .fail _
      · exact .pure _
    · exact .pure _
  · exact .pure _

theorem partsToComplete_readOnly (app : AppState σ) (upload : UploadSession) :
    (partsToComplete app upload).ReadOnly := by
  refine .bind (.ask _) fun rows => .bind (.refuseIf _ _) fun _ =>
    .bind (storedParts_readOnly _ _) fun parts => ?_
  dsimp only
  split
  · exact .bind (.liftExcept _) fun _ => .pure _
  · exact .pure _

/-- Parts are handed over only for an unfinished session with enough committed rows. -/
theorem partsToComplete_ok {upload : UploadSession} {db db' : Database} {store store' : σ}
    {parts : List UploadedPart}
    (done : (partsToComplete app upload).run db store = (.ok (parts, db'), store')) :
    upload.totalParts ≤ (committedOf (db.partsOf upload.id)).length ∧
      (storedParts app upload (committedOf (db.partsOf upload.id))).run db store =
        (.ok (parts, db), store) ∧
      (upload.status = .uploading ∨ upload.status = .initiated) := by
  unfold partsToComplete at done
  simp only [PartRepository.listPartsForUpload, Program.run_ask_bind,
    Program.refuseIf_bind_ok] at done
  obtain ⟨enough, done⟩ := done
  rw [(storedParts_readOnly _ _).bind_eq_ok] at done
  obtain ⟨handed, listed, done⟩ := done
  split at done
  · rename_i other
    rw [Program.liftExcept_bind_ok] at done
    obtain ⟨target, moved, done⟩ := done
    exact absurd (open_of_transition (.inr rfl) moved) (not_or.mpr other)
  · rename_i unfinished
    rw [Program.pure_eq_ok] at done
    cases done.1
    refine ⟨by omega, listed, ?_⟩
    tauto

theorem completedFile_readOnly (identity : Identity) (upload : UploadSession) :
    (completedFile identity upload : Handler σ (Option FileObject)).ReadOnly := by
  unfold completedFile
  split
  · split
    · exact .select _ _
    · exact .pure _
  · exact .pure _

theorem getFile_ok {fileId : Uuid} {tenantId : String} {forUpdate : Bool}
    {found : Option FileObject} {db db' : Database} {store store' : σ}
    (read : (FileRepository.getFile fileId tenantId forUpdate :
      Handler σ (Option FileObject)).run db store = (.ok (found, db'), store')) :
    db.findFile fileId tenantId = found ∧ (∀ file ∈ found, file.loadable = true) := by
  unfold FileRepository.getFile at read
  simp only [Program.run] at read
  cases query : FileRepository.loadFile (db.findFile fileId tenantId) with
  | error failure =>
    rw [query] at read
    cases read
  | ok value =>
    rw [query] at read
    cases read
    exact FileRepository.loadFile_ok query

private theorem completedFile_some {identity : Identity} {upload : UploadSession} {file : FileObject}
    {db db' : Database} {store store' : σ}
    (read : (completedFile identity upload : Handler σ (Option FileObject)).run db store =
      (.ok (some file, db'), store')) :
    upload.status = .completed ∧ ∃ fileId, upload.completedFileId = some fileId ∧
      db.findFile fileId identity.tenantId = some file := by
  unfold completedFile at read
  split at read
  · rename_i completed
    split at read
    · rename_i fileId reference
      exact ⟨completed, fileId, reference, (getFile_ok read).1⟩
    · rw [Program.pure_eq_ok] at read
      cases read.1
  · rw [Program.pure_eq_ok] at read
    cases read.1

/-- The rows after a completion. -/
def uploadCompleted (db : Database) (upload : UploadSession) (file : FileObject) : Database :=
  (db.addFile file).updateUpload upload.id (·.setCompleted file.id)

private theorem assemble_ok {identity : Identity} {upload : UploadSession} {parts : List UploadedPart}
    {now : Timestamp} {db db' : Database} {store store' : σ} {file : FileObject}
    (done : (assemble app identity upload parts now).run db store = (.ok (file, db'), store')) :
    ∃ stored,
      app.storage.completeMultipartUpload upload.bucket upload.objectKey upload.storageKey parts
        store = (.ok stored, store') ∧
      file = completedFileObject app identity upload db.nextId stored now ∧
      db.occupied identity.tenantId upload.bucket upload.objectKey = false ∧
      db' = uploadCompleted db upload file := by
  unfold assemble at done
  simp only [UploadRepository.flushUpload, newId, Program.run_modify_bind,
    Program.onStore_bind_ok, Program.run_ask_bind, FileRepository.insertFile_bind_ok,
    Program.pure_eq_ok] at done
  obtain ⟨stored, store₁, completed, _, vacant, same, sameStore⟩ := done
  cases same
  subst sameStore
  refine ⟨stored, completed, rfl, vacant, ?_⟩
  exact Database.updateUpload_updateUpload (db.addFile _) upload.id
    (·.setStatus .completing) (·.setCompleted _) fun _ => rfl

/-- `complete` either finds the session completed before, or assembles it now. -/
theorem complete_ok {identity : Identity} {uploadId : Uuid} {now : Timestamp}
    {db db' : Database} {store store' : σ} {file : FileObject}
    (done : (complete app identity uploadId now).run db store = (.ok (file, db'), store')) :
    ∃ upload, db.findUpload uploadId identity.tenantId = some upload ∧
      ((upload.status = .completed ∧ upload.completedFileId = some file.id ∧
          db.findFile file.id identity.tenantId = some file ∧ db' = db ∧ store' = store) ∨
        ∃ parts stored,
          (upload.status = .uploading ∨ upload.status = .initiated) ∧
          (partsToComplete app upload).run db store = (.ok (parts, db), store) ∧
          app.storage.completeMultipartUpload upload.bucket upload.objectKey upload.storageKey
            parts store = (.ok stored, store') ∧
          file = completedFileObject app identity upload db.nextId stored now ∧
          db.occupied identity.tenantId upload.bucket upload.objectKey = false ∧
          db' = uploadCompleted db upload file) := by
  unfold complete UploadRepository.getUpload at done
  rw [Program.select_bind_ok] at done
  obtain ⟨value, query, done⟩ := done
  cases query
  split at done
  · rename_i upload found
    refine ⟨upload, found, ?_⟩
    rw [(completedFile_readOnly _ _).bind_eq_ok] at done
    obtain ⟨existing, read, done⟩ := done
    split at done
    · rw [Program.pure_eq_ok] at done
      obtain ⟨same, sameStore⟩ := done
      cases same
      obtain ⟨status, fileId, reference, row⟩ := completedFile_some read
      obtain ⟨_, named, _⟩ := Database.findFile_some row
      subst named
      exact .inl ⟨status, reference, row, rfl, sameStore⟩
    · simp only [Program.refuseIf_bind_ok] at done
      obtain ⟨_, _, done⟩ := done
      rw [(partsToComplete_readOnly _ _).bind_eq_ok] at done
      obtain ⟨parts, prepared, done⟩ := done
      obtain ⟨stored, completed, row, vacant, after⟩ := assemble_ok done
      exact .inr ⟨parts, stored, (partsToComplete_ok prepared).2.2, prepared, completed, row,
        vacant, after⟩
  · cases done

theorem abort_ok {identity : Identity} {uploadId : Uuid} {db db' : Database} {store store' : σ}
    {out : UploadSession}
    (done : (abort app identity uploadId).run db store = (.ok (out, db'), store')) :
    ∃ upload, db.findUpload uploadId identity.tenantId = some upload ∧
      (((upload.status = .aborted ∨ upload.status = .expired) ∧ db' = db ∧ store' = store) ∨
        ((upload.status = .uploading ∨ upload.status = .initiated) ∧
          db' = db.updateUpload upload.id (·.setStatus .aborted) ∧
          (store' = store ∨ ∃ storageUploadId, upload.storageId? = some storageUploadId ∧
            store' = (app.storage.abortMultipartUpload upload.bucket upload.objectKey
              storageUploadId store).2))) := by
  unfold abort UploadRepository.getUpload at done
  rw [Program.select_bind_ok] at done
  obtain ⟨value, query, done⟩ := done
  cases query
  split at done
  · rename_i upload found
    refine ⟨upload, found, ?_⟩
    rw [Program.refuseIf_bind_ok] at done
    obtain ⟨_, done⟩ := done
    split at done
    · rename_i finished
      rw [Program.pure_eq_ok] at done
      cases done.1
      exact .inl ⟨finished, rfl, done.2⟩
    · rw [Program.liftExcept_bind_ok] at done
      obtain ⟨target, moved, done⟩ := done
      refine .inr ⟨open_of_transition (.inl rfl) moved, ?_⟩
      simp only [UploadRepository.flushUpload, Program.run_modify_bind] at done
      split at done
      · rename_i storageUploadId named
        simp only [Program.run_tryStore_bind, Program.liftExcept_bind_ok,
          Program.run_modify_bind, Program.pure_eq_ok] at done
        obtain ⟨_, _, same, sameStore⟩ := done
        cases same
        exact ⟨Database.updateUpload_updateUpload db upload.id (·.setStatus .aborting)
          (·.setStatus .aborted) fun _ => rfl, .inr ⟨storageUploadId, named, sameStore⟩⟩
      · simp only [Program.run_modify_bind, Program.pure_eq_ok] at done
        obtain ⟨same, sameStore⟩ := done
        cases same
        exact ⟨Database.updateUpload_updateUpload db upload.id (·.setStatus .aborting)
          (·.setStatus .aborted) fun _ => rfl, .inl sameStore⟩
  · cases done

/-- A refresh that goes through, and the row it leaves. -/
theorem refresh_eq_ok {identity : Identity} {uploadId : Uuid} {now : Timestamp}
    {db db' : Database} {store store' : σ} {out : UploadSession} :
    (refresh app identity uploadId now).run db store = (.ok (out, db'), store') ↔
      ∃ upload ∈ db.findUpload uploadId identity.tenantId,
        app.settings.uploads.session.refreshEnabled = true ∧ upload.status.terminal = false ∧
        now ≤ upload.createdAt + seconds app.settings.uploads.session.maximumLifetimeSeconds ∧
        let expiresAt := now + seconds (db.overrides.sessionExpiresAfterSeconds.getD
          app.settings.uploads.session.expiresAfterSeconds)
        out = upload.prolong expiresAt now ∧
          db' = db.updateUpload upload.id (·.prolong expiresAt now) ∧ store' = store := by
  unfold refresh UploadRepository.getUpload
  rw [Program.refuseIf_bind_ok, Program.select_bind_ok]
  constructor
  · rintro ⟨enabled, value, query, done⟩
    cases query
    split at done
    · rename_i upload found
      simp only [Program.refuseIf_bind_ok, SettingService.getSessionExpiry, Program.run_ask_bind,
        UploadRepository.flushUpload, Program.run_modify_bind, Program.pure_eq_ok] at done
      obtain ⟨unfinished, current, same, sameStore⟩ := done
      cases same
      exact ⟨upload, found, by simpa using enabled, by simpa using unfinished, Int.not_lt.mp current,
        rfl, rfl, sameStore⟩
    · cases done
  · rintro ⟨upload, found, enabled, unfinished, current, rfl, rfl, rfl⟩
    refine ⟨by simp [enabled], some upload, congrArg Except.ok found, ?_⟩
    simp only [Program.refuseIf_bind_ok, SettingService.getSessionExpiry, Program.run_ask_bind,
      UploadRepository.flushUpload, Program.run_modify_bind, Program.pure_eq_ok]
    exact ⟨by simp [unfinished], Int.not_lt.mpr current, trivial, trivial⟩

theorem refresh_ok {identity : Identity} {uploadId : Uuid} {now : Timestamp}
    {db db' : Database} {store store' : σ} {out : UploadSession}
    (done : (refresh app identity uploadId now).run db store = (.ok (out, db'), store')) :
    ∃ upload expiresAt, db.findUpload uploadId identity.tenantId = some upload ∧
      upload.status.terminal = false ∧
      db' = db.updateUpload upload.id (·.prolong expiresAt now) ∧ store' = store := by
  obtain ⟨upload, found, _, unfinished, _, _, row, sameStore⟩ := refresh_eq_ok.mp done
  exact ⟨upload, _, found, unfinished, row, sameStore⟩

/-- The sweep only marks the sessions it names as expired. -/
theorem expired_eq (db : Database) (ids : List Uuid) :
    ids.foldl (fun db id => db.updateUpload id (·.setStatus .expired)) db =
      { db with
        uploadSessions := db.uploadSessions.map fun row =>
          if row.id ∈ ids then row.setStatus .expired else row } := by
  induction ids generalizing db with
  | nil => simp
  | cons id rest ih =>
    rw [List.foldl_cons, ih, Database.updateUpload]
    congr 1
    rw [List.map_map]
    apply List.map_congr_left
    intro row _
    by_cases named : row.id = id
    · simp [named, UploadSession.setStatus]
    · simp [named]

theorem expired_uploadSessions (db : Database) (ids : List Uuid) :
    (ids.foldl (fun db id => db.updateUpload id (·.setStatus .expired)) db).uploadSessions =
      db.uploadSessions.map fun row => if row.id ∈ ids then row.setStatus .expired else row := by
  rw [expired_eq]

theorem expired_fileObjects (db : Database) (ids : List Uuid) :
    (ids.foldl (fun db id => db.updateUpload id (·.setStatus .expired)) db).fileObjects =
      db.fileObjects := by
  rw [expired_eq]

theorem expired_uploadParts (db : Database) (ids : List Uuid) :
    (ids.foldl (fun db id => db.updateUpload id (·.setStatus .expired)) db).uploadParts =
      db.uploadParts := by
  rw [expired_eq]

private theorem expireAll_run (ids : List Uuid) (db : Database) (store : σ) :
    (CleanupService.expireAll ids : Handler σ Unit).run db store =
      (.ok ((), ids.foldl (fun db id => db.updateUpload id (·.setStatus .expired)) db), store) := by
  induction ids generalizing db with
  | nil => rfl
  | cons id rest ih =>
    unfold CleanupService.expireAll
    rw [Program.run_modify_bind]
    exact ih _

theorem expireUploadSessions_run (batchSize : Nat) (now : Timestamp) (db : Database) (store : σ) :
    (CleanupService.expireUploadSessions batchSize now : Handler σ Nat).run db store =
      (.ok ((CleanupService.expirable db batchSize now).length,
        (CleanupService.expirable db batchSize now).foldl
          (fun db id => db.updateUpload id (·.setStatus .expired)) db), store) := by
  unfold CleanupService.expireUploadSessions
  rw [Program.run_ask_bind, Program.run_bind, expireAll_run]
  rfl

theorem putPresigned_ok {uploadId : Uuid} {partNumber : Nat} {body : Bytes}
    {db db' : Database} {store store' : σ} {out : Unit}
    (done : (putPresigned app uploadId partNumber body).run db store = (.ok (out, db'), store')) :
    db' = db := by
  unfold putPresigned at done
  rw [Program.run_ask_bind] at done
  split at done
  · cases done
  · split at done
    · cases done
    · simp only [Program.refuseIf_bind_ok, Program.liftExcept_bind_ok, Program.onStore_bind_ok,
        Program.pure_eq_ok] at done
      obtain ⟨_, _, _, _, _, _, same, _⟩ := done
      cases same
      rfl

end Uploads

section Files

open FileService LifecycleService

theorem validateUpload_readOnly (app : AppState σ) (identity : Identity) (request : ProxyUpload)
    (now : Timestamp) :
    (validateUpload app identity request now).ReadOnly :=
  .bind (validateBucket_readOnly _ _) fun _ => .bind (.liftExcept _) fun _ => .bind (.ask _) fun _ =>
    .bind (.refuseIf _ _) fun _ => .bind (refuseExisting_readOnly _ _) fun _ =>
      .bind (effectiveLifecycle_readOnly _ _) fun _ => .pure _

theorem validateUpload_ok {identity : Identity} {request : ProxyUpload} {now : Timestamp}
    {db db' : Database} {store store' : σ} {safeKey : ObjectKey}
    {effective : Option EffectiveLifecycle}
    (passed : (validateUpload app identity request now).run db store =
      (.ok ((safeKey, effective), db'), store')) :
    validateObjectKey app request.objectKey = .ok safeKey ∧
      (refuseExisting app request.bucket safeKey).run db store = (.ok ((), db), store) ∧
      (effectiveLifecycle app request.lifecycle now).run db store =
        (.ok (effective, db), store) := by
  unfold validateUpload at passed
  rw [(validateBucket_readOnly _ _).bind_eq_ok] at passed
  obtain ⟨_, _, passed⟩ := passed
  simp only [Program.liftExcept_bind_ok, SettingService.getMaxFileSize, Program.run_ask_bind,
    Program.refuseIf_bind_ok] at passed
  obtain ⟨key, normalized, _, passed⟩ := passed
  rw [(refuseExisting_readOnly _ _).bind_eq_ok] at passed
  obtain ⟨_, vacant, passed⟩ := passed
  rw [(effectiveLifecycle_readOnly _ _).bind_eq_ok] at passed
  obtain ⟨policy, decided, passed⟩ := passed
  rw [Program.pure_eq_ok] at passed
  cases passed.1
  exact ⟨normalized, vacant, decided⟩

theorem proxyUpload_ok {identity : Identity} {request : ProxyUpload} {now : Timestamp}
    {db db' : Database} {store store' : σ} {file : FileObject}
    (done : (proxyUpload app identity request now).run db store = (.ok (file, db'), store')) :
    ∃ safeKey effective stored,
      (validateUpload app identity request now).run db store =
        (.ok ((safeKey, effective), db), store) ∧
      app.storage.putObject request.bucket safeKey request.stream request.contentType
        (some request.sizeBytes) request.checksumSha256 store = (.ok stored, store') ∧
      file = uploadedFileObject app identity request safeKey effective db.nextId stored now ∧
      db.occupied identity.tenantId request.bucket safeKey = false ∧
      db' = db.addFile file := by
  unfold proxyUpload at done
  rw [(validateUpload_readOnly _ _ _ _).bind_eq_ok] at done
  obtain ⟨⟨safeKey, effective⟩, valid, done⟩ := done
  simp only [newId, Program.onStore_bind_ok, Program.run_ask_bind,
    FileRepository.insertFile_bind_ok, Program.pure_eq_ok] at done
  obtain ⟨stored, store₁, put, _, vacant, same, sameStore⟩ := done
  cases same
  subst sameStore
  exact ⟨safeKey, effective, stored, valid, put, rfl, vacant, rfl⟩

theorem delete_ok {identity : Identity} {fileId : Uuid} {now : Timestamp}
    {db db' : Database} {store store' : σ} {out : Unit}
    (done : (FileService.delete app identity fileId now).run db store =
      (.ok (out, db'), store')) :
    ∃ file, db.findFile fileId identity.tenantId = some file ∧ file.status ≠ .deleted ∧
      file.legalHold = false ∧
      app.storage.deleteObject file.bucket file.objectKey store = (.ok (), store') ∧
      db' = db.updateFile fileId (markDeleted now) := by
  unfold FileService.delete at done
  have reads : (FileRepository.getFile fileId identity.tenantId true :
      Handler σ (Option FileObject)).ReadOnly := .select _ _
  rw [reads.bind_eq_ok] at done
  obtain ⟨found, read, done⟩ := done
  obtain ⟨present, _⟩ := getFile_ok read
  cases found with
  | none => cases done
  | some file =>
    simp only [Program.refuseIf_bind_ok, Program.onStore_bind_ok, FileRepository.flushFile,
      Program.run_modify] at done
    obtain ⟨live, free, _, store₁, removed, same⟩ := done
    cases same
    exact ⟨file, present, live, by simpa using free, removed, rfl⟩

theorem updateLifecycle_ok {identity : Identity} {fileId : Uuid} {requested : LifecycleRequest}
    {db db' : Database} {store store' : σ} {out : FileObject}
    (done : (updateLifecycle app identity fileId requested).run db store =
      (.ok (out, db'), store')) :
    ∃ file policy event, db.findFile fileId identity.tenantId = some file ∧
      file.legalHold = false ∧
      LifecycleService.effective app requested file.completedAt = .ok policy ∧
      db' = (db.updateFile fileId
        fun row => { apply policy row with lifecycleSource := .client }).addEvent event ∧
      store' = store := by
  unfold updateLifecycle at done
  rw [Program.bind_eq_ok] at done
  obtain ⟨file, db₁, store₁, locked, done⟩ := done
  obtain ⟨found, _, rfl, rfl⟩ := lockFile_ok locked
  simp only [Program.refuseIf_bind_ok, Program.liftExcept_bind_ok, FileRepository.flushFile,
    addEvent, Program.run_modify_bind, Program.pure_eq_ok] at done
  obtain ⟨free, policy, accepted, same, sameStore⟩ := done
  cases same
  exact ⟨file, policy, _, found, by simpa using free, accepted, rfl, sameStore⟩

/-- The end that an extension names. -/
def extendedTo (file : FileObject) (extendSeconds : Int) (now : Timestamp) : Timestamp :=
  file.expiresAt.getD now + seconds extendSeconds

/-- What an extension asks the policy for. -/
def extensionRequest (file : FileObject) (extendSeconds : Int) (now : Timestamp) :
    LifecycleRequest where
  mode := some file.lifecycleMode.value
  action := some file.lifecycleAction.value
  ttlSeconds := file.ttlSeconds
  expiresAt := some (some (extendedTo file extendSeconds now))

/-- The file can be extended, and the policy grants an effective lifecycle. -/
def Extends (app : AppState σ) (file : FileObject) (extendSeconds : Int) (now : Timestamp)
    (policy : EffectiveLifecycle) : Prop :=
  file.loadable = true ∧ file.lifecycleMode ≠ .permanent ∧ file.lifecycleMode ≠ .expiresAt ∧
    0 < extendSeconds ∧ inCalendar (extendedTo file extendSeconds now) = true ∧
    effective app (extensionRequest file extendSeconds now) file.completedAt = .ok policy

theorem extend_ok {identity : Identity} {fileId : Uuid} {extendSeconds : Int} {now : Timestamp}
    {db db' : Database} {store store' : σ} {out : FileObject}
    (done : (extend app identity fileId extendSeconds now).run db store =
      (.ok (out, db'), store')) :
    ∃ file policy event, db.findFile fileId identity.tenantId = some file ∧
      Extends app file extendSeconds now policy ∧
      db' = (db.updateFile fileId (apply policy)).addEvent event ∧ store' = store := by
  unfold extend at done
  rw [Program.bind_eq_ok] at done
  obtain ⟨file, db₁, store₁, locked, done⟩ := done
  obtain ⟨found, loads, rfl, rfl⟩ := lockFile_ok locked
  simp only [Program.refuseIf_bind_ok, Program.liftExcept_bind_ok, FileRepository.flushFile,
    addEvent, Program.run_modify_bind, Program.pure_eq_ok] at done
  obtain ⟨mode, positive, expiresAt, added, policy, accepted, same, sameStore⟩ := done
  obtain ⟨dated, rfl⟩ := addSeconds_ok.mp added
  cases same
  obtain ⟨notPermanent, notFixed⟩ := not_or.mp mode
  exact ⟨file, policy, _, found,
    ⟨loads, notPermanent, notFixed, Int.not_le.mp positive, dated, accepted⟩, rfl, sameStore⟩

theorem makePermanent_ok {identity : Identity} {fileId : Uuid}
    {db db' : Database} {store store' : σ} {out : FileObject}
    (done : (makePermanent app identity fileId).run db store = (.ok (out, db'), store')) :
    ∃ file event, db.findFile fileId identity.tenantId = some file ∧ file.legalHold = false ∧
      db' = (db.updateFile fileId permanently).addEvent event ∧ store' = store := by
  unfold makePermanent at done
  rw [Program.refuseIf_bind_ok, Program.bind_eq_ok] at done
  obtain ⟨_, file, db₁, store₁, locked, done⟩ := done
  obtain ⟨found, _, rfl, rfl⟩ := lockFile_ok locked
  simp only [Program.refuseIf_bind_ok, FileRepository.flushFile, addEvent,
    Program.run_modify_bind, Program.pure_eq_ok] at done
  obtain ⟨free, same, sameStore⟩ := done
  cases same
  exact ⟨file, _, found, by simpa using free, rfl, sameStore⟩

theorem setLegalHold_ok {identity : Identity} {fileId : Uuid} {hold : Bool}
    {db db' : Database} {store store' : σ} {out : FileObject}
    (done : (setLegalHold identity fileId hold : Handler σ FileObject).run db store =
      (.ok (out, db'), store')) :
    ∃ file event, db.findFile fileId identity.tenantId = some file ∧
      db' = (db.updateFile fileId
        fun row => { row with legalHold := hold }).addEvent event ∧ store' = store := by
  unfold setLegalHold at done
  rw [Program.bind_eq_ok] at done
  obtain ⟨file, db₁, store₁, locked, done⟩ := done
  obtain ⟨found, _, rfl, rfl⟩ := lockFile_ok locked
  simp only [FileRepository.flushFile, addEvent, Program.run_modify_bind,
    Program.pure_eq_ok] at done
  obtain ⟨same, sameStore⟩ := done
  cases same
  exact ⟨file, _, found, rfl, sameStore⟩

end Files

section Buckets

open BucketService

theorem createBucket_ok {identity : Identity} {name out : String} {db db' : Database}
    {store store' : σ}
    (done : (createBucket app identity name).run db store = (.ok (out, db'), store')) :
    db' = db.addBucket ⟨identity.tenantId, out, identity.principalId⟩ ∧
      app.storage.bucketExists out store = .ok false ∧
      app.storage.createBucket out store = (.ok (), store') := by
  unfold createBucket at done
  simp only [Program.liftExcept_bind_ok, Program.askStore_bind_ok, Program.refuseIf_bind_ok,
    BucketRepository.getByName, Program.run_ask_bind, Program.onStore_bind_ok,
    BucketRepository.create, Program.write_bind_ok, Program.pure_eq_ok] at done
  obtain ⟨valid, _, stored, answer, absent, _, _, store₁, created, change, inserted, same,
    sameStore⟩ := done
  rw [Bool.not_eq_true] at absent
  subst absent
  split at inserted
  · cases inserted
  · cases inserted
    cases same
    subst sameStore
    exact ⟨rfl, answer, created⟩

theorem deleteBucket_ok {identity : Identity} {name out : String} {db db' : Database}
    {store store' : σ}
    (done : (deleteBucket app identity name).run db store = (.ok (out, db'), store')) :
    db' = db.removeBucket identity.tenantId out ∧
      out ∉ app.settings.storage.allowedBuckets ∧
      (db.findBucket identity.tenantId out).isSome ∧
      app.storage.deleteBucket out store = (.ok (), store') := by
  unfold deleteBucket at done
  simp only [Program.liftExcept_bind_ok, Program.refuseIf_bind_ok,
    BucketRepository.getByName, Program.run_ask_bind] at done
  obtain ⟨valid, _, deletable, done⟩ := done
  split at done
  · rename_i record found
    obtain ⟨_, owner, named⟩ := Database.findBucket_some found
    simp only [Program.askStore_bind_ok, Program.refuseIf_bind_ok, Program.onStore_bind_ok,
      BucketRepository.delete, Program.run_modify_bind, Program.pure_eq_ok] at done
    obtain ⟨_, _, _, _, store₁, removed, same, sameStore⟩ := done
    cases same
    subst sameStore
    rw [owner, named]
    exact ⟨rfl, deletable, by rw [found]; rfl, removed⟩
  · cases done

end Buckets

end PyUploadX
