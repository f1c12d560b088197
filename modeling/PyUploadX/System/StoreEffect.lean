import PyUploadX.System.Change

/-! What a request does to the store, whether it commits or not: at most one call that
changes anything, except for a batch of the worker. -/
namespace PyUploadX

open Kit UploadService

variable {σ : Type}

/-- The store after a request, with the checks the request passed before its call. -/
inductive StoreEffect (app : AppState σ) (db : Database) (store : σ) : Request → σ → Prop
  | none (request : Request) : StoreEffect app db store request store
  | createBucket (identity : Identity) (name bucket : String) :
      StoreEffect app db store (.createBucket identity name)
        (app.storage.createBucket bucket store).2
  | deleteBucket (identity : Identity) (name bucket : String) :
      StoreEffect app db store (.deleteBucket identity name)
        (app.storage.deleteBucket bucket store).2
  | initiate (identity : Identity) (request : CreateSession) (safeKey : ObjectKey)
      (metadata : List (String × String)) :
      StoreEffect app db store (.createSession identity request)
        (app.storage.initiateMultipartUpload request.bucket safeKey request.contentType metadata
          store).2
  | part {request : Request} {upload : UploadSession} {number : Nat} {body : Bytes}
      {checksumSha256 : Option String} (asks : request.partOwner? = some upload.id)
      (found : upload ∈ db.uploadSessions) (first : 1 ≤ number)
      (last : number ≤ upload.totalParts) :
      StoreEffect app db store request
        (app.storage.uploadPart upload.bucket upload.objectKey upload.storageKey number body
          body.length checksumSha256 store).2
  | complete {identity : Identity} {uploadId : Uuid} {upload : UploadSession}
      {parts : List UploadedPart} (found : db.findUpload uploadId identity.tenantId = some upload)
      (prepared : (partsToComplete app upload).run db store = (.ok (parts, db), store)) :
      StoreEffect app db store (.complete identity uploadId)
        (app.storage.completeMultipartUpload upload.bucket upload.objectKey upload.storageKey parts
          store).2
  | abort {identity : Identity} {uploadId : Uuid} {upload : UploadSession}
      {storageUploadId : StorageUploadId} :
      StoreEffect app db store (.abort identity uploadId)
        (app.storage.abortMultipartUpload upload.bucket upload.objectKey storageUploadId store).2
  | put {identity : Identity} {request : ProxyUpload} {now : Timestamp} {safeKey : ObjectKey}
      {effective : Option EffectiveLifecycle}
      (valid : (FileService.validateUpload app identity request now).run db store =
        (.ok ((safeKey, effective), db), store)) :
      StoreEffect app db store (.proxyUpload identity request)
        (app.storage.putObject request.bucket safeKey request.stream request.contentType
          (some request.sizeBytes) request.checksumSha256 store).2
  | delete {identity : Identity} {fileId : Uuid} {file : FileObject}
      (found : db.findFile fileId identity.tenantId = some file) (live : file.status ≠ .deleted) :
      StoreEffect app db store (.delete identity fileId)
        (app.storage.deleteObject file.bucket file.objectKey store).2
  | batch {batchSize : Nat} {now : Timestamp} {files : List FileObject} {store' : σ}
      (turns : LifecycleWorker.Turns app now (LifecycleWorker.dueFiles db batchSize now)
        db.fileObjects store files store') :
      StoreEffect app db store (.processBatch batchSize) store'

variable {app : AppState σ}

/-- The reply of a request is wrapped without another call. -/
theorem StoreEffect.wrapped {α : Type} {program : Handler σ α} {wrap : α → Reply}
    {request : Request} {db : Database} {store : σ}
    (effect : StoreEffect app db store request (program.run db store).2) :
    StoreEffect app db store request
      ((program >>= fun value => pure (wrap value)).run db store).2 :=
  Program.Offline.then_effect (fun _ => .pure _) effect

private theorem createBucket_store (identity : Identity) (name : String) (db : Database) (store : σ) :
    StoreEffect app db store (.createBucket identity name)
      ((BucketService.createBucket app identity name).run db store).2 := by
  unfold BucketService.createBucket
  refine Program.ReadOnly.bind_effect (.liftExcept _) (.none _) fun bucket _ => ?_
  refine Program.ReadOnly.bind_effect (.askStore _ _) (.none _) fun _ _ => ?_
  refine Program.ReadOnly.bind_effect (.refuseIf _ _) (.none _) fun _ _ => ?_
  refine Program.ReadOnly.bind_effect (.ask _) (.none _) fun _ _ => ?_
  refine Program.ReadOnly.bind_effect (.refuseIf _ _) (.none _) fun _ _ => ?_
  refine Program.Offline.then_effect (fun _ => .bind (.write _ _ _) fun _ => .pure _) ?_
  rw [Program.run_onStore_store]
  exact .createBucket identity name bucket

private theorem deleteBucket_store (identity : Identity) (name : String) (db : Database) (store : σ) :
    StoreEffect app db store (.deleteBucket identity name)
      ((BucketService.deleteBucket app identity name).run db store).2 := by
  unfold BucketService.deleteBucket
  refine Program.ReadOnly.bind_effect (.liftExcept _) (.none _) fun bucket _ => ?_
  refine Program.ReadOnly.bind_effect (.refuseIf _ _) (.none _) fun _ _ => ?_
  refine Program.ReadOnly.bind_effect (.ask _) (.none _) fun found _ => ?_
  cases found with
  | none => exact .none _
  | some row =>
    refine Program.ReadOnly.bind_effect (.askStore _ _) (.none _) fun _ _ => ?_
    refine Program.ReadOnly.bind_effect (.refuseIf _ _) (.none _) fun _ _ => ?_
    refine Program.Offline.then_effect (fun _ => .bind (.modify _ _ _) fun _ => .pure _) ?_
    rw [Program.run_onStore_store]
    exact .deleteBucket identity name bucket

private theorem createSession_store (identity : Identity) (request : CreateSession) (now : Timestamp)
    (db : Database) (store : σ) :
    StoreEffect app db store (.createSession identity request)
      ((createSession app identity request now).run db store).2 := by
  unfold createSession
  refine Program.ReadOnly.bind_effect (validateBucket_readOnly _ _) (.none _) fun _ _ => ?_
  refine Program.ReadOnly.bind_effect (.liftExcept _) (.none _) fun safeKey _ => ?_
  refine Program.ReadOnly.bind_effect (.ask _) (.none _) fun _ _ => ?_
  refine Program.ReadOnly.bind_effect (.refuseIf _ _) (.none _) fun _ _ => ?_
  refine Program.ReadOnly.bind_effect (.refuseIf _ _) (.none _) fun _ _ => ?_
  refine Program.ReadOnly.bind_effect (.ask _) (.none _) fun _ _ => ?_
  refine Program.ReadOnly.bind_effect (.liftExcept _) (.none _) fun _ _ => ?_
  refine Program.ReadOnly.bind_effect (chooseMode_readOnly _ _) (.none _) fun mode _ => ?_
  refine Program.ReadOnly.bind_effect (refuseExisting_readOnly _ _) (.none _) fun _ _ => ?_
  refine Program.ReadOnly.bind_effect (effectiveLifecycle_readOnly _ _) (.none _) fun _ _ => ?_
  refine Program.Offline.then_effect (fun _ => .bind (.of_readOnly (.ask _)) fun _ =>
    .bind (.of_readOnly (.ask _)) fun _ => .bind (.write _ _ _) fun _ => .pure _) ?_
  unfold initiateMultipart
  split
  · refine Program.Offline.then_effect (fun _ => .pure _) ?_
    rw [Program.run_onStore_store]
    exact .initiate identity request safeKey _
  · exact .none _

private theorem proxyUploadPart_store {request : Request} (identity : Identity) {uploadId : Uuid}
    (partNumber : Int) (body : Bytes) (checksumSha256 : Option String) (now : Timestamp)
    (db : Database) (store : σ) (asks : request.partOwner? = some uploadId) :
    StoreEffect app db store request
      ((proxyUploadPart app identity uploadId partNumber body body.length checksumSha256 now).run
        db store).2 := by
  unfold proxyUploadPart
  refine Program.ReadOnly.bind_effect (getSession_readOnly _ _) (.none _) fun upload session => ?_
  obtain ⟨found, named, _⟩ := Database.findUpload_some (getSession_ok session)
  rw [← named] at asks
  refine Program.ReadOnly.bind_effect (.liftExcept _) (.none _) fun _ _ => ?_
  refine Program.ReadOnly.bind_effect (.liftExcept _) (.none _) fun number accepted => ?_
  refine Program.ReadOnly.bind_effect (.liftExcept _) (.none _) fun _ _ => ?_
  have inRange : checkPartNumber upload partNumber = .ok number := by
    rw [Program.run_liftExcept] at accepted
    cases checked : checkPartNumber upload partNumber <;> simp_all [Except.map]
  obtain ⟨first, last, _⟩ := checkPartNumber_ok inRange
  have put : ∀ db', StoreEffect app db store request
      ((Program.onStore .uploadPart (app.storage.uploadPart upload.bucket upload.objectKey
        upload.storageKey number body body.length checksumSha256) : Handler σ UploadedPart).run db'
          store).2 := by
    intro db'
    rw [Program.run_onStore_store]
    exact .part asks found first last
  have rest : ∀ stored : UploadedPart, (do
      let part := storedRow upload number stored checksumSha256
      PartRepository.upsertPart part
      UploadRepository.touchActivity upload.id now
      return part : Handler σ UploadPart).Offline := fun _ =>
    .bind (.modify _ _ _) fun _ => .bind (.modify _ _ _) fun _ => .pure _
  split
  · unfold UploadRepository.updateStatus
    rw [Program.run_modify_bind]
    exact Program.Offline.then_effect rest (put _)
  · exact Program.Offline.then_effect rest (put _)

private theorem putPresigned_store (uploadId : Uuid) (partNumber : Nat) (body : Bytes) (db : Database)
    (store : σ) :
    StoreEffect app db store (.directPart uploadId partNumber body)
      ((putPresigned app uploadId partNumber body).run db store).2 := by
  unfold putPresigned
  rw [Program.run_ask_bind]
  split
  · exact .none _
  · rename_i upload found
    split
    · exact .none _
    · rename_i storageUploadId named
      refine Program.ReadOnly.bind_effect (.refuseIf _ _) (.none _) fun _ _ => ?_
      refine Program.ReadOnly.bind_effect (.liftExcept _) (.none _) fun number accepted => ?_
      refine Program.Offline.then_effect (fun _ => .pure _) ?_
      rw [Program.run_onStore_store]
      have inRange : checkPartNumber upload partNumber = .ok number := by
        rw [Program.run_liftExcept] at accepted
        cases checked : checkPartNumber upload partNumber <;> simp_all [Except.map]
      obtain ⟨first, last, _⟩ := checkPartNumber_ok inRange
      have key : upload.storageKey = storageUploadId := by
        rw [UploadSession.storageKey, named]; rfl
      rw [← key]
      have named : upload.id = uploadId := by simpa using List.find?_some found
      exact .part (congrArg some named.symm) (List.mem_of_find?_eq_some found) first last

private theorem assemble_store {effect : σ → Prop} (identity : Identity) (upload : UploadSession)
    (parts : List UploadedPart) (now : Timestamp) (db : Database) (store : σ)
    (acted : effect (app.storage.completeMultipartUpload upload.bucket upload.objectKey
      upload.storageKey parts store).2) :
    effect ((assemble app identity upload parts now).run db store).2 := by
  unfold assemble UploadRepository.flushUpload
  rw [Program.run_modify_bind]
  refine Program.Offline.then_effect (fun _ => .bind (.of_readOnly (.ask _)) fun _ =>
    .bind (.write _ _ _) fun _ => .bind (.modify _ _ _) fun _ => .pure _) ?_
  rw [Program.run_onStore_store]
  exact acted

private theorem complete_store (identity : Identity) (uploadId : Uuid) (now : Timestamp) (db : Database)
    (store : σ) :
    StoreEffect app db store (.complete identity uploadId)
      ((complete app identity uploadId now).run db store).2 := by
  unfold complete
  refine Program.ReadOnly.bind_effect (.select _ _) (.none _) fun found read => ?_
  cases found with
  | none => exact .none _
  | some upload =>
    have found : db.findUpload uploadId identity.tenantId = some upload := by
      simp only [UploadRepository.getUpload, Program.run, Prod.mk.injEq, Except.ok.injEq] at read
      exact read.1.1
    refine Program.ReadOnly.bind_effect (completedFile_readOnly _ _) (.none _) fun existing _ => ?_
    cases existing with
    | some file => exact .none _
    | none =>
      refine Program.ReadOnly.bind_effect (.refuseIf _ _) (.none _) fun _ _ => ?_
      refine Program.ReadOnly.bind_effect (.refuseIf _ _) (.none _) fun _ _ => ?_
      refine Program.ReadOnly.bind_effect (partsToComplete_readOnly _ _) (.none _)
        fun parts prepared => ?_
      exact assemble_store identity upload parts now db store (.complete found prepared)

private theorem abort_store (identity : Identity) (uploadId : Uuid) (db : Database) (store : σ) :
    StoreEffect app db store (.abort identity uploadId)
      ((abort app identity uploadId).run db store).2 := by
  unfold abort
  refine Program.ReadOnly.bind_effect (.select _ _) (.none _) fun found _ => ?_
  cases found with
  | none => exact .none _
  | some upload =>
    refine Program.ReadOnly.bind_effect (.refuseIf _ _) (.none _) fun _ _ => ?_
    dsimp only
    split
    · exact .none _
    · refine Program.ReadOnly.bind_effect (.liftExcept _) (.none _) fun _ _ => ?_
      unfold UploadRepository.flushUpload
      rw [Program.run_modify_bind]
      split
      · rename_i storageUploadId named
        rw [Program.run_tryStore_bind]
        rw [Program.Offline.bind (.of_readOnly (.liftExcept _)) fun _ =>
          .bind (.modify _ _ _) fun _ => .pure _]
        exact .abort
      · exact .none _

private theorem proxyUpload_store (identity : Identity) (request : ProxyUpload) (now : Timestamp)
    (db : Database) (store : σ) :
    StoreEffect app db store (.proxyUpload identity request)
      ((FileService.proxyUpload app identity request now).run db store).2 := by
  unfold FileService.proxyUpload
  refine Program.ReadOnly.bind_effect (validateUpload_readOnly _ _ _ _) (.none _)
    fun ⟨safeKey, effective⟩ valid => ?_
  refine Program.Offline.then_effect (fun _ => .bind (.of_readOnly (.ask _)) fun _ =>
    .bind (.write _ _ _) fun _ => .pure _) ?_
  rw [Program.run_onStore_store]
  exact .put valid

private theorem delete_store (identity : Identity) (fileId : Uuid) (now : Timestamp) (db : Database)
    (store : σ) :
    StoreEffect app db store (.delete identity fileId)
      ((FileService.delete app identity fileId now).run db store).2 := by
  unfold FileService.delete
  refine Program.ReadOnly.bind_effect (.select _ _) (.none _) fun found read => ?_
  cases found with
  | none => exact .none _
  | some file =>
    refine Program.ReadOnly.bind_effect (.refuseIf _ _) (.none _) fun _ live => ?_
    refine Program.ReadOnly.bind_effect (.refuseIf _ _) (.none _) fun _ _ => ?_
    refine Program.Offline.then_effect (fun _ => .modify _ _ _) ?_
    rw [Program.run_onStore_store]
    refine .delete (getFile_ok read).1 fun deleted => ?_
    rw [Program.run_refuseIf, if_pos deleted] at live
    cases live

theorem commitPart_offline (identity : Identity) (uploadId : Uuid) (partNumber : Int)
    (etag : String) (sizeBytes : Int) (checksumSha256 : Option String) (now : Timestamp) :
    (commitPart identity uploadId partNumber etag sizeBytes checksumSha256 now :
      Handler σ Unit).Offline :=
  .bind (.of_readOnly (getSession_readOnly _ _)) fun _ => .bind (.of_readOnly (.liftExcept _))
    fun _ => .bind (.of_readOnly (.liftExcept _)) fun _ => .bind (.modify _ _ _) fun _ =>
      .bind (.of_readOnly (.refuseIf _ _)) fun _ => .modify _ _ _

private theorem resume_offline (identity : Identity) (uploadId : Uuid) (now : Timestamp) :
    (resume app identity uploadId now).Offline :=
  .bind (.of_readOnly (getSession_readOnly _ _)) fun _ => .bind (.of_readOnly (.refuseIf _ _))
    fun _ => .bind (.of_readOnly (.refuseIf _ _)) fun _ => .bind (.of_readOnly (.ask _)) fun _ =>
      .bind (.of_readOnly (storedNumbers_readOnly _)) fun _ => .bind (.modify _ _ _) fun _ => .pure _

private theorem refresh_offline (identity : Identity) (uploadId : Uuid) (now : Timestamp) :
    (refresh app identity uploadId now).Offline := by
  refine .bind (.of_readOnly (.refuseIf _ _)) fun _ => .bind (.of_readOnly (.select _ _))
    fun found => ?_
  cases found with
  | none => exact .fail _
  | some upload =>
    exact .bind (.of_readOnly (.refuseIf _ _)) fun _ => .bind (.of_readOnly (.ask _)) fun _ =>
      .bind (.of_readOnly (.refuseIf _ _)) fun _ => .bind (.modify _ _ _) fun _ => .pure _

theorem lockFile_readOnly (identity : Identity) (fileId : Uuid) :
    (LifecycleService.lockFile identity fileId : Handler σ FileObject).ReadOnly := by
  refine .bind (.select _ _) fun found => ?_
  cases found with
  | none => exact .fail _
  | some file => exact .pure _

private theorem updateLifecycle_offline (identity : Identity) (fileId : Uuid)
    (requested : LifecycleRequest) :
    (LifecycleService.updateLifecycle app identity fileId requested).Offline :=
  .bind (.of_readOnly (lockFile_readOnly _ _)) fun _ => .bind (.of_readOnly (.refuseIf _ _))
    fun _ => .bind (.of_readOnly (.liftExcept _)) fun _ => .bind (.modify _ _ _) fun _ =>
      .bind (.modify _ _ _) fun _ => .pure _

private theorem extend_offline (identity : Identity) (fileId : Uuid) (extendSeconds : Int)
    (now : Timestamp) :
    (LifecycleService.extend app identity fileId extendSeconds now).Offline :=
  .bind (.of_readOnly (lockFile_readOnly _ _)) fun _ => .bind (.of_readOnly (.refuseIf _ _))
    fun _ => .bind (.of_readOnly (.refuseIf _ _)) fun _ => .bind (.of_readOnly (.liftExcept _))
      fun _ => .bind (.of_readOnly (.liftExcept _)) fun _ => .bind (.modify _ _ _) fun _ =>
        .bind (.modify _ _ _) fun _ => .pure _

private theorem makePermanent_offline (identity : Identity) (fileId : Uuid) :
    (LifecycleService.makePermanent app identity fileId).Offline :=
  .bind (.of_readOnly (.refuseIf _ _)) fun _ => .bind (.of_readOnly (lockFile_readOnly _ _))
    fun _ => .bind (.of_readOnly (.refuseIf _ _)) fun _ => .bind (.modify _ _ _) fun _ =>
      .bind (.modify _ _ _) fun _ => .pure _

private theorem setLegalHold_offline (identity : Identity) (fileId : Uuid) (hold : Bool) :
    (LifecycleService.setLegalHold identity fileId hold : Handler σ FileObject).Offline :=
  .bind (.of_readOnly (lockFile_readOnly _ _)) fun _ => .bind (.modify _ _ _) fun _ =>
    .bind (.modify _ _ _) fun _ => .pure _

private theorem processBatch_store (batchSize : Nat) (now : Timestamp) (db : Database) (store : σ) :
    StoreEffect app db store (.processBatch batchSize)
      ((LifecycleWorker.processBatch app batchSize now).run db store).2 := by
  rcases LifecycleWorker.processBatch_cases app batchSize now db store with
    failed | ⟨processed, db', store', finished, _, _, turns⟩
  · rw [failed]; exact .none _
  · rw [finished]; exact .batch turns

theorem StoreEffect.of_offline {α : Type} {program : Handler σ α} {wrap : α → Reply}
    {request : Request} {db : Database} {store : σ} (offline : program.Offline) :
    StoreEffect app db store request
      ((program >>= fun value => pure (wrap value)).run db store).2 := by
  refine .wrapped ?_
  rw [offline]
  exact .none _

/-- Whatever a request does to the store is one of the effects. -/
theorem serve_storeEffect (world : World Database σ) (timed : Timed) :
    StoreEffect app world.db world.store timed.1 (serve app world timed).2.store := by
  have store : (serve app world timed).2.store =
      ((handle app timed.1 timed.2).run world.db world.store).2 := by
    unfold serve World.execute
    rcases (handle app timed.1 timed.2).run world.db world.store with ⟨_ | ⟨_, _⟩, _⟩ <;> rfl
  rw [store]
  obtain ⟨request, now⟩ := timed
  cases request with
  | createBucket identity name => exact .wrapped (createBucket_store _ _ _ _)
  | deleteBucket identity name => exact .wrapped (deleteBucket_store _ _ _ _)
  | createSession identity request => exact .wrapped (createSession_store _ _ _ _ _)
  | proxyUploadPart identity uploadId partNumber body checksumSha256 =>
    exact .wrapped (proxyUploadPart_store _ _ _ _ _ _ _ rfl)
  | lostPart identity uploadId partNumber body checksumSha256 =>
    exact Program.Offline.then_effect (fun _ => .fail _) (proxyUploadPart_store _ _ _ _ _ _ _ rfl)
  | directPart uploadId partNumber body =>
    exact .wrapped (putPresigned_store _ _ _ _ _)
  | commitPart identity uploadId partNumber etag sizeBytes checksumSha256 =>
    exact .of_offline (commitPart_offline _ _ _ _ _ _ _)
  | resume identity uploadId => exact .of_offline (resume_offline _ _ _)
  | complete identity uploadId => exact .wrapped (complete_store _ _ _ _ _)
  | abort identity uploadId => exact .wrapped (abort_store _ _ _ _)
  | refresh identity uploadId => exact .of_offline (refresh_offline _ _ _)
  | expireUploadSessions batchSize =>
    refine .of_offline fun db store => ?_
    rw [expireUploadSessions_run]
  | proxyUpload identity request => exact .wrapped (proxyUpload_store _ _ _ _ _)
  | delete identity fileId => exact .wrapped (delete_store _ _ _ _ _)
  | updateLifecycle identity fileId requested => exact .of_offline (updateLifecycle_offline _ _ _)
  | extend identity fileId extendSeconds => exact .of_offline (extend_offline _ _ _ _)
  | makePermanent identity fileId => exact .of_offline (makePermanent_offline _ _)
  | setLegalHold identity fileId hold => exact .of_offline (setLegalHold_offline _ _ _)
  | processBatch batchSize => exact .wrapped (processBatch_store _ _ _ _)
  | read identity request => exact .of_offline (.of_readOnly (read_readOnly _ _))
  | directoryUpload identity request => exact .of_offline (directoryUpload_offline _ _)

end PyUploadX
