import PyUploadX.Db.Integrity

/-! What a request does to the file table, with its own fields and the time it is served at. -/
namespace PyUploadX

open Kit

variable {σ : Type}

/-- The file table after a request, with what the request checked before its write. -/
inductive FileEffect (app : AppState σ) (db : Database) (store : σ) :
    Request → Timestamp → List FileObject → Prop
  | kept (request : Request) (now : Timestamp) : FileEffect app db store request now db.fileObjects
  | completed {identity : Identity} {uploadId : Uuid} {now : Timestamp} {upload : UploadSession}
      {stored : StoredObject} (found : db.findUpload uploadId identity.tenantId = some upload)
      (unfinished : upload.status.terminal = false) :
      FileEffect app db store (.complete identity uploadId) now
        (db.addFile
          (UploadService.completedFileObject app identity upload db.nextId stored now)).fileObjects
  | uploaded {identity : Identity} {request : ProxyUpload} {now : Timestamp} {safeKey : ObjectKey}
      {effective : Option EffectiveLifecycle} {stored : StoredObject}
      (decided : (effectiveLifecycle app request.lifecycle now).run db store =
        (.ok (effective, db), store)) :
      FileEffect app db store (.proxyUpload identity request) now
        (db.addFile (FileService.uploadedFileObject app identity request safeKey effective
          db.nextId stored now)).fileObjects
  | deleted {identity : Identity} {fileId : Uuid} (now : Timestamp) {file : FileObject}
      (found : db.findFile fileId identity.tenantId = some file) (free : file.legalHold = false) :
      FileEffect app db store (.delete identity fileId) now
        (db.updateFile fileId (FileService.markDeleted now)).fileObjects
  | updated {identity : Identity} {fileId : Uuid} {requested : LifecycleRequest} (now : Timestamp)
      {file : FileObject} {policy : EffectiveLifecycle}
      (found : db.findFile fileId identity.tenantId = some file) (free : file.legalHold = false)
      (accepted : LifecycleService.effective app requested file.completedAt = .ok policy) :
      FileEffect app db store (.updateLifecycle identity fileId requested) now
        (db.updateFile fileId fun row =>
          { LifecycleService.apply policy row with lifecycleSource := .client }).fileObjects
  | extended {identity : Identity} {fileId : Uuid} {extendSeconds : Int} {now : Timestamp}
      {file : FileObject} {policy : EffectiveLifecycle}
      (found : db.findFile fileId identity.tenantId = some file)
      (granted : Extends app file extendSeconds now policy) :
      FileEffect app db store (.extend identity fileId extendSeconds) now
        (db.updateFile fileId (LifecycleService.apply policy)).fileObjects
  | permanent {identity : Identity} {fileId : Uuid} (now : Timestamp) {file : FileObject}
      (found : db.findFile fileId identity.tenantId = some file) (free : file.legalHold = false) :
      FileEffect app db store (.makePermanent identity fileId) now
        (db.updateFile fileId LifecycleService.permanently).fileObjects
  | held {identity : Identity} {fileId : Uuid} (hold : Bool) (now : Timestamp) {file : FileObject}
      (found : db.findFile fileId identity.tenantId = some file) :
      FileEffect app db store (.setLegalHold identity fileId hold) now
        (db.updateFile fileId fun row => { row with legalHold := hold }).fileObjects
  | batch {batchSize : Nat} {now : Timestamp} {files : List FileObject} {store' : σ}
      (loads : ∀ file ∈ LifecycleWorker.dueFiles db batchSize now, file.loadable = true)
      (turns : LifecycleWorker.Turns app now (LifecycleWorker.dueFiles db batchSize now)
        db.fileObjects store files store') :
      FileEffect app db store (.processBatch batchSize) now files

variable {app : AppState σ}

open UploadService DirectoryUploadService in
private theorem handle_fileEffect {asked : Request} {now : Timestamp} {db db' : Database}
    {store store' : σ} {reply : Reply}
    (done : (handle app asked now).run db store = (.ok (reply, db'), store')) :
    FileEffect app db store asked now db'.fileObjects := by
  have kept : db'.fileObjects = db.fileObjects → FileEffect app db store asked now db'.fileObjects := by
    intro same
    rw [same]
    exact .kept asked now
  cases asked with
  | createBucket identity name =>
    obtain ⟨_, done, _⟩ := Program.bind_pure_eq_ok.mp done
    obtain ⟨rfl, _⟩ := createBucket_ok done
    exact kept rfl
  | deleteBucket identity name =>
    obtain ⟨_, done, _⟩ := Program.bind_pure_eq_ok.mp done
    obtain ⟨rfl, _⟩ := deleteBucket_ok done
    exact kept rfl
  | createSession identity request =>
    obtain ⟨upload, done, _⟩ := Program.bind_pure_eq_ok.mp done
    obtain ⟨_, _, rfl⟩ := createSession_new done
    exact kept rfl
  | proxyUploadPart identity uploadId partNumber body checksumSha256 =>
    obtain ⟨part, done, _⟩ := Program.bind_pure_eq_ok.mp done
    obtain ⟨upload, number, stored, _, _, _, _, _, rfl, rfl⟩ := proxyUploadPart_ok done
    refine kept ?_
    simp only [partAccepted, Database.updateUpload_fileObjects, Database.upsertPart_fileObjects]
    split <;> rfl
  | lostPart identity uploadId partNumber body checksumSha256 =>
    rw [handle, Program.bind_eq_ok] at done
    obtain ⟨_, _, _, _, ended⟩ := done
    cases ended
  | directPart uploadId partNumber body =>
    obtain ⟨_, done, _⟩ := Program.bind_pure_eq_ok.mp done
    rw [putPresigned_ok done]
    exact .kept _ now
  | commitPart identity uploadId partNumber etag sizeBytes checksumSha256 =>
    obtain ⟨_, done, _⟩ := Program.bind_pure_eq_ok.mp done
    obtain ⟨upload, number, _, _, _, rfl, _⟩ := commitPart_ok done
    refine kept ?_
    simp only [Database.updateUpload_fileObjects, Database.upsertPart_fileObjects]
  | resume identity uploadId =>
    obtain ⟨⟨upload, missing⟩, done, _⟩ := Program.bind_pure_eq_ok.mp done
    obtain ⟨_, _, _, _, rfl, _⟩ := resume_ok done
    exact kept rfl
  | complete identity uploadId =>
    obtain ⟨file, done, _⟩ := Program.bind_pure_eq_ok.mp done
    obtain ⟨upload, found, ⟨_, _, _, rfl, _⟩ | ⟨parts, stored, status, _, _, rfl, _, rfl⟩⟩ :=
      complete_ok done
    · exact kept rfl
    · exact .completed found (unfinished_of_status status)
  | abort identity uploadId =>
    obtain ⟨_, done, _⟩ := Program.bind_pure_eq_ok.mp done
    obtain ⟨upload, _, ⟨_, rfl, _⟩ | ⟨_, rfl, _⟩⟩ := abort_ok done
    · exact kept rfl
    · exact kept rfl
  | refresh identity uploadId =>
    obtain ⟨_, done, _⟩ := Program.bind_pure_eq_ok.mp done
    obtain ⟨upload, expiresAt, _, _, rfl, _⟩ := refresh_ok done
    exact kept rfl
  | expireUploadSessions batchSize =>
    obtain ⟨_, done, _⟩ := Program.bind_pure_eq_ok.mp done
    rw [expireUploadSessions_run] at done
    cases done
    exact kept (expired_fileObjects db _)
  | proxyUpload identity request =>
    obtain ⟨file, done, _⟩ := Program.bind_pure_eq_ok.mp done
    obtain ⟨safeKey, effective, stored, valid, _, rfl, _, rfl⟩ := proxyUpload_ok done
    obtain ⟨_, _, decided⟩ := validateUpload_ok valid
    exact .uploaded decided
  | delete identity fileId =>
    obtain ⟨_, done, _⟩ := Program.bind_pure_eq_ok.mp done
    obtain ⟨file, found, _, free, _, rfl⟩ := delete_ok done
    exact .deleted now found free
  | updateLifecycle identity fileId requested =>
    obtain ⟨_, done, _⟩ := Program.bind_pure_eq_ok.mp done
    obtain ⟨file, policy, event, found, free, accepted, rfl, _⟩ := updateLifecycle_ok done
    exact .updated now found free accepted
  | extend identity fileId extendSeconds =>
    obtain ⟨_, done, _⟩ := Program.bind_pure_eq_ok.mp done
    obtain ⟨file, policy, event, found, granted, rfl, _⟩ := extend_ok done
    exact .extended found granted
  | makePermanent identity fileId =>
    obtain ⟨_, done, _⟩ := Program.bind_pure_eq_ok.mp done
    obtain ⟨file, event, found, free, rfl, _⟩ := makePermanent_ok done
    exact .permanent now found free
  | setLegalHold identity fileId hold =>
    obtain ⟨_, done, _⟩ := Program.bind_pure_eq_ok.mp done
    obtain ⟨file, event, found, rfl, _⟩ := setLegalHold_ok done
    exact .held hold now found
  | processBatch batchSize =>
    obtain ⟨_, done, _⟩ := Program.bind_pure_eq_ok.mp done
    rcases LifecycleWorker.processBatch_cases app batchSize now db store with
      failed | ⟨processed, db₂, store₂, finished, _, loads, turns⟩
    · rw [failed] at done; cases done
    · rw [finished] at done
      cases done
      exact .batch loads turns
  | read identity request =>
    obtain ⟨_, done, _⟩ := Program.bind_pure_eq_ok.mp done
    rw [((read_readOnly identity request).ok done).1]
    exact .kept _ now
  | directoryUpload identity request =>
    obtain ⟨_, done, _⟩ := Program.bind_pure_eq_ok.mp done
    have changes := directoryUpload_ensures db store _ db' _ rfl done
    exact kept changes.besides.fileObjects

theorem serve_fileEffect (app : AppState σ) (world : World Database σ) (timed : Timed) :
    FileEffect app world.db world.store timed.1 timed.2
      (serve app world timed).2.db.fileObjects :=
  World.execute_preserves
    (fun after => FileEffect app world.db world.store timed.1 timed.2 after.db.fileObjects)
    (fun _ _ _ done => handle_fileEffect done) fun _ _ _ => .kept _ _

end PyUploadX
