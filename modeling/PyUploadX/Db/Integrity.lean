import PyUploadX.System.Change

/-! What holds of the tables in every reachable state. -/
namespace PyUploadX

open Kit

variable {σ : Type} {app : AppState σ}

/-- The columns of a session that no request changes. -/
def UploadSession.core (upload : UploadSession) : UploadSession :=
  { upload with status := .initiated, completedFileId := none, expiresAt := 0, lastActivityAt := 0 }

structure FileIdentity where
  id : Uuid
  tenantId : String
  bucket : String
  objectKey : ObjectKey
  uploadId : Option Uuid

/-- The columns of a file that no request changes. -/
def FileObject.identity (file : FileObject) : FileIdentity where
  id := file.id
  tenantId := file.tenantId
  bucket := file.bucket
  objectKey := file.objectKey
  uploadId := file.uploadId

def Database.cores (db : Database) : List UploadSession := db.uploadSessions.map (·.core)

def Database.identities (db : Database) : List FileIdentity := db.fileObjects.map (·.identity)

theorem cores_updateUpload (db : Database) (uploadId : Uuid)
    (change : UploadSession → UploadSession) (kept : ∀ row, (change row).core = row.core) :
    (db.updateUpload uploadId change).cores = db.cores := by
  simp only [Database.cores, Database.updateUpload, List.map_map]
  apply List.map_congr_left
  intro row _
  simp only [Function.comp]
  split
  · exact kept row
  · rfl

private theorem identities_map {files : List FileObject} {fileId : Uuid}
    {change : FileObject → FileObject} (kept : ∀ row, (change row).identity = row.identity) :
    (files.map fun row => if row.id = fileId then change row else row).map (·.identity) =
      files.map (·.identity) := by
  rw [List.map_map]
  apply List.map_congr_left
  intro row _
  simp only [Function.comp]
  split
  · exact kept row
  · rfl

theorem FileChange.identity {change : FileObject → FileObject} (kind : FileChange app change)
    (row : FileObject) : (change row).identity = row.identity := by
  cases kind <;> rfl

private theorem turn_identity {file : FileObject} {now : Timestamp} {store store' : σ}
    {change : FileObject → FileObject}
    (turn : LifecycleWorker.Turn app file now store change store') (row : FileObject) :
    (change row).identity = row.identity := by
  cases turn <;> rfl

private theorem turns_identities {now : Timestamp} {due files files' : List FileObject} {store store' : σ}
    (turns : LifecycleWorker.Turns app now due files store files' store') :
    files'.map (·.identity) = files.map (·.identity) := by
  induction turns with
  | nil => rfl
  | cons turn later ih => rw [ih, identities_map (turn_identity turn)]

/-- A request changes no core of an old session and adds at most one session. -/
theorem Change.cores {asked : Request} {db db' : Database}
    (change : Change app asked db db') :
    db'.cores = db.cores ∨
      ∃ identity request upload, asked = .createSession identity request ∧
        NewSession app db upload ∧ db' = db.insertUpload upload := by
  cases change with
  | none => exact .inl rfl
  | buckets files sessions parts ids => exact .inl (by rw [Database.cores, sessions]; rfl)
  | directories asks changes => exact .inl (by rw [Database.cores, changes.besides.uploadSessions]; rfl)
  | created asks new => exact .inr ⟨_, _, _, asks, new, rfl⟩
  | @part upload part now starts found unfinished starting owner first last committed asks =>
    left
    rw [cores_updateUpload _ _ (·.touch now) fun _ => rfl, Database.cores,
      Database.upsertPart_uploadSessions]
    split
    · exact cores_updateUpload _ _ (·.setStatus .uploading) fun _ => rfl
    · rfl
  | touched uploadId now => exact .inl (cores_updateUpload _ _ (·.touch now) fun _ => rfl)
  | prolonged uploadId expiresAt now =>
    exact .inl (cores_updateUpload _ _ (·.prolong expiresAt now) fun _ => rfl)
  | aborted found unfinished =>
    exact .inl (cores_updateUpload _ _ (·.setStatus .aborted) fun _ => rfl)
  | @expired ids unfinished =>
    left
    rw [Database.cores, expired_uploadSessions, List.map_map]
    apply List.map_congr_left
    intro row _
    simp only [Function.comp]
    split <;> rfl
  | completed asks found owner unfinished vacant =>
    exact .inl (cores_updateUpload _ _ (·.setCompleted _) fun _ => rfl)
  | uploaded asks policy vacant => exact .inl rfl
  | file kind same files => exact .inl (by rw [Database.cores, same.1]; rfl)
  | batch same loads turns => exact .inl (by rw [Database.cores, same.1]; rfl)

/-- A request changes no identity of an old file and adds at most one file, under a key
the tenant had no row for. -/
theorem Change.identities {asked : Request} {db db' : Database}
    (change : Change app asked db db') :
    db'.identities = db.identities ∨
      ∃ file : FileObject, file.id = db.nextId ∧
        db'.identities = db.identities ++ [file.identity] ∧
        db.occupied file.tenantId file.bucket file.objectKey = false ∧
        (∀ uploadId ∈ file.uploadId, ∃ upload ∈ db.uploadSessions, upload.id = uploadId) ∧
        db'.nextId = db.nextId + 1 ∧
        ((∃ identity request, asked = .proxyUpload identity request) ∨
          ∃ identity uploadId, asked = .complete identity uploadId) := by
  have grown : max db.nextId (db.nextId + 1) = db.nextId + 1 := Nat.max_eq_right (Nat.le_succ _)
  cases change with
  | buckets files sessions parts ids => exact .inl (by rw [Database.identities, files]; rfl)
  | directories asks changes => exact .inl (by rw [Database.identities, changes.besides.fileObjects]; rfl)
  | @part upload part now starts found unfinished starting owner first last committed asks =>
    left
    simp only [Database.identities, Database.updateUpload_fileObjects,
      Database.upsertPart_fileObjects]
    split <;> rfl
  | expired unfinished =>
    left
    rw [Database.identities, expired_fileObjects]
    rfl
  | @completed identity uploadId upload stored now asks found owner unfinished vacant =>
    exact .inr ⟨UploadService.completedFileObject app identity upload db.nextId stored now, rfl,
      List.map_append, vacant, fun uploadId same => ⟨upload, found, Option.some.inj same⟩,
      grown, .inr ⟨_, _, asks⟩⟩
  | @uploaded identity request safeKey effective stored now asks policy vacant =>
    exact .inr ⟨FileService.uploadedFileObject app identity request safeKey effective db.nextId
      stored now, rfl, List.map_append, vacant, fun _ same => (Option.not_mem_none _ same).elim,
      grown, .inl ⟨_, _, asks⟩⟩
  | file kind same files =>
    left
    rw [Database.identities, files]
    exact identities_map fun row => kind.identity row
  | batch same loads turns => exact .inl (turns_identities turns)
  | _ => exact .inl rfl

theorem Change.nextId_le {asked : Request} {db db' : Database}
    (change : Change app asked db db') :
    db.nextId ≤ db'.nextId := by
  cases change with
  | buckets files sessions parts ids => exact ids.ge
  | directories asks changes => exact changes.besides.nextId
  | created asks new => exact Nat.le_max_left _ _
  | @part upload part now starts found unfinished starting owner first last committed asks =>
    simp only [Database.updateUpload_nextId, Database.upsertPart_nextId]
    split <;> exact le_refl _
  | expired unfinished => rw [expired_eq]
  | completed asks found owner unfinished vacant => exact Nat.le_max_left _ _
  | uploaded asks policy vacant => exact Nat.le_max_left _ _
  | file kind same files => exact same.2.2.1.ge
  | batch same loads turns => exact same.2.2.1.ge
  | _ => exact le_refl _

/-- Ids name rows, and a fresh id names none. -/
structure Identified (db : Database) : Prop where
  uploads : (db.cores.map (·.id)).Nodup
  uploadsOld : ∀ core ∈ db.cores, core.id < db.nextId
  files : (db.identities.map (·.id)).Nodup
  filesOld : ∀ identity ∈ db.identities, identity.id < db.nextId
  origins : ∀ identity ∈ db.identities, ∀ uploadId ∈ identity.uploadId, uploadId < db.nextId

theorem mem_cores {db : Database} {upload : UploadSession} (member : upload ∈ db.uploadSessions) :
    upload.core ∈ db.cores := List.mem_map_of_mem member

theorem mem_identities {db : Database} {file : FileObject} (member : file ∈ db.fileObjects) :
    file.identity ∈ db.identities := List.mem_map_of_mem member

theorem Change.identified {asked : Request} {db db' : Database}
    (change : Change app asked db db')
    (sound : Identified db) : Identified db' := by
  have later := change.nextId_le
  rcases change.cores with same | ⟨_, _, upload, _, new, rfl⟩
  · rcases change.identities with kept | ⟨file, fresh, added, _, origin, grown, _⟩
    · exact {
        uploads := by rw [same]; exact sound.uploads
        uploadsOld := by rw [same]; exact fun core member => (sound.uploadsOld core member).trans_le later
        files := by rw [kept]; exact sound.files
        filesOld := by
          rw [kept]; exact fun identity member => (sound.filesOld identity member).trans_le later
        origins := by
          rw [kept]
          exact fun identity member id origin =>
            (sound.origins identity member id origin).trans_le later }
    · refine { uploads := ?_, uploadsOld := ?_, files := ?_, filesOld := ?_, origins := ?_ }
      · rw [same]; exact sound.uploads
      · rw [same]; exact fun core member => (sound.uploadsOld core member).trans_le later
      · rw [added, List.map_append, List.nodup_append]
        refine ⟨sound.files, List.nodup_singleton _, ?_⟩
        intro old member new isNew
        obtain ⟨identity, inTable, rfl⟩ := List.mem_map.mp member
        simp only [List.map_cons, List.map_nil, List.mem_singleton] at isNew
        rw [isNew, FileObject.identity, fresh]
        exact (sound.filesOld identity inTable).ne
      · rw [added, grown]
        intro identity member
        rcases List.mem_append.mp member with old | new
        · exact Nat.lt_succ_of_lt (sound.filesOld identity old)
        · rw [List.mem_singleton] at new
          rw [new, FileObject.identity, fresh]
          exact Nat.lt_succ_self _
      · rw [added, grown]
        intro identity member uploadId named
        rcases List.mem_append.mp member with old | new
        · exact Nat.lt_succ_of_lt (sound.origins identity old uploadId named)
        · rw [List.mem_singleton] at new
          rw [new, FileObject.identity] at named
          obtain ⟨upload, inTable, rfl⟩ := origin uploadId named
          exact Nat.lt_succ_of_lt (sound.uploadsOld upload.core (mem_cores inTable))
  · have grown : (db.insertUpload upload).nextId = db.nextId + 1 := by
      simp only [Database.insertUpload, new.fresh]
      exact Nat.max_eq_right (Nat.le_succ _)
    have cores : (db.insertUpload upload).cores = db.cores ++ [upload.core] := List.map_append
    refine { uploads := ?_, uploadsOld := ?_, files := sound.files, filesOld := ?_, origins := ?_ }
    · rw [cores, List.map_append, List.nodup_append]
      refine ⟨sound.uploads, List.nodup_singleton _, ?_⟩
      intro old member added isNew
      obtain ⟨core, inTable, rfl⟩ := List.mem_map.mp member
      simp only [List.map_cons, List.map_nil, List.mem_singleton] at isNew
      rw [isNew, UploadSession.core, new.fresh]
      exact (sound.uploadsOld core inTable).ne
    · rw [cores, grown]
      intro core member
      rcases List.mem_append.mp member with old | added
      · exact Nat.lt_succ_of_lt (sound.uploadsOld core old)
      · rw [List.mem_singleton] at added
        rw [added, UploadSession.core, new.fresh]
        exact Nat.lt_succ_self _
    · exact fun identity member => (sound.filesOld identity member).trans_le later
    · exact fun identity member id origin =>
        (sound.origins identity member id origin).trans_le later

theorem Identified.sessionIds_nodup {db : Database} (sound : Identified db) :
    (db.uploadSessions.map (·.id)).Nodup := by
  have nodup := sound.uploads
  rw [Database.cores, List.map_map] at nodup
  exact nodup

theorem Identified.fileIds_nodup {db : Database} (sound : Identified db) :
    (db.fileObjects.map (·.id)).Nodup := by
  have nodup := sound.files
  rw [Database.identities, List.map_map] at nodup
  exact nodup

theorem Identified.upload_unique {db : Database} (sound : Identified db)
    {first second : UploadSession} (member : first ∈ db.uploadSessions)
    (member' : second ∈ db.uploadSessions) (same : first.id = second.id) : first = second :=
  List.inj_on_of_nodup_map sound.sessionIds_nodup member member' same

theorem Identified.file_unique {db : Database} (sound : Identified db)
    {first second : FileObject} (member : first ∈ db.fileObjects)
    (member' : second ∈ db.fileObjects) (same : first.id = second.id) : first = second :=
  List.inj_on_of_nodup_map sound.fileIds_nodup member member' same

/-- The row that a request finds is the only one of its id. -/
theorem Identified.found_unique {db : Database} (sound : Identified db) {fileId : Uuid}
    {tenantId : String} {file row : FileObject} (found : db.findFile fileId tenantId = some file)
    (member : row ∈ db.fileObjects) (same : row.id = fileId) : row = file := by
  obtain ⟨present, named, _⟩ := Database.findFile_some found
  exact sound.file_unique member present (same.trans named.symm)

/-- Between requests no session is in the middle of completing or aborting, and a session
is completed exactly when a file names it, which is then the file it names. -/
structure Settled (db : Database) : Prop where
  resting : ∀ upload ∈ db.uploadSessions,
    upload.status ≠ .completing ∧ upload.status ≠ .aborting
  completed : ∀ upload ∈ db.uploadSessions, upload.status = .completed →
    ∃ identity ∈ db.identities, identity.uploadId = some upload.id ∧
      identity.tenantId = upload.tenantId ∧ upload.completedFileId = some identity.id
  assembled : ∀ upload ∈ db.uploadSessions, ∀ identity ∈ db.identities,
    identity.uploadId = some upload.id →
      upload.status = .completed ∧ upload.completedFileId = some identity.id

/-- The statuses a request moves an unfinished session to without completing it. -/
def StatusMove (row row' : UploadSession) : Prop :=
  (row'.status = row.status ∧ row'.completedFileId = row.completedFileId) ∨
    (row.status.terminal = false ∧ row'.completedFileId = row.completedFileId ∧
      (row'.status = .uploading ∨ row'.status = .aborted ∨ row'.status = .expired))

theorem Settled.map {db db' : Database} (sound : Settled db) (move : UploadSession → UploadSession)
    (sessions : db'.uploadSessions = db.uploadSessions.map move)
    (identities : db'.identities = db.identities)
    (kept : ∀ row ∈ db.uploadSessions, (move row).core = row.core ∧ StatusMove row (move row)) :
    Settled db' := by
  have named : ∀ row ∈ db.uploadSessions,
      (move row).id = row.id ∧ (move row).tenantId = row.tenantId := by
    intro row member
    have core := (kept row member).1
    have id : (move row).core.id = row.core.id := by rw [core]
    have tenantId : (move row).core.tenantId = row.core.tenantId := by rw [core]
    exact ⟨id, tenantId⟩
  constructor
  · rw [sessions]
    intro upload membership
    obtain ⟨row, member, rfl⟩ := List.mem_map.mp membership
    rcases (kept row member).2 with ⟨status, _⟩ | ⟨_, _, status⟩
    · rw [status]
      exact sound.resting row member
    · rcases status with status | status | status <;> simp [status]
  · rw [sessions, identities]
    intro upload membership completed
    obtain ⟨row, member, rfl⟩ := List.mem_map.mp membership
    obtain ⟨id, tenantId⟩ := named row member
    rw [id, tenantId]
    rcases (kept row member).2 with ⟨status, file⟩ | ⟨_, _, status⟩
    · rw [status] at completed
      rw [file]
      exact sound.completed row member completed
    · rcases status with status | status | status <;> simp [status] at completed
  · rw [sessions, identities]
    intro upload membership identity present origin
    obtain ⟨row, member, rfl⟩ := List.mem_map.mp membership
    rw [(named row member).1] at origin
    obtain ⟨completed, file⟩ := sound.assembled row member identity present origin
    rcases (kept row member).2 with ⟨status, sameFile⟩ | ⟨unfinished, _, _⟩
    · rw [status, sameFile]
      exact ⟨completed, file⟩
    · simp [completed, UploadStatus.terminal] at unfinished

theorem Settled.updateUpload {db : Database} (sound : Settled db) (uploadId : Uuid)
    (change : UploadSession → UploadSession) (kept : ∀ row, (change row).core = row.core)
    (moved : ∀ row ∈ db.uploadSessions, row.id = uploadId → StatusMove row (change row)) :
    Settled (db.updateUpload uploadId change) := by
  refine sound.map _ rfl rfl fun row member => ?_
  split
  · rename_i named
    exact ⟨kept row, moved row member named⟩
  · exact ⟨rfl, .inl ⟨rfl, rfl⟩⟩

private theorem identities_addFile (db : Database) (file : FileObject) :
    (db.addFile file).identities = db.identities ++ [file.identity] := List.map_append

theorem Settled.uploadCompleted {db : Database} (sound : Settled db) (ids : Identified db)
    {upload : UploadSession} (found : upload ∈ db.uploadSessions) {identity : Identity}
    (owner : upload.tenantId = identity.tenantId) (unfinished : upload.status.terminal = false)
    {file : FileObject} (origin : file.uploadId = some upload.id)
    (tenant : file.tenantId = identity.tenantId) :
    Settled (PyUploadX.uploadCompleted db upload file) := by
  have files : (PyUploadX.uploadCompleted db upload file).identities =
      db.identities ++ [file.identity] := identities_addFile db file
  constructor
  · intro row membership
    obtain ⟨before, member, rfl⟩ := List.mem_map.mp membership
    split
    · simp [UploadSession.setCompleted]
    · exact sound.resting before member
  · rw [files]
    intro row membership completed
    obtain ⟨before, member, rfl⟩ := List.mem_map.mp membership
    split at completed <;> rename_i named
    · rw [if_pos named, ids.upload_unique member found named]
      exact ⟨file.identity, by simp, origin, tenant.trans owner.symm, rfl⟩
    · rw [if_neg named]
      obtain ⟨identity, present, rest⟩ := sound.completed before member completed
      exact ⟨identity, List.mem_append_left _ present, rest⟩
  · rw [files]
    intro row membership identity present
    obtain ⟨before, member, rfl⟩ := List.mem_map.mp membership
    split <;> rename_i named
    · rw [ids.upload_unique member found named]
      intro of
      rcases List.mem_append.mp present with old | added
      · have := (sound.assembled upload found identity old of).1
        simp [this, UploadStatus.terminal] at unfinished
      · rw [List.mem_singleton] at added
        exact ⟨rfl, by rw [added]; rfl⟩
    · intro of
      rcases List.mem_append.mp present with old | added
      · exact sound.assembled before member identity old of
      · rw [List.mem_singleton] at added
        rw [added, FileObject.identity, origin] at of
        exact absurd (Option.some.inj of).symm named

theorem Change.settled {asked : Request} {db db' : Database}
    (change : Change app asked db db') (ids : Identified db)
    (sound : Settled db) : Settled db' := by
  cases change with
  | none => exact sound
  | buckets files sessions parts _ =>
    refine sound.map id (by rw [sessions, List.map_id]) ?_ fun row _ =>
      ⟨rfl, .inl ⟨rfl, rfl⟩⟩
    rw [Database.identities, files]
    rfl
  | directories asks changes =>
    refine sound.map id (by rw [changes.besides.uploadSessions, List.map_id]) ?_ fun row _ =>
      ⟨rfl, .inl ⟨rfl, rfl⟩⟩
    rw [Database.identities, changes.besides.fileObjects]
    rfl
  | @created identity request upload asks new =>
    have unnamed : ∀ identity ∈ db.identities, identity.uploadId ≠ some upload.id := by
      intro identity member named
      exact (ids.origins identity member upload.id named).ne new.fresh
    constructor
    · intro row member
      rcases List.mem_append.mp member with old | added
      · exact sound.resting row old
      · rw [List.mem_singleton] at added
        simp [added, new.initiated]
    · intro row member completed
      rcases List.mem_append.mp member with old | added
      · exact sound.completed row old completed
      · rw [List.mem_singleton] at added
        simp [added, new.initiated] at completed
    · intro row member identity present origin
      rcases List.mem_append.mp member with old | added
      · exact sound.assembled row old identity present origin
      · rw [List.mem_singleton] at added
        subst added
        exact absurd origin (unnamed identity present)
  | @part upload part now starts found unfinished starting owner first last committed asks =>
    have started : Settled
        (if starts then db.updateUpload upload.id (·.setStatus .uploading) else db) := by
      split
      · refine sound.updateUpload _ _ (fun _ => rfl) fun row member named => ?_
        rw [ids.upload_unique member found named]
        exact .inr ⟨unfinished, rfl, .inl rfl⟩
      · exact sound
    have stored : Settled ((if starts then
        db.updateUpload upload.id (·.setStatus .uploading) else db).upsertPart part) := by
      refine started.map id ?_ ?_ fun row _ => ⟨rfl, .inl ⟨rfl, rfl⟩⟩
      · rw [Database.upsertPart_uploadSessions, List.map_id]
      · rw [Database.identities, Database.upsertPart_fileObjects]
        rfl
    exact stored.updateUpload _ (·.touch now) (fun _ => rfl) fun row _ _ => .inl ⟨rfl, rfl⟩
  | touched uploadId now =>
    exact sound.updateUpload _ (·.touch now) (fun _ => rfl) fun row _ _ => .inl ⟨rfl, rfl⟩
  | prolonged uploadId expiresAt now =>
    exact sound.updateUpload _ (·.prolong expiresAt now) (fun _ => rfl)
      fun row _ _ => .inl ⟨rfl, rfl⟩
  | @aborted upload found unfinished =>
    refine sound.updateUpload _ (·.setStatus .aborted) (fun _ => rfl) fun row member named => ?_
    rw [ids.upload_unique member found named]
    exact .inr ⟨unfinished, rfl, .inr (.inl rfl)⟩
  | @expired expiring unfinished =>
    refine sound.map _ (expired_uploadSessions db expiring) ?_ fun row member => ?_
    · rw [Database.identities, expired_fileObjects]
      rfl
    · split
      · rename_i selected
        obtain ⟨upload, found, named, open_⟩ := unfinished row.id selected
        rw [ids.upload_unique found member named] at open_
        exact ⟨rfl, .inr ⟨open_, rfl, .inr (.inr rfl)⟩⟩
      · exact ⟨rfl, .inl ⟨rfl, rfl⟩⟩
  | @completed identity uploadId upload stored now asks found owner unfinished vacant =>
    exact sound.uploadCompleted ids found owner unfinished rfl rfl
  | uploaded asks policy vacant =>
    refine ⟨sound.resting, fun row member completed => ?_, fun row member identity present origin => ?_⟩
    · obtain ⟨identity, present, rest⟩ := sound.completed row member completed
      exact ⟨identity, by rw [identities_addFile]; exact List.mem_append_left _ present, rest⟩
    · rw [identities_addFile] at present
      rcases List.mem_append.mp present with old | added
      · exact sound.assembled row member identity old origin
      · rw [List.mem_singleton] at added
        rw [added] at origin
        cases origin
  | file kind same files =>
    refine sound.map id (by rw [same.1, List.map_id]) ?_ fun row _ =>
      ⟨rfl, .inl ⟨rfl, rfl⟩⟩
    rw [Database.identities, files]
    exact identities_map fun row => kind.identity row
  | batch same loads turns =>
    exact sound.map id (by rw [same.1, List.map_id]) (turns_identities turns)
      fun row _ => ⟨rfl, .inl ⟨rfl, rfl⟩⟩

/-- Every session is cut into parts the way `create_session` cuts it. -/
structure LaidOut (app : AppState σ) (upload : UploadSession) : Prop where
  positive : 0 < upload.partSize
  parts : upload.totalParts = UploadService.totalParts upload.totalSize upload.partSize
  fits : upload.fits app.settings.database.dialect = true
  storageId : app.storage.isLocal = true → upload.storageUploadId = some (.session upload.id)

theorem Change.laidOut {asked : Request} {db db' : Database}
    (change : Change app asked db db')
    (sound : ∀ core ∈ db.cores, LaidOut app core) : ∀ core ∈ db'.cores, LaidOut app core := by
  rcases change.cores with same | ⟨_, _, upload, _, new, rfl⟩
  · rwa [same]
  · intro core member
    rw [Database.cores, Database.insertUpload, List.map_append] at member
    rcases List.mem_append.mp member with old | added
    · exact sound core old
    · rw [List.map_singleton, List.mem_singleton] at added
      subst added
      exact ⟨new.positive, new.parts, new.fits, new.storageId⟩

def UploadPart.key (part : UploadPart) : Uuid × Nat := (part.uploadId, part.partNumber)

theorem upsertPart_mem {db : Database} {part other : UploadPart}
    (member : other ∈ (db.upsertPart part).uploadParts) :
    (other.key = part.key ∧ other.etag = part.etag ∧ other.sizeBytes = part.sizeBytes ∧
      other.checksumSha256 = part.checksumSha256 ∧ other.status = part.status) ∨
    (other ∈ db.uploadParts ∧ other.key ≠ part.key) := by
  unfold Database.upsertPart at member
  dsimp only at member
  split at member
  · obtain ⟨row, old, rfl⟩ := List.mem_map.mp member
    split
    · rename_i same
      exact .inl ⟨Prod.ext same.1 same.2, rfl, rfl, rfl, rfl⟩
    · rename_i different
      exact .inr ⟨old, fun same => different (Prod.mk.inj same)⟩
  · rename_i absent
    rcases List.mem_append.mp member with old | added
    · refine .inr ⟨old, fun same => absent ?_⟩
      exact List.any_eq_true.mpr ⟨other, old, by simpa using Prod.mk.inj same⟩
    · rw [List.mem_singleton] at added
      subst added
      exact .inl ⟨rfl, rfl, rfl, rfl, rfl⟩

theorem upsertPart_keys (db : Database) (part : UploadPart) :
    (db.upsertPart part).uploadParts.map (·.key) =
      if part.key ∈ db.uploadParts.map (·.key) then db.uploadParts.map (·.key)
      else db.uploadParts.map (·.key) ++ [part.key] := by
  have present : (db.uploadParts.any fun other => decide
      (other.uploadId = part.uploadId ∧ other.partNumber = part.partNumber)) = true ↔
      part.key ∈ db.uploadParts.map (·.key) := by
    simp only [List.any_eq_true, decide_eq_true_eq, List.mem_map, UploadPart.key, Prod.mk.injEq]
  unfold Database.upsertPart
  dsimp only
  by_cases known : part.key ∈ db.uploadParts.map (·.key)
  · rw [if_pos (present.mpr known), if_pos known]
    simp only [List.map_map]
    apply List.map_congr_left
    intro row _
    simp only [Function.comp]
    split <;> rfl
  · rw [if_neg (fun found => known (present.mp found)), if_neg known]
    exact List.map_append

theorem upsertPart_kept {db : Database} {part other : UploadPart} (member : other ∈ db.uploadParts)
    (different : other.key ≠ part.key) : other ∈ (db.upsertPart part).uploadParts := by
  unfold Database.upsertPart
  dsimp only
  split
  · refine List.mem_map.mpr ⟨other, member, if_neg fun same => different ?_⟩
    exact Prod.ext same.1 same.2
  · exact List.mem_append_left _ member

theorem upsertPart_added (db : Database) (part : UploadPart) :
    ∃ row ∈ (db.upsertPart part).uploadParts, row.key = part.key := by
  have present : part.key ∈ (db.upsertPart part).uploadParts.map (·.key) := by
    rw [upsertPart_keys]
    split
    · assumption
    · exact List.mem_append_right _ (List.mem_singleton_self _)
  obtain ⟨row, member, same⟩ := List.mem_map.mp present
  exact ⟨row, member, same⟩

/-- The part table: committed rows, at most one for a part, numbers within the session. -/
structure PartsInRange (db : Database) : Prop where
  committed : ∀ part ∈ db.uploadParts, part.status = .committed
  inRange : ∀ part ∈ db.uploadParts, ∀ core ∈ db.cores, core.id = part.uploadId →
    1 ≤ part.partNumber ∧ part.partNumber ≤ core.totalParts
  owned : ∀ part ∈ db.uploadParts, part.uploadId < db.nextId
  unique : (db.uploadParts.map (·.key)).Nodup

theorem PartsInRange.upsertPart {db : Database} (sound : PartsInRange db)
    (unique : (db.cores.map (·.id)).Nodup) (upload : UploadSession) (found : upload ∈ db.cores)
    (old : upload.id < db.nextId) (part : UploadPart)
    (owner : part.uploadId = upload.id) (first : 1 ≤ part.partNumber)
    (last : part.partNumber ≤ upload.totalParts) (committed : part.status = .committed) :
    PartsInRange (db.upsertPart part) := by
  refine ⟨fun row member => ?_, fun row member core inTable named => ?_, fun row member => ?_, ?_⟩
  · rcases upsertPart_mem member with ⟨_, _, _, _, status⟩ | ⟨old, _⟩
    · rw [status, committed]
    · exact sound.committed row old
  · rw [Database.cores, Database.upsertPart_uploadSessions] at inTable
    rcases upsertPart_mem member with ⟨key, _⟩ | ⟨old, _⟩
    · obtain ⟨sameUpload, sameNumber⟩ := Prod.mk.inj key
      have same : core = upload := List.inj_on_of_nodup_map unique inTable found
        (named.trans (sameUpload.trans owner))
      rw [sameNumber, same]
      exact ⟨first, last⟩
    · exact sound.inRange row old core inTable named
  · rw [Database.upsertPart_nextId]
    rcases upsertPart_mem member with ⟨key, _⟩ | ⟨kept, _⟩
    · rw [(Prod.mk.inj key).1, owner]
      exact old
    · exact sound.owned row kept
  · rw [upsertPart_keys]
    split
    · exact sound.unique
    · rename_i new
      rw [List.nodup_append]
      refine ⟨sound.unique, List.nodup_singleton _, ?_⟩
      rintro key old other added rfl
      rw [List.mem_singleton] at added
      exact new (added ▸ old)

/-- Parts only change together with the statement that stores them. -/
theorem PartsInRange.congr {db db' : Database} (sound : PartsInRange db)
    (parts : db'.uploadParts = db.uploadParts) (cores : db'.cores = db.cores)
    (ids : db.nextId ≤ db'.nextId) : PartsInRange db' := by
  constructor
  · rw [parts]; exact sound.committed
  · rw [parts, cores]; exact sound.inRange
  · rw [parts]; exact fun part member => (sound.owned part member).trans_le ids
  · rw [parts]; exact sound.unique

theorem Change.partsInRange {asked : Request} {db db' : Database}
    (change : Change app asked db db')
    (ids : Identified db) (sound : PartsInRange db) : PartsInRange db' := by
  have later := change.nextId_le
  rcases change.cores with same | ⟨_, _, upload, _, new, rfl⟩
  · cases change with
    | @part upload part now starts found unfinished starting owner first last committed asks =>
      have startCores : (if starts then db.updateUpload upload.id (·.setStatus .uploading)
          else db).cores = db.cores := by
        split
        · exact cores_updateUpload _ _ (·.setStatus .uploading) fun _ => rfl
        · rfl
      have started : PartsInRange
          (if starts then db.updateUpload upload.id (·.setStatus .uploading) else db) := by
        split
        · exact sound.congr rfl (cores_updateUpload _ _ (·.setStatus .uploading) fun _ => rfl)
            (le_refl _)
        · exact sound
      have stored := started.upsertPart (by rw [startCores]; exact ids.uploads) upload.core (by rw [startCores]; exact mem_cores found)
        (by
          have old := ids.uploadsOld upload.core (mem_cores found)
          split <;> exact old)
        part owner first last committed
      exact stored.congr rfl (cores_updateUpload _ _ (·.touch now) fun _ => rfl) (le_refl _)
    | buckets files sessions parts grown => exact sound.congr parts same later
    | directories asks changes => exact sound.congr changes.besides.uploadParts same later
    | created asks new => exact sound.congr rfl same later
    | @expired expiring unfinished =>
      exact sound.congr (expired_uploadParts db expiring) same later
    | file kind kept files => exact sound.congr kept.2.1 same later
    | batch kept loads turns => exact sound.congr kept.2.1 same later
    | _ => exact sound.congr rfl same later
  · refine ⟨sound.committed, fun part member core inTable named => ?_,
      fun part member => (sound.owned part member).trans_le later, sound.unique⟩
    rw [Database.cores, Database.insertUpload, List.map_append] at inTable
    rcases List.mem_append.mp inTable with old | added
    · exact sound.inRange part member core old named
    · rw [List.map_singleton, List.mem_singleton] at added
      subst added
      have fresh : upload.id = part.uploadId := named
      exact absurd (fresh.symm.trans new.fresh) (sound.owned part member).ne

structure Integrity (app : AppState σ) (db : Database) : Prop where
  ids : Identified db
  settled : Settled db
  laidOut : ∀ core ∈ db.cores, LaidOut app core
  parts : PartsInRange db

theorem Database.Initial.integrity {db : Database} (initial : db.Initial) : Integrity app db := by
  obtain ⟨files, sessions, parts⟩ := initial
  refine ⟨⟨?_, ?_, ?_, ?_, ?_⟩, ⟨?_, ?_, ?_⟩, ?_, ⟨?_, ?_, ?_, ?_⟩⟩ <;>
    simp [Database.cores, Database.identities, files, sessions, parts]

theorem serve_integrity (world : World Database σ) (timed : Timed)
    (sound : Integrity app world.db) : Integrity app (serve app world timed).2.db := by
  have change := serve_change app world timed
  exact ⟨change.identified sound.ids, change.settled sound.ids sound.settled,
    change.laidOut sound.laidOut, change.partsInRange sound.ids sound.parts⟩

/-- The tables are sound in every state a run of requests reaches. -/
theorem after_integrity (app : AppState σ) {world : World Database σ} (initial : world.db.Initial)
    (requests : List Timed) : Integrity app (after app world requests).db :=
  after_preserves (fun world => Integrity app world.db)
    (fun world timed sound => serve_integrity world timed sound) requests initial.integrity

end PyUploadX
