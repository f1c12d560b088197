import PyUploadX.Kit.History
import PyUploadX.Storage.Buckets
import PyUploadX.Storage.Factory
import PyUploadX.System.StoreEffect

/-! The records of created buckets, along a run: who owns a bucket, and that the storage
has it. -/
namespace PyUploadX

open Kit UploadService

variable {σ : Type} {app : AppState σ}

/-- A bucket request that succeeded. -/
inductive BucketEvent
  | created (tenantId name : String)
  | deleted (tenantId name : String)
  deriving DecidableEq, Repr

def bucketEvent? : Request → Except Failure Reply → Option BucketEvent
  | .createBucket identity _, .ok (.bucket name) => some (.created identity.tenantId name)
  | .deleteBucket identity _, .ok (.bucket name) => some (.deleted identity.tenantId name)
  | _, _ => none

theorem bucketEvent?_error (asked : Request) (failure : Failure) :
    bucketEvent? asked (.error failure) = none := by
  unfold bucketEvent?
  split <;> simp_all

/-- The successful bucket requests of a run, in order. -/
def bucketEvents (app : AppState σ) : World Database σ → List Timed → List BucketEvent
  | _, [] => []
  | world, timed :: rest =>
    (bucketEvent? timed.1 (serve app world timed).1).toList ++
      bucketEvents app (serve app world timed).2 rest

/-- The tenant created the bucket, and no deletion of it followed. -/
def Owns (events : List BucketEvent) (tenantId name : String) : Prop :=
  Standing (· = .created tenantId name) (fun event => ∃ other, event = .deleted other name) events

private theorem owns_created {events : List BucketEvent} {tenantId name owner bucket : String} :
    Owns (events ++ [.created owner bucket]) tenantId name ↔
      (tenantId = owner ∧ name = bucket) ∨ Owns events tenantId name := by
  unfold Owns
  rw [standing_concat]
  simp [eq_comm]

private theorem owns_deleted {events : List BucketEvent} {tenantId name owner bucket : String} :
    Owns (events ++ [.deleted owner bucket]) tenantId name ↔
      name ≠ bucket ∧ Owns events tenantId name := by
  unfold Owns
  rw [standing_concat]
  simp [eq_comm]

/-! What a request does to the records and to the buckets. -/

private theorem processBatch_keepsRecords (batchSize : Nat) (now : Timestamp) :
    (LifecycleWorker.processBatch app batchSize now).Keeps (·.storageBuckets) := by
  have flush : ∀ (fileId : Uuid) (change : FileObject → FileObject),
      (FileRepository.flushFile fileId change : Handler σ Unit).Keeps (·.storageBuckets) :=
    fun _ _ => .modify fun _ => rfl
  have announce : ∀ (file : FileObject) (status : LifecycleStatus),
      (LifecycleWorker.announce file status now : Handler σ Unit).Keeps (·.storageBuckets) :=
    fun _ _ => .bind (.modify fun _ => rfl) fun _ => .modify fun _ => rfl
  have turn : ∀ file, (LifecycleWorker.processFile app file now).Keeps (·.storageBuckets) := by
    intro file
    unfold LifecycleWorker.processFile
    split
    · exact .bind (.modify fun _ => rfl) fun _ => .pure _
    · split
      · refine .bind (flush _ _) fun _ => .bind (.tryStore _ _) fun outcome => ?_
        cases outcome with
        | ok _ => exact .bind (flush _ _) fun _ => .bind (announce _ _) fun _ => .pure _
        | error _ => exact .bind (flush _ _) fun _ => .pure _
      · exact .bind (flush _ _) fun _ => .bind (announce _ _) fun _ => .pure _
      · exact .bind (flush _ _) fun _ => .bind (announce _ _) fun _ => .pure _
  have turns : ∀ files, (LifecycleWorker.processAll app files now).Keeps (·.storageBuckets) := by
    intro files
    induction files with
    | nil => exact .pure _
    | cons file rest ih => exact .bind (turn file) fun _ => .bind ih fun _ => .pure _
  exact .bind (.of_readOnly (.select _ _)) fun files => turns files

private theorem expired_storageBuckets (db : Database) (ids : List Uuid) :
    (ids.foldl (fun db id => db.updateUpload id (·.setStatus .expired)) db).storageBuckets =
      db.storageBuckets := by
  rw [expired_eq]

/-- What a committed request does to the records. -/
inductive RecordChange (app : AppState σ) (db : Database) (store : σ) :
    Request → Reply → Database → σ → Prop
  | created {identity : Identity} {name out : String} {store' : σ}
      (absent : app.storage.bucketExists out store = .ok false)
      (made : app.storage.createBucket out store = (.ok (), store')) :
      RecordChange app db store (.createBucket identity name) (.bucket out)
        (db.addBucket ⟨identity.tenantId, out, identity.principalId⟩) store'
  | deleted {identity : Identity} {name out : String} {store' : σ}
      (deletable : out ∉ app.settings.storage.allowedBuckets)
      (recorded : (db.findBucket identity.tenantId out).isSome)
      (removed : app.storage.deleteBucket out store = (.ok (), store')) :
      RecordChange app db store (.deleteBucket identity name) (.bucket out)
        (db.removeBucket identity.tenantId out) store'
  | kept {asked : Request} {reply : Reply} {db' : Database} {store' : σ}
      (silent : bucketEvent? asked (.ok reply) = none)
      (same : db'.storageBuckets = db.storageBuckets) :
      RecordChange app db store asked reply db' store'

theorem handle_recordChange {asked : Request} {now : Timestamp} {db db' : Database}
    {store store' : σ} {reply : Reply}
    (done : (handle app asked now).run db store = (.ok (reply, db'), store')) :
    RecordChange app db store asked reply db' store' := by
  cases asked with
  | createBucket identity name =>
    obtain ⟨out, ran, rfl⟩ := Program.bind_pure_eq_ok.mp done
    obtain ⟨rfl, absent, made⟩ := createBucket_ok ran
    exact .created absent made
  | deleteBucket identity name =>
    obtain ⟨out, ran, rfl⟩ := Program.bind_pure_eq_ok.mp done
    obtain ⟨rfl, deletable, recorded, removed⟩ := deleteBucket_ok ran
    exact .deleted deletable recorded removed
  | createSession identity request =>
    obtain ⟨_, done, _⟩ := Program.bind_pure_eq_ok.mp done
    obtain ⟨_, _, _, _, _, _, _, _, _, _, _, _, _, _, rfl⟩ := createSession_ok done
    exact .kept rfl rfl
  | proxyUploadPart identity uploadId partNumber body checksumSha256 =>
    obtain ⟨_, done, _⟩ := Program.bind_pure_eq_ok.mp done
    obtain ⟨upload, _, _, _, _, _, _, _, rfl, rfl⟩ := proxyUploadPart_ok done
    refine .kept rfl ?_
    unfold partAccepted
    rw [Database.updateUpload_storageBuckets, Database.upsertPart_storageBuckets]
    split <;> rfl
  | lostPart identity uploadId partNumber body checksumSha256 =>
    rw [handle, Program.bind_eq_ok] at done
    obtain ⟨_, _, _, _, ended⟩ := done
    cases ended
  | directPart uploadId partNumber body =>
    obtain ⟨_, done, _⟩ := Program.bind_pure_eq_ok.mp done
    rw [putPresigned_ok done]
    exact .kept rfl rfl
  | commitPart identity uploadId partNumber etag sizeBytes checksumSha256 =>
    obtain ⟨_, done, _⟩ := Program.bind_pure_eq_ok.mp done
    obtain ⟨_, _, _, _, _, rfl, _⟩ := commitPart_ok done
    exact .kept rfl (by simp)
  | resume identity uploadId =>
    obtain ⟨⟨_, _⟩, done, _⟩ := Program.bind_pure_eq_ok.mp done
    obtain ⟨_, _, _, _, rfl, _⟩ := resume_ok done
    exact .kept rfl rfl
  | complete identity uploadId =>
    obtain ⟨_, done, _⟩ := Program.bind_pure_eq_ok.mp done
    obtain ⟨_, _, ⟨_, _, _, rfl, _⟩ | ⟨_, _, _, _, _, _, _, rfl⟩⟩ := complete_ok done
    · exact .kept rfl rfl
    · exact .kept rfl rfl
  | abort identity uploadId =>
    obtain ⟨_, done, _⟩ := Program.bind_pure_eq_ok.mp done
    obtain ⟨_, _, ⟨_, rfl, _⟩ | ⟨_, rfl, _⟩⟩ := abort_ok done
    · exact .kept rfl rfl
    · exact .kept rfl rfl
  | refresh identity uploadId =>
    obtain ⟨_, done, _⟩ := Program.bind_pure_eq_ok.mp done
    obtain ⟨_, _, _, _, rfl, _⟩ := refresh_ok done
    exact .kept rfl rfl
  | expireUploadSessions batchSize =>
    obtain ⟨_, done, _⟩ := Program.bind_pure_eq_ok.mp done
    rw [expireUploadSessions_run] at done
    cases done
    exact .kept rfl (expired_storageBuckets db _)
  | proxyUpload identity request =>
    obtain ⟨_, done, _⟩ := Program.bind_pure_eq_ok.mp done
    obtain ⟨_, _, _, _, _, _, _, rfl⟩ := proxyUpload_ok done
    exact .kept rfl rfl
  | delete identity fileId =>
    obtain ⟨_, done, _⟩ := Program.bind_pure_eq_ok.mp done
    obtain ⟨_, _, _, _, _, rfl⟩ := delete_ok done
    exact .kept rfl rfl
  | updateLifecycle identity fileId requested =>
    obtain ⟨_, done, _⟩ := Program.bind_pure_eq_ok.mp done
    obtain ⟨_, _, _, _, _, _, rfl, _⟩ := updateLifecycle_ok done
    exact .kept rfl rfl
  | extend identity fileId extendSeconds =>
    obtain ⟨_, done, _⟩ := Program.bind_pure_eq_ok.mp done
    obtain ⟨_, _, _, _, _, rfl, _⟩ := extend_ok done
    exact .kept rfl rfl
  | makePermanent identity fileId =>
    obtain ⟨_, done, _⟩ := Program.bind_pure_eq_ok.mp done
    obtain ⟨_, _, _, _, rfl, _⟩ := makePermanent_ok done
    exact .kept rfl rfl
  | setLegalHold identity fileId hold =>
    obtain ⟨_, done, _⟩ := Program.bind_pure_eq_ok.mp done
    obtain ⟨_, _, _, rfl, _⟩ := setLegalHold_ok done
    exact .kept rfl rfl
  | processBatch batchSize =>
    obtain ⟨_, done, _⟩ := Program.bind_pure_eq_ok.mp done
    exact .kept rfl (processBatch_keepsRecords batchSize now _ _ _ _ _ done)
  | read identity request =>
    obtain ⟨_, done, _⟩ := Program.bind_pure_eq_ok.mp done
    exact .kept rfl (congrArg Database.storageBuckets ((read_readOnly identity request).ok done).1)
  | directoryUpload identity request =>
    obtain ⟨_, done, _⟩ := Program.bind_pure_eq_ok.mp done
    exact .kept rfl (directoryUpload_ensures db store _ db' _ rfl done).besides.storageBuckets

/-- A deletion fails before it calls the storage, or because the storage refuses. -/
theorem deleteBucket_failed {identity : Identity} {name : String} {db : Database}
    {store store' : σ} {failure : Failure}
    (failed : (BucketService.deleteBucket app identity name).run db store =
      (.error failure, store')) :
    store' = store ∨
      ∃ bucket, app.storage.deleteBucket bucket store = (.error failure, store') := by
  unfold BucketService.deleteBucket at failed
  obtain same | ⟨bucket, _, failed⟩ := (Program.ReadOnly.liftExcept _).bind_error failed
  · exact .inl same
  obtain same | ⟨_, _, failed⟩ := (Program.ReadOnly.refuseIf _ _).bind_error failed
  · exact .inl same
  obtain same | ⟨found, _, failed⟩ := (Program.ReadOnly.ask _).bind_error failed
  · exact .inl same
  cases found with
  | none =>
    cases failed
    exact .inl rfl
  | some record =>
    obtain same | ⟨_, _, failed⟩ := (Program.ReadOnly.askStore _ _).bind_error failed
    · exact .inl same
    obtain same | ⟨_, _, failed⟩ := (Program.ReadOnly.refuseIf _ _).bind_error failed
    · exact .inl same
    rcases Program.bind_eq_error.mp failed with refused | ⟨_, db₁, store₁, _, ended⟩
    · exact .inr ⟨bucket, Program.onStore_eq_error.mp refused⟩
    · cases ended

section Presence

variable (backend : BucketBackend app.storage)

/-- A batch of the worker removes objects, never a bucket. -/
theorem turns_hasBucket {now : Timestamp} {due files files' : List FileObject} {store store' : σ}
    (turns : LifecycleWorker.Turns app now due files store files' store') {bucket : String}
    (there : backend.hasBucket store bucket) : backend.hasBucket store' bucket := by
  refine @LifecycleWorker.turns_store _ _ (fun left => backend.hasBucket left bucket) _ _ _ _ _ _
    turns (fun file _ _ _ ran there => ?_) there
  have kept := backend.deleteObject_keeps file.bucket file.objectKey there
  rw [ran] at kept
  exact kept

/-- Every request but a deletion of the bucket keeps it. -/
theorem StoreEffect.hasBucket {db : Database} {request : Request} {store store' : σ}
    (effect : StoreEffect app db store request store') {bucket : String}
    (there : backend.hasBucket store bucket) :
    (∃ identity name, request = .deleteBucket identity name) ∨
      backend.hasBucket store' bucket := by
  cases effect with
  | none => exact .inr there
  | createBucket => exact .inr (backend.createBucket_keeps _ there)
  | deleteBucket identity name => exact .inl ⟨identity, name, rfl⟩
  | initiate => exact .inr (backend.initiate_keeps _ _ _ _ there)
  | part => exact .inr (backend.uploadPart_keeps _ _ _ _ _ _ _ there)
  | complete => exact .inr (backend.complete_keeps _ _ _ _ there)
  | abort => exact .inr (backend.abort_keeps _ _ _ there)
  | put => exact .inr (backend.putObject_keeps _ _ _ _ _ _ there)
  | delete => exact .inr (backend.deleteObject_keeps _ _ there)
  | batch turns => exact .inr (turns_hasBucket backend turns there)

theorem serve_hasBucket {world : World Database σ} {timed : Timed} {bucket : String}
    (there : backend.hasBucket world.store bucket)
    (kept : ∀ owner, bucketEvent? timed.1 (serve app world timed).1 ≠ some (.deleted owner bucket)) :
    backend.hasBucket (serve app world timed).2.store bucket := by
  obtain ⟨asked, now⟩ := timed
  rcases (serve_storeEffect world (asked, now)).hasBucket backend there with
    ⟨identity, name, deletes⟩ | present
  · cases deletes
    rcases ran : serve app world (.deleteBucket identity name, now) with ⟨_ | reply, world'⟩
    · obtain ⟨failed, _⟩ := World.execute_eq_error.mp ran
      rcases Program.bind_eq_error.mp failed with failed | ⟨_, _, _, _, ended⟩
      · rcases deleteBucket_failed failed with same | ⟨refused, refusal⟩
        · rw [same]
          exact there
        · by_cases same : bucket = refused
          · rw [← same] at refusal
            exact backend.deleteBucket_error refusal there
          · have others := backend.deleteBucket_keeps same there
            rw [refusal] at others
            exact others
      · cases ended
    · obtain ⟨out, done, rfl⟩ := Program.bind_pure_eq_ok.mp (World.execute_eq_ok.mp ran)
      obtain ⟨_, _, _, removed⟩ := deleteBucket_ok done
      rw [ran] at kept
      have different : bucket ≠ out := by
        rintro rfl
        exact kept _ rfl
      have others := backend.deleteBucket_keeps different there
      rw [removed] at others
      exact others
  · exact present

end Presence

/-- The records, the buckets of the storage and the requests so far agree. -/
structure RecordsSound (backend : BucketBackend app.storage) (events : List BucketEvent)
    (world : World Database σ) : Prop where
  stored : ∀ record ∈ world.db.storageBuckets, backend.hasBucket world.store record.name
  exclusive : ∀ first ∈ world.db.storageBuckets, ∀ second ∈ world.db.storageBuckets,
    first.name = second.name → first.tenantId = second.tenantId
  owned : ∀ tenantId name, (world.db.findBucket tenantId name).isSome = true ↔
    Owns events tenantId name

theorem RecordsSound.start (backend : BucketBackend app.storage) {world : World Database σ}
    (empty : world.db.storageBuckets = []) : RecordsSound backend [] world where
  stored := by simp [empty]
  exclusive := by simp [empty]
  owned tenantId name := by simp [Database.findBucket, empty, Owns, not_standing_nil]

section Step

variable {backend : BucketBackend app.storage} {events : List BucketEvent} {db : Database}
  {store store' : σ}

theorem RecordsSound.keep (sound : RecordsSound backend events ⟨db, store⟩) {db' : Database}
    (same : db'.storageBuckets = db.storageBuckets)
    (kept : ∀ bucket, backend.hasBucket store bucket → backend.hasBucket store' bucket) :
    RecordsSound backend events ⟨db', store'⟩ where
  stored record member := kept _ (sound.stored record (same ▸ member))
  exclusive first member second member' :=
    sound.exclusive first (same ▸ member) second (same ▸ member')
  owned tenantId name := by
    rw [← sound.owned tenantId name]
    unfold Database.findBucket
    rw [same]

theorem RecordsSound.create (sound : RecordsSound backend events ⟨db, store⟩)
    {tenantId name createdBy : String} (absent : ¬ backend.hasBucket store name)
    (made : backend.hasBucket store' name)
    (kept : ∀ bucket, backend.hasBucket store bucket → backend.hasBucket store' bucket) :
    RecordsSound backend (events ++ [.created tenantId name])
      ⟨db.addBucket ⟨tenantId, name, createdBy⟩, store'⟩ := by
  -- a record of that name would mean that the storage has the bucket already
  have unused : ∀ record ∈ db.storageBuckets, record.name ≠ name := by
    rintro record member rfl
    exact absent (sound.stored record member)
  refine ⟨?_, ?_, ?_⟩
  · intro record member
    rcases List.mem_append.mp member with old | fresh
    · exact kept _ (sound.stored record old)
    · rw [List.mem_singleton.mp fresh]
      exact made
  · intro first member second member' same
    rcases List.mem_append.mp member with old | fresh <;>
      rcases List.mem_append.mp member' with old' | fresh'
    · exact sound.exclusive first old second old' same
    · rw [List.mem_singleton.mp fresh'] at same
      exact absurd same (unused first old)
    · rw [List.mem_singleton.mp fresh] at same
      exact absurd same.symm (unused second old')
    · rw [List.mem_singleton.mp fresh, List.mem_singleton.mp fresh']
  · intro tenantId' name'
    rw [owns_created, ← sound.owned, Database.findBucket_isSome, Database.findBucket_isSome]
    constructor
    · rintro ⟨record, member, owner, named⟩
      rcases List.mem_append.mp member with old | fresh
      · exact .inr ⟨record, old, owner, named⟩
      · rw [List.mem_singleton.mp fresh] at owner named
        exact .inl ⟨owner.symm, named.symm⟩
    · rintro (⟨rfl, rfl⟩ | ⟨record, member, owner, named⟩)
      · exact ⟨_, List.mem_append.mpr (.inr (List.mem_singleton.mpr rfl)), rfl, rfl⟩
      · exact ⟨record, List.mem_append.mpr (.inl member), owner, named⟩

theorem mem_removeBucket {tenantId name : String} {record : StorageBucket} :
    record ∈ (db.removeBucket tenantId name).storageBuckets ↔
      record ∈ db.storageBuckets ∧ ¬ (record.tenantId = tenantId ∧ record.name = name) := by
  unfold Database.removeBucket
  rw [List.mem_filter, decide_eq_true_eq]

theorem RecordsSound.delete (sound : RecordsSound backend events ⟨db, store⟩)
    {tenantId name : String} (recorded : (db.findBucket tenantId name).isSome)
    (kept : ∀ bucket ≠ name, backend.hasBucket store bucket → backend.hasBucket store' bucket) :
    RecordsSound backend (events ++ [.deleted tenantId name])
      ⟨db.removeBucket tenantId name, store'⟩ := by
  obtain ⟨removed, present, owner, named⟩ := Database.findBucket_isSome.mp recorded
  -- the record that goes was the only one of its name
  have others : ∀ record ∈ (db.removeBucket tenantId name).storageBuckets,
      record ∈ db.storageBuckets ∧ record.name ≠ name := by
    intro record member
    obtain ⟨old, different⟩ := mem_removeBucket.mp member
    refine ⟨old, fun same => different ⟨?_, same⟩⟩
    rw [← owner]
    exact sound.exclusive record old removed present (same.trans named.symm)
  refine ⟨?_, ?_, ?_⟩
  · intro record member
    obtain ⟨old, different⟩ := others record member
    exact kept _ different (sound.stored record old)
  · intro first member second member'
    exact sound.exclusive first (others first member).1 second (others second member').1
  · intro tenantId' name'
    rw [owns_deleted, ← sound.owned, Database.findBucket_isSome, Database.findBucket_isSome]
    constructor
    · rintro ⟨record, member, rfl, rfl⟩
      obtain ⟨old, different⟩ := others record member
      exact ⟨different, record, old, rfl, rfl⟩
    · rintro ⟨different, record, old, rfl, rfl⟩
      exact ⟨record, mem_removeBucket.mpr ⟨old, fun same => different same.2⟩, rfl, rfl⟩

end Step

/-- One request keeps the agreement, its own success included. -/
theorem RecordsSound.serve {backend : BucketBackend app.storage} {events : List BucketEvent}
    {world : World Database σ} (sound : RecordsSound backend events world) (timed : Timed) :
    RecordsSound backend
      (events ++ (bucketEvent? timed.1 (serve app world timed).1).toList)
      (serve app world timed).2 := by
  have present := @serve_hasBucket σ app backend world timed
  rcases ran : PyUploadX.serve app world timed with ⟨failure | reply, db', store'⟩
  · obtain ⟨_, same⟩ := World.execute_eq_error.mp ran
    rw [ran] at present
    rw [bucketEvent?_error, Option.toList_none, List.append_nil]
    have same : db' = world.db := same
    rw [same]
    exact sound.keep rfl fun bucket there => present there (by simp [bucketEvent?_error])
  · have change := handle_recordChange (World.execute_eq_ok.mp ran)
    rw [ran] at present
    obtain ⟨asked, now⟩ := timed
    cases change with
    | created absent made =>
      have missing := mt (backend.bucketExists_ok absent).mpr (by simp)
      exact sound.create missing (backend.createBucket_ok made)
        fun bucket there => present there (by simp [bucketEvent?])
    | deleted deletable recorded removed =>
      refine sound.delete recorded fun bucket different there => present there fun owner => ?_
      simpa [bucketEvent?] using fun _ => different.symm
    | kept silent same =>
      rw [silent, Option.toList_none, List.append_nil]
      exact sound.keep same fun bucket there => present there (by simp [silent])

/-- The agreement along a run. -/
theorem RecordsSound.after {backend : BucketBackend app.storage} {events : List BucketEvent}
    {world : World Database σ} (sound : RecordsSound backend events world)
    (requests : List Timed) :
    RecordsSound backend (events ++ bucketEvents app world requests)
      (after app world requests) := by
  induction requests generalizing events world with
  | nil => simpa [bucketEvents, PyUploadX.after] using sound
  | cons timed rest ih =>
    have next := ih (sound.serve timed)
    rw [List.append_assoc] at next
    exact next

theorem after_hasBucket (backend : BucketBackend app.storage) {world : World Database σ}
    {bucket : String} (configured : bucket ∈ app.settings.storage.allowedBuckets)
    (there : backend.hasBucket world.store bucket) (requests : List Timed) :
    backend.hasBucket (after app world requests).store bucket := by
  refine after_preserves (fun world => backend.hasBucket world.store bucket) ?_ requests there
  intro world timed there
  refine serve_hasBucket backend there fun owner deletes => ?_
  rcases ran : serve app world timed with ⟨failure | reply, db', store'⟩
  · rw [ran, bucketEvent?_error] at deletes
    cases deletes
  · rw [ran] at deletes
    have change := handle_recordChange (World.execute_eq_ok.mp ran)
    obtain ⟨asked, now⟩ := timed
    cases change with
    | created => cases deletes
    | deleted deletable =>
      cases deletes
      exact deletable configured
    | kept silent =>
      rw [silent] at deletes
      cases deletes

theorem isBucketAllowed_iff {tenantId bucket : String} {db : Database} {store : σ} :
    (BucketService.isBucketAllowed app tenantId bucket).run db store = (.ok (true, db), store) ↔
      bucket ∈ app.settings.storage.allowedBuckets ∨
        (db.findBucket tenantId bucket).isSome = true := by
  unfold BucketService.isBucketAllowed BucketRepository.getByName
  split
  · rename_i configured
    exact iff_of_true rfl (.inl configured)
  · rename_i unlisted
    rw [Program.run_ask_bind, Program.pure_eq_ok]
    simp [unlisted]

/-- What the records and `is_bucket_allowed` promise after a run of requests. -/
structure RecordsFollow (app : AppState σ) (hasBucket : σ → String → Prop)
    (world : World Database σ) (requests : List Timed) : Prop where
  exclusive : ∀ first ∈ (after app world requests).db.storageBuckets,
    ∀ second ∈ (after app world requests).db.storageBuckets,
      first.name = second.name → first.tenantId = second.tenantId
  stored : ∀ record ∈ (after app world requests).db.storageBuckets,
    hasBucket (after app world requests).store record.name
  configured : ∀ bucket ∈ app.settings.storage.allowedBuckets,
    hasBucket world.store bucket → hasBucket (after app world requests).store bucket
  allowed : ∀ tenantId name, name ∉ app.settings.storage.allowedBuckets →
    ((BucketService.isBucketAllowed app tenantId name).run (after app world requests).db
        (after app world requests).store =
      (.ok (true, (after app world requests).db), (after app world requests).store) ↔
      Owns (bucketEvents app world requests) tenantId name)

private theorem recordsFollow_of_laws (backend : BucketBackend app.storage) {world : World Database σ}
    (empty : world.db.storageBuckets = []) (requests : List Timed) :
    RecordsFollow app backend.hasBucket world requests := by
  have sound := (RecordsSound.start backend empty).after requests
  rw [List.nil_append] at sound
  refine ⟨sound.exclusive, sound.stored, ?_, ?_⟩
  · intro bucket configured there
    exact after_hasBucket backend configured there requests
  · intro tenantId name unlisted
    rw [isBucketAllowed_iff, ← sound.owned]
    exact or_iff_right unlisted

/-- On either adapter, whatever requests run: a bucket outside the configuration belongs
to the one tenant who created it last, and its record has its bucket. -/
theorem records_follow_requests (settings : Settings) (nfc : String → String)
    (sha256 : Bytes → String) (requests : List Timed) :
    (∀ world : World Database LocalState, world.db.storageBuckets = [] →
      RecordsFollow (localApp settings nfc sha256)
        (fun state bucket => state.tree.isDirectory [bucket] = true) world requests) ∧
    ∀ (pages : Nat) {σ : Type} (client : S3Client σ) (hasBucket : σ → String → Prop),
      client.BucketLaws hasBucket →
      ∀ world : World Database σ, world.db.storageBuckets = [] →
        RecordsFollow (s3App settings nfc sha256 pages client) hasBucket world requests := by
  constructor
  · intro world empty
    have follow := @recordsFollow_of_laws _ (localApp settings nfc sha256)
      (localBuckets sha256) world empty requests
    simp only [isDirectory_iff]
    exact follow
  · intro pages σ client hasBucket laws world empty
    exact @recordsFollow_of_laws _ (s3App settings nfc sha256 pages client)
      (s3Buckets sha256 pages laws) world empty requests

/-- A bucket the small application lets its tenant create. -/
def teamCreated : List Timed := [(.createBucket smallTenant "team", 0)]

theorem records_follow_requests_team :
    Owns (bucketEvents smallLocalApp ⟨{}, {}⟩ teamCreated) "tenant" "team" ∧
      Owns (bucketEvents smallS3App ⟨{}, smallS3⟩ teamCreated) "tenant" "team" ∧
      "files" ∈ (after smallS3App ⟨{}, smallS3⟩ teamCreated).store.buckets := by
  obtain ⟨onDisk, onS3⟩ := records_follow_requests (smallSettings .local) id
    (fun content => toString content.length) teamCreated
  have disk := onDisk ⟨{}, {}⟩ rfl
  obtain ⟨_, service⟩ := records_follow_requests (smallSettings .s3) id
    (fun content => toString content.length) teamCreated
  have s3 := service 4 (MemoryS3.client fun content => toString content.length)
    (fun state bucket => bucket ∈ state.buckets) (memory_bucketLaws _) ⟨{}, smallS3⟩ rfl
  refine ⟨?_, ?_, ?_⟩
  · exact (disk.allowed "tenant" "team" (by decide)).mp (isBucketAllowed_iff.mpr (by decide))
  · exact (s3.allowed "tenant" "team" (by decide)).mp (isBucketAllowed_iff.mpr (by decide))
  · exact s3.configured "files" (by decide) (by decide)

end PyUploadX
