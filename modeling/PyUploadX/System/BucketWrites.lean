import PyUploadX.Db.Integrity
import PyUploadX.Services.Calls
import PyUploadX.System.BucketRecords

/-! Which buckets objects are written to, and whether the writing tenant may. -/
namespace PyUploadX

open Kit UploadService

variable {σ : Type} {app : AppState σ}

/-- The tenant and the bucket of the object a request is to write. -/
def writeTarget? (db : Database) : Request → Option (String × String)
  | .proxyUpload identity request => some (identity.tenantId, request.bucket)
  | .complete identity uploadId =>
    (db.findUpload uploadId identity.tenantId).map fun upload =>
      (identity.tenantId, upload.bucket)
  | _ => none

/-- An object the request writes goes to a bucket that is allowed at that moment. -/
def WritesAllowed (app : AppState σ) (world : World Database σ) (timed : Timed) : Prop :=
  ∀ call ∈ (handle app timed.1 timed.2).calls world.db world.store, call.name.WritesObject →
    ∀ tenantId bucket, writeTarget? world.db timed.1 = some (tenantId, bucket) →
      (BucketService.isBucketAllowed app tenantId bucket).run call.db call.store =
        (.ok (true, call.db), call.store)

/-- The tenant deleted the bucket, and has not created it again since. -/
def GaveUp (events : List BucketEvent) (tenantId name : String) : Prop :=
  Standing (· = .deleted tenantId name) (· = .created tenantId name) events

private theorem gaveUp_created {events : List BucketEvent} {tenantId name owner bucket : String} :
    GaveUp (events ++ [.created owner bucket]) tenantId name ↔
      ¬ (tenantId = owner ∧ name = bucket) ∧ GaveUp events tenantId name := by
  unfold GaveUp
  rw [standing_concat]
  simp [eq_comm]

private theorem gaveUp_deleted {events : List BucketEvent} {tenantId name owner bucket : String} :
    GaveUp (events ++ [.deleted owner bucket]) tenantId name ↔
      (tenantId = owner ∧ name = bucket) ∨ GaveUp events tenantId name := by
  unfold GaveUp
  rw [standing_concat]
  simp [eq_comm]

/-! A tenant loses a bucket by its own deletion only. -/

private theorem validateBucket_ok {identity : Identity} {bucket : String} {db : Database} {store : σ}
    (passed : (validateBucket app identity bucket).run db store = (.ok ((), db), store)) :
    bucket ∈ app.settings.storage.allowedBuckets ∨
      (db.findBucket identity.tenantId bucket).isSome = true := by
  unfold validateBucket at passed
  rw [(isBucketAllowed_readOnly _ _).bind_eq_ok] at passed
  obtain ⟨answer, decided, passed⟩ := passed
  cases answer with
  | true => exact isBucketAllowed_iff.mp decided
  | false => cases passed

private theorem createSession_allowed {identity : Identity} {request : CreateSession} {now : Timestamp}
    {db db' : Database} {store store' : σ} {upload : UploadSession}
    (done : (createSession app identity request now).run db store =
      (.ok (upload, db'), store')) :
    db' = db.insertUpload upload ∧ (upload.bucket ∈ app.settings.storage.allowedBuckets ∨
      (db.findBucket upload.tenantId upload.bucket).isSome = true) := by
  obtain ⟨_, _, _, _, _, _, _, _, _, _, _, _, _, rfl, rfl⟩ := createSession_ok done
  unfold createSession at done
  rw [(validateBucket_readOnly _ _).bind_eq_ok] at done
  obtain ⟨_, passed, _⟩ := done
  exact ⟨rfl, validateBucket_ok passed⟩

/-- A recorded bucket was not given up, and a session's bucket is allowed to its tenant
unless the tenant gave it up. -/
structure Permissions (app : AppState σ) (events : List BucketEvent) (db : Database) : Prop where
  recorded : ∀ tenantId name, (db.findBucket tenantId name).isSome = true →
    ¬ GaveUp events tenantId name
  sessions : ∀ core ∈ db.cores, core.bucket ∈ app.settings.storage.allowedBuckets ∨
    (db.findBucket core.tenantId core.bucket).isSome = true ∨
      GaveUp events core.tenantId core.bucket

private theorem Database.Initial.permissions {db : Database} (initial : db.Initial) :
    Permissions app [] db where
  recorded _ _ _ := not_standing_nil
  sessions := by simp [Database.cores, initial.2.1]

private theorem addBucket_isSome {db : Database} {bucket : StorageBucket} {tenantId name : String} :
    ((db.addBucket bucket).findBucket tenantId name).isSome = true ↔
      (db.findBucket tenantId name).isSome = true ∨
        (tenantId = bucket.tenantId ∧ name = bucket.name) := by
  rw [Database.findBucket_isSome, Database.findBucket_isSome]
  constructor
  · rintro ⟨record, member, rfl, rfl⟩
    rcases List.mem_append.mp member with old | fresh
    · exact .inl ⟨record, old, rfl, rfl⟩
    · rw [List.mem_singleton.mp fresh]
      exact .inr ⟨rfl, rfl⟩
  · rintro (⟨record, old, owner, named⟩ | ⟨rfl, rfl⟩)
    · exact ⟨record, List.mem_append.mpr (.inl old), owner, named⟩
    · exact ⟨bucket, List.mem_append.mpr (.inr (List.mem_singleton.mpr rfl)), rfl, rfl⟩

private theorem removeBucket_isSome {db : Database} {owner bucket tenantId name : String} :
    ((db.removeBucket owner bucket).findBucket tenantId name).isSome = true ↔
      (db.findBucket tenantId name).isSome = true ∧ ¬ (tenantId = owner ∧ name = bucket) := by
  rw [Database.findBucket_isSome, Database.findBucket_isSome]
  constructor
  · rintro ⟨record, member, rfl, rfl⟩
    obtain ⟨old, other⟩ := mem_removeBucket.mp member
    exact ⟨⟨record, old, rfl, rfl⟩, other⟩
  · rintro ⟨⟨record, old, rfl, rfl⟩, other⟩
    exact ⟨record, mem_removeBucket.mpr ⟨old, other⟩, rfl, rfl⟩

section Step

variable {events : List BucketEvent} {db db' : Database}

theorem Permissions.create (sound : Permissions app events db) (bucket : StorageBucket) :
    Permissions app (events ++ [.created bucket.tenantId bucket.name]) (db.addBucket bucket) where
  recorded tenantId name recorded := by
    rw [gaveUp_created]
    rintro ⟨other, gaveUp⟩
    rcases addBucket_isSome.mp recorded with old | fresh
    · exact sound.recorded _ _ old gaveUp
    · exact other fresh
  sessions core member := by
    rw [gaveUp_created, addBucket_isSome]
    have old := sound.sessions core member
    tauto

theorem Permissions.delete (sound : Permissions app events db) (owner bucket : String) :
    Permissions app (events ++ [.deleted owner bucket]) (db.removeBucket owner bucket) where
  recorded tenantId name recorded := by
    obtain ⟨old, other⟩ := removeBucket_isSome.mp recorded
    rw [gaveUp_deleted]
    rintro (same | gaveUp)
    · exact other same
    · exact sound.recorded _ _ old gaveUp
  sessions core member := by
    rw [gaveUp_deleted, removeBucket_isSome]
    have old := sound.sessions core member
    tauto

theorem Permissions.keep (sound : Permissions app events db)
    (same : db'.storageBuckets = db.storageBuckets)
    (cores : ∀ core ∈ db'.cores, core ∈ db.cores ∨
      core.bucket ∈ app.settings.storage.allowedBuckets ∨
        (db.findBucket core.tenantId core.bucket).isSome = true) :
    Permissions app events db' := by
  have find : ∀ tenantId name, db'.findBucket tenantId name = db.findBucket tenantId name := by
    intro tenantId name
    unfold Database.findBucket
    rw [same]
  refine ⟨fun tenantId name => ?_, fun core member => ?_⟩
  · rw [find]
    exact sound.recorded tenantId name
  · rw [find]
    rcases cores core member with old | configured | recorded
    · exact sound.sessions core old
    · exact .inl configured
    · exact .inr (.inl recorded)

end Step

/-- A session is created only in a bucket that is allowed. -/
theorem handle_newCores {asked : Request} {now : Timestamp} {db db' : Database}
    {store store' : σ} {reply : Reply}
    (done : (handle app asked now).run db store = (.ok (reply, db'), store'))
    (core : UploadSession) (member : core ∈ db'.cores) :
    core ∈ db.cores ∨ core.bucket ∈ app.settings.storage.allowedBuckets ∨
      (db.findBucket core.tenantId core.bucket).isSome = true := by
  rcases (handle_change done).cores with unchanged | ⟨identity, request, _, rfl, _, _⟩
  · exact .inl (unchanged ▸ member)
  · obtain ⟨upload, ran, _⟩ := Program.bind_pure_eq_ok.mp done
    obtain ⟨rfl, allowed⟩ := createSession_allowed ran
    rw [Database.cores, Database.insertUpload, List.map_append] at member
    rcases List.mem_append.mp member with old | added
    · exact .inl old
    · rw [List.map_singleton, List.mem_singleton] at added
      subst added
      exact .inr allowed

theorem Permissions.serve {events : List BucketEvent} {world : World Database σ}
    (sound : Permissions app events world.db) (timed : Timed) :
    Permissions app (events ++ (bucketEvent? timed.1 (serve app world timed).1).toList)
      (serve app world timed).2.db := by
  obtain ⟨asked, now⟩ := timed
  rcases ran : PyUploadX.serve app world (asked, now) with ⟨failure | reply, db', store'⟩
  · obtain ⟨_, same⟩ := World.execute_eq_error.mp ran
    have same : db' = world.db := same
    rw [bucketEvent?_error, Option.toList_none, List.append_nil, same]
    exact sound
  · have done := World.execute_eq_ok.mp ran
    have cores := handle_newCores done
    cases handle_recordChange done with
    | @created identity name out _ absent made =>
      exact sound.create ⟨identity.tenantId, out, identity.principalId⟩
    | deleted deletable recorded removed => exact sound.delete _ _
    | kept silent same =>
      rw [silent, Option.toList_none, List.append_nil]
      exact sound.keep same cores

theorem Permissions.after {events : List BucketEvent} {world : World Database σ}
    (sound : Permissions app events world.db) (requests : List Timed) :
    Permissions app (events ++ bucketEvents app world requests)
      (after app world requests).db := by
  induction requests generalizing events world with
  | nil => simpa [bucketEvents, PyUploadX.after] using sound
  | cons timed rest ih =>
    have next := ih (sound.serve timed)
    rw [List.append_assoc] at next
    exact next

/-- A session's bucket is allowed to its tenant exactly if it is configured or not given up. -/
theorem Permissions.allowed_iff {events : List BucketEvent} {db : Database}
    (sound : Permissions app events db) {upload : UploadSession}
    (member : upload ∈ db.uploadSessions) :
    (upload.bucket ∈ app.settings.storage.allowedBuckets ∨
        (db.findBucket upload.tenantId upload.bucket).isSome = true) ↔
      upload.bucket ∈ app.settings.storage.allowedBuckets ∨
        ¬ GaveUp events upload.tenantId upload.bucket := by
  have standing := sound.sessions _ (mem_cores member)
  have recorded := sound.recorded upload.tenantId upload.bucket
  change upload.bucket ∈ _ ∨ (db.findBucket upload.tenantId upload.bucket).isSome = true ∨
    GaveUp events upload.tenantId upload.bucket at standing
  tauto

/-- The completion puts an object in a bucket that its tenant gave up. -/
def CompletesGivenUp (app : AppState σ) (events : List BucketEvent) (world : World Database σ)
    (timed : Timed) : Prop :=
  ∃ identity uploadId upload, timed.1 = .complete identity uploadId ∧
    world.db.findUpload uploadId identity.tenantId = some upload ∧
    upload.bucket ∉ app.settings.storage.allowedBuckets ∧
    GaveUp events identity.tenantId upload.bucket ∧
    ∃ call ∈ (handle app timed.1 timed.2).calls world.db world.store, call.name.WritesObject

private theorem writesAllowed_iff {events : List BucketEvent} {world : World Database σ}
    (sound : Permissions app events world.db) (timed : Timed) :
    WritesAllowed app world timed ↔ ¬ CompletesGivenUp app events world timed := by
  obtain ⟨asked, now⟩ := timed
  cases asked with
  | proxyUpload identity request =>
    refine iff_of_true ?_ (by rintro ⟨_, _, _, other, _⟩; cases other)
    intro call made writes tenantId bucket target
    cases target
    rw [handle, Program.calls_bind_pure] at made
    obtain ⟨same, passed⟩ := proxyUpload_writes made writes
    rw [same, isBucketAllowed_iff]
    exact validateBucket_ok passed
  | complete identity uploadId =>
    constructor
    · rintro allowed ⟨_, _, upload, asks, found, unlisted, gaveUp, call, made, writes⟩
      cases asks
      have target : writeTarget? world.db (.complete identity uploadId) =
          some (identity.tenantId, upload.bucket) := by rw [writeTarget?, found]; rfl
      have answer := allowed call made writes _ _ target
      rw [handle, Program.calls_bind_pure] at made
      obtain ⟨same, _⟩ := complete_writes made writes
      rw [isBucketAllowed_iff, Database.findBucket, same] at answer
      obtain ⟨member, _, owner⟩ := Database.findUpload_some found
      rw [← owner] at gaveUp answer
      rcases (sound.allowed_iff member).mp answer with configured | kept
      · exact unlisted configured
      · exact kept gaveUp
    · intro kept call made writes tenantId bucket target
      have reached := made
      rw [handle, Program.calls_bind_pure] at reached
      obtain ⟨same, upload, found, _⟩ := complete_writes reached writes
      rw [writeTarget?, found] at target
      cases target
      obtain ⟨member, _, owner⟩ := Database.findUpload_some found
      rw [isBucketAllowed_iff, Database.findBucket, same, ← owner]
      apply (sound.allowed_iff member).mpr
      by_cases configured : upload.bucket ∈ app.settings.storage.allowedBuckets
      · exact .inl configured
      · refine .inr fun gaveUp => kept ⟨identity, uploadId, upload, rfl, found, configured, ?_,
          call, made, writes⟩
        rw [← owner]
        exact gaveUp
  | _ =>
    refine iff_of_true ?_ (by rintro ⟨_, _, _, other, _⟩; cases other)
    intro call made writes tenantId bucket target
    cases target

/-- Along any run, every object goes to a bucket its tenant may write to, exactly if no
completion is for a bucket that the tenant has deleted since. -/
theorem writes_allowed_iff_none_given_up (app : AppState σ) (world : World Database σ)
    (initial : world.db.Initial) (requests : List Timed) :
    (∀ before timed rest, requests = before ++ timed :: rest →
      WritesAllowed app (after app world before) timed) ↔
      ∀ before timed rest, requests = before ++ timed :: rest →
        ¬ CompletesGivenUp app (bucketEvents app world before) (after app world before) timed := by
  have sound : ∀ before, Permissions app (bucketEvents app world before)
      (after app world before).db := fun before => initial.permissions.after before
  constructor
  · intro allowed before timed rest split
    exact (writesAllowed_iff (sound before) timed).mp (allowed before timed rest split)
  · intro kept before timed rest split
    exact (writesAllowed_iff (sound before) timed).mpr (kept before timed rest split)

def teamRun : List Timed := [
  (.createBucket smallTenant "team", 0),
  (.createSession smallTenant { smallSession with bucket := "team" }, 0),
  (.proxyUploadPart smallTenant 0 1 [1, 2] none, 0),
  (.proxyUploadPart smallTenant 0 2 [3, 4] none, 0)]

/-- The completion writes to the bucket that the tenant has. -/
theorem writes_allowed_completion :
    (servedFile (serve smallLocalApp (after smallLocalApp ⟨{}, {}⟩ teamRun)
      (.complete smallTenant 0, 0)).1).isSome = true ∧
    WritesAllowed smallLocalApp (after smallLocalApp ⟨{}, {}⟩ teamRun)
      (.complete smallTenant 0, 0) := by
  refine ⟨by decide +kernel, ?_⟩
  refine (writes_allowed_iff_none_given_up smallLocalApp ⟨{}, {}⟩ (by decide)
    (teamRun ++ [(.complete smallTenant 0, 0)])).mpr ?_ teamRun _ [] rfl
  rintro before timed rest split ⟨identity, uploadId, upload, asks, _, _, gaveUp, _⟩
  have earlier : ∀ request ∈ teamRun, request.1 ≠ .complete identity uploadId := by
    simp [teamRun]
  have last : before = teamRun := by
    rcases List.append_eq_append_iff.mp split with ⟨behind, rfl, ends⟩ | ⟨behind, whole, ends⟩
    · have alone := congrArg List.length ends
      simp only [List.length_append, List.length_cons, List.length_nil] at alone
      rw [List.eq_nil_of_length_eq_zero (by omega : behind.length = 0), List.append_nil]
    · cases behind with
      | nil => exact (whole.trans (List.append_nil before)).symm
      | cons request others =>
        cases ends
        exact absurd asks (earlier _ (whole ▸ List.mem_append_right _ List.mem_cons_self))
  have events : bucketEvents smallLocalApp ⟨{}, {}⟩ teamRun = [] ++ [.created "tenant" "team"] := by
    decide +kernel
  rw [last, events] at gaveUp
  exact not_standing_nil (gaveUp_created.mp gaveUp).2

/-- The bucket is deleted: the parts do not lie in it. -/
def givenUpRun : List Timed := teamRun ++ [(.deleteBucket smallTenant "team", 0)]

/-- The completion succeeds and writes to the bucket the tenant no longer has. -/
theorem given_up_bucket_is_written :
    (servedFile (serve smallLocalApp (after smallLocalApp ⟨{}, {}⟩ givenUpRun)
      (.complete smallTenant 0, 0)).1).isSome = true ∧
    ¬ ∀ before timed rest, givenUpRun ++ [(.complete smallTenant 0, 0)] =
        before ++ timed :: rest →
      WritesAllowed smallLocalApp (after smallLocalApp ⟨{}, {}⟩ before) timed := by
  refine ⟨by decide, fun allowed => ?_⟩
  have written : ((handle smallLocalApp (.complete smallTenant 0) 0).calls
      (after smallLocalApp ⟨{}, {}⟩ givenUpRun).db
      (after smallLocalApp ⟨{}, {}⟩ givenUpRun).store).any
        (fun call => call.name = .completeMultipartUpload) = true := by decide
  obtain ⟨call, made, named⟩ := List.any_eq_true.mp written
  have writes : call.name.WritesObject := .inr (by simpa using named)
  have answer := allowed givenUpRun _ [] rfl call made writes "tenant" "team" (by decide)
  obtain ⟨same, _⟩ := complete_writes
    (by rw [handle, Program.calls_bind_pure] at made; exact made) writes
  rw [isBucketAllowed_iff, Database.findBucket, same] at answer
  revert answer
  decide

end PyUploadX
