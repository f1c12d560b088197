import PyUploadX.Db.Integrity
import PyUploadX.Lifecycle.Retention
import PyUploadX.Storage.Factory
import PyUploadX.System.FileEffects

/-! How long a file is kept after its completion. -/
namespace PyUploadX

open Kit LifecycleWorker

variable {σ : Type} {app : AppState σ}

/-- The modes that run for a number of seconds. -/
def LifecycleMode.running : LifecycleMode → Bool
  | .ttl | .temporary | .slidingTtl => true
  | _ => false

theorem LifecycleMode.running_ofText {text : String}
    (running : (LifecycleMode.ofText text).running = true) : text ∈ runningModes := by
  unfold LifecycleMode.ofText at running
  split at running
  · cases running
  · decide
  · cases running
  · decide
  · decide
  · cases running

/-- A policy of a running mode ends its number of seconds after some time. -/
def EffectiveLifecycle.RunsFrom (policy : EffectiveLifecycle) (start : Timestamp) : Prop :=
  policy.mode ∈ runningModes →
    ∃ ttl, policy.ttlSeconds = some ttl ∧ policy.expiresAt = some (start + seconds ttl)

theorem computeEffectiveLifecycle_runsFrom {requested : Option LifecycleRequest}
    {serverDefault : LifecycleDefaultPolicy} {rules : LifecyclePolicyRules} {base : Timestamp}
    {policy : EffectiveLifecycle}
    (granted : computeEffectiveLifecycle requested serverDefault rules base = .ok policy) :
    policy.RunsFrom base := by
  intro running
  have verdict := @computeEffectiveLifecycle_verdict requested serverDefault rules base
  rw [granted] at verdict
  cases verdict with
  | adjudicated _ _ _ branch =>
    cases branch with
    | running named given allowed => exact ⟨_, rfl, rfl⟩
    | fixed named given late =>
      dsimp only at running
      rw [named] at running
      exact absurd running (by decide)
    | endless other unfixed => exact absurd running other

theorem effectiveLifecycle_runsFrom {requested : Option LifecycleRequest} {base : Timestamp}
    {db db' : Database} {store store' : σ} {effective : Option EffectiveLifecycle}
    (decided : (effectiveLifecycle app requested base).run db store =
      (.ok (effective, db'), store')) : ∀ policy ∈ effective, policy.RunsFrom base := by
  intro policy member
  rcases effectiveLifecycle_ok decided with ⟨_, rfl⟩ | ⟨_, granted, rfl, accepted⟩
  · cases member
  · cases member
    exact computeEffectiveLifecycle_runsFrom accepted

/-- A file of a running mode is kept for its number of seconds after its completion. -/
def FileObject.FullTerm (file : FileObject) : Prop :=
  ∃ ttl, file.ttlSeconds = some ttl ∧ file.expiresAt = some (file.completedAt + seconds ttl)

/-- A file is kept for its full term, and nothing is due before its end. -/
structure FileObject.Timely (file : FileObject) : Prop where
  term : file.lifecycleMode.running = true → file.FullTerm
  due : ∀ time, file.nextActionAt = some time → file.expiresAt = some time

/-- The columns that are derived from a policy. -/
structure FileObject.Follows (file : FileObject) (policy : EffectiveLifecycle) : Prop where
  mode : file.lifecycleMode = .ofText policy.mode
  ttlSeconds : file.ttlSeconds = policy.ttlSeconds
  expiresAt : file.expiresAt = policy.expiresAt
  nextActionAt : file.nextActionAt = if policy.action ≠ "none" then policy.expiresAt else none

theorem FileObject.Follows.due {file : FileObject} {policy : EffectiveLifecycle}
    (follows : file.Follows policy) :
    ∀ time, file.nextActionAt = some time → file.expiresAt = some time := by
  intro time next
  rw [follows.nextActionAt] at next
  split at next
  · exact follows.expiresAt.trans next
  · cases next

theorem FileObject.Follows.timely {file : FileObject} {policy : EffectiveLifecycle}
    (follows : file.Follows policy) (runs : policy.RunsFrom file.completedAt) : file.Timely := by
  refine ⟨fun running => ?_, follows.due⟩
  rw [follows.mode] at running
  obtain ⟨ttl, length, ends⟩ := runs (LifecycleMode.running_ofText running)
  exact ⟨ttl, follows.ttlSeconds.trans length, follows.expiresAt.trans ends⟩

private theorem timely_of_permanent {file : FileObject} (mode : file.lifecycleMode = .permanent)
    (next : file.nextActionAt = none) : file.Timely := by
  refine ⟨fun running => ?_, fun time due => ?_⟩
  · rw [mode] at running
    cases running
  · rw [next] at due
    cases due

private theorem uploaded_timely {identity : Identity} {request : ProxyUpload} {safeKey : ObjectKey}
    {effective : Option EffectiveLifecycle} {id : Uuid} {stored : StoredObject} {now : Timestamp}
    (runs : ∀ policy ∈ effective, policy.RunsFrom now) :
    (FileService.uploadedFileObject app identity request safeKey effective id stored now).Timely := by
  cases effective with
  | none => exact timely_of_permanent rfl rfl
  | some policy => exact FileObject.Follows.timely ⟨rfl, rfl, rfl, rfl⟩ (runs policy rfl)

/-- A completed file is permanent, or follows the policy of its session. -/
theorem completed_follows (identity : Identity) (upload : UploadSession) (id : Uuid)
    (stored : StoredObject) (now : Timestamp) :
    ((UploadService.completedFileObject app identity upload id stored now).lifecycleMode = .permanent ∧
      (UploadService.completedFileObject app identity upload id stored now).nextActionAt = none) ∨
    ∃ policy ∈ upload.effectiveLifecycle,
      (UploadService.completedFileObject app identity upload id stored now).Follows policy := by
  unfold UploadService.completedFileObject
  cases enabled : app.settings.lifecycle.enabled with
  | false => exact .inl ⟨rfl, rfl⟩
  | true =>
    cases effective : upload.effectiveLifecycle with
    | none => exact .inl ⟨rfl, rfl⟩
    | some policy => exact .inr ⟨policy, rfl, rfl, rfl, rfl, rfl⟩

/-- The policy of a session runs from the creation of the session. -/
def SessionsRun (db : Database) : Prop :=
  ∀ core ∈ db.cores, ∀ policy ∈ core.effectiveLifecycle, policy.RunsFrom core.createdAt

theorem SessionsRun.of_member {db : Database} (run : SessionsRun db) {upload : UploadSession}
    (member : upload ∈ db.uploadSessions) :
    ∀ policy ∈ upload.effectiveLifecycle, policy.RunsFrom upload.createdAt :=
  run upload.core (List.mem_map_of_mem member)

private theorem cores_insertUpload (db : Database) (upload : UploadSession) :
    (db.insertUpload upload).cores = db.cores ++ [upload.core] := List.map_append

theorem serve_sessionsRun (world : World Database σ) (timed : Timed)
    (run : SessionsRun world.db) : SessionsRun (serve app world timed).2.db := by
  apply World.execute_preserves (fun reached => SessionsRun reached.db)
  · intro reply db store done
    rcases (handle_change done).cores with same | ⟨identity, request, _, asks, _, _⟩
    · unfold SessionsRun
      rw [same]
      exact run
    · rw [asks] at done
      obtain ⟨upload, done, _⟩ := Program.bind_pure_eq_ok.mp done
      obtain ⟨safeKey, layout, mode, effective, _, lifetime, _, _, _, _, _, decided, _, rfl, rfl⟩ :=
        createSession_ok done
      intro core member
      rw [cores_insertUpload] at member
      rcases List.mem_append.mp member with old | added
      · exact run core old
      · rw [List.mem_singleton.mp added]
        exact effectiveLifecycle_runsFrom decided
  · exact fun _ _ _ => run

/-- The session is completed at the time it was created at, if its policy runs. -/
def Punctual (world : World Database σ) (timed : Timed) : Prop :=
  match timed.1 with
  | .complete identity uploadId =>
    ∀ upload, world.db.findUpload uploadId identity.tenantId = some upload →
      upload.status.terminal = false → (∃ policy ∈ upload.effectiveLifecycle,
        policy.mode ∈ runningModes) → timed.2 = upload.createdAt
  | _ => True

private theorem turns_timely {now : Timestamp} {due files files' : List FileObject} {store store' : σ}
    (turns : LifecycleWorker.Turns app now due files store files' store')
    (sound : ∀ file ∈ files, file.Timely) : ∀ file ∈ files', file.Timely := by
  refine turns_forall turns (fun file _ _ _ _ turn row timely => ?_) sound
  cases turn with
  | blocked _ => exact timely
  | deleted _ _ _ => exact ⟨timely.term, timely.due⟩
  | refused _ _ _ => exact ⟨timely.term, timely.due⟩
  | notified _ _ => exact ⟨timely.term, timely.due⟩
  | settled _ _ _ =>
    refine ⟨timely.term, fun time next => ?_⟩
    cases next

private theorem serve_timely {world : World Database σ} {timed : Timed} (ids : Identified world.db)
    (run : SessionsRun world.db) (sound : ∀ file ∈ world.db.fileObjects, file.Timely)
    (punctual : Punctual world timed) :
    ∀ file ∈ (serve app world timed).2.db.fileObjects, file.Timely := by
  have effect := serve_fileEffect app world timed
  generalize (serve app world timed).2.db.fileObjects = files at effect
  obtain ⟨request, now⟩ := timed
  cases effect with
  | kept => exact sound
  | @completed identity uploadId _ upload stored found unfinished =>
    refine List.forall_mem_append.mpr ⟨sound, List.forall_mem_singleton.mpr ?_⟩
    obtain ⟨present, _, _⟩ := Database.findUpload_some found
    rcases completed_follows identity upload world.db.nextId stored now with
      ⟨permanent, idle⟩ | ⟨policy, member, follows⟩
    · exact timely_of_permanent permanent idle
    · refine ⟨fun running => ?_, follows.due⟩
      rw [follows.mode] at running
      have named := LifecycleMode.running_ofText running
      have created : now = upload.createdAt := punctual upload found unfinished ⟨policy, member, named⟩
      have runs := run.of_member present policy member
      rw [← created] at runs
      exact (follows.timely runs).term (by rw [follows.mode]; exact running)
  | uploaded decided =>
    refine List.forall_mem_append.mpr ⟨sound, List.forall_mem_singleton.mpr ?_⟩
    exact uploaded_timely (effectiveLifecycle_runsFrom decided)
  | deleted _ found free =>
    exact forall_update sound fun row member _ => ⟨(sound row member).term, (sound row member).due⟩
  | updated _ found free accepted =>
    refine forall_update sound fun row member same => ?_
    obtain rfl := ids.found_unique found member same
    exact FileObject.Follows.timely ⟨rfl, rfl, rfl, rfl⟩ (computeEffectiveLifecycle_runsFrom accepted)
  | extended found granted =>
    refine forall_update sound fun row member same => ?_
    obtain rfl := ids.found_unique found member same
    obtain ⟨_, _, _, _, _, accepted⟩ := granted
    exact FileObject.Follows.timely ⟨rfl, rfl, rfl, rfl⟩ (computeEffectiveLifecycle_runsFrom accepted)
  | permanent _ found free =>
    exact forall_update sound fun row member _ => timely_of_permanent rfl rfl
  | held hold _ found =>
    exact forall_update sound fun row member _ => ⟨(sound row member).term, (sound row member).due⟩
  | batch loads turns => exact turns_timely turns sound

/-- The file is a row that the request commits. -/
structure Creates (app : AppState σ) (world : World Database σ) (timed : Timed)
    (file : FileObject) : Prop where
  asks : (∃ identity request, timed.1 = .proxyUpload identity request) ∨
    ∃ identity uploadId, timed.1 = .complete identity uploadId
  new : file ∉ world.db.fileObjects
  row : file ∈ (serve app world timed).2.db.fileObjects

/-- A new file is kept for its full term exactly when its session, if it has one, was completed at
once. -/
theorem Creates.fullTerm_iff {world : World Database σ} {timed : Timed} {file : FileObject}
    (creates : Creates app world timed file) (run : SessionsRun world.db)
    (running : file.lifecycleMode.running = true) : file.FullTerm ↔ Punctual world timed := by
  have effect := serve_fileEffect app world timed
  obtain ⟨asks, new, row⟩ := creates
  generalize (serve app world timed).2.db.fileObjects = files at effect row
  obtain ⟨request, now⟩ := timed
  cases effect with
  | kept => exact absurd row new
  | uploaded decided =>
    rcases List.mem_append.mp row with old | added
    · exact absurd old new
    · rw [List.mem_singleton.mp added] at running ⊢
      exact iff_of_true ((uploaded_timely (effectiveLifecycle_runsFrom decided)).term running) trivial
  | @completed identity uploadId _ upload stored found unfinished =>
    rcases List.mem_append.mp row with old | added
    · exact absurd old new
    rw [List.mem_singleton.mp added] at running ⊢
    obtain ⟨present, _, _⟩ := Database.findUpload_some found
    rcases completed_follows identity upload world.db.nextId stored now with
      ⟨permanent, _⟩ | ⟨policy, member, follows⟩
    · rw [permanent] at running
      cases running
    rw [follows.mode] at running
    have named := LifecycleMode.running_ofText running
    obtain ⟨ttl, length, expires⟩ := run.of_member present policy member named
    constructor
    · rintro ⟨number, length', expires'⟩ other found' _ _
      rw [found] at found'
      cases found'
      rw [follows.ttlSeconds, length] at length'
      cases length'
      rw [follows.expiresAt, expires] at expires'
      exact (add_right_cancel (Option.some.inj expires')).symm
    · intro punctual
      have created : now = upload.createdAt :=
        punctual upload found unfinished ⟨policy, member, named⟩
      rw [← created] at expires
      exact ⟨ttl, follows.ttlSeconds.trans length, follows.expiresAt.trans expires⟩
  | _ =>
    rcases asks with ⟨_, _, asked⟩ | ⟨_, _, asked⟩ <;> cases asked

/-- A new file is kept for its number of seconds from its completion on exactly when it does
not come from a session that was created earlier; in a run without such files the worker
never selects a file before its time. -/
theorem full_term_iff (app : AppState σ) (world : World Database σ) (initial : world.db.Initial)
    (requests : List Timed) :
    (∀ timed file, Creates app (after app world requests) timed file →
      file.lifecycleMode.running = true →
      ((∃ ttl, file.ttlSeconds = some ttl ∧
          file.expiresAt = some (file.completedAt + seconds ttl)) ↔
        Punctual (after app world requests) timed)) ∧
    (EachMeets app Punctual world requests →
      ∀ batchSize now, ∀ file ∈ LifecycleWorker.dueFiles (after app world requests).db batchSize now,
        file.lifecycleMode.running = true →
        ∃ ttl, file.ttlSeconds = some ttl ∧ file.completedAt + seconds ttl ≤ now) := by
  have sound : Integrity app world.db := initial.integrity
  obtain ⟨noFiles, noSessions, _⟩ := initial
  have begins : SessionsRun world.db := by
    intro core member
    rw [Database.cores, noSessions] at member
    cases member
  have run : SessionsRun (after app world requests).db := after_preserves
    (fun world => SessionsRun world.db) (fun world timed => serve_sessionsRun world timed) requests begins
  refine ⟨fun timed file creates running => creates.fullTerm_iff run running, ?_⟩
  intro punctual batchSize now file selected running
  have step : ∀ world timed, (Integrity app world.db ∧ SessionsRun world.db ∧
      ∀ file ∈ world.db.fileObjects, file.Timely) → Punctual world timed →
      Integrity app (serve app world timed).2.db ∧ SessionsRun (serve app world timed).2.db ∧
        ∀ file ∈ (serve app world timed).2.db.fileObjects, file.Timely := by
    rintro world timed ⟨sound, run, timely⟩ punctual
    exact ⟨serve_integrity world timed sound, serve_sessionsRun world timed run,
      serve_timely sound.ids run timely punctual⟩
  have kept := after_preserves_of Punctual
    (fun world => Integrity app world.db ∧ SessionsRun world.db ∧
      ∀ file ∈ world.db.fileObjects, file.Timely) step
    ⟨sound, begins, by rw [noFiles]; exact List.forall_mem_nil _⟩ punctual
  obtain ⟨member, _, _, due, next, past⟩ := LifecycleWorker.dueFiles_mem selected
  have timely := kept.2.2 file member
  obtain ⟨ttl, length, expires⟩ := timely.term running
  rw [timely.due due next] at expires
  cases expires
  exact ⟨ttl, length, past⟩

def slowUpload : List Timed :=
  [(.createSession smallTenant { smallSession with
      totalSize := 2, lifecycle := some { ttlSeconds := some 3600 } }, 0),
    (.proxyUploadPart smallTenant 0 1 [1, 2] none, 0)]

theorem full_term_small :
    (∀ timed file, Creates smallLocalApp (after smallLocalApp ⟨{}, {}⟩ slowUpload) timed file →
      file.lifecycleMode.running = true →
      ((∃ ttl, file.ttlSeconds = some ttl ∧
          file.expiresAt = some (file.completedAt + seconds ttl)) ↔
        Punctual (after smallLocalApp ⟨{}, {}⟩ slowUpload) timed)) ∧
    (EachMeets smallLocalApp Punctual ⟨{}, {}⟩ slowUpload →
      ∀ batchSize now, ∀ file ∈ LifecycleWorker.dueFiles
          (after smallLocalApp ⟨{}, {}⟩ slowUpload).db batchSize now,
        file.lifecycleMode.running = true →
        ∃ ttl, file.ttlSeconds = some ttl ∧ file.completedAt + seconds ttl ≤ now) :=
  full_term_iff smallLocalApp ⟨{}, {}⟩ (by decide) slowUpload

/-- The upload takes two hours: the file is past its end when it is completed, and the next batch
deletes it. -/
theorem slow_upload_is_overdue :
    let world := (serve smallLocalApp (after smallLocalApp ⟨{}, {}⟩ slowUpload)
      (.complete smallTenant 0, seconds 7200)).2
    (world.db.fileObjects.map fun file => (file.id, file.completedAt, file.ttlSeconds, file.expiresAt)) =
      [(1, seconds 7200, some 3600, some (seconds 3600))] ∧
    (LifecycleWorker.dueFiles world.db 10 (seconds 7200)).map (·.id) = [1] ∧
    ((serve smallLocalApp world (.processBatch 10, seconds 7200)).2.db.fileObjects.map (·.status)) =
      [.deleted] := by
  decide +kernel

end PyUploadX
