import PyUploadX.Kit.Runs
import PyUploadX.Lifecycle.FullTerm
import PyUploadX.Worker.Retries

/-! Files of mode `sliding_ttl`: when they are used, and when the worker deletes them. -/
namespace PyUploadX

open Kit LifecycleWorker

variable {σ : Type}

/-- A request, or a download by a permanent link, with the clock reading it is served at. -/
inductive AccessEvent
  | request (timed : Timed)
  | downloadForLink (fileId : Uuid) (rangeHeader : Option String) (now : Timestamp)

def AccessEvent.time : AccessEvent → Timestamp
  | .request timed => timed.2
  | .downloadForLink _ _ now => now

/-- The file that is downloaded, if the download succeeds. -/
def AccessEvent.download (app : AppState σ) (world : World Database σ) :
    AccessEvent → Option Uuid
  | .request (.read identity (.download fileId rangeHeader), now) =>
    (serve app world (.read identity (.download fileId rangeHeader), now)).1.toOption.map
      fun _ => fileId
  | .downloadForLink fileId rangeHeader _ =>
    (world.execute (FileService.downloadForLink app fileId rangeHeader)).1.toOption.map
      fun _ => fileId
  | _ => none

/-- The world, and when each file was last downloaded; the service keeps no such record. -/
structure Watched (σ : Type) where
  world : World Database σ
  downloaded : Uuid → Option Timestamp := fun _ => none

def watch (app : AppState σ) (state : Watched σ) (event : AccessEvent) : Watched σ where
  world :=
    match event with
    | .request timed => (serve app state.world timed).2
    | .downloadForLink fileId rangeHeader _ =>
      (state.world.execute (FileService.downloadForLink app fileId rangeHeader)).2
  downloaded :=
    match event.download app state.world with
    | some fileId => Function.update state.downloaded fileId (some event.time)
    | none => state.downloaded

namespace FileObject

/-- The last time the file was used: its completion, or a later download. -/
def lastUse (file : FileObject) (downloaded : Option Timestamp) : Timestamp :=
  max file.completedAt (downloaded.getD file.completedAt)

/-- The seconds of the file have passed since its last use. -/
def TermOver (file : FileObject) (downloaded : Option Timestamp) (now : Timestamp) : Prop :=
  ∃ ttl ∈ file.ttlSeconds, file.lastUse downloaded + seconds ttl ≤ now

instance (file : FileObject) (downloaded : Option Timestamp) (now : Timestamp) :
    Decidable (file.TermOver downloaded now) := by
  unfold TermOver
  infer_instance

/-- The worker is to delete the file, at the end of its sliding term. -/
def Slides (file : FileObject) : Prop :=
  file.lifecycleMode = .slidingTtl ∧ file.lifecycleAction = .delete

/-- The file is not due before its term is over. -/
def Ahead (file : FileObject) (downloaded : Option Timestamp) : Prop :=
  file.Slides → ∀ due, file.nextActionAt = some due → file.TermOver downloaded due

end FileObject

/-- A policy that makes its file slide. -/
def EffectiveLifecycle.Slides (policy : EffectiveLifecycle) : Prop :=
  LifecycleMode.ofText policy.mode = .slidingTtl ∧ LifecycleAction.ofText policy.action = .delete

section Events

variable (app : AppState σ) (state : Watched σ)

/-- The worker deletes no file of mode `sliding_ttl` before its term is over. -/
def DeletesInTime : AccessEvent → Prop
  | .request (.processBatch batchSize, now) =>
    ∀ file ∈ state.world.db.fileObjects, file.lifecycleMode = .slidingTtl → file.status ≠ .deleted →
      (∃ row ∈ (serve app state.world (.processBatch batchSize, now)).2.db.fileObjects,
        row.id = file.id ∧ row.status = .deleted) →
      file.TermOver (state.downloaded file.id) now
  | _ => True

/-- No file that a batch comes to delete was used less than its seconds ago. -/
def FindsUnused : AccessEvent → Prop
  | .request (.processBatch batchSize, now) =>
    (dueFiles state.world.db batchSize now).all (·.loadable) = true →
      ∀ file ∈ deletions app (dueFiles state.world.db batchSize now) state.world.store,
        file.lifecycleMode = .slidingTtl → file.TermOver (state.downloaded file.id) now
  | _ => True

/-- The steps that leave the expiry of a file where it was, or put it there, while the file was used
later: they find no such use. -/
structure NeedsNoRenewal (event : AccessEvent) : Prop where
  completes : ∀ identity uploadId now, event = .request (.complete identity uploadId, now) →
    ∀ upload, state.world.db.findUpload uploadId identity.tenantId = some upload →
      upload.status.terminal = false → ∀ policy ∈ upload.effectiveLifecycle, policy.Slides →
      now ≤ upload.createdAt
  updates : ∀ identity fileId requested now,
    event = .request (.updateLifecycle identity fileId requested, now) →
    ∀ file policy, state.world.db.findFile fileId identity.tenantId = some file →
      LifecycleService.effective app requested file.completedAt = .ok policy → policy.Slides →
      ∀ time ∈ state.downloaded fileId, time ≤ file.completedAt
  prolongs : ∀ identity fileId extendSeconds now,
    event = .request (.extend identity fileId extendSeconds, now) →
    ∀ file policy, state.world.db.findFile fileId identity.tenantId = some file →
      Extends app file extendSeconds now policy → policy.Slides →
      ∀ time ∈ state.downloaded fileId, time ≤ file.completedAt
  downloads : ∀ fileId ∈ event.download app state.world,
    ∀ file ∈ state.world.db.fileObjects, file.id = fileId → file.Slides →
      ∀ due, file.nextActionAt = some due → file.TermOver (some event.time) due

end Events

variable {app : AppState σ}

/-- A batch deletes in time exactly when it finds no file that was used lately. -/
theorem deletesInTime_iff {state : Watched σ} (ids : Identified state.world.db)
    (event : AccessEvent) : DeletesInTime app state event ↔ FindsUnused app state event := by
  unfold DeletesInTime FindsUnused
  split
  swap
  · exact Iff.rfl
  rename_i batchSize now
  have unique := ids.fileIds_nodup
  rcases serve_processBatch app state.world batchSize now with ⟨same, unloaded⟩ | ⟨loads, turns⟩
  · rw [same]
    refine iff_of_true (fun file member _ kept gone => ?_) fun loads => ?_
    · obtain ⟨row, inTable, named, deleted⟩ := gone
      rw [ids.file_unique inTable member named] at deleted
      exact absurd deleted kept
    · rw [unloaded] at loads
      cases loads
  · have deleted : ∀ file ∈ state.world.db.fileObjects, file.status ≠ .deleted →
        ((∃ row ∈ (serve app state.world (.processBatch batchSize, now)).2.db.fileObjects,
          row.id = file.id ∧ row.status = .deleted) ↔
        file ∈ deletions app (dueFiles state.world.db batchSize now) state.world.store) :=
      fun file member kept => turns_deleted_iff turns unique (dueFiles_unique unique batchSize now)
        (fun other due => dueFiles_undeleted due) member kept
    constructor
    · intro inTime _ file reached sliding
      obtain ⟨member, kept⟩ := dueFiles_undeleted (deletions_mem reached).1
      exact inTime file member sliding kept ((deleted file member kept).mpr reached)
    · intro unused file member sliding kept gone
      exact unused loads file ((deleted file member kept).mp gone) sliding

section Downloads

variable {db db' : Database} {store store' : σ} {fileId : Uuid} {rangeHeader : Option String}
  {out : FileObject × Option ByteRange × Bytes}

theorem download_found {identity : Identity}
    (done : (FileService.download app identity fileId rangeHeader).run db store =
      (.ok (out, db'), store')) : ∃ file ∈ db.fileObjects, file.id = fileId := by
  unfold FileService.download FileService.get FileRepository.getFile at done
  rw [Program.bind_assoc, Program.select_bind_ok] at done
  obtain ⟨found, loaded, done⟩ := done
  obtain ⟨same, _⟩ := FileRepository.loadFile_ok loaded
  cases found with
  | none => cases done
  | some file =>
    obtain ⟨member, named, _⟩ := Database.findFile_some same
    exact ⟨file, member, named⟩

theorem downloadForLink_found
    (done : (FileService.downloadForLink app fileId rangeHeader).run db store =
      (.ok (out, db'), store')) : ∃ file ∈ db.fileObjects, file.id = fileId := by
  unfold FileService.downloadForLink FileRepository.getFileOfAnyTenant at done
  rw [Program.select_bind_ok] at done
  obtain ⟨found, loaded, done⟩ := done
  obtain ⟨same, _⟩ := FileRepository.loadFile_ok loaded
  cases found with
  | none => cases done
  | some file =>
    exact ⟨file, List.mem_of_find?_eq_some same, by simpa using List.find?_some same⟩

end Downloads

private theorem linked_db (world : World Database σ) (fileId : Uuid) (rangeHeader : Option String) :
    (world.execute (FileService.downloadForLink app fileId rangeHeader)).2.db = world.db :=
  World.execute_preserves (fun after => after.db = world.db)
    (fun _ _ _ done => ((downloadForLink_readOnly fileId rangeHeader).ok done).1) fun _ _ _ => rfl

/-- A download is of a file in the table, and writes nothing. -/
theorem download_keeps {state : Watched σ} {event : AccessEvent} {fileId : Uuid}
    (downloaded : event.download app state.world = some fileId) :
    (∃ file ∈ state.world.db.fileObjects, file.id = fileId) ∧
      (watch app state event).world.db = state.world.db := by
  unfold AccessEvent.download at downloaded
  split at downloaded
  · rename_i identity asked rangeHeader now
    rw [Option.map_eq_some_iff] at downloaded
    obtain ⟨reply, answered, rfl⟩ := downloaded
    have committed := World.execute_committed (except_toOption_eq_some.mp answered)
    obtain ⟨_, done, _⟩ := Program.bind_pure_eq_ok.mp committed
    have same := ((read_readOnly identity (.download asked rangeHeader)).ok done).1
    obtain ⟨_, done, _⟩ := Program.bind_pure_eq_ok.mp done
    exact ⟨download_found done, same⟩
  · rename_i asked rangeHeader now
    rw [Option.map_eq_some_iff] at downloaded
    obtain ⟨reply, answered, rfl⟩ := downloaded
    have committed := World.execute_committed (except_toOption_eq_some.mp answered)
    exact ⟨downloadForLink_found committed, linked_db _ _ _⟩
  · cases downloaded

private theorem watch_download {state : Watched σ} {event : AccessEvent} {fileId : Uuid}
    (downloaded : event.download app state.world = some fileId) :
    (watch app state event).downloaded =
      Function.update state.downloaded fileId (some event.time) := by
  unfold watch
  rw [downloaded]

private theorem watch_unread {state : Watched σ} {event : AccessEvent}
    (unread : event.download app state.world = none) :
    (watch app state event).downloaded = state.downloaded := by
  unfold watch
  rw [unread]

/-- What holds in every state of a watched run. -/
structure Watched.Sound (app : AppState σ) (state : Watched σ) : Prop where
  tables : Integrity app state.world.db
  sessions : SessionsRun state.world.db
  recorded : ∀ fileId time, state.downloaded fileId = some time → fileId < state.world.db.nextId

private theorem Watched.Sound.watch {state : Watched σ} (sound : state.Sound app) (event : AccessEvent) :
    (watch app state event).Sound app := by
  have later : state.world.db.nextId ≤ (PyUploadX.watch app state event).world.db.nextId := by
    cases event with
    | request timed => exact (serve_change app state.world timed).nextId_le
    | downloadForLink fileId rangeHeader now => exact (congrArg Database.nextId (linked_db _ _ _)).ge
  constructor
  · cases event with
    | request timed => exact serve_integrity state.world timed sound.tables
    | downloadForLink fileId rangeHeader now =>
      unfold PyUploadX.watch
      dsimp only
      rw [linked_db]
      exact sound.tables
  · cases event with
    | request timed => exact serve_sessionsRun state.world timed sound.sessions
    | downloadForLink fileId rangeHeader now =>
      unfold PyUploadX.watch
      dsimp only
      rw [linked_db]
      exact sound.sessions
  · intro fileId time known
    refine lt_of_lt_of_le ?_ later
    cases downloaded : event.download app state.world with
    | none =>
      rw [watch_unread downloaded] at known
      exact sound.recorded fileId time known
    | some asked =>
      rw [watch_download downloaded] at known
      rcases eq_or_ne fileId asked with rfl | other
      · obtain ⟨⟨file, member, rfl⟩, _⟩ := download_keeps downloaded
        exact sound.tables.ids.filesOld file.identity (mem_identities member)
      · rw [Function.update_of_ne other] at known
        exact sound.recorded fileId time known

/-- No file is due before its term is over. -/
def Watched.Ahead (state : Watched σ) : Prop :=
  ∀ file ∈ state.world.db.fileObjects, file.Ahead (state.downloaded file.id)

private theorem lastUse_le {file : FileObject} {downloaded : Option Timestamp} {start : Timestamp}
    (completed : file.completedAt ≤ start) (read : ∀ time ∈ downloaded, time ≤ start) :
    file.lastUse downloaded ≤ start := by
  cases downloaded with
  | none => exact max_le completed completed
  | some time => exact max_le completed (read time rfl)

/-- A file that follows a policy is ahead if the policy runs from no earlier than its last use. -/
theorem FileObject.Follows.ahead {file : FileObject} {policy : EffectiveLifecycle}
    {start : Timestamp} {downloaded : Option Timestamp} (follows : file.Follows policy)
    (runs : policy.RunsFrom start) (late : file.Slides → file.lastUse downloaded ≤ start) :
    file.Ahead downloaded := by
  intro slides due next
  have running : (LifecycleMode.ofText policy.mode).running = true := by
    rw [← follows.mode, slides.1]
    rfl
  obtain ⟨ttl, length, ends⟩ := runs (LifecycleMode.running_ofText running)
  have expires := follows.due due next
  rw [follows.expiresAt, ends] at expires
  cases expires
  exact ⟨ttl, follows.ttlSeconds.trans length, Int.add_le_add_right (late slides) _⟩

private theorem ahead_of_idle {file : FileObject} (downloaded : Option Timestamp)
    (idle : file.nextActionAt = none) : file.Ahead downloaded := by
  intro _ due next
  rw [idle] at next
  cases next

private theorem turn_ahead {now : Timestamp} {file row : FileObject} {store store' : σ}
    {change : FileObject → FileObject} {downloaded : Uuid → Option Timestamp}
    (turn : Turn app file now store change store') (ahead : row.Ahead (downloaded row.id)) :
    (change row).Ahead (downloaded (change row).id) := by
  cases turn with
  | blocked _ => exact ahead
  | deleted _ _ _ => exact ahead
  | refused _ _ _ => exact ahead
  | notified _ _ => exact ahead
  | settled _ _ _ => exact ahead_of_idle _ rfl

/-- A request that needs no renewal keeps every file ahead. -/
theorem serve_ahead {state : Watched σ} {timed : Timed} (sound : state.Sound app)
    (ahead : state.Ahead) (needless : NeedsNoRenewal app state (.request timed)) :
    ∀ file ∈ (serve app state.world timed).2.db.fileObjects,
      file.Ahead (state.downloaded file.id) := by
  have effect := serve_fileEffect app state.world timed
  generalize (serve app state.world timed).2.db.fileObjects = files at effect
  obtain ⟨request, now⟩ := timed
  -- no download is recorded under the id of a new file
  have unread : ∀ start, ∀ time ∈ state.downloaded state.world.db.nextId, time ≤ start :=
    fun _ time known => absurd (sound.recorded _ time known) (Nat.lt_irrefl _)
  cases effect with
  | kept => exact ahead
  | @completed identity uploadId _ upload stored found unfinished =>
    refine List.forall_mem_append.mpr ⟨ahead, List.forall_mem_singleton.mpr ?_⟩
    obtain ⟨present, _, _⟩ := Database.findUpload_some found
    rcases completed_follows identity upload state.world.db.nextId stored now with
      ⟨_, idle⟩ | ⟨policy, member, follows⟩
    · exact ahead_of_idle _ idle
    · refine follows.ahead (sound.sessions.of_member present policy member) fun slides => ?_
      have action : lifecycleAction upload.effectiveLifecycle = .delete := slides.2
      rw [member] at action
      have named : policy.Slides := ⟨follows.mode.symm.trans slides.1, action⟩
      exact lastUse_le (needless.completes identity uploadId now rfl upload found unfinished policy
        member named) (unread upload.createdAt)
  | @uploaded identity request _ safeKey effective stored decided =>
    refine List.forall_mem_append.mpr ⟨ahead, List.forall_mem_singleton.mpr ?_⟩
    cases effective with
    | none => exact ahead_of_idle _ rfl
    | some policy =>
      refine FileObject.Follows.ahead ⟨rfl, rfl, rfl, rfl⟩
        (effectiveLifecycle_runsFrom decided policy rfl) fun _ => ?_
      exact lastUse_le (Int.le_refl now) (unread now)
  | deleted _ found free => exact forall_update ahead fun row member _ => ahead row member
  | @updated identity fileId requested _ file policy found free accepted =>
    refine forall_update ahead fun row member same => ?_
    obtain rfl := sound.tables.ids.found_unique found member same
    subst same
    refine FileObject.Follows.ahead ⟨rfl, rfl, rfl, rfl⟩
      (computeEffectiveLifecycle_runsFrom accepted) fun slides => ?_
    exact lastUse_le (Int.le_refl row.completedAt)
      (needless.updates identity row.id requested now rfl row policy found accepted slides)
  | @extended identity fileId extendSeconds _ file policy found granted =>
    refine forall_update ahead fun row member same => ?_
    obtain rfl := sound.tables.ids.found_unique found member same
    subst same
    have accepted := granted
    obtain ⟨_, _, _, _, _, accepted⟩ := accepted
    refine FileObject.Follows.ahead ⟨rfl, rfl, rfl, rfl⟩
      (computeEffectiveLifecycle_runsFrom accepted) fun slides => ?_
    exact lastUse_le (Int.le_refl row.completedAt)
      (needless.prolongs identity row.id extendSeconds now rfl row policy found granted slides)
  | permanent _ found free =>
    exact forall_update ahead fun row member _ => ahead_of_idle _ rfl
  | held hold _ found => exact forall_update ahead fun row member _ => ahead row member
  | batch loads turns => exact turns_forall turns (fun _ _ _ _ _ turn _ => turn_ahead turn) ahead

private theorem watch_ahead {state : Watched σ} {event : AccessEvent} (sound : state.Sound app)
    (ahead : state.Ahead) (needless : NeedsNoRenewal app state event) :
    (watch app state event).Ahead := by
  intro file member
  cases downloaded : event.download app state.world with
  | some fileId =>
    have same := (download_keeps downloaded).2
    rw [same] at member
    rw [watch_download downloaded]
    rcases eq_or_ne file.id fileId with named | other
    · rw [named, Function.update_self]
      exact needless.downloads fileId downloaded file member named
    · rw [Function.update_of_ne other]
      exact ahead file member
  | none =>
    rw [watch_unread downloaded]
    cases event with
    | request timed => exact serve_ahead sound ahead needless file member
    | downloadForLink fileId rangeHeader now =>
      have same := @linked_db _ app state.world fileId rangeHeader
      unfold watch at member
      dsimp only at member
      rw [same] at member
      exact ahead file member

/-- Where every file is ahead, a batch finds none that was used lately. -/
theorem Watched.Ahead.findsUnused {state : Watched σ} (ahead : state.Ahead) (event : AccessEvent) :
    FindsUnused app state event := by
  unfold FindsUnused
  split
  swap
  · trivial
  rename_i batchSize now
  intro _ file reached sliding
  obtain ⟨selected, _, action⟩ := deletions_mem reached
  obtain ⟨member, _, _, due, next, past⟩ := dueFiles_mem selected
  obtain ⟨ttl, length, ended⟩ := ahead file member ⟨sliding, action⟩ due next
  exact ⟨ttl, length, ended.trans past⟩

/-- The worker deletes no file of mode `sliding_ttl` before its seconds have passed since its last
use exactly when no batch finds one that was used lately. That is so in every run in which no step
would have to renew a file: no request and no download moves an expiry to a later use. -/
theorem sliding_term_iff (app : AppState σ) (world : World Database σ) (initial : world.db.Initial)
    (events : List AccessEvent) :
    (EachStep (watch app) (DeletesInTime app) { world } events ↔
      EachStep (watch app) (FindsUnused app) { world } events) ∧
    (EachStep (watch app) (NeedsNoRenewal app) { world } events →
      EachStep (watch app) (DeletesInTime app) { world } events) := by
  have start : Watched.Sound app { world } := by
    refine ⟨initial.integrity, fun core member => ?_, fun _ _ => nofun⟩
    rw [Database.cores, initial.2.1] at member
    cases member
  have exactly : EachStep (watch app) (DeletesInTime app) { world } events ↔
      EachStep (watch app) (FindsUnused app) { world } events :=
    EachStep.congr start (fun state event sound => sound.watch event)
      fun state event sound => deletesInTime_iff sound.tables.ids event
  refine ⟨exactly, fun needless => exactly.mpr ?_⟩
  have ahead : Watched.Ahead { world } := by
    intro file member
    rw [initial.1] at member
    cases member
  have kept : ∀ state event, state.Sound app ∧ state.Ahead → NeedsNoRenewal app state event →
      (watch app state event).Sound app ∧ (watch app state event).Ahead := by
    rintro state event ⟨sound, ahead⟩ needs
    exact ⟨sound.watch event, watch_ahead sound ahead needs⟩
  refine needless.guarantees ?_ kept fun state event both _ => ?_
  · exact ⟨start, ahead⟩
  · exact both.2.findsUnused event

def slidingUpload : AccessEvent :=
  .request (.proxyUpload smallTenant { smallUpload with
    lifecycle := some { mode := some "sliding_ttl", ttlSeconds := some 3600 } }, 0)

def hourlyBatch : AccessEvent := .request (.processBatch 10, seconds 3600)

theorem sliding_term_small :
    (EachStep (watch smallLocalApp) (DeletesInTime smallLocalApp) { world := ⟨{}, {}⟩ }
        [slidingUpload, hourlyBatch] ↔
      EachStep (watch smallLocalApp) (FindsUnused smallLocalApp) { world := ⟨{}, {}⟩ }
        [slidingUpload, hourlyBatch]) ∧
    (EachStep (watch smallLocalApp) (NeedsNoRenewal smallLocalApp) { world := ⟨{}, {}⟩ }
        [slidingUpload, hourlyBatch] →
      EachStep (watch smallLocalApp) (DeletesInTime smallLocalApp) { world := ⟨{}, {}⟩ }
        [slidingUpload, hourlyBatch]) :=
  sliding_term_iff smallLocalApp ⟨{}, {}⟩ (by decide) [slidingUpload, hourlyBatch]

def slidingDownload : AccessEvent :=
  .request (.read smallTenant (.download 0 none), seconds 3000)

def downloadedState : Watched LocalState :=
  [slidingUpload, slidingDownload].foldl (watch smallLocalApp) { world := ⟨{}, {}⟩ }

/-- The file is deleted ten minutes after it was downloaded. -/
theorem downloaded_file_is_deleted :
    ¬ EachStep (watch smallLocalApp) (DeletesInTime smallLocalApp) { world := ⟨{}, {}⟩ }
      [slidingUpload, slidingDownload, hourlyBatch] := by
  rintro ⟨_, _, inTime, _⟩
  have early : ∃ file ∈ downloadedState.world.db.fileObjects, file.lifecycleMode = .slidingTtl ∧
      file.status ≠ .deleted ∧
      (∃ row ∈ (serve smallLocalApp downloadedState.world
          (.processBatch 10, seconds 3600)).2.db.fileObjects,
        row.id = file.id ∧ row.status = .deleted) ∧
      ¬ file.TermOver (downloadedState.downloaded file.id) (seconds 3600) := by
    decide +kernel
  obtain ⟨file, member, sliding, kept, gone, unfinished⟩ := early
  exact unfinished (inTime file member sliding kept gone)

end PyUploadX
