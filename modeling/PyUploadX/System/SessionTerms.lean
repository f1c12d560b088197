import PyUploadX.Db.Integrity
import PyUploadX.System.DefaultBucket

/-! How long a session may be used: the expiry it is given, and the refreshes that move it. -/
namespace PyUploadX

open Kit SettingService

variable {σ : Type} {app : AppState σ}

/-- `created_at + maximum_lifetime_seconds`. -/
def UploadSession.limit (settings : Settings) (upload : UploadSession) : Timestamp :=
  upload.createdAt + seconds settings.uploads.session.maximumLifetimeSeconds

/-- No unfinished session expires after its maximum lifetime. -/
def WithinLifetime (settings : Settings) (db : Database) : Prop :=
  ∀ upload ∈ db.uploadSessions, upload.status.terminal = false →
    upload.expiresAt ≤ upload.limit settings

/-- A change of the settings, or a request with the clock reading it is served at. -/
inductive ServiceEvent
  | updateSettings (identity : Identity) (payload : Json)
  | request (timed : Timed)

def receive (app : AppState σ) (state : Administered σ) : ServiceEvent → Administered σ
  | .updateSettings identity payload => administer app state (.updateSettings identity payload)
  | .request timed => { state with world := (serve app state.world timed).2 }

/-- A refresh goes through, as the session is within its lifetime, and gives it more time than
that lifetime has left. -/
def Overstays (app : AppState σ) (state : Administered σ) : ServiceEvent → Prop
  | .request (.refresh identity uploadId, now) =>
    ∃ upload ∈ state.world.db.findUpload uploadId identity.tenantId,
      app.settings.uploads.session.refreshEnabled = true ∧ upload.status.terminal = false ∧
      now ≤ upload.limit app.settings ∧
      upload.limit app.settings <
        now + seconds (getEffective app.settings state.world.db.overrides).sessionExpiry
  | _ => False

/-- The overrides stay, and every unfinished session was there before with the same times. -/
structure KeepsTerms (db db' : Database) : Prop where
  overrides : db'.overrides = db.overrides
  sessions : ∀ row ∈ db'.uploadSessions, row.status.terminal = false →
    ∃ upload ∈ db.uploadSessions, upload.status.terminal = false ∧
      row.createdAt = upload.createdAt ∧ row.expiresAt = upload.expiresAt

namespace KeepsTerms

variable {db db₁ db' : Database}

private theorem of_sessions (overrides : db'.overrides = db.overrides)
    (sessions : db'.uploadSessions = db.uploadSessions) : KeepsTerms db db' := by
  refine ⟨overrides, fun row member unfinished => ⟨row, ?_, unfinished, rfl, rfl⟩⟩
  rw [← sessions]
  exact member

theorem trans (first : KeepsTerms db db₁) (second : KeepsTerms db₁ db') : KeepsTerms db db' := by
  refine ⟨second.overrides.trans first.overrides, fun row member unfinished => ?_⟩
  obtain ⟨middle, present, unfinished, created, expires⟩ := second.sessions row member unfinished
  obtain ⟨upload, listed, unfinished, created', expires'⟩ :=
    first.sessions middle present unfinished
  exact ⟨upload, listed, unfinished, created.trans created', expires.trans expires'⟩

/-- A change of the rows of one id. -/
theorem updateUpload (db : Database) (uploadId : Uuid) {change : UploadSession → UploadSession}
    (kept : ∀ upload ∈ db.uploadSessions, upload.id = uploadId →
      (change upload).status.terminal = false → upload.status.terminal = false ∧
        (change upload).createdAt = upload.createdAt ∧
        (change upload).expiresAt = upload.expiresAt) :
    KeepsTerms db (db.updateUpload uploadId change) := by
  refine ⟨rfl, fun row membership unfinished => ?_⟩
  obtain ⟨upload, member, rfl⟩ := List.mem_map.mp membership
  refine ⟨upload, member, ?_⟩
  split at unfinished <;> rename_i named
  · rw [if_pos named]
    exact kept upload member named unfinished
  · rw [if_neg named]
    exact ⟨unfinished, rfl, rfl⟩

/-- A status that is final. -/
theorem finished (db : Database) (uploadId : Uuid) {status : UploadStatus}
    (terminal : status.terminal = true) :
    KeepsTerms db (db.updateUpload uploadId (·.setStatus status)) := by
  refine updateUpload db uploadId fun upload _ _ unfinished => ?_
  change status.terminal = false at unfinished
  rw [terminal] at unfinished
  cases unfinished

theorem touched (db : Database) (uploadId : Uuid) (now : Timestamp) :
    KeepsTerms db (db.updateUpload uploadId (·.touch now)) :=
  updateUpload db uploadId fun _ _ _ unfinished => ⟨unfinished, rfl, rfl⟩

theorem upsertPart (db : Database) (part : UploadPart) : KeepsTerms db (db.upsertPart part) := by
  have overrides : (db.upsertPart part).overrides = db.overrides := by
    unfold Database.upsertPart
    dsimp only
    split <;> rfl
  exact of_sessions overrides (db.upsertPart_uploadSessions part)

theorem expired (db : Database) (ids : List Uuid) :
    KeepsTerms db (ids.foldl (fun db id => db.updateUpload id (·.setStatus .expired)) db) := by
  induction ids generalizing db with
  | nil => exact of_sessions rfl rfl
  | cons id rest ih => exact (finished db id rfl).trans (ih _)

end KeepsTerms

section Requests

open UploadService

variable {db db' : Database} {store store' : σ} {identity : Identity} {uploadId : Uuid}
  {now : Timestamp}

theorem partAccepted_terms (ids : Identified db) {upload : UploadSession}
    (member : upload ∈ db.uploadSessions) (unfinished : upload.status.terminal = false)
    (part : UploadPart) (now : Timestamp) : KeepsTerms db (partAccepted db upload part now) := by
  have started : KeepsTerms db ((if upload.status = .initiated then
      db.updateUpload upload.id (·.setStatus .uploading) else db).upsertPart part) := by
    split
    · refine (KeepsTerms.updateUpload db upload.id fun row present named _ => ?_).trans
        (.upsertPart _ _)
      rw [ids.upload_unique present member named]
      exact ⟨unfinished, rfl, rfl⟩
    · exact .upsertPart _ _
  exact started.trans (.touched _ _ _)

/-- The requests besides those that give a session its expiry. -/
theorem handle_terms (ids : Identified db) {asked : Request} {reply : Reply}
    (uncreated : ∀ identity request, asked ≠ .createSession identity request)
    (unrefreshed : ∀ identity uploadId, asked ≠ .refresh identity uploadId)
    (done : (handle app asked now).run db store = (.ok (reply, db'), store')) :
    KeepsTerms db db' := by
  cases asked with
  | createSession identity request => exact absurd rfl (uncreated identity request)
  | refresh identity uploadId => exact absurd rfl (unrefreshed identity uploadId)
  | createBucket identity name =>
    obtain ⟨_, done, _⟩ := Program.bind_pure_eq_ok.mp done
    obtain ⟨rfl, _⟩ := createBucket_ok done
    exact .of_sessions rfl rfl
  | deleteBucket identity name =>
    obtain ⟨_, done, _⟩ := Program.bind_pure_eq_ok.mp done
    obtain ⟨rfl, _⟩ := deleteBucket_ok done
    exact .of_sessions rfl rfl
  | proxyUploadPart identity uploadId partNumber body checksumSha256 =>
    obtain ⟨part, done, _⟩ := Program.bind_pure_eq_ok.mp done
    obtain ⟨upload, number, stored, found, unfinished, _, _, _, rfl, rfl⟩ := proxyUploadPart_ok done
    exact partAccepted_terms ids (Database.findUpload_some found).1 unfinished _ _
  | lostPart identity uploadId partNumber body checksumSha256 =>
    rw [handle, Program.bind_eq_ok] at done
    obtain ⟨_, _, _, _, ended⟩ := done
    cases ended
  | directPart uploadId partNumber body =>
    obtain ⟨_, done, _⟩ := Program.bind_pure_eq_ok.mp done
    rw [putPresigned_ok done]
    exact .of_sessions rfl rfl
  | commitPart identity uploadId partNumber etag sizeBytes checksumSha256 =>
    obtain ⟨_, done, _⟩ := Program.bind_pure_eq_ok.mp done
    obtain ⟨upload, number, _, _, _, rfl, _⟩ := commitPart_ok done
    exact (KeepsTerms.upsertPart _ _).trans (.touched _ _ _)
  | resume identity uploadId =>
    obtain ⟨⟨upload, missing⟩, done, _⟩ := Program.bind_pure_eq_ok.mp done
    obtain ⟨_, _, _, _, rfl, _⟩ := resume_ok done
    exact .touched _ _ _
  | complete identity uploadId =>
    obtain ⟨file, done, _⟩ := Program.bind_pure_eq_ok.mp done
    obtain ⟨upload, _, ⟨_, _, _, rfl, _⟩ | ⟨_, _, _, _, _, _, _, rfl⟩⟩ := complete_ok done
    · exact .of_sessions rfl rfl
    · have added : KeepsTerms db (db.addFile file) := .of_sessions rfl rfl
      exact added.trans (.updateUpload _ _ fun _ _ _ unfinished => Bool.noConfusion unfinished)
  | abort identity uploadId =>
    obtain ⟨_, done, _⟩ := Program.bind_pure_eq_ok.mp done
    obtain ⟨upload, _, ⟨_, rfl, _⟩ | ⟨_, rfl, _⟩⟩ := abort_ok done
    · exact .of_sessions rfl rfl
    · exact .finished _ _ rfl
  | expireUploadSessions batchSize =>
    obtain ⟨_, done, _⟩ := Program.bind_pure_eq_ok.mp done
    rw [expireUploadSessions_run] at done
    cases done
    exact .expired _ _
  | proxyUpload identity request =>
    obtain ⟨file, done, _⟩ := Program.bind_pure_eq_ok.mp done
    obtain ⟨_, _, _, _, _, _, _, rfl⟩ := proxyUpload_ok done
    exact .of_sessions rfl rfl
  | delete identity fileId =>
    obtain ⟨_, done, _⟩ := Program.bind_pure_eq_ok.mp done
    obtain ⟨_, _, _, _, _, rfl⟩ := delete_ok done
    exact .of_sessions rfl rfl
  | updateLifecycle identity fileId requested =>
    obtain ⟨_, done, _⟩ := Program.bind_pure_eq_ok.mp done
    obtain ⟨_, _, _, _, _, _, rfl, _⟩ := updateLifecycle_ok done
    exact .of_sessions rfl rfl
  | extend identity fileId extendSeconds =>
    obtain ⟨_, done, _⟩ := Program.bind_pure_eq_ok.mp done
    obtain ⟨_, _, _, _, _, rfl, _⟩ := extend_ok done
    exact .of_sessions rfl rfl
  | makePermanent identity fileId =>
    obtain ⟨_, done, _⟩ := Program.bind_pure_eq_ok.mp done
    obtain ⟨_, _, _, _, rfl, _⟩ := makePermanent_ok done
    exact .of_sessions rfl rfl
  | setLegalHold identity fileId hold =>
    obtain ⟨_, done, _⟩ := Program.bind_pure_eq_ok.mp done
    obtain ⟨_, _, _, rfl, _⟩ := setLegalHold_ok done
    exact .of_sessions rfl rfl
  | processBatch batchSize =>
    obtain ⟨_, done, _⟩ := Program.bind_pure_eq_ok.mp done
    rcases LifecycleWorker.processBatch_cases app batchSize now db store with
      failed | ⟨processed, db₂, store₂, finished, same, _⟩
    · rw [failed] at done
      cases done
    · rw [finished] at done
      cases done
      exact .of_sessions same.2.2.2.1 same.1
  | read identity request =>
    obtain ⟨_, done, _⟩ := Program.bind_pure_eq_ok.mp done
    rw [((read_readOnly identity request).ok done).1]
    exact .of_sessions rfl rfl
  | directoryUpload identity request =>
    obtain ⟨_, done, _⟩ := Program.bind_pure_eq_ok.mp done
    have besides := DirectoryChanges.besides (directoryUpload_ensures db store _ db' _ rfl done)
    exact .of_sessions besides.overrides besides.uploadSessions

/-- The session that is created expires the effective time after its creation. -/
theorem createSession_expires {request : CreateSession} {upload : UploadSession}
    (done : (createSession app identity request now).run db store =
      (.ok (upload, db'), store')) :
    db' = db.insertUpload upload ∧ upload.createdAt = now ∧
      upload.expiresAt = now + seconds (getEffective app.settings db.overrides).sessionExpiry := by
  obtain ⟨_, _, _, _, _, _, _, _, _, _, _, _, rfl, rfl, _⟩ := createSession_granted done
  exact ⟨rfl, rfl, rfl⟩

end Requests

/-- What every event keeps: the getter reads the rows, whose expiry is within the lifetime. -/
structure Governed (app : AppState σ) (state : Administered σ) : Prop where
  synced : Synced state
  integrity : Integrity app state.world.db
  bounded : Reads state.rows.sessionExpiry fun number =>
    number ≤ app.settings.uploads.session.maximumLifetimeSeconds

section Steps

variable {state : Administered σ}

private theorem update_sessionExpiry {settings : Settings} {rows rows' : AppSettings}
    {request : SettingsUpdate} (bounded : Reads rows.sessionExpiry fun number =>
      number ≤ settings.uploads.session.maximumLifetimeSeconds)
    (done : update settings request rows = .ok rows') :
    Reads rows'.sessionExpiry fun number =>
      number ≤ settings.uploads.session.maximumLifetimeSeconds := by
  obtain ⟨payload, first, second, _, storage, uploads, lifecycle⟩ := update_ok done
  have kept : first.sessionExpiry = rows.sessionExpiry := by
    refine @applyGroup_preserves _ _ _ _ (fun after => after.sessionExpiry = rows.sessionExpiry)
      rfl (fun fields _ after done => ?_) storage
    obtain ⟨bucket, _, done⟩ := except_bind_eq_ok.mp done
    obtain ⟨presign, _, done⟩ := except_bind_eq_ok.mp done
    cases done
    rfl
  have last : rows'.sessionExpiry = second.sessionExpiry := by
    refine @applyGroup_preserves _ _ _ _ (fun after => after.sessionExpiry = second.sessionExpiry)
      rfl (fun fields _ after done => ?_) lifecycle
    obtain ⟨policy, mode, action, ttlSeconds, _, _, _, _, rfl⟩ := lifecycleGroup_ok done
    rfl
  rw [last]
  refine @applyGroup_preserves _ _ _ _ (fun after => Reads after.sessionExpiry fun number =>
    number ≤ settings.uploads.session.maximumLifetimeSeconds) (kept ▸ bounded)
    (fun fields _ after done => ?_) uploads
  obtain ⟨maxSize, _, done⟩ := except_bind_eq_ok.mp done
  obtain ⟨threshold, _, done⟩ := except_bind_eq_ok.mp done
  obtain ⟨mode, _, done⟩ := except_bind_eq_ok.mp done
  obtain ⟨partSize, _, done⟩ := except_bind_eq_ok.mp done
  obtain ⟨expiry, checked, done⟩ := except_bind_eq_ok.mp done
  cases done
  refine stored_all (fun text member => ?_) (kept ▸ bounded)
  obtain ⟨value, _, passed⟩ := checked_ok checked text member
  obtain ⟨number, parsed, accepted⟩ := numberText_ok passed
  exact ⟨number, parsed, (of_decide_eq_true accepted).2⟩

private theorem commit_sessionExpiry {settings : Settings} {rows : AppSettings} (request : SettingsUpdate)
    (bounded : Reads rows.sessionExpiry fun number =>
      number ≤ settings.uploads.session.maximumLifetimeSeconds) :
    Reads (commit settings rows request).sessionExpiry fun number =>
      number ≤ settings.uploads.session.maximumLifetimeSeconds := by
  unfold commit
  split
  · rename_i done
    exact update_sessionExpiry bounded done
  · exact bounded

private theorem serve_terms (ids : Identified state.world.db) {asked : Request} {now : Timestamp}
    (uncreated : ∀ identity request, asked ≠ .createSession identity request)
    (unrefreshed : ∀ identity uploadId, asked ≠ .refresh identity uploadId) :
    KeepsTerms state.world.db (serve app state.world (asked, now)).2.db :=
  World.execute_preserves (fun after => KeepsTerms state.world.db after.db)
    (fun _ _ _ done => handle_terms ids uncreated unrefreshed done) fun _ _ _ => .of_sessions rfl rfl

private theorem serve_overrides (ids : Identified state.world.db) (timed : Timed) :
    (serve app state.world timed).2.db.overrides = state.world.db.overrides := by
  obtain ⟨asked, now⟩ := timed
  cases asked with
  | createSession identity request =>
    refine World.execute_preserves (fun after : World Database σ =>
      after.db.overrides = state.world.db.overrides) (fun out db store done => ?_) fun _ _ _ => rfl
    obtain ⟨upload, done, _⟩ := Program.bind_pure_eq_ok.mp done
    obtain ⟨rfl, _⟩ := createSession_expires done
    rfl
  | refresh identity uploadId =>
    refine World.execute_preserves (fun after : World Database σ =>
      after.db.overrides = state.world.db.overrides) (fun out db store done => ?_) fun _ _ _ => rfl
    obtain ⟨out, done, _⟩ := Program.bind_pure_eq_ok.mp done
    obtain ⟨upload, _, _, _, _, _, rfl, _⟩ := refresh_eq_ok.mp done
    rfl
  | _ =>
    refine KeepsTerms.overrides (serve_terms ids ?_ ?_)
    · exact fun _ _ => nofun
    · exact fun _ _ => nofun

/-- The overrides are in no table that is sound. -/
theorem Integrity.overridden {db : Database} (sound : Integrity app db) (overrides : Overrides) :
    Integrity app { db with overrides } := by
  obtain ⟨⟨uploads, uploadsOld, files, filesOld, origins⟩, ⟨resting, completed, assembled⟩, laidOut,
    ⟨committed, inRange, owned, unique⟩⟩ := sound
  exact ⟨⟨uploads, uploadsOld, files, filesOld, origins⟩, ⟨resting, completed, assembled⟩, laidOut,
    ⟨committed, inRange, owned, unique⟩⟩

theorem Governed.receive (governed : Governed app state) (event : ServiceEvent) :
    Governed app (receive app state event) := by
  obtain ⟨synced, integrity, bounded⟩ := governed
  cases event with
  | updateSettings identity payload =>
    exact ⟨administer_synced synced _, integrity.overridden _, commit_sessionExpiry _ bounded⟩
  | request timed =>
    refine ⟨?_, serve_integrity state.world timed integrity, bounded⟩
    exact (serve_overrides integrity.ids timed).trans synced

/-- The time that a session is given, if the configured one is within the lifetime. -/
theorem Governed.expiry (governed : Governed app state)
    (config : app.settings.uploads.session.expiresAfterSeconds ≤
      app.settings.uploads.session.maximumLifetimeSeconds) :
    (getEffective app.settings state.world.db.overrides).sessionExpiry ≤
      app.settings.uploads.session.maximumLifetimeSeconds := by
  rw [governed.synced]
  exact @Reads.getD _ (fun number =>
    number ≤ app.settings.uploads.session.maximumLifetimeSeconds) _ governed.bounded config

variable (config : app.settings.uploads.session.expiresAfterSeconds ≤
  app.settings.uploads.session.maximumLifetimeSeconds)

private theorem KeepsTerms.withinLifetime {settings : Settings} {db db' : Database}
    (kept : KeepsTerms db db') (within : WithinLifetime settings db) :
    WithinLifetime settings db' := by
  intro row member unfinished
  obtain ⟨upload, present, unfinished, created, expires⟩ := kept.sessions row member unfinished
  have term := within upload present unfinished
  unfold UploadSession.limit at term ⊢
  rw [created, expires]
  exact term

include config in
/-- A session that is created has at most its whole lifetime left. -/
theorem serve_createSession_within (governed : Governed app state) (identity : Identity)
    (request : CreateSession) (now : Timestamp)
    (within : WithinLifetime app.settings state.world.db) :
    WithinLifetime app.settings
      (serve app state.world (.createSession identity request, now)).2.db := by
  refine World.execute_preserves (fun after => WithinLifetime app.settings after.db)
    (fun out db store done => ?_) fun _ _ _ => within
  obtain ⟨upload, done, _⟩ := Program.bind_pure_eq_ok.mp done
  obtain ⟨rfl, created, expires⟩ := createSession_expires done
  intro row membership unfinished
  rcases List.mem_append.mp membership with old | new
  · exact within row old unfinished
  · have lifetime := governed.expiry config
    obtain rfl := List.mem_singleton.mp new
    unfold UploadSession.limit
    rw [created, expires]
    exact Int.add_le_add_left (Int.mul_le_mul_of_nonneg_right lifetime (by decide)) _

/-- A refresh keeps the session within its lifetime unless it goes through too late. -/
theorem serve_refresh_within_iff (governed : Governed app state) (identity : Identity)
    (uploadId : Uuid) (now : Timestamp) (within : WithinLifetime app.settings state.world.db) :
    WithinLifetime app.settings (serve app state.world (.refresh identity uploadId, now)).2.db ↔
      ¬ Overstays app state (.request (.refresh identity uploadId, now)) := by
  constructor
  · rintro after ⟨upload, found, enabled, unfinished, current, late⟩
    have ran : (UploadService.refresh app identity uploadId now).run state.world.db
        state.world.store = _ := refresh_eq_ok.mpr
      ⟨upload, found, enabled, unfinished, current, rfl, rfl, rfl⟩
    have served := World.execute_wrap_ok ran Reply.upload
    have written : (serve app state.world (.refresh identity uploadId, now)).2.db = _ :=
      congrArg (fun result => result.2.db) served
    rw [written] at after
    have row := after _ (List.mem_map_of_mem (Database.findUpload_some found).1)
    rw [if_pos rfl] at row
    exact Int.not_lt.mpr (row unfinished) late
  · intro fits
    refine World.execute_preserves (fun after => WithinLifetime app.settings after.db)
      (fun out db store done => ?_) fun _ _ _ => within
    obtain ⟨out, done, _⟩ := Program.bind_pure_eq_ok.mp done
    obtain ⟨upload, found, enabled, unfinished, current, rfl, rfl, _⟩ := refresh_eq_ok.mp done
    intro row membership open_
    obtain ⟨before, member, rfl⟩ := List.mem_map.mp membership
    split
    · rename_i named
      rw [governed.integrity.ids.upload_unique member (Database.findUpload_some found).1 named]
      exact Int.not_lt.mp fun late => fits ⟨upload, found, enabled, unfinished, current, late⟩
    · rename_i other
      rw [if_neg other] at open_
      exact within before member open_

include config in
private theorem receive_within_iff (governed : Governed app state) (event : ServiceEvent)
    (within : WithinLifetime app.settings state.world.db) :
    WithinLifetime app.settings (receive app state event).world.db ↔
      ¬ Overstays app state event := by
  cases event with
  | updateSettings identity payload => exact iff_of_true within fun overstays => overstays
  | request timed =>
    obtain ⟨asked, now⟩ := timed
    cases asked with
    | createSession identity request =>
      exact iff_of_true (serve_createSession_within config governed identity request now within)
        fun overstays => overstays
    | refresh identity uploadId => exact serve_refresh_within_iff governed identity uploadId now within
    | _ =>
      refine iff_of_true (KeepsTerms.withinLifetime (serve_terms governed.integrity.ids ?_ ?_) within)
        fun overstays => overstays
      · exact fun _ _ => nofun
      · exact fun _ _ => nofun

end Steps

/-- With a configured expiry within the lifetime, no unfinished session expires after its
lifetime in any state of a run, exactly when no refresh goes through too late for it. -/
theorem session_lifetime_iff (app : AppState σ)
    (config : app.settings.uploads.session.expiresAfterSeconds ≤
      app.settings.uploads.session.maximumLifetimeSeconds)
    {world : World Database σ} (initial : world.db.Initial) (fresh : world.db.overrides = {})
    (events : List ServiceEvent) :
    (∀ count, WithinLifetime app.settings
      ((events.take count).foldl (receive app) { world }).world.db) ↔
      EachStep (receive app) (fun state event => ¬ Overstays app state event) { world } events := by
  have governed : Governed app { world } := ⟨fresh, initial.integrity, fun _ => nofun⟩
  have start : Governed app { world } ∧ WithinLifetime app.settings world.db := by
    refine ⟨governed, fun upload member => ?_⟩
    rw [initial.2.1] at member
    cases member
  have step : ∀ (state : Administered σ) event, True →
      Governed app state ∧ WithinLifetime app.settings state.world.db →
      (Governed app (receive app state event) ∧
        WithinLifetime app.settings (receive app state event).world.db ↔
        ¬ Overstays app state event) := by
    intro state event _ ⟨governed, within⟩
    rw [receive_within_iff config governed event within]
    exact and_iff_right (governed.receive event)
  rw [← @always_iff_eachStep _ _ (receive app) _ (fun _ _ => True)
    (fun state => Governed app state ∧ WithinLifetime app.settings state.world.db) _ _
    (.of_forall (fun _ _ _ => trivial) _) start step]
  refine forall_congr' fun count => (and_iff_right ?_).symm
  exact run_preserves _ governed fun state event governed => governed.receive event

/-- A session, and a refresh at the very end of its lifetime. -/
def lateRefresh : List ServiceEvent := [
  .request (.createSession smallTenant smallSession, 0),
  .request (.refresh smallTenant 0, seconds 604800)]

theorem session_lifetime_small :
    (∀ count, WithinLifetime smallS3App.settings
      (((lateRefresh.take 1).take count).foldl (receive smallS3App) ⟨{}, {}, smallS3⟩).world.db) ↔
      EachStep (receive smallS3App) (fun state event => ¬ Overstays smallS3App state event)
        ⟨{}, {}, smallS3⟩ (lateRefresh.take 1) :=
  session_lifetime_iff smallS3App (by decide) (by decide) rfl (lateRefresh.take 1)

/-- The session is given another day. -/
theorem refreshed_session_outlives_its_lifetime :
    ¬ WithinLifetime smallS3App.settings
      (lateRefresh.foldl (receive smallS3App) ⟨{}, {}, smallS3⟩).world.db := by
  intro within
  have prolonged : ∃ upload ∈
      (lateRefresh.foldl (receive smallS3App) ⟨{}, {}, smallS3⟩).world.db.uploadSessions,
      upload.status.terminal = false ∧ upload.limit smallS3App.settings < upload.expiresAt := by
    decide +kernel
  obtain ⟨upload, member, unfinished, late⟩ := prolonged
  exact Int.not_lt.mpr (within upload member unfinished) late

end PyUploadX
