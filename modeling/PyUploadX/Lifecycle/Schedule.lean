import PyUploadX.Kit.Runs
import PyUploadX.Lifecycle.Retention
import PyUploadX.Storage.Factory
import PyUploadX.System.Change

/-! The schedule of a file: when its lifecycle ends and when the worker acts on it. -/
namespace PyUploadX

open Kit

variable {σ : Type} {app : AppState σ}

/-- The columns agree: only a permanent file has no end, and the next action is due at
the end, unless there is nothing to do then. -/
structure FileObject.Scheduled (file : FileObject) : Prop where
  ends : file.expiresAt = none ↔ file.lifecycleMode = .permanent
  due : file.nextActionAt = if file.lifecycleAction = .none then none else file.expiresAt

/-- All files are on schedule, and so is what the open sessions will write. -/
structure OnSchedule (app : AppState σ) (db : Database) : Prop where
  files : ∀ file ∈ db.fileObjects, file.Scheduled
  sessions : ∀ upload ∈ db.uploadSessions, ∀ policy ∈ upload.effectiveLifecycle,
    app.settings.lifecycle.enabled = true ∧ policy.Scheduled

theorem Adjudicated.scheduled {policy : EffectiveLifecycle} (adjudicated : Adjudicated app policy)
    (known : ∀ mode ∈ app.settings.lifecycle.policy.allowedModes, mode ∈ LifecycleMode.texts) :
    policy.Scheduled := by
  obtain ⟨requested, serverDefault, base, accepted⟩ := adjudicated
  exact computeEffectiveLifecycle_scheduled known accepted

/-- The columns that both upload paths and `_apply` derive from one policy. -/
theorem scheduled_of_policy {file : FileObject} {policy : EffectiveLifecycle}
    (sound : policy.Scheduled) (mode : file.lifecycleMode = .ofText policy.mode)
    (action : file.lifecycleAction = .ofText policy.action)
    (expires : file.expiresAt = policy.expiresAt)
    (next : file.nextActionAt = if policy.action ≠ "none" then policy.expiresAt else none) :
    file.Scheduled := by
  constructor
  · rw [expires, mode, LifecycleMode.ofText_eq_permanent]
    exact sound
  · rw [next, action, expires]
    by_cases nothing : policy.action = "none"
    · simp [nothing, LifecycleAction.ofText_eq_none]
    · simp [nothing, LifecycleAction.ofText_eq_none]

private theorem scheduled_of_permanent {file : FileObject} (mode : file.lifecycleMode = .permanent)
    (expires : file.expiresAt = none) (next : file.nextActionAt = none) : file.Scheduled := by
  constructor
  · simp [mode, expires]
  · simp [expires, next]

private theorem uploadedFileObject_scheduled {identity : Identity} {request : ProxyUpload}
    {safeKey : ObjectKey} {effective : Option EffectiveLifecycle} {id : Uuid}
    {stored : StoredObject} {now : Timestamp}
    (sound : ∀ policy ∈ effective, policy.Scheduled) :
    (FileService.uploadedFileObject app identity request safeKey effective id stored
      now).Scheduled := by
  cases effective with
  | none => exact scheduled_of_permanent rfl rfl rfl
  | some policy => exact scheduled_of_policy (sound policy rfl) rfl rfl rfl rfl

/-- While lifecycles are disabled no session carries a policy, so the action, which the
completion copies without looking at the setting, is the default one. -/
theorem completedFileObject_scheduled (identity : Identity) {upload : UploadSession} (id : Uuid)
    (stored : StoredObject) (now : Timestamp)
    (sound : ∀ policy ∈ upload.effectiveLifecycle,
      app.settings.lifecycle.enabled = true ∧ policy.Scheduled) :
    (UploadService.completedFileObject app identity upload id stored now).Scheduled := by
  cases effective : upload.effectiveLifecycle with
  | none =>
    apply scheduled_of_permanent <;>
      simp [UploadService.completedFileObject, effective, lifecycleColumns]
  | some policy =>
    obtain ⟨enabled, scheduled⟩ := sound policy effective
    apply scheduled_of_policy scheduled <;>
      simp [UploadService.completedFileObject, effective, enabled, lifecycleColumns,
        lifecycleAction]

theorem FileChange.scheduled {change : FileObject → FileObject} (kind : FileChange app change)
    (known : ∀ mode ∈ app.settings.lifecycle.policy.allowedModes, mode ∈ LifecycleMode.texts)
    {file : FileObject} (sound : file.Scheduled) : (change file).Scheduled := by
  cases kind with
  | deleted now => exact ⟨sound.ends, sound.due⟩
  | updated adjudicated => exact scheduled_of_policy (adjudicated.scheduled known) rfl rfl rfl rfl
  | extended adjudicated => exact scheduled_of_policy (adjudicated.scheduled known) rfl rfl rfl rfl
  | permanent => exact scheduled_of_permanent rfl rfl rfl
  | held hold => exact ⟨sound.ends, sound.due⟩

/-- A file the worker finds due has an action to be taken at its end. -/
theorem Scheduled.of_due {file : FileObject} (sound : file.Scheduled) {due : Timestamp}
    (next : file.nextActionAt = some due) :
    file.lifecycleAction ≠ .none ∧ file.expiresAt = some due := by
  have column := sound.due
  rw [next] at column
  split at column
  · cases column
  · rename_i acting
    exact ⟨acting, column.symm⟩

/-- The worker's own writes keep the schedule: it never gets to the branch that clears
the next action, since no due file has the action `none`. -/
theorem turns_scheduled {now : Timestamp} {due files files' : List FileObject} {store store' : σ}
    (turns : LifecycleWorker.Turns app now due files store files' store')
    (acting : ∀ file ∈ due, file.loadable = true ∧ file.lifecycleAction ≠ .none)
    (sound : ∀ file ∈ files, file.Scheduled) : ∀ file ∈ files', file.Scheduled := by
  refine LifecycleWorker.turns_forall turns (fun file selected _ _ _ turn row scheduled => ?_) sound
  cases turn with
  | blocked held => exact scheduled
  | deleted free action removed => exact ⟨scheduled.ends, scheduled.due⟩
  | refused free action kept => exact ⟨scheduled.ends, scheduled.due⟩
  | notified free action => exact ⟨scheduled.ends, scheduled.due⟩
  | settled free undeleted silent =>
    obtain ⟨loads, active⟩ := acting file selected
    exfalso
    unfold FileObject.loadable LifecycleAction.listed at loads
    cases action : file.lifecycleAction <;> simp_all

private theorem due_acting {db : Database} {batchSize : Nat} {now : Timestamp} {file : FileObject}
    (sound : ∀ file ∈ db.fileObjects, file.Scheduled)
    (selected : file ∈ LifecycleWorker.dueFiles db batchSize now) :
    file.lifecycleMode ≠ .permanent ∧ file.lifecycleAction ≠ .none ∧
      ∃ ends, file.expiresAt = some ends ∧ ends ≤ now := by
  obtain ⟨member, _, _, due, next, past⟩ := LifecycleWorker.dueFiles_mem selected
  have scheduled := sound file member
  obtain ⟨acting, ends⟩ := Scheduled.of_due scheduled next
  refine ⟨?_, acting, due, ends, past⟩
  intro permanent
  rw [scheduled.ends.mpr permanent] at ends
  cases ends

theorem OnSchedule.updateUpload {db : Database} (sound : OnSchedule app db) (uploadId : Uuid)
    (change : UploadSession → UploadSession)
    (kept : ∀ upload, (change upload).effectiveLifecycle = upload.effectiveLifecycle) :
    OnSchedule app (db.updateUpload uploadId change) := by
  refine ⟨sound.files, fun upload membership => ?_⟩
  obtain ⟨row, member, rfl⟩ := List.mem_map.mp membership
  have before := sound.sessions row member
  split
  · rwa [kept]
  · exact before

theorem OnSchedule.addFile {db : Database} (sound : OnSchedule app db) {file : FileObject}
    (scheduled : file.Scheduled) : OnSchedule app (db.addFile file) := by
  refine ⟨fun row membership => ?_, sound.sessions⟩
  rcases List.mem_append.mp membership with old | added
  · exact sound.files row old
  · rw [List.mem_singleton] at added
    subst added
    exact scheduled

theorem Change.onSchedule {asked : Request} {db db' : Database}
    (change : Change app asked db db')
    (known : ∀ mode ∈ app.settings.lifecycle.policy.allowedModes, mode ∈ LifecycleMode.texts)
    (sound : OnSchedule app db) : OnSchedule app db' := by
  cases change with
  | none => exact sound
  | buckets files sessions parts ids =>
    exact ⟨by rw [files]; exact sound.files, by rw [sessions]; exact sound.sessions⟩
  | directories asks changes =>
    exact ⟨by rw [changes.besides.fileObjects]; exact sound.files,
      by rw [changes.besides.uploadSessions]; exact sound.sessions⟩
  | @created identity request upload asks new =>
    refine ⟨sound.files, fun row membership => ?_⟩
    rcases List.mem_append.mp membership with old | added
    · exact sound.sessions row old
    · rw [List.mem_singleton] at added
      subst added
      exact fun policy member => ⟨(new.policy policy member).1,
        (new.policy policy member).2.scheduled known⟩
  | @part upload part now starts found unfinished starting owner first last committed asks =>
    have started : OnSchedule app
        (if starts then db.updateUpload upload.id (·.setStatus .uploading) else db) := by
      split
      · exact sound.updateUpload _ _ fun _ => rfl
      · exact sound
    have stored : OnSchedule app ((if starts then
        db.updateUpload upload.id (·.setStatus .uploading) else db).upsertPart part) :=
      ⟨by rw [Database.upsertPart_fileObjects]; exact started.files,
        by rw [Database.upsertPart_uploadSessions]; exact started.sessions⟩
    exact stored.updateUpload _ (·.touch now) fun _ => rfl
  | touched uploadId now => exact sound.updateUpload _ (·.touch now) fun _ => rfl
  | prolonged uploadId expiresAt now =>
    exact sound.updateUpload _ (·.prolong expiresAt now) fun _ => rfl
  | aborted found unfinished => exact sound.updateUpload _ (·.setStatus .aborted) fun _ => rfl
  | @expired ids unfinished =>
    exact run_preserves ids sound fun db id held =>
      held.updateUpload id (·.setStatus .expired) fun _ => rfl
  | @completed identity uploadId upload stored now asks found owner unfinished vacant =>
    have scheduled := completedFileObject_scheduled identity db.nextId stored now
      (sound.sessions upload found)
    exact (sound.addFile scheduled).updateUpload _ (·.setCompleted _) fun _ => rfl
  | uploaded asks policy vacant =>
    exact sound.addFile (uploadedFileObject_scheduled
      fun found member => (policy found member).scheduled known)
  | file kind same files =>
    refine ⟨?_, by rw [same.1]; exact sound.sessions⟩
    rw [files]
    exact LifecycleWorker.forall_update sound.files fun row member _ =>
      kind.scheduled known (sound.files row member)
  | batch same loads turns =>
    refine ⟨?_, by rw [same.1]; exact sound.sessions⟩
    exact turns_scheduled turns
      (fun file selected => ⟨loads file selected, (due_acting sound.files selected).2.1⟩)
      sound.files

/-- In every run every file keeps its schedule, so the worker never selects a permanent
file, a file without an action, or one that has not come to its end. -/
theorem files_stay_scheduled (app : AppState σ)
    (known : ∀ mode ∈ app.settings.lifecycle.policy.allowedModes, mode ∈ LifecycleMode.texts)
    (world : World Database σ) (initial : world.db.Initial) (requests : List Timed) :
    (∀ file ∈ (after app world requests).db.fileObjects,
      (file.expiresAt = none ↔ file.lifecycleMode = .permanent) ∧
      (file.lifecycleAction ≠ .none → file.nextActionAt = file.expiresAt) ∧
      (file.lifecycleAction = .none ∨ file.expiresAt = none → file.nextActionAt = none)) ∧
    ∀ batchSize now, ∀ file ∈ LifecycleWorker.dueFiles (after app world requests).db batchSize now,
      file.lifecycleMode ≠ .permanent ∧ file.lifecycleAction ≠ .none ∧
        ∃ ends, file.expiresAt = some ends ∧ ends ≤ now := by
  have start : OnSchedule app world.db := by
    obtain ⟨files, sessions, _⟩ := initial
    exact ⟨by simp [files], by simp [sessions]⟩
  have sound := after_preserves (fun world => OnSchedule app world.db)
    (fun world timed sound => (serve_change app world timed).onSchedule known sound) requests start
  refine ⟨fun file member => ?_, fun batchSize now file selected => due_acting sound.files selected⟩
  have scheduled := sound.files file member
  refine ⟨scheduled.ends, fun acting => ?_, fun idle => ?_⟩
  · rw [scheduled.due, if_neg acting]
  · rw [scheduled.due]
    rcases idle with nothing | endless
    · rw [if_pos nothing]
    · rw [endless, ite_self]

def extendedRun : List Timed :=
  [(.proxyUpload smallTenant smallUpload, 0), (.extend smallTenant 0 60, 1),
    (.processBatch 10, seconds 2592060)]

theorem extendedRun_scheduled :
    (∀ file ∈ (after smallLocalApp ⟨{}, {}⟩ extendedRun).db.fileObjects,
      (file.expiresAt = none ↔ file.lifecycleMode = .permanent) ∧
      (file.lifecycleAction ≠ .none → file.nextActionAt = file.expiresAt) ∧
      (file.lifecycleAction = .none ∨ file.expiresAt = none → file.nextActionAt = none)) ∧
    ∀ batchSize now, ∀ file ∈ LifecycleWorker.dueFiles
        (after smallLocalApp ⟨{}, {}⟩ extendedRun).db batchSize now,
      file.lifecycleMode ≠ .permanent ∧ file.lifecycleAction ≠ .none ∧
        ∃ ends, file.expiresAt = some ends ∧ ends ≤ now :=
  files_stay_scheduled smallLocalApp (by decide) ⟨{}, {}⟩ (by decide) extendedRun

end PyUploadX
