import PyUploadX.System.JobProgress

/-! The status checks of the directory operations beside the table of `_transition`. -/
namespace PyUploadX

open Kit Kit.Program DirectoryUploadService

variable {σ : Type} {app : AppState σ}

/-- What `_transition` raises of an edge that is not in the table. -/
def DirectoryJobStatus.refused (current target : DirectoryJobStatus) : Failure :=
  .api (.uploadStateConflict
    s!"Cannot transition directory job from {current.value} to {target.value}.")

/-- The reply of a request one of whose moves was refused. -/
def RefusesMove (reply : Except Failure Reply) : Prop :=
  ∃ current target, reply = .error (DirectoryJobStatus.refused current target)

/-- The request passes its own check of the job's status, and the other checks before its
moves. -/
def PassesChecks (app : AppState σ) (db : Database) (identity : Identity) : DirectoryRequest → Prop
  | .completeManifest jobId expectedHash counts => ∃ job ∈ db.findJob jobId identity.tenantId,
    (job.status = .created ∨ job.status = .manifestUploading) ∧ db.entriesOf job.id ≠ [] ∧
      orText expectedHash (db.manifestHash app.sha256 job.id) = db.manifestHash app.sha256 job.id ∧
      checkCounts job counts = .ok ()
  | .retry jobId => ∃ job ∈ db.findJob jobId identity.tenantId,
    ¬ (job.status = .completed ∨ job.status = .completedWithErrors ∨ job.status = .cancelled)
  | .complete jobId => ∃ job ∈ db.findJob jobId identity.tenantId,
    (job.status = .completed ∨ job.status = .uploading ∨ job.status = .ready ∨
        job.status = .paused) ∧
      (db.entriesOf job.id).countP (·.status = .failed) = 0
  | .cancel jobId => ∃ job ∈ db.findJob jobId identity.tenantId,
    ¬ (job.status = .completed ∨ job.status = .completedWithErrors)
  -- The others move a created job to `manifest_uploading`, or none.
  | _ => True

/-- The job is in a status that the table lets the operation leave as it does. -/
def FitsTable (db : Database) (identity : Identity) : DirectoryRequest → Prop
  | .retry jobId => ∀ job ∈ db.findJob jobId identity.tenantId,
    job.status = .ready ∨ job.status = .paused
  | .complete jobId => ∀ job ∈ db.findJob jobId identity.tenantId,
    job.status = .completed ∨ job.status = .uploading
  | .cancel jobId => ∀ job ∈ db.findJob jobId identity.tenantId,
    job.status = .created ∨ job.status = .manifestUploading ∨ job.status = .ready ∨
      job.status = .uploading
  | _ => True

/-! Failures that are not raised by a move. -/

def NotMove (failure : Failure) : Prop :=
  ∀ current target, failure ≠ DirectoryJobStatus.refused current target

section Failures

variable {failure : Failure}

private theorem NotMove.of_ne (other : ∀ message, failure ≠ .api (.uploadStateConflict message)) :
    NotMove failure :=
  fun _ _ => other _

/-- The texts of the status checks begin with other letters. -/
theorem NotMove.of_text {message : String} (other : message.toList.head? ≠ some 'C') :
    NotMove (.api (.uploadStateConflict message)) := by
  intro current target same
  have text : message =
      s!"Cannot transition directory job from {current.value} to {target.value}." := by
    injection same with same
    injection same
  apply other
  rw [text]
  simp only [String.toList_append, List.head?_append, Option.or_eq_some_iff]
  exact .inl (.inl (.inl (.inl rfl)))

private theorem normalizeRelativePath_notMove {nfc : String → String} {maximumDepth maximumBytes : Nat}
    {rawPath : String}
    (failed : normalizeRelativePath nfc maximumDepth maximumBytes rawPath = .error failure) :
    NotMove failure := by
  obtain ⟨message, rfl⟩ := normalizeRelativePath_error failed
  exact .of_ne (by simp)

private theorem joinPrefix_notMove {nfc : String → String} {directory relativePath : String}
    (failed : joinPrefix nfc directory relativePath = .error failure) : NotMove failure := by
  unfold joinPrefix at failed
  cases normalized : normalizeRelativePath nfc 64 1024 relativePath with
  | error raised =>
    rw [normalized] at failed
    cases failed
    exact normalizeRelativePath_notMove normalized
  | ok key =>
    rw [normalized] at failed
    cases failed

private theorem collectEntries_notMove {nfc : String → String} {limits : DirectoryUploadLimits}
    {job : DirectoryUploadJob} {id : Uuid} {existing : List ObjectKey} {raws : List EntryRequest}
    (failed : collectEntries nfc limits job id existing raws = .error failure) :
    NotMove failure := by
  induction raws generalizing id existing with
  | nil => cases failed
  | cons raw rest ih =>
    rcases except_bind_eq_error.mp failed with normalized | ⟨path, _, failed⟩
    · exact normalizeRelativePath_notMove normalized
    · split at failed
      · cases failed
        exact .of_ne (by simp)
      · rcases except_bind_eq_error.mp failed with joined | ⟨objectKey, _, failed⟩
        · exact joinPrefix_notMove joined
        · rcases except_bind_eq_error.mp failed with named | ⟨entryType, _, failed⟩
          · unfold EntryType.ofText at named
            split at named <;> cases named
            exact .of_ne (by simp [notAMember])
          · rcases except_bind_eq_error.mp failed with failed | ⟨entries, _, failed⟩
            · exact ih failed
            · cases failed

private theorem computeEffectiveLifecycle_notMove {requested : Option LifecycleRequest}
    {serverDefault : LifecycleDefaultPolicy} {rules : LifecyclePolicyRules} {base : Timestamp}
    (failed : computeEffectiveLifecycle requested serverDefault rules base = .error failure) :
    NotMove failure := by
  rcases computeEffectiveLifecycle_error failed with
    ⟨_, rfl⟩ | ⟨_, _, _, rfl⟩ | ⟨_, rfl⟩ | ⟨_, rfl⟩
  · exact .of_ne (by simp)
  · exact .of_ne (by simp)
  · exact .of_ne (by simp)
  · exact .of_ne (by simp)

end Failures

/-! The operations whose moves are all in the table. -/

section Raises

variable {identity : Identity} {jobId entryId : Uuid}

private theorem getJob_raises (forUpdate : Bool) :
    (getJob identity jobId forUpdate : Handler σ DirectoryUploadJob).Raises NotMove := by
  refine .bind (.select fun db failure failed => by cases failed) fun found => ?_
  cases found with
  | none => exact .fail (.of_ne (by simp))
  | some job => exact .pure _

private theorem getEntry_raises :
    (getEntry jobId entryId : Handler σ DirectoryUploadEntry).Raises NotMove := by
  refine .bind (.ask _) fun found => ?_
  cases found with
  | none => exact .fail (.of_ne (by simp))
  | some entry => exact .bind (.refuseIf (.of_ne (by simp))) fun _ => .pure _

/-- `created` to `manifest_uploading` is an edge. -/
theorem startManifest_raises (job : DirectoryUploadJob) :
    (startManifest job : Handler σ Unit).Raises NotMove := by
  unfold startManifest
  split
  · rename_i created
    refine .bind (.liftExcept fun failure failed => ?_) fun _ => .modify _ _ _
    unfold moveTo at failed
    rw [created] at failed
    cases failed
  · exact .pure ()

private theorem effectiveLifecycle_raises (requested : Option LifecycleRequest) (base : Timestamp) :
    (effectiveLifecycle app requested base).Raises NotMove := by
  unfold effectiveLifecycle
  split
  · exact .bind (.ask _) fun _ =>
      .bind (.liftExcept fun _ failed => computeEffectiveLifecycle_notMove failed) fun _ => .pure _
  · exact .pure _

private theorem createJob_raises (request : CreateJob) (now : Timestamp) :
    (createJob app identity request now).Raises NotMove := by
  refine .bind (.refuseIf (.of_ne (by simp))) fun _ => .bind (.refuseIf (.of_ne (by simp))) fun _ =>
    .bind (.refuseIf (.of_ne (by simp))) fun _ => .bind (.liftExcept fun failure failed => ?_)
    fun _ => .bind (effectiveLifecycle_raises _ _) fun _ =>
    .bind (.liftExcept fun failure failed => ?_) fun _ =>
    .bind (.liftExcept fun failure failed => ?_) fun _ => .bind (.ask _) fun _ =>
    .bind (.ask _) fun _ => .bind (.write fun _ failure failed => ?_) fun _ => .pure _
  · split at failed
    · cases failed
    · cases normalized : normalizeRelativePath app.nfc 64 1024
        (stripSlashes request.destinationPrefix) with
      | error raised =>
        rw [normalized] at failed
        cases failed
        exact normalizeRelativePath_notMove normalized
      | ok key =>
        rw [normalized] at failed
        cases failed
  · unfold DirectorySource.ofText at failed
    split at failed <;> cases failed
    exact .of_ne (by simp [notAMember])
  · unfold ConflictPolicy.ofText at failed
    split at failed <;> cases failed
    exact .of_ne (by simp [notAMember])
  · split at failed <;> cases failed
    exact .of_ne (by simp)

private theorem addEntries_raises (entries : List EntryRequest) :
    (addEntries app identity jobId entries).Raises NotMove := by
  refine .bind (getJob_raises _) fun job => .bind (.refuseIf (.of_text (by decide))) fun _ =>
    .bind (.refuseIf (.of_ne (by simp))) fun _ => .bind (startManifest_raises _) fun _ =>
    .bind (.ask _) fun _ => .bind (.ask _) fun _ =>
    .bind (.liftExcept fun _ failed => collectEntries_notMove failed) fun _ =>
    .bind (.refuseIf (.of_ne (by simp))) fun _ => .bind (.modify _ _ _) fun _ =>
    .bind (.write fun db failure failed => ?_) fun _ =>
    .bind (.refuseIf (.of_ne (by simp))) fun _ => .pure _
  split at failed
  · cases failed
    exact .of_ne (by simp)
  split at failed
  · cases failed
  · cases failed
    exact .of_ne (by simp)

private theorem initiateEntry_raises :
    (initiateEntry identity jobId entryId : Handler σ DirectoryUploadEntry).Raises NotMove :=
  .bind getEntry_raises fun _ => .bind (getJob_raises _) fun _ =>
    .bind (startManifest_raises _) fun _ => .bind (.modify _ _ _) fun _ => .pure _

private theorem markEntryResult_raises (result : EntryResult) :
    (markEntryResult identity jobId entryId result :
      Handler σ DirectoryUploadEntry).Raises NotMove := by
  refine .bind (.liftExcept fun failure failed => ?_) fun _ => .bind getEntry_raises fun _ =>
    .bind (getJob_raises _) fun _ => .bind (.modify _ _ _) fun _ =>
    .bind (.bind (.ask _) fun _ => .bind (.modify _ _ _) fun _ => .pure _) fun _ => .pure _
  unfold EntryStatus.ofText at failed
  split at failed <;> cases failed
  exact .of_ne (by simp [notAMember])

private theorem listEntries_raises (cursor : Option String) (limit : Int) :
    (listEntries identity jobId cursor limit :
      Handler σ (List DirectoryUploadEntry × Option String)).Raises NotMove :=
  .bind (getJob_raises _) fun _ => .bind (.ask _) fun _ => .pure _

private theorem patchLifecycle_raises (requested : Option LifecycleRequest) (now : Timestamp) :
    (patchLifecycle app identity jobId requested now).Raises NotMove :=
  .bind (getJob_raises _) fun _ =>
    .bind (.liftExcept fun _ failed => computeEffectiveLifecycle_notMove failed) fun _ =>
    .bind (.modify _ _ _) fun _ => .pure _

end Raises

/-! The operations that leave more than one status. -/

section Moves

variable {identity : Identity} {jobId : Uuid} {db : Database} {store : σ}
  {job : DirectoryUploadJob} {target : DirectoryJobStatus}

private theorem moveTo_of_mem (allowed : target ∈ job.status.transitions) :
    moveTo target job = .ok (setStatus target job) := by
  unfold moveTo DirectoryJobStatus.transition
  rw [if_pos allowed]
  rfl

private theorem moveTo_of_not_mem (refused : target ∉ job.status.transitions) :
    moveTo target job = .error (job.status.refused target) := by
  unfold moveTo DirectoryJobStatus.transition
  rw [if_neg refused]
  rfl

private theorem flushMove_refused (refused : target ∉ job.status.transitions) :
    (flushMove target job : Handler σ DirectoryUploadJob).run db store =
      (.error (job.status.refused target), store) := by
  unfold flushMove
  rw [moveTo_of_not_mem refused]
  rfl

private theorem flushMove_done (allowed : target ∈ job.status.transitions) :
    (flushMove target job : Handler σ DirectoryUploadJob).run db store =
      (.ok (setStatus target job, db.updateJob job.id (setStatus target)), store) := by
  unfold flushMove
  rw [moveTo_of_mem allowed]
  rfl

/-- Either the move is in the table and the job is uploading, or it is refused. -/
theorem retry_run (found : db.findJob jobId identity.tenantId = some job)
    (unfinished : ¬ (job.status = .completed ∨ job.status = .completedWithErrors ∨
      job.status = .cancelled)) :
    (retry identity jobId : Handler σ DirectoryUploadJob).run db store =
      (flushMove .uploading job : Handler σ DirectoryUploadJob).run db store := by
  unfold retry
  rw [run_bind_ok (getJob_found found), run_bind_ok (refuseIf_false unfinished _ _)]

private theorem complete_refused (found : db.findJob jobId identity.tenantId = some job)
    (early : job.status = .ready ∨ job.status = .paused)
    (unfailed : (db.entriesOf job.id).countP (·.status = .failed) = 0) :
    (DirectoryUploadService.complete identity jobId : Handler σ DirectoryUploadJob).run db store =
      (.error (job.status.refused .finalizing), store) := by
  have refused : DirectoryJobStatus.finalizing ∉ job.status.transitions := by
    rcases early with status | status <;> rw [status] <;> decide
  have unfinished : job.status ≠ .completed := by
    rcases early with status | status <;> rw [status] <;> decide
  have uploadable : ¬ (job.status ≠ .uploading ∧ job.status ≠ .ready ∧ job.status ≠ .paused) := by
    tauto
  unfold DirectoryUploadService.complete DirectoryRepository.countEntriesByStatus
  rw [run_bind_ok (getJob_found found), if_neg unfinished,
    run_bind_ok (refuseIf_false uploadable _ _), run_ask_bind,
    run_bind_ok (refuseIf_false (not_not_intro unfailed) _ _)]
  exact run_bind_error (flushMove_refused refused) _

private theorem cancel_refused (found : db.findJob jobId identity.tenantId = some job)
    (unfinished : ¬ (job.status = .completed ∨ job.status = .completedWithErrors))
    (refused : DirectoryJobStatus.cancelling ∉ job.status.transitions) :
    ∃ target, (cancel identity jobId : Handler σ DirectoryUploadJob).run db store =
      (.error (job.status.refused target), store) := by
  unfold cancel
  rw [run_bind_ok (getJob_found found), run_bind_ok (refuseIf_false unfinished _ _)]
  by_cases cancelled : job.status = .cancelled
  · refine ⟨.cancelled, ?_⟩
    rw [if_pos cancelled]
    apply flushMove_refused
    rw [cancelled]
    decide
  · refine ⟨.cancelling, ?_⟩
    rw [if_neg cancelled, moveTo_of_not_mem refused]
    rfl

private theorem cancel_done (found : db.findJob jobId identity.tenantId = some job)
    (allowed : DirectoryJobStatus.cancelling ∈ job.status.transitions) :
    ∃ reply, (cancel identity jobId : Handler σ DirectoryUploadJob).run db store =
      (.ok reply, store) := by
  have unfinished : ¬ (job.status = .completed ∨ job.status = .completedWithErrors) := by
    rintro (status | status) <;> rw [status] at allowed <;> revert allowed <;> decide
  have uncancelled : job.status ≠ .cancelled := by
    intro status
    rw [status] at allowed
    revert allowed
    decide
  unfold cancel
  rw [run_bind_ok (getJob_found found), run_bind_ok (refuseIf_false unfinished _ _),
    if_neg uncancelled, moveTo_of_mem allowed]
  exact ⟨_, flushMove_done (List.mem_singleton_self _)⟩

end Moves

/-- A job that was only created has no entries. -/
def Unbegun (db : Database) : Prop :=
  ∀ job ∈ db.directoryUploadJobs, job.status = .created → db.entriesOf job.id = []

section Unbegun

variable {db db' : Database}

theorem Unbegun.congr (unbegun : Unbegun db)
    (jobs : db'.directoryUploadJobs = db.directoryUploadJobs)
    (entries : db'.directoryUploadEntries = db.directoryUploadEntries) : Unbegun db' := by
  unfold Unbegun Database.entriesOf
  rw [jobs, entries]
  exact unbegun

theorem Unbegun.updateJob (unbegun : Unbegun db) {jobId : Uuid}
    {change : DirectoryUploadJob → DirectoryUploadJob} (kept : JobKept change)
    (later : ∀ job, (change job).status = .created → job.status = .created) :
    Unbegun (db.updateJob jobId change) := by
  intro row membership created
  obtain ⟨job, member, rfl⟩ := List.mem_map.mp membership
  split at created <;> rename_i named
  · rw [if_pos named, (kept job).1]
    exact unbegun job member (later job created)
  · rw [if_neg named]
    exact unbegun job member created

theorem Unbegun.started (unbegun : Unbegun db) (job : DirectoryUploadJob) :
    Unbegun (db.started job) := by
  unfold Database.started
  split
  · exact unbegun.updateJob (setStatus_kept _) fun _ => nofun
  · exact unbegun

theorem Unbegun.updateEntry (unbegun : Unbegun db) {entryId : Uuid}
    {change : DirectoryUploadEntry → DirectoryUploadEntry} (kept : EntryKept change) :
    Unbegun (db.updateEntry entryId change) := by
  intro job member created
  rw [db.entriesOf_updateEntry job.id entryId kept, unbegun job member created]
  rfl

/-- The first batch of a job moves it on. -/
theorem Unbegun.added (unbegun : Unbegun db) (sound : DirectoriesNumbered db) {jobId : Uuid}
    {tenantId : String} {job : DirectoryUploadJob} {added : List DirectoryUploadEntry}
    (found : db.findJob jobId tenantId = some job)
    (growing : job.status = .created ∨ job.status = .manifestUploading)
    (members : ∀ entry ∈ added, entry.directoryUploadId = job.id) :
    Unbegun (((db.started job).updateJob job.id (raiseTotals job added)).addEntries added) := by
  intro row membership created
  obtain ⟨before, member, rfl⟩ := List.mem_map.mp membership
  split at created <;> rename_i named
  · rw [sound.started_row found member named] at created
    rcases growing with status | status <;> simp [raiseTotals, setStatus, status] at created
  · rw [if_neg named, db.entriesOf_grown members, if_neg named, List.append_nil,
      ← db.started_entriesOf job]
    exact unbegun.started job before member created

private theorem DirectoryEffect.unbegun {identity : Identity} {request : DirectoryRequest}
    (effect : DirectoryEffect app identity request db db') (sound : DirectoriesNumbered db)
    (tallied : Tallied db) (unbegun : Unbegun db) : Unbegun db' := by
  cases effect with
  | unchanged | settled => exact unbegun
  | @created _ _ job new =>
    have empty : (db.addJob job).entriesOf job.id = [] :=
      new.fresh ▸ tallied.entriesOf_fresh sound
    intro row membership created
    rcases List.mem_append.mp membership with old | added
    · exact unbegun row old created
    · rw [List.mem_singleton.mp added]
      exact empty
  | added found growing collected =>
    exact unbegun.added sound found growing fun entry member =>
      (collectEntries_new collected entry member).1
  | finalized => exact unbegun.updateJob (fun _ => ⟨rfl, rfl⟩) fun _ => nofun
  | initiated => exact (unbegun.started _).updateEntry (initiate_kept _)
  | reported =>
    exact (unbegun.updateEntry (report_kept _ _)).updateJob (record_kept _) fun _ => id
  | retried => exact unbegun.updateJob (setStatus_kept _) fun _ => nofun
  | completed => exact unbegun.updateJob (fun _ => ⟨rfl, rfl⟩) fun _ => nofun
  | cancelled => exact unbegun.updateJob (setStatus_kept _) fun _ => nofun
  | patched => exact unbegun.updateJob (fun _ => ⟨rfl, rfl⟩) fun _ => id

/-- What the moves depend on in every state of a run. -/
structure Managed (db : Database) : Prop where
  sound : DirectoriesNumbered db
  tallied : Tallied db
  unbegun : Unbegun db

private theorem after_managed {world : World Database σ} (fresh : world.db.Fresh) (requests : List Timed) :
    Managed (after app world requests).db := by
  refine after_preserves (fun world => Managed world.db) (fun world timed managed => ?_) requests ?_
  · obtain ⟨sound, tallied, unbegun⟩ := managed
    refine ⟨(serve_change app world timed).directoriesNumbered sound,
      serve_tallied app world timed sound tallied, ?_⟩
    rcases serve_directories app world timed with
      ⟨jobs, entries, _⟩ | ⟨identity, request, _, effect⟩
    · exact unbegun.congr jobs entries
    · exact effect.unbegun sound tallied unbegun
  · refine ⟨@after_directoriesNumbered _ app _ fresh [], fresh.tallied, ?_⟩
    intro job member
    rw [fresh.2.1] at member
    cases member

end Unbegun

section Serve

variable {identity : Identity} {request : DirectoryRequest} {now : Timestamp}
  {world : World Database σ} {store : σ} {failure : Failure}

private theorem serve_directory_ok {reply : DirectoryReply × Database}
    (done : (directoryUpload app identity request now).run world.db world.store =
      (.ok reply, store)) :
    ¬ RefusesMove (serve app world (.directoryUpload identity request, now)).1 := by
  rintro ⟨current, target, failed⟩
  have answered : (serve app world (.directoryUpload identity request, now)).1 =
      .ok (.directory reply.1) :=
    congrArg Prod.fst (World.execute_wrap_ok done Reply.directory)
  rw [answered] at failed
  cases failed

private theorem serve_directory_error
    (failed : (directoryUpload app identity request now).run world.db world.store =
      (.error failure, store)) :
    (serve app world (.directoryUpload identity request, now)).1 = .error failure :=
  congrArg Prod.fst (World.execute_wrap_error failed Reply.directory)

private theorem serve_directory_raises (raises : (directoryUpload app identity request now).Raises NotMove) :
    ¬ RefusesMove (serve app world (.directoryUpload identity request, now)).1 := by
  rintro ⟨current, target, failed⟩
  cases ran : (directoryUpload app identity request now).run world.db world.store with
  | mk result store =>
    cases result with
    | ok reply => exact serve_directory_ok ran ⟨current, target, failed⟩
    | error failure =>
      rw [serve_directory_error ran] at failed
      exact raises _ _ _ _ ran current target (Except.error.inj failed)

variable {jobId : Uuid} {job : DirectoryUploadJob}

/-- The answer about a job, or the refusal, is the answer of the request. -/
theorem serve_job_ok {program : Handler σ DirectoryUploadJob}
    (asks : directoryUpload app identity request now =
      (do return .job (← program) : Handler σ DirectoryReply))
    {reply : DirectoryUploadJob × Database}
    (done : program.run world.db world.store = (.ok reply, store)) :
    ¬ RefusesMove (serve app world (.directoryUpload identity request, now)).1 := by
  apply serve_directory_ok
  rw [asks]
  exact run_bind_ok done _

private theorem serve_job_refused {program : Handler σ DirectoryUploadJob}
    (asks : directoryUpload app identity request now =
      (do return .job (← program) : Handler σ DirectoryReply))
    {current target : DirectoryJobStatus}
    (refused : program.run world.db world.store = (.error (current.refused target), store)) :
    RefusesMove (serve app world (.directoryUpload identity request, now)).1 := by
  have failed : (directoryUpload app identity request now).run world.db world.store =
      (.error (current.refused target), store) := by
    rw [asks]
    exact run_bind_error refused _
  exact ⟨current, target, serve_directory_error failed⟩

private theorem retry_refuses_iff (found : world.db.findJob jobId identity.tenantId = some job)
    (unfinished : ¬ (job.status = .completed ∨ job.status = .completedWithErrors ∨
      job.status = .cancelled)) :
    ¬ RefusesMove (serve app world (.directoryUpload identity (.retry jobId), now)).1 ↔
      job.status = .ready ∨ job.status = .paused := by
  have edge : DirectoryJobStatus.uploading ∈ job.status.transitions ↔
      job.status = .ready ∨ job.status = .paused := by
    cases job.status <;> decide
  have run := @retry_run σ identity jobId world.db world.store job found unfinished
  rw [← edge]
  by_cases allowed : DirectoryJobStatus.uploading ∈ job.status.transitions
  · exact iff_of_true (serve_job_ok rfl (run.trans (flushMove_done allowed))) allowed
  · exact iff_of_false
      (not_not_intro (serve_job_refused rfl (run.trans (flushMove_refused allowed)))) allowed

private theorem complete_refuses_iff (found : world.db.findJob jobId identity.tenantId = some job)
    (uploadable : job.status = .completed ∨ job.status = .uploading ∨ job.status = .ready ∨
      job.status = .paused)
    (unfailed : (world.db.entriesOf job.id).countP (·.status = .failed) = 0) :
    ¬ RefusesMove (serve app world (.directoryUpload identity (.complete jobId), now)).1 ↔
      job.status = .completed ∨ job.status = .uploading := by
  rcases uploadable with completed | uploading | early
  · exact iff_of_true (serve_job_ok rfl (completeJob_settled found completed)) (.inl completed)
  · obtain ⟨reply, done⟩ := @completeJob_done σ identity jobId world.db world.store job found
      uploading unfailed
    exact iff_of_true (serve_job_ok rfl done) (.inr uploading)
  · refine iff_of_false
      (not_not_intro (serve_job_refused rfl (complete_refused found early unfailed))) ?_
    rcases early with status | status <;> rw [status] <;> decide

private theorem cancel_refuses_iff (found : world.db.findJob jobId identity.tenantId = some job)
    (unfinished : ¬ (job.status = .completed ∨ job.status = .completedWithErrors)) :
    ¬ RefusesMove (serve app world (.directoryUpload identity (.cancel jobId), now)).1 ↔
      job.status = .created ∨ job.status = .manifestUploading ∨ job.status = .ready ∨
        job.status = .uploading := by
  have edge : DirectoryJobStatus.cancelling ∈ job.status.transitions ↔ job.status = .created ∨
      job.status = .manifestUploading ∨ job.status = .ready ∨ job.status = .uploading := by
    cases job.status <;> decide
  rw [← edge]
  by_cases allowed : DirectoryJobStatus.cancelling ∈ job.status.transitions
  · obtain ⟨reply, done⟩ := @cancel_done σ identity jobId world.db world.store job found allowed
    exact iff_of_true (serve_job_ok rfl done) allowed
  · obtain ⟨target, refused⟩ := @cancel_refused σ identity jobId world.db world.store job found
      unfinished allowed
    exact iff_of_false (not_not_intro (serve_job_refused rfl refused)) allowed

end Serve

/-- In every state of a run, a request that passes its own checks has none of its moves
refused exactly when the job is in a status that the table lets it leave. -/
theorem guards_fit_table_iff (app : AppState σ) {world : World Database σ}
    (fresh : world.db.Fresh) (requests : List Timed) (identity : Identity)
    (request : DirectoryRequest) (now : Timestamp)
    (passes : PassesChecks app (after app world requests).db identity request) :
    ¬ RefusesMove (serve app (after app world requests)
        (.directoryUpload identity request, now)).1 ↔
      FitsTable (after app world requests).db identity request := by
  have managed := @after_managed σ app world fresh requests
  cases request with
  | createJob request =>
    exact iff_of_true (serve_directory_raises (.bind (createJob_raises _ _) fun _ => .pure _)) trivial
  | addEntries jobId entries =>
    exact iff_of_true (serve_directory_raises (.bind (addEntries_raises _) fun _ => .pure _)) trivial
  | getJob jobId =>
    exact iff_of_true (serve_directory_raises (.bind (getJob_raises _) fun _ => .pure _)) trivial
  | listEntries jobId cursor limit =>
    exact iff_of_true (serve_directory_raises (.bind (listEntries_raises _ _) fun _ => .pure _))
      trivial
  | getManifest jobId =>
    exact iff_of_true (serve_directory_raises (.bind (listEntries_raises _ _) fun _ => .pure _))
      trivial
  | initiateEntry jobId entryId =>
    exact iff_of_true (serve_directory_raises (.bind initiateEntry_raises fun _ => .pure _)) trivial
  | markEntryResult jobId entryId result =>
    exact iff_of_true (serve_directory_raises (.bind (markEntryResult_raises _) fun _ => .pure _))
      trivial
  | patchLifecycle jobId requested =>
    exact iff_of_true (serve_directory_raises (.bind (patchLifecycle_raises _ _) fun _ => .pure _))
      trivial
  | completeManifest jobId expectedHash counts =>
    obtain ⟨job, found, growing, present, expected, counted⟩ := passes
    have uploading : job.status = .manifestUploading := by
      refine growing.resolve_left fun created => present ?_
      exact managed.unbegun job (Database.findJob_some found).1 created
    refine iff_of_true ?_ trivial
    apply serve_job_ok rfl
    exact completeManifest_done found uploading present expected counted
  | retry jobId =>
    obtain ⟨job, found, unfinished⟩ := passes
    refine (retry_refuses_iff found unfinished).trans ?_
    simp only [FitsTable, Option.mem_def.mp found, Option.mem_some_iff, forall_eq']
  | complete jobId =>
    obtain ⟨job, found, uploadable, unfailed⟩ := passes
    refine (complete_refuses_iff found uploadable unfailed).trans ?_
    simp only [FitsTable, Option.mem_def.mp found, Option.mem_some_iff, forall_eq']
  | cancel jobId =>
    obtain ⟨job, found, unfinished⟩ := passes
    refine (cancel_refuses_iff found unfinished).trans ?_
    simp only [FitsTable, Option.mem_def.mp found, Option.mem_some_iff, forall_eq']

/-- The manifest is complete, and the job can be taken up. -/
theorem guards_fit_table_small :
    ¬ RefusesMove (serve smallS3App (after smallS3App ⟨{}, smallS3⟩ (smallDirectory.take 3))
        (.directoryUpload smallTenant (.retry 0), 3)).1 ↔
      FitsTable (after smallS3App ⟨{}, smallS3⟩ (smallDirectory.take 3)).db smallTenant
        (.retry 0) := by
  refine guards_fit_table_iff smallS3App (by decide) (smallDirectory.take 3) smallTenant (.retry 0) 3 ?_
  have unfinished : ∃ job ∈ (after smallS3App ⟨{}, smallS3⟩ (smallDirectory.take 3)).db.findJob 0
      "tenant", ¬ (job.status = .completed ∨ job.status = .completedWithErrors ∨
        job.status = .cancelled) := by decide +kernel
  exact unfinished

/-- A job that is ready passes the check of `complete`, which then cannot finalize it. -/
theorem ready_job_passes_and_is_refused :
    let world := after smallS3App ⟨{}, smallS3⟩ (smallDirectory.take 3)
    PassesChecks smallS3App world.db smallTenant (.complete 0) ∧
      RefusesMove (serve smallS3App world (.directoryUpload smallTenant (.complete 0), 3)).1 := by
  have passes : ∃ job ∈ (after smallS3App ⟨{}, smallS3⟩ (smallDirectory.take 3)).db.findJob 0
      "tenant", (job.status = .completed ∨ job.status = .uploading ∨ job.status = .ready ∨
        job.status = .paused) ∧
      (((after smallS3App ⟨{}, smallS3⟩ (smallDirectory.take 3)).db.entriesOf job.id).countP
        (·.status = .failed)) = 0 := by decide +kernel
  have refused : (serve smallS3App (after smallS3App ⟨{}, smallS3⟩ (smallDirectory.take 3))
      (.directoryUpload smallTenant (.complete 0), 3)).1 =
        .error (DirectoryJobStatus.ready.refused .finalizing) := by decide +kernel
  exact ⟨passes, _, _, refused⟩

end PyUploadX
