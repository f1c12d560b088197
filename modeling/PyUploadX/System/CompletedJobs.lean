import PyUploadX.Services.DirectoryEffects
import PyUploadX.System.TenantRows

/-! A completed directory job, and the reports that arrive after its completion. -/
namespace PyUploadX

open Kit Kit.Table DirectoryUploadService

variable {σ : Type} {app : AppState σ}

/-- What a request leaves in the directory tables. -/
theorem serve_directories (app : AppState σ) (world : World Database σ) (timed : Timed) :
    ((serve app world timed).2.db.directoryUploadJobs = world.db.directoryUploadJobs ∧
      (serve app world timed).2.db.directoryUploadEntries = world.db.directoryUploadEntries ∧
      ∀ identity request, timed.1 ≠ .directoryUpload identity request) ∨
    ∃ identity request, timed.1 = .directoryUpload identity request ∧
      DirectoryEffect app identity request world.db (serve app world timed).2.db := by
  obtain ⟨asked, now⟩ := timed
  cases asked with
  | directoryUpload identity request =>
    refine .inr ⟨identity, request, rfl, ?_⟩
    refine World.execute_preserves (fun after => DirectoryEffect app identity request world.db
      after.db) (fun reply db store done => ?_) fun _ _ _ => .unchanged world.db
    obtain ⟨_, done, _⟩ := Program.bind_pure_eq_ok.mp done
    exact directoryUpload_effect done
  | _ =>
    rcases (serve_change app world (_, now)).directories_cases with
      ⟨jobs, entries⟩ | ⟨identity, request, asks, _⟩
    · exact .inl ⟨jobs, entries, fun _ _ => nofun⟩
    · cases asks

/-- A job that nothing failed in, neither its entries nor its counter. -/
def NoFailures (db : Database) (job : DirectoryUploadJob) : Prop :=
  (∀ entry ∈ db.entriesOf job.id, entry.status ≠ .failed) ∧ job.failedFiles = 0

instance (db : Database) (job : DirectoryUploadJob) : Decidable (NoFailures db job) :=
  inferInstanceAs (Decidable (_ ∧ _))

def CompletedClean (db : Database) : Prop :=
  ∀ job ∈ db.directoryUploadJobs, job.status = .completed → NoFailures db job

instance (db : Database) : Decidable (CompletedClean db) :=
  inferInstanceAs (Decidable (∀ job ∈ _, _ → _))

/-- A failure is reported of an entry whose job has been completed. -/
def LateFailure (db : Database) : Request → Prop
  | .directoryUpload identity (.markEntryResult jobId entryId result) =>
    result.status = "failed" ∧
      (∃ job ∈ db.findJob jobId identity.tenantId, job.status = .completed) ∧
      ∃ entry ∈ db.findEntry entryId, entry.directoryUploadId = jobId
  | _ => False

private theorem EntryStatus.ofText_failed {text : String} {status : EntryStatus}
    (named : EntryStatus.ofText text = .ok status) : status = .failed ↔ text = "failed" := by
  unfold EntryStatus.ofText at named
  split at named <;> cases named <;> simp

section Steps

variable {db db' : Database}

theorem CompletedClean.congr (clean : CompletedClean db)
    (jobs : db'.directoryUploadJobs = db.directoryUploadJobs)
    (entries : db'.directoryUploadEntries = db.directoryUploadEntries) : CompletedClean db' := by
  unfold CompletedClean NoFailures Database.entriesOf
  rw [jobs, entries]
  exact clean

/-- A change of a job's row. -/
theorem CompletedClean.updateJob (clean : CompletedClean db) {jobId : Uuid}
    {change : DirectoryUploadJob → DirectoryUploadJob}
    (changed : ∀ job ∈ db.directoryUploadJobs, job.id = jobId → (change job).status = .completed →
      NoFailures db (change job)) : CompletedClean (db.updateJob jobId change) := by
  intro job membership completed
  obtain ⟨row, member, rfl⟩ := List.mem_map.mp membership
  split at completed <;> rename_i named
  · rw [if_pos named]
    exact changed row member named completed
  · rw [if_neg named]
    exact clean row member completed

/-- Entries that are added, or whose status is no failure, disturb no completed job. -/
theorem CompletedClean.entries (clean : CompletedClean db)
    (jobs : db'.directoryUploadJobs = db.directoryUploadJobs)
    (unfailed : ∀ jobId, (∀ entry ∈ db.entriesOf jobId, entry.status ≠ .failed) →
      ∀ entry ∈ db'.entriesOf jobId, entry.status ≠ .failed) : CompletedClean db' := by
  intro job member completed
  obtain ⟨sound, count⟩ := clean job (jobs ▸ member) completed
  exact ⟨unfailed job.id sound, count⟩

theorem CompletedClean.started (clean : CompletedClean db) (job : DirectoryUploadJob) :
    CompletedClean (db.started job) := by
  unfold Database.started
  split
  · exact clean.updateJob fun _ _ _ => nofun
  · exact clean

private theorem updateEntry_unfailed {entryId : Uuid} {change : DirectoryUploadEntry → DirectoryUploadEntry}
    (kept : EntryKept change) (status : ∀ entry, (change entry).status ≠ .failed) (jobId : Uuid)
    (unfailed : ∀ entry ∈ db.entriesOf jobId, entry.status ≠ .failed) :
    ∀ entry ∈ (db.updateEntry entryId change).entriesOf jobId, entry.status ≠ .failed := by
  intro entry membership
  rw [db.entriesOf_updateEntry jobId entryId kept] at membership
  obtain ⟨row, member, rfl⟩ := List.mem_map.mp membership
  split
  · exact status row
  · exact unfailed row member

private theorem progress_unfailed {jobId : Uuid}
    (unfailed : ∀ entry ∈ db.entriesOf jobId, entry.status ≠ .failed) :
    (db.progress jobId).failedFiles = 0 := by
  have none : (db.entriesOf jobId).countP (·.status = .failed) = 0 := by
    rw [List.countP_eq_zero]
    intro entry member
    simpa using unfailed entry member
  exact congrArg Nat.cast none

/-- The job of an id is the one that is found. -/
theorem DirectoriesNumbered.job_eq (sound : DirectoriesNumbered db) {jobId : Uuid}
    {tenantId : String} {job row : DirectoryUploadJob} (found : db.findJob jobId tenantId = some job)
    (member : row ∈ db.directoryUploadJobs) (named : row.id = jobId) : row = job := by
  obtain ⟨present, same, _⟩ := Database.findJob_some found
  exact sound.jobs.eq_of_key member present (named.trans same.symm)

/-- The entry that is found is one of its job and of no other. -/
theorem DirectoriesNumbered.entry_elsewhere (sound : DirectoriesNumbered db) {jobId entryId : Uuid}
    {entry : DirectoryUploadEntry} (selected : db.findEntry entryId = some entry)
    (other : entry.directoryUploadId ≠ jobId) : ∀ row ∈ db.entriesOf jobId, row.id ≠ entryId := by
  intro row membership named
  obtain ⟨member, belongs⟩ := List.mem_filter.mp membership
  obtain ⟨present, same⟩ := Database.findEntry_some selected
  have : row = entry := sound.entries.eq_of_key member present (named.trans same.symm)
  subst this
  exact other (of_decide_eq_true belongs)

/-- The row that a batch of entries adds its counters to. -/
theorem DirectoriesNumbered.started_row (sound : DirectoriesNumbered db) {jobId : Uuid}
    {tenantId : String} {job row : DirectoryUploadJob} (found : db.findJob jobId tenantId = some job)
    (member : row ∈ (db.started job).directoryUploadJobs) (named : row.id = job.id) :
    row = if job.status = .created then setStatus .manifestUploading job else job := by
  have same := (Database.findJob_some found).2.1
  unfold Database.started at member
  split at member <;> rename_i status
  · rw [if_pos status]
    obtain ⟨before, present, rfl⟩ := List.mem_map.mp member
    have kept : before.id = job.id := by
      split at named
      · assumption
      · exact named
    rw [if_pos kept, sound.job_eq found present (kept.trans same)]
  · rw [if_neg status]
    exact sound.job_eq found member (named.trans same)

theorem CompletedClean.report (clean : CompletedClean db) (sound : DirectoriesNumbered db)
    {identity : Identity} {jobId entryId : Uuid} {result : EntryResult} {status : EntryStatus}
    {job : DirectoryUploadJob} {entry : DirectoryUploadEntry}
    (named : EntryStatus.ofText result.status = .ok status)
    (found : db.findJob jobId identity.tenantId = some job)
    (selected : db.findEntry entryId = some entry) (member : entry.directoryUploadId = jobId)
    (timely : ¬ LateFailure db (.directoryUpload identity (.markEntryResult jobId entryId result))) :
    CompletedClean ((db.updateEntry entryId (·.report status result)).aggregated jobId) := by
  have kept := report_kept status result
  intro row membership completed
  obtain ⟨before, present, rfl⟩ := List.mem_map.mp membership
  by_cases same : before.id = jobId
  · rw [if_pos same] at completed ⊢
    have unfinished : before = job := sound.job_eq found present same
    have succeeded : status ≠ .failed := fun failure =>
      timely ⟨(EntryStatus.ofText_failed named).mp failure, ⟨job, found, unfinished ▸ completed⟩,
        entry, selected, member⟩
    have unfailed : ∀ entry ∈ (db.updateEntry entryId (·.report status result)).entriesOf before.id,
        entry.status ≠ .failed :=
      updateEntry_unfailed kept (fun _ => succeeded) before.id (clean before present completed).1
    exact ⟨unfailed, progress_unfailed (same ▸ unfailed)⟩
  · rw [if_neg same] at completed ⊢
    obtain ⟨unfailed, count⟩ := clean before present completed
    have entries := Database.entriesOf_updateEntry_of_ne kept
      (sound.entry_elsewhere selected fun other => same (other.symm.trans member))
    exact ⟨fun other listed => unfailed other (entries ▸ listed), count⟩

private theorem DirectoryEffect.completedClean {identity : Identity} {request : DirectoryRequest}
    (effect : DirectoryEffect app identity request db db') (sound : DirectoriesNumbered db)
    (clean : CompletedClean db) (timely : ¬ LateFailure db (.directoryUpload identity request)) :
    CompletedClean db' := by
  cases effect with
  | unchanged | settled => exact clean
  | created new =>
    intro job membership completed
    rcases List.mem_append.mp membership with old | added
    · exact clean job old completed
    · rw [List.mem_singleton.mp added, new.created] at completed
      cases completed
  | @added _ jobId entries job added found growing collected =>
    have totals : CompletedClean ((db.started job).updateJob job.id (raiseTotals job added)) := by
      refine (clean.started job).updateJob fun row member named completed => ?_
      rw [sound.started_row found member named] at completed
      rcases growing with status | status <;> simp [raiseTotals, setStatus, status] at completed
    refine totals.entries rfl fun jobId unfailed entry membership => ?_
    rw [Database.entriesOf_addEntries] at membership
    rcases List.mem_append.mp membership with old | new
    · exact unfailed entry old
    · rw [(collectEntries_new collected entry (List.mem_filter.mp new).1).2]
      nofun
  | finalized => exact clean.updateJob fun _ _ _ => nofun
  | initiated found selected member =>
    exact (clean.started _).entries rfl
      (updateEntry_unfailed (initiate_kept _) fun _ => nofun)
  | reported named found selected member => exact clean.report sound named found selected member timely
  | retried => exact clean.updateJob fun _ _ _ => nofun
  | @completed _ jobId job found uploading unfailed =>
    refine clean.updateJob fun row member named _ => ?_
    have none : ∀ entry ∈ db.entriesOf row.id, entry.status ≠ .failed := fun entry listed =>
      by simpa using List.countP_eq_zero.mp unfailed entry (named ▸ listed)
    exact ⟨none, progress_unfailed (named ▸ none)⟩
  | cancelled => exact clean.updateJob fun _ _ _ => nofun
  | patched =>
    exact clean.updateJob fun row member _ completed => clean row member completed

/-- A report that is served, whatever the status of the job. -/
theorem serve_markEntryResult (app : AppState σ) (world : World Database σ) (now : Timestamp)
    {identity : Identity} {jobId entryId : Uuid} {result : EntryResult} {status : EntryStatus}
    {job : DirectoryUploadJob} {entry : DirectoryUploadEntry}
    (named : EntryStatus.ofText result.status = .ok status)
    (found : world.db.findJob jobId identity.tenantId = some job)
    (selected : world.db.findEntry entryId = some entry) (member : entry.directoryUploadId = jobId) :
    serve app world (.directoryUpload identity (.markEntryResult jobId entryId result), now) =
      (.ok (.directory (.entry (entry.report status result))),
        ⟨(world.db.updateEntry entryId (·.report status result)).aggregated jobId,
          world.store⟩) := by
  apply World.execute_eq_ok.mpr
  refine Program.bind_pure_eq_ok.mpr ⟨_, Program.bind_pure_eq_ok.mpr ⟨_, ?_, rfl⟩, rfl⟩
  exact markEntryResult_done named found selected member

/-- The reported entry is one of the completed job, and failed. -/
theorem LateFailure.unclean {world : World Database σ} {timed : Timed}
    (late : LateFailure world.db timed.1) : ¬ CompletedClean (serve app world timed).2.db := by
  obtain ⟨asked, now⟩ := timed
  unfold LateFailure at late
  split at late
  · rename_i identity jobId entryId result asks
    obtain ⟨failure, ⟨job, found, completed⟩, entry, selected, member⟩ := late
    have named : EntryStatus.ofText result.status = .ok .failed := by rw [failure]; rfl
    obtain rfl : asked = _ := asks
    rw [serve_markEntryResult app world now named found selected member]
    intro clean
    obtain ⟨present, same, _⟩ := Database.findJob_some found
    obtain ⟨listed, numbered⟩ := Database.findEntry_some selected
    have row : _ ∈ ((world.db.updateEntry entryId (·.report .failed result)).aggregated
        jobId).directoryUploadJobs := List.mem_map.mpr ⟨job, present, if_pos same⟩
    have failed : entry.report .failed result ∈
        ((world.db.updateEntry entryId (·.report .failed result)).aggregated jobId).entriesOf
          job.id := by
      refine List.mem_filter.mpr ⟨List.mem_map.mpr ⟨entry, listed, if_pos numbered⟩, ?_⟩
      exact decide_eq_true (member.trans same.symm)
    exact (clean _ row completed).1 _ failed rfl
  · exact late.elim

end Steps

/-- A completed job has no failed entry in any state of a run, exactly when no failure is
reported of an entry of a completed job. -/
theorem completed_jobs_have_no_failures (app : AppState σ) {world : World Database σ}
    (fresh : world.db.Fresh) (requests : List Timed) :
    (∀ count, CompletedClean (after app world (requests.take count)).db) ↔
      EachMeets app (fun world timed => ¬ LateFailure world.db timed.1) world requests := by
  refine eachMeets_iff _ (fun world => DirectoriesNumbered world.db)
    (fun world => CompletedClean world.db) ?_ ?_ ?_ ?_ requests
  · exact fun world timed sound => (serve_change app world timed).directoriesNumbered sound
  · intro world timed sound clean
    constructor
    · exact fun still late => late.unclean still
    · intro timely
      rcases serve_directories app world timed with
        ⟨jobs, entries, _⟩ | ⟨identity, request, asks, effect⟩
      · exact clean.congr jobs entries
      · exact effect.completedClean sound clean (asks ▸ timely)
  · exact @after_directoriesNumbered _ app _ fresh []
  · intro job member
    rw [fresh.2.1] at member
    cases member

def smallDirectory : List Timed := [
  (.directoryUpload smallTenant (.createJob { bucket := "files" }), 0),
  (.directoryUpload smallTenant (.addEntries 0 [{ relativePath := "a.bin", sizeBytes := 4 }]), 1),
  (.directoryUpload smallTenant (.completeManifest 0 none none), 2),
  (.directoryUpload smallTenant (.retry 0), 3),
  (.directoryUpload smallTenant (.markEntryResult 0 1 {}), 4),
  (.directoryUpload smallTenant (.complete 0), 5)]

theorem completed_jobs_have_no_failures_small :
    (∀ count, CompletedClean (after smallS3App ⟨{}, smallS3⟩ (smallDirectory.take count)).db) ↔
      EachMeets smallS3App (fun world timed => ¬ LateFailure world.db timed.1) ⟨{}, smallS3⟩
        smallDirectory :=
  completed_jobs_have_no_failures smallS3App (by decide) _

/-- The report of a failure that arrives after the completion is written. -/
theorem late_failure_reaches_completed_job :
    ¬ CompletedClean (after smallS3App ⟨{}, smallS3⟩ (smallDirectory ++
      [(.directoryUpload smallTenant (.markEntryResult 0 1 { status := "failed" }), 6)])).db := by
  decide +kernel

end PyUploadX
