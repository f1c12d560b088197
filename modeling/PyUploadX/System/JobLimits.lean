import PyUploadX.System.JobProgress
import PyUploadX.System.RepeatedBatch

/-! The limits that the settings put on a directory job, and the batches that nothing
measures against them. -/
namespace PyUploadX

open Kit Kit.Table DirectoryUploadService

variable {σ : Type} {app : AppState σ}

/-- `maximum_files_per_job`, `maximum_directories_per_job` and `maximum_total_bytes`, of the
counters of a job. -/
structure WithinLimits (limits : DirectoryUploadLimits) (job : DirectoryUploadJob) : Prop where
  files : job.totalFiles ≤ limits.maximumFilesPerJob
  directories : job.totalDirectories ≤ limits.maximumDirectoriesPerJob
  unsigned : 0 ≤ job.totalBytes
  bytes : job.totalBytes ≤ limits.maximumTotalBytes

/-- The counters that a batch would bring its job to. -/
def DirectoryUploadJob.enlarged (job : DirectoryUploadJob) (entries : List EntryRequest) :
    DirectoryUploadJob :=
  let files := entries.filter (·.entryType = "file")
  { job with
    totalFiles := job.totalFiles + files.length
    totalDirectories := job.totalDirectories + (entries.length - files.length)
    totalBytes := job.totalBytes + total (·.sizeBytes) files }

/-- A batch that leaves its job within the limits. -/
def Fits (limits : DirectoryUploadLimits) (job : DirectoryUploadJob)
    (entries : List EntryRequest) : Prop :=
  WithinLimits limits (job.enlarged entries) ∧ ∀ raw ∈ entries, 0 ≤ raw.sizeBytes

/-- Every job of the table is within the limits, and no entry has a negative size. -/
structure LimitsHold (limits : DirectoryUploadLimits) (db : Database) : Prop where
  jobs : ∀ job ∈ db.directoryUploadJobs, WithinLimits limits job
  entries : ∀ entry ∈ db.directoryUploadEntries, 0 ≤ entry.sizeBytes

/-- A batch that does not fit its job is refused, and nothing is changed. -/
def RefusesExcess (app : AppState σ) (world : World Database σ) (timed : Timed) : Prop :=
  ∀ identity jobId entries, timed.1 = .directoryUpload identity (.addEntries jobId entries) →
    ∀ job ∈ world.db.findJob jobId identity.tenantId,
      ¬ Fits app.settings.directoryUpload.limits job entries →
      (serve app world timed).1.isOk = false ∧ (serve app world timed).2 = world

/-- What `add_entries`, the columns and unique constraints, and the counter of the metrics check of
a batch. -/
def Passes (app : AppState σ) (db : Database) (job : DirectoryUploadJob)
    (entries : List EntryRequest) : Prop :=
  let limits := app.settings.directoryUpload.limits
  (job.status = .created ∨ job.status = .manifestUploading) ∧
    entries.length ≤ limits.maximumEntriesPerManifestRequest ∧
    ∃ added, collectEntries app.nfc limits job db.nextId
      ((db.entriesOf job.id).map (·.normalizedPath)) entries = .ok added ∧ db.Accepts added ∧
      Storable app job added

/-- A batch that passes every check and does not fit. -/
def Overruns (app : AppState σ) (db : Database) : Request → Prop
  | .directoryUpload identity (.addEntries jobId entries) =>
    ∃ job ∈ db.findJob jobId identity.tenantId, Passes app db job entries ∧
      ¬ Fits app.settings.directoryUpload.limits job entries
  | _ => False

section Counting

variable {nfc : String → String} {limits : DirectoryUploadLimits} {job : DirectoryUploadJob}
  {id : Uuid} {existing : List ObjectKey} {raws : List EntryRequest}
  {added : List DirectoryUploadEntry}

/-- The row has the type and the size of the request. -/
structure Describes (raw : EntryRequest) (entry : DirectoryUploadEntry) : Prop where
  file : entry.entryType = .file ↔ raw.entryType = "file"
  size : entry.sizeBytes = raw.sizeBytes

private theorem EntryType.ofText_file {text : String} {entryType : EntryType}
    (named : EntryType.ofText text = .ok entryType) : entryType = .file ↔ text = "file" := by
  unfold EntryType.ofText at named
  split at named <;> cases named <;> simp

private theorem collectEntries_describes
    (collected : collectEntries nfc limits job id existing raws = .ok added) :
    List.Forall₂ Describes raws added := by
  refine (collectEntries_rows collected).imp fun raw entry collects => ?_
  exact ⟨EntryType.ofText_file collects.named, by rw [collects.row]; rfl⟩

/-- The files among the rows are as many and as large as those among the requests. -/
theorem describes_files (described : List.Forall₂ Describes raws added) :
    (added.filter (·.entryType = .file)).length =
        (raws.filter (·.entryType = "file")).length ∧
      total (·.sizeBytes) (added.filter (·.entryType = .file)) =
        total (·.sizeBytes) (raws.filter (·.entryType = "file")) := by
  induction described with
  | nil => exact ⟨rfl, rfl⟩
  | @cons raw entry rest others head tail ih =>
    obtain ⟨count, bytes⟩ := ih
    by_cases file : raw.entryType = "file"
    · rw [List.filter_cons_of_pos (by simpa using head.file.mpr file),
        List.filter_cons_of_pos (by simpa using file), List.length_cons, List.length_cons,
        total_cons, total_cons, count, bytes, head.size]
      exact ⟨rfl, rfl⟩
    · rw [List.filter_cons_of_neg (by simpa using fun same => file (head.file.mp same)),
        List.filter_cons_of_neg (by simpa using file)]
      exact ⟨count, bytes⟩

private theorem describes_sizes (described : List.Forall₂ Describes raws added)
    (sizes : ∀ raw ∈ raws, 0 ≤ raw.sizeBytes) : ∀ entry ∈ added, 0 ≤ entry.sizeBytes := by
  induction described with
  | nil => exact List.forall_mem_nil _
  | @cons raw entry rest others head tail ih =>
    obtain ⟨first, later⟩ := List.forall_mem_cons.mp sizes
    exact List.forall_mem_cons.mpr ⟨head.size ▸ first, ih later⟩

theorem WithinLimits.congr {row : DirectoryUploadJob} (within : WithinLimits limits job)
    (same : row.totalFiles = job.totalFiles ∧ row.totalDirectories = job.totalDirectories ∧
      row.totalBytes = job.totalBytes) : WithinLimits limits row := by
  obtain ⟨totalFiles, totalDirectories, totalBytes⟩ := same
  exact {
    files := totalFiles ▸ within.files
    directories := totalDirectories ▸ within.directories
    unsigned := totalBytes ▸ within.unsigned
    bytes := totalBytes ▸ within.bytes }

/-- The counters that are written are those of the batch, where nothing came between. -/
theorem raiseTotals_within {row : DirectoryUploadJob}
    (described : List.Forall₂ Describes raws added)
    (read : row.totalFiles = job.totalFiles ∧ row.totalDirectories = job.totalDirectories ∧
      row.totalBytes = job.totalBytes) (within : WithinLimits limits (job.enlarged raws)) :
    WithinLimits limits (raiseTotals job added row) := by
  obtain ⟨files, bytes⟩ := describes_files described
  obtain ⟨readFiles, readDirectories, readBytes⟩ := read
  refine within.congr ⟨?_, ?_, ?_⟩
  · simp only [raiseTotals, DirectoryUploadJob.enlarged, readFiles, raised_self, files]
  · simp only [raiseTotals, DirectoryUploadJob.enlarged, readDirectories, raised_self, files,
      described.length_eq]
  · simp only [raiseTotals, DirectoryUploadJob.enlarged, readBytes, raised_self]
    rw [← bytes]
    rfl

end Counting

namespace LimitsHold

variable {limits : DirectoryUploadLimits} {db db' : Database}

theorem congr (hold : LimitsHold limits db)
    (jobs : db'.directoryUploadJobs = db.directoryUploadJobs)
    (entries : db'.directoryUploadEntries = db.directoryUploadEntries) : LimitsHold limits db' :=
  ⟨jobs ▸ hold.jobs, entries ▸ hold.entries⟩

theorem updateJob (hold : LimitsHold limits db) {jobId : Uuid}
    {change : DirectoryUploadJob → DirectoryUploadJob}
    (within : ∀ job ∈ db.directoryUploadJobs, job.id = jobId → WithinLimits limits (change job)) :
    LimitsHold limits (db.updateJob jobId change) := by
  refine ⟨fun row membership => ?_, hold.entries⟩
  obtain ⟨job, member, rfl⟩ := List.mem_map.mp membership
  split
  · exact within job member ‹_›
  · exact hold.jobs job member

/-- A change that writes no counter. -/
theorem keep (hold : LimitsHold limits db) (jobId : Uuid)
    {change : DirectoryUploadJob → DirectoryUploadJob}
    (same : ∀ job, (change job).totalFiles = job.totalFiles ∧
      (change job).totalDirectories = job.totalDirectories ∧
      (change job).totalBytes = job.totalBytes) : LimitsHold limits (db.updateJob jobId change) :=
  hold.updateJob fun job member _ => (hold.jobs job member).congr (same job)

theorem started (hold : LimitsHold limits db) (job : DirectoryUploadJob) :
    LimitsHold limits (db.started job) := by
  unfold Database.started
  split
  · exact hold.keep _ fun _ => ⟨rfl, rfl, rfl⟩
  · exact hold

theorem updateEntry (hold : LimitsHold limits db) (entryId : Uuid)
    {change : DirectoryUploadEntry → DirectoryUploadEntry}
    (same : ∀ entry, (change entry).sizeBytes = entry.sizeBytes) :
    LimitsHold limits (db.updateEntry entryId change) := by
  refine ⟨hold.jobs, fun row membership => ?_⟩
  obtain ⟨entry, member, rfl⟩ := List.mem_map.mp membership
  split
  · rw [same]
    exact hold.entries entry member
  · exact hold.entries entry member

theorem addJob (hold : LimitsHold limits db) {identity : Identity} {job : DirectoryUploadJob}
    (new : NewJob identity db job) : LimitsHold limits (db.addJob job) := by
  refine ⟨fun row membership => ?_, hold.entries⟩
  rcases List.mem_append.mp membership with old | added
  · exact hold.jobs row old
  · obtain ⟨_, files, directories, bytes⟩ := new.totals
    rw [List.mem_singleton.mp added]
    constructor
    · rw [files]
      exact Int.natCast_nonneg _
    · rw [directories]
      exact Int.natCast_nonneg _
    · rw [bytes]
    · rw [bytes]
      exact Int.natCast_nonneg _

/-- A batch that fits. -/
theorem added (hold : LimitsHold limits db) (sound : DirectoriesNumbered db) {jobId : Uuid}
    {tenantId : String} {job : DirectoryUploadJob} {raws : List EntryRequest}
    {added : List DirectoryUploadEntry} (found : db.findJob jobId tenantId = some job)
    (described : List.Forall₂ Describes raws added) (fits : Fits limits job raws) :
    LimitsHold limits
      (((db.started job).updateJob job.id (raiseTotals job added)).addEntries added) := by
  have raised : LimitsHold limits ((db.started job).updateJob job.id (raiseTotals job added)) := by
    refine (hold.started job).updateJob fun row member named => ?_
    refine raiseTotals_within described ?_ fits.1
    rw [sound.started_row found member named]
    split <;> exact ⟨rfl, rfl, rfl⟩
  refine ⟨raised.jobs, fun entry membership => ?_⟩
  rcases List.mem_append.mp membership with old | new
  · exact raised.entries entry old
  · exact describes_sizes described fits.2 entry new

end LimitsHold

section Checks

variable {identity : Identity} {jobId : Uuid} {entries : List EntryRequest} {db db' : Database}
  {store store' : σ} {job : DirectoryUploadJob}

theorem addEntries_passes {count : Nat}
    (done : (addEntries app identity jobId entries).run db store = (.ok (count, db'), store')) :
    ∃ job ∈ db.findJob jobId identity.tenantId, Passes app db job entries := by
  obtain ⟨job, added, found, growing, collected, accepted, _, _, storable⟩ := addEntries_ok done
  refine ⟨job, found, growing, ?_, added, collected, accepted, storable⟩
  unfold addEntries at done
  rw [(getJob_readOnly _).bind_eq_ok] at done
  obtain ⟨_, _, done⟩ := done
  simp only [Program.refuseIf_bind_ok] at done
  exact Nat.not_lt.mp done.2.1

end Checks

section Steps

variable {identity : Identity} {jobId : Uuid} {entries : List EntryRequest} {now : Timestamp}
  {world : World Database σ}

private theorem serve_addEntries_isOk_iff :
    (serve app world (.directoryUpload identity (.addEntries jobId entries), now)).1.isOk = true ↔
      ∃ job ∈ world.db.findJob jobId identity.tenantId, Passes app world.db job entries := by
  constructor
  · intro accepted
    obtain ⟨reply, accepted⟩ := except_isOk_iff.mp accepted
    have ran := World.execute_committed accepted
    obtain ⟨_, ran, _⟩ := Program.bind_pure_eq_ok.mp ran
    obtain ⟨_, ran, _⟩ := Program.bind_pure_eq_ok.mp ran
    exact addEntries_passes ran
  · rintro ⟨job, found, passes⟩
    obtain ⟨growing, few, added, collected, accepted, storable⟩ := passes
    have done := @addEntries_run _ app identity jobId world.db world.store entries job added found
      growing few collected accepted storable
    have served : serve app world (.directoryUpload identity (.addEntries jobId entries), now) =
        (.ok (.directory (.added added.length)),
          ⟨((world.db.started job).updateJob job.id (raiseTotals job added)).addEntries added,
            world.store⟩) := by
      apply World.execute_eq_ok.mpr
      exact Program.bind_pure_eq_ok.mpr ⟨_, Program.bind_pure_eq_ok.mpr ⟨_, done, rfl⟩, rfl⟩
    rw [served]
    rfl

theorem serve_directoryUpload_refused {request : DirectoryRequest}
    (refused : (serve app world (.directoryUpload identity request, now)).1.isOk = false) :
    (serve app world (.directoryUpload identity request, now)).2 = world := by
  have offline : (handle app (.directoryUpload identity request) now).Offline :=
    .bind (directoryUpload_offline request now) fun _ => .pure _
  obtain ⟨failure, failed⟩ : ∃ failure,
      (serve app world (.directoryUpload identity request, now)).1 = .error failure := by
    cases replied : (serve app world (.directoryUpload identity request, now)).1 with
    | ok reply => rw [replied] at refused; cases refused
    | error failure => exact ⟨failure, rfl⟩
  obtain ⟨ran, same⟩ := World.execute_eq_error.mp (Prod.ext failed rfl)
  have kept := offline world.db world.store
  rw [ran] at kept
  exact congrArg₂ World.mk same kept

/-- A batch that is measured in no other way is refused for its excess exactly where it does
not pass the other checks. -/
theorem refusesExcess_iff (app : AppState σ) (world : World Database σ) (timed : Timed) :
    RefusesExcess app world timed ↔ ¬ Overruns app world.db timed.1 := by
  obtain ⟨asked, now⟩ := timed
  constructor
  · intro refuses overruns
    unfold Overruns at overruns
    split at overruns
    · rename_i identity jobId entries asks
      obtain ⟨job, found, passes, excess⟩ := overruns
      obtain rfl : asked = _ := asks
      have refused := (refuses identity jobId entries rfl job found excess).1
      rw [serve_addEntries_isOk_iff.mpr ⟨job, found, passes⟩] at refused
      cases refused
    · exact overruns
  · rintro keeps identity jobId entries asks job found excess
    obtain rfl : asked = _ := asks
    have refused : (serve app world
        (.directoryUpload identity (.addEntries jobId entries), now)).1.isOk = false := by
      rw [← Bool.not_eq_true, serve_addEntries_isOk_iff]
      rintro ⟨other, same, passes⟩
      obtain rfl : other = job := Option.some.inj (same.symm.trans found)
      exact keeps ⟨other, found, passes, excess⟩
    exact ⟨refused, serve_directoryUpload_refused refused⟩

/-- A request that aggregates nothing, and whose batch fits. -/
theorem DirectoryEffect.limitsHold {limits : DirectoryUploadLimits} {db db' : Database}
    {request : DirectoryRequest} (effect : DirectoryEffect app identity request db db')
    (sound : DirectoriesNumbered db) (unsettled : request.settles? = none)
    (fits : ∀ jobId entries, request = .addEntries jobId entries →
      ∀ job ∈ db.findJob jobId identity.tenantId, Fits limits job entries)
    (hold : LimitsHold limits db) : LimitsHold limits db' := by
  cases effect with
  | unchanged | settled => exact hold
  | created new => exact hold.addJob new
  | added found growing collected =>
    exact hold.added sound found (collectEntries_describes collected) (fits _ _ rfl _ found)
  | finalized | retried | cancelled | patched => exact hold.keep _ fun _ => ⟨rfl, rfl, rfl⟩
  | initiated => exact (hold.started _).updateEntry _ fun _ => rfl
  | reported | completed => cases unsettled

private theorem serve_limitsHold {timed : Timed} (sound : DirectoriesNumbered world.db)
    (unsettled : ∀ identity request, timed.1 = .directoryUpload identity request →
      request.settles? = none)
    (keeps : ¬ Overruns app world.db timed.1)
    (hold : LimitsHold app.settings.directoryUpload.limits world.db) :
    LimitsHold app.settings.directoryUpload.limits (serve app world timed).2.db := by
  obtain ⟨asked, now⟩ := timed
  rcases serve_directories app world (asked, now) with
    ⟨jobs, entries, _⟩ | ⟨identity, request, asks, effect⟩
  · exact hold.congr jobs entries
  · obtain rfl : asked = _ := asks
    cases accepted : (serve app world (.directoryUpload identity request, now)).1.isOk with
    | false =>
      rw [serve_directoryUpload_refused accepted]
      exact hold
    | true =>
      refine effect.limitsHold sound (unsettled identity request rfl) ?_ hold
      rintro jobId entries rfl job found
      obtain ⟨other, same, passes⟩ := serve_addEntries_isOk_iff.mp accepted
      obtain rfl : other = job := Option.some.inj (same.symm.trans found)
      by_contra excess
      exact keeps ⟨other, found, passes, excess⟩

end Steps

private theorem Database.Fresh.limitsHold {db : Database} (fresh : db.Fresh)
    (limits : DirectoryUploadLimits) : LimitsHold limits db := by
  constructor
  · rw [fresh.2.1]
    exact fun _ => nofun
  · rw [fresh.2.2]
    exact fun _ => nofun

/-- While nothing is aggregated, every job stays within its limits and a batch that would
exceed them is refused, exactly when no batch that passes the other checks exceeds them. -/
theorem job_limits_hold_iff (app : AppState σ) {world : World Database σ} (fresh : world.db.Fresh)
    {requests : List Timed} (unsettled : ∀ timed ∈ requests, ∀ identity request,
      timed.1 = .directoryUpload identity request → request.settles? = none) :
    (EachMeets app (RefusesExcess app) world requests ∧
      ∀ count, LimitsHold app.settings.directoryUpload.limits
        (after app world (requests.take count)).db) ↔
      EachMeets app (fun world timed => ¬ Overruns app world.db timed.1) world requests := by
  have agree : EachMeets app (RefusesExcess app) world requests ↔
      EachMeets app (fun world timed => ¬ Overruns app world.db timed.1) world requests :=
    eachMeets_congr _ _ (fun _ => True) (fun _ _ _ => trivial)
      (fun world timed _ => refusesExcess_iff app world timed) trivial requests
  rw [agree]
  refine and_iff_left_of_imp fun keeps count => ?_
  have steps := (keeps.take count).imp fun world timed member kept =>
    And.intro kept (unsettled timed (List.mem_of_mem_take member))
  refine (after_preserves_of _ (fun world => DirectoriesNumbered world.db ∧
    LimitsHold app.settings.directoryUpload.limits world.db) ?_ ?_ steps).2
  · intro world timed state condition
    exact ⟨(serve_change app world timed).directoriesNumbered state.1,
      serve_limitsHold state.1 condition.2 condition.1 state.2⟩
  · exact ⟨@after_directoriesNumbered _ app _ fresh [], fresh.limitsHold _⟩

def unsizedBatches : List Timed :=
  [(.directoryUpload smallTenant (.createJob { bucket := "files" }), 0),
    (.directoryUpload smallTenant (.addEntries 0 [{ relativePath := "a.bin", sizeBytes := 7 }]), 1),
    (.directoryUpload smallTenant (.addEntries 0 [{ relativePath := "b.bin", sizeBytes := 5 },
      { relativePath := "c.bin", sizeBytes := -1 }]), 2)]

theorem job_limits_hold_small :
    (EachMeets smallS3App (RefusesExcess smallS3App) ⟨{}, smallS3⟩ (unsizedBatches.take 2) ∧
      ∀ count, LimitsHold smallS3App.settings.directoryUpload.limits
        (after smallS3App ⟨{}, smallS3⟩ ((unsizedBatches.take 2).take count)).db) ↔
      EachMeets smallS3App (fun world timed => ¬ Overruns smallS3App world.db timed.1)
        ⟨{}, smallS3⟩ (unsizedBatches.take 2) := by
  refine job_limits_hold_iff smallS3App (by decide) ?_
  intro timed member identity request asks
  simp only [unsizedBatches, List.take_succ_cons, List.take_zero, List.mem_cons,
    List.not_mem_nil, or_false] at member
  rcases member with rfl | rfl <;> cases asks <;> rfl

/-- The negative size is accepted, and counted; on its own the metrics would have refused it. -/
theorem negative_size_is_accepted :
    let world := after smallS3App ⟨{}, smallS3⟩ (unsizedBatches.take 2)
    (∃ job ∈ (after smallS3App ⟨{}, smallS3⟩ unsizedBatches).db.directoryUploadJobs,
        job.totalBytes = 11) ∧
      ¬ LimitsHold smallS3App.settings.directoryUpload.limits
        (after smallS3App ⟨{}, smallS3⟩ unsizedBatches).db ∧
      (serve smallS3App world (.directoryUpload smallTenant
        (.addEntries 0 [{ relativePath := "c.bin", sizeBytes := -1 }]), 2)).1 =
          .error (.value "Counters can only be incremented by non-negative amounts.") := by
  refine ⟨by decide +kernel, fun hold => ?_, by decide +kernel⟩
  have unsized : ∃ entry ∈ (after smallS3App ⟨{}, smallS3⟩ unsizedBatches).db.directoryUploadEntries,
      entry.sizeBytes = -1 := by decide +kernel
  obtain ⟨entry, member, bytes⟩ := unsized
  have := hold.entries entry member
  omega

end PyUploadX
