import PyUploadX.System.CompletedJobs

/-! The counters of a directory job: what its entries add up to, and what
`aggregate_progress` writes of it. -/
namespace PyUploadX

open Kit Kit.Table DirectoryUploadService

section Entries

def ofKind (kind : EntryType) (entries : List DirectoryUploadEntry) : List DirectoryUploadEntry :=
  entries.filter (·.entryType = kind)

def bytesIn (entries : List DirectoryUploadEntry) : Int := total (·.sizeBytes) entries

/-- The counters of the job say of its file entries what they are named after. -/
structure Accurate (entries : List DirectoryUploadEntry) (job : DirectoryUploadJob) : Prop where
  totalEntries : job.totalEntries = entries.length
  totalFiles : job.totalFiles = (ofKind .file entries).length
  totalDirectories : job.totalDirectories = (ofKind .directory entries).length
  totalBytes : job.totalBytes = bytesIn (ofKind .file entries)
  uploadedFiles : job.uploadedFiles = (ofKind .file entries).countP (·.status = .uploaded)
  failedFiles : job.failedFiles = (ofKind .file entries).countP (·.status = .failed)
  skippedFiles : job.skippedFiles = (ofKind .file entries).countP (·.status = .skipped)
  uploadedBytes : job.uploadedBytes =
    bytesIn ((ofKind .file entries).filter (·.status = .uploaded))

/-- Entries that an aggregate over all of them, without the uploaded bytes, counts as one
over the files would. -/
structure Aggregable (entries : List DirectoryUploadEntry) : Prop where
  weightless : bytesIn (ofKind .directory entries) = 0
  unreported : ∀ entry ∈ ofKind .directory entries,
    entry.status = .pending ∨ entry.status = .uploading
  untransferred : bytesIn ((ofKind .file entries).filter (·.status = .uploaded)) = 0

/-- What no aggregation writes. -/
structure Listed (entries : List DirectoryUploadEntry) (job : DirectoryUploadJob) : Prop where
  totalEntries : job.totalEntries = entries.length
  totalFiles : job.totalFiles = (ofKind .file entries).length
  totalDirectories : job.totalDirectories = (ofKind .directory entries).length
  uploadedBytes : job.uploadedBytes = 0

def progressOf (entries : List DirectoryUploadEntry) : Progress where
  totalEntries := entries.length
  totalBytes := bytesIn entries
  uploadedFiles := entries.countP (·.status = .uploaded)
  failedFiles := entries.countP (·.status = .failed)
  skippedFiles := entries.countP (·.status = .skipped)

private theorem progress_eq (db : Database) (jobId : Uuid) :
    db.progress jobId = progressOf (db.entriesOf jobId) := rfl

variable {entries : List DirectoryUploadEntry}

private theorem not_file (entry : DirectoryUploadEntry) :
    (!decide (entry.entryType = .file)) = decide (entry.entryType = .directory) := by
  cases entry.entryType <;> rfl

private theorem bytesIn_kinds (entries : List DirectoryUploadEntry) :
    bytesIn entries = bytesIn (ofKind .file entries) + bytesIn (ofKind .directory entries) := by
  have split := total_split (·.sizeBytes) (fun entry => decide (entry.entryType = .file)) entries
  simp only [not_file] at split
  exact split

theorem length_kinds (entries : List DirectoryUploadEntry) :
    entries.length = (ofKind .file entries).length + (ofKind .directory entries).length := by
  have split := List.countP_eq_countP_filter_add entries (fun _ => true)
    fun entry => decide (entry.entryType = .file)
  simp only [not_file, List.countP_true] at split
  exact split

private theorem countP_kinds (status : EntryStatus) (entries : List DirectoryUploadEntry) :
    entries.countP (·.status = status) = (ofKind .file entries).countP (·.status = status) +
      (ofKind .directory entries).countP (·.status = status) := by
  have split := List.countP_eq_countP_filter_add entries (fun entry => decide (entry.status = status))
    fun entry => decide (entry.entryType = .file)
  simp only [not_file] at split
  exact split

private theorem unreported_iff :
    (∀ entry ∈ entries, entry.status = .pending ∨ entry.status = .uploading) ↔
      entries.countP (·.status = .uploaded) = 0 ∧ entries.countP (·.status = .failed) = 0 ∧
        entries.countP (·.status = .skipped) = 0 := by
  simp only [List.countP_eq_zero, decide_eq_true_eq]
  constructor
  · intro unreported
    refine ⟨fun entry member => ?_, fun entry member => ?_, fun entry member => ?_⟩ <;>
      rcases unreported entry member with status | status <;> rw [status] <;> nofun
  · rintro ⟨uploaded, failed, skipped⟩ entry member
    have := uploaded entry member
    have := failed entry member
    have := skipped entry member
    cases status : entry.status <;> simp_all

/-- Right after an aggregation the counters are accurate exactly for such entries. -/
theorem record_accurate_iff {job : DirectoryUploadJob} (listed : Listed entries job) :
    Accurate entries ((progressOf entries).record job) ↔ Aggregable entries := by
  have bytes := bytesIn_kinds entries
  have uploaded := countP_kinds .uploaded entries
  have failed := countP_kinds .failed entries
  have skipped := countP_kinds .skipped entries
  have unwritten : ((progressOf entries).record job).uploadedBytes = 0 := listed.uploadedBytes
  constructor
  · intro accurate
    have totalBytes : bytesIn entries = bytesIn (ofKind .file entries) := accurate.totalBytes
    have uploadedFiles := accurate.uploadedFiles
    have failedFiles := accurate.failedFiles
    have skippedFiles := accurate.skippedFiles
    simp only [progressOf, Progress.record] at uploadedFiles failedFiles skippedFiles
    refine ⟨by omega, unreported_iff.mpr ⟨by omega, by omega, by omega⟩, ?_⟩
    rw [← accurate.uploadedBytes, unwritten]
  · intro aggregable
    obtain ⟨noneUploaded, noneFailed, noneSkipped⟩ := unreported_iff.mp aggregable.unreported
    have weightless := aggregable.weightless
    exact {
      totalEntries := rfl
      totalFiles := listed.totalFiles
      totalDirectories := listed.totalDirectories
      totalBytes := by simp only [progressOf, Progress.record]; omega
      uploadedFiles := by simp only [progressOf, Progress.record]; omega
      failedFiles := by simp only [progressOf, Progress.record]; omega
      skippedFiles := by simp only [progressOf, Progress.record]; omega
      uploadedBytes := by rw [unwritten, aggregable.untransferred] }

/-- What stays true of the last aggregation while entries are only taken up again. -/
structure Aggregated (entries : List DirectoryUploadEntry) (job : DirectoryUploadJob) : Prop where
  totalBytes : job.totalBytes = bytesIn entries
  uploadedFiles : entries.countP (·.status = .uploaded) ≤ job.uploadedFiles
  failedFiles : entries.countP (·.status = .failed) ≤ job.failedFiles
  skippedFiles : entries.countP (·.status = .skipped) ≤ job.skippedFiles

private theorem record_aggregated (entries : List DirectoryUploadEntry) (job : DirectoryUploadJob) :
    Aggregated entries ((progressOf entries).record job) :=
  ⟨rfl, Int.le_refl _, Int.le_refl _, Int.le_refl _⟩

/-- Later the counters also have to be those of the last aggregation. -/
theorem aggregated_accurate_iff {job : DirectoryUploadJob} (listed : Listed entries job)
    (aggregated : Aggregated entries job) :
    Accurate entries job ↔ Aggregable entries ∧ (progressOf entries).record job = job := by
  constructor
  · intro accurate
    have uploaded := countP_kinds .uploaded entries
    have failed := countP_kinds .failed entries
    have skipped := countP_kinds .skipped entries
    have uploadedFiles : job.uploadedFiles = entries.countP (·.status = .uploaded) := by
      have := aggregated.uploadedFiles
      have := accurate.uploadedFiles
      omega
    have failedFiles : job.failedFiles = entries.countP (·.status = .failed) := by
      have := aggregated.failedFiles
      have := accurate.failedFiles
      omega
    have skippedFiles : job.skippedFiles = entries.countP (·.status = .skipped) := by
      have := aggregated.skippedFiles
      have := accurate.skippedFiles
      omega
    have current : (progressOf entries).record job = job := by
      unfold Progress.record progressOf
      rw [← accurate.totalEntries, ← aggregated.totalBytes, ← uploadedFiles, ← failedFiles,
        ← skippedFiles]
    rw [← current] at accurate
    exact ⟨(record_accurate_iff listed).mp accurate, current⟩
  · rintro ⟨aggregable, current⟩
    rw [← current]
    exact (record_accurate_iff listed).mpr aggregable

theorem raised_self (read count : Int) : raised read count read = read + count := by
  unfold raised
  split <;> omega

theorem raiseTotals_listed {job row : DirectoryUploadJob} {added : List DirectoryUploadEntry}
    (listed : Listed entries row) (read : row.totalEntries = job.totalEntries ∧
      row.totalFiles = job.totalFiles ∧ row.totalDirectories = job.totalDirectories) :
    Listed (entries ++ added) (raiseTotals job added row) := by
  obtain ⟨readEntries, readFiles, readDirectories⟩ := read
  have kinds := length_kinds added
  have appended : ∀ kind, (ofKind kind (entries ++ added)).length =
      (ofKind kind entries).length + (ofKind kind added).length := by
    intro kind
    unfold ofKind
    rw [List.filter_append, List.length_append]
  have totalEntries := listed.totalEntries
  have totalFiles := listed.totalFiles
  have totalDirectories := listed.totalDirectories
  constructor
  · simp only [raiseTotals, readEntries, raised_self, List.length_append]
    omega
  · simp only [raiseTotals, readFiles, raised_self, appended]
    unfold ofKind at *
    omega
  · simp only [raiseTotals, readDirectories, raised_self, appended]
    unfold ofKind at *
    omega
  · exact listed.uploadedBytes

/-- A change of entries that are counted by their kind. -/
theorem Listed.map {job : DirectoryUploadJob} (listed : Listed entries job)
    {change : DirectoryUploadEntry → DirectoryUploadEntry}
    (kept : ∀ entry, (change entry).entryType = entry.entryType) :
    Listed (entries.map change) job := by
  have kinds : ∀ kind, (ofKind kind (entries.map change)).length = (ofKind kind entries).length := by
    intro kind
    unfold ofKind
    rw [List.filter_map, List.length_map]
    congr 1
    apply List.filter_congr
    intro entry _
    simp only [Function.comp_apply, kept]
  exact {
    totalEntries := by rw [listed.totalEntries, List.length_map]
    totalFiles := by rw [listed.totalFiles, kinds]
    totalDirectories := by rw [listed.totalDirectories, kinds]
    uploadedBytes := listed.uploadedBytes }

end Entries

/-- The counters of all jobs, and the jobs of all entries. -/
structure Tallied (db : Database) : Prop where
  owned : ∀ entry ∈ db.directoryUploadEntries,
    ∃ job ∈ db.directoryUploadJobs, job.id = entry.directoryUploadId
  listed : ∀ job ∈ db.directoryUploadJobs, Listed (db.entriesOf job.id) job
  finished : ∀ job ∈ db.directoryUploadJobs, job.status = .completed →
    Aggregated (db.entriesOf job.id) job

namespace Tallied

variable {db db' : Database}

theorem congr (tallied : Tallied db) (jobs : db'.directoryUploadJobs = db.directoryUploadJobs)
    (entries : db'.directoryUploadEntries = db.directoryUploadEntries) : Tallied db' := by
  obtain ⟨owned, listed, finished⟩ := tallied
  unfold Database.entriesOf at listed finished
  rw [← jobs, ← entries] at owned listed finished
  exact ⟨owned, listed, finished⟩

/-- Every row of a job keeps its id, and what the invariant says of it. -/
theorem updateJob (tallied : Tallied db) {jobId : Uuid}
    {change : DirectoryUploadJob → DirectoryUploadJob} (kept : JobKept change)
    (listed : ∀ job ∈ db.directoryUploadJobs, job.id = jobId →
      Listed (db.entriesOf job.id) (change job))
    (finished : ∀ job ∈ db.directoryUploadJobs, job.id = jobId → (change job).status = .completed →
      Aggregated (db.entriesOf job.id) (change job)) : Tallied (db.updateJob jobId change) := by
  have ids : ∀ job : DirectoryUploadJob, (if job.id = jobId then change job else job).id = job.id := by
    intro job
    split
    · exact (kept job).1
    · rfl
  refine ⟨fun entry member => ?_, fun row membership => ?_, fun row membership => ?_⟩
  · obtain ⟨job, present, same⟩ := tallied.owned entry member
    exact ⟨_, List.mem_map_of_mem present, (ids job).trans same⟩
  · obtain ⟨job, member, rfl⟩ := List.mem_map.mp membership
    rw [ids]
    split
    · exact listed job member ‹_›
    · exact tallied.listed job member
  · obtain ⟨job, member, rfl⟩ := List.mem_map.mp membership
    rw [ids]
    split
    · exact finished job member ‹_›
    · exact tallied.finished job member

/-- Counters that are not written, under a status other than `completed`. -/
theorem setStatus (tallied : Tallied db) {jobId : Uuid} {status : DirectoryJobStatus}
    (unfinished : status ≠ .completed) : Tallied (db.updateJob jobId (setStatus status)) := by
  refine tallied.updateJob (setStatus_kept _) (fun job member _ => ?_) fun _ _ _ completed =>
    absurd completed unfinished
  obtain ⟨totalEntries, totalFiles, totalDirectories, uploadedBytes⟩ := tallied.listed job member
  exact ⟨totalEntries, totalFiles, totalDirectories, uploadedBytes⟩

theorem started (tallied : Tallied db) (job : DirectoryUploadJob) : Tallied (db.started job) := by
  unfold Database.started
  split
  · exact tallied.setStatus nofun
  · exact tallied

private theorem record_listed (tallied : Tallied db) {job : DirectoryUploadJob}
    (member : job ∈ db.directoryUploadJobs) :
    Listed (db.entriesOf job.id) ((progressOf (db.entriesOf job.id)).record job) := by
  obtain ⟨_, totalFiles, totalDirectories, uploadedBytes⟩ := tallied.listed job member
  exact ⟨rfl, totalFiles, totalDirectories, uploadedBytes⟩

/-- An entry is taken up again: what counted it is at most too large. -/
theorem initiate (tallied : Tallied db) (entryId : Uuid) (attempts : Nat) :
    Tallied (db.updateEntry entryId (·.initiate attempts)) := by
  have sizes : ∀ entry : DirectoryUploadEntry, (if entry.id = entryId then
      entry.initiate attempts else entry).sizeBytes = entry.sizeBytes := by
    intro entry
    split <;> rfl
  have fewer : ∀ (status : EntryStatus), status ≠ .uploading → ∀ entries : List DirectoryUploadEntry,
      (entries.map fun entry => if entry.id = entryId then entry.initiate attempts
        else entry).countP (·.status = status) ≤ entries.countP (·.status = status) := by
    intro status counted entries
    rw [List.countP_map]
    refine List.countP_mono_left fun entry _ matched => ?_
    simp only [Function.comp_apply, decide_eq_true_eq] at matched ⊢
    split at matched
    · exact absurd matched.symm counted
    · exact matched
  refine ⟨fun entry membership => ?_, fun job member => ?_, fun job member completed => ?_⟩
  · obtain ⟨before, present, rfl⟩ := List.mem_map.mp membership
    obtain ⟨job, member, same⟩ := tallied.owned before present
    refine ⟨job, member, ?_⟩
    split <;> exact same
  · rw [db.entriesOf_updateEntry job.id entryId (initiate_kept attempts)]
    refine (tallied.listed job member).map fun entry => ?_
    split <;> rfl
  · rw [db.entriesOf_updateEntry job.id entryId (initiate_kept attempts)]
    obtain ⟨totalBytes, uploadedFiles, failedFiles, skippedFiles⟩ :=
      tallied.finished job member completed
    have := fewer .uploaded nofun (db.entriesOf job.id)
    have := fewer .failed nofun (db.entriesOf job.id)
    have := fewer .skipped nofun (db.entriesOf job.id)
    exact ⟨totalBytes.trans (total_map _ sizes _).symm, by omega, by omega, by omega⟩

theorem report (tallied : Tallied db) (sound : DirectoriesNumbered db) {jobId entryId : Uuid}
    {result : EntryResult} {status : EntryStatus} {entry : DirectoryUploadEntry}
    (selected : db.findEntry entryId = some entry) (member : entry.directoryUploadId = jobId) :
    Tallied ((db.updateEntry entryId (·.report status result)).aggregated jobId) := by
  have kept := report_kept status result
  have own : ∀ job ∈ db.directoryUploadJobs, job.id ≠ jobId →
      (db.updateEntry entryId (·.report status result)).entriesOf job.id = db.entriesOf job.id :=
    fun job _ other => Database.entriesOf_updateEntry_of_ne kept
      (sound.entry_elsewhere selected fun same => other (same.symm.trans member))
  have listed : ∀ job ∈ db.directoryUploadJobs,
      Listed ((db.updateEntry entryId (·.report status result)).entriesOf job.id) job := by
    intro job present
    rw [db.entriesOf_updateEntry job.id entryId kept]
    refine (tallied.listed job present).map fun entry => ?_
    split <;> rfl
  refine ⟨fun row membership => ?_, fun row membership => ?_, fun row membership completed => ?_⟩
  · obtain ⟨before, present, rfl⟩ := List.mem_map.mp membership
    obtain ⟨job, owner, same⟩ := tallied.owned before present
    refine ⟨_, List.mem_map_of_mem owner, ?_⟩
    split <;> split <;> exact same
  · obtain ⟨job, present, rfl⟩ := List.mem_map.mp membership
    split
    · rename_i same
      obtain ⟨_, totalFiles, totalDirectories, uploadedBytes⟩ := listed job present
      rw [progress_eq, ← same]
      exact ⟨rfl, totalFiles, totalDirectories, uploadedBytes⟩
    · exact listed job present
  · obtain ⟨job, present, rfl⟩ := List.mem_map.mp membership
    split at completed <;> rename_i same
    · rw [if_pos same, progress_eq, ← same]
      exact record_aggregated _ _
    · rw [if_neg same]
      exact (own job present same).symm ▸ tallied.finished job present completed

/-- No entry belongs to the job of the next id. -/
theorem entriesOf_fresh (tallied : Tallied db) (sound : DirectoriesNumbered db) :
    db.entriesOf db.nextId = [] := by
  refine List.filter_eq_nil_iff.mpr fun entry member matched => ?_
  obtain ⟨owner, present, same⟩ := tallied.owned entry member
  have old := sound.jobs.old owner present
  rw [same, of_decide_eq_true matched] at old
  exact Nat.lt_irrefl _ old

theorem created (tallied : Tallied db) (sound : DirectoriesNumbered db) {identity : Identity}
    {job : DirectoryUploadJob} (new : NewJob identity db job) : Tallied (db.addJob job) := by
  obtain ⟨totalEntries, totalFiles, totalDirectories, _⟩ := new.totals
  refine ⟨fun entry member => ?_, fun row membership => ?_, fun row membership completed => ?_⟩
  · obtain ⟨owner, present, same⟩ := tallied.owned entry member
    exact ⟨owner, List.mem_append_left _ present, same⟩
  · rcases List.mem_append.mp membership with old | added
    · exact tallied.listed row old
    · rw [List.mem_singleton.mp added]
      have empty : (db.addJob job).entriesOf job.id = [] :=
        new.fresh ▸ tallied.entriesOf_fresh sound
      rw [empty]
      exact ⟨totalEntries, totalFiles, totalDirectories, new.progress.2.1⟩
  · rcases List.mem_append.mp membership with old | added
    · exact tallied.finished row old completed
    · rw [List.mem_singleton.mp added, new.created] at completed
      cases completed

theorem added (tallied : Tallied db) (sound : DirectoriesNumbered db) {jobId : Uuid}
    {tenantId : String} {job : DirectoryUploadJob} {added : List DirectoryUploadEntry}
    (found : db.findJob jobId tenantId = some job)
    (growing : job.status = .created ∨ job.status = .manifestUploading)
    (members : ∀ entry ∈ added, entry.directoryUploadId = job.id) :
    Tallied (((db.started job).updateJob job.id (raiseTotals job added)).addEntries added) := by
  have starting := tallied.started job
  have row_eq : ∀ row ∈ (db.started job).directoryUploadJobs, row.id = job.id →
      row.totalEntries = job.totalEntries ∧ row.totalFiles = job.totalFiles ∧
        row.totalDirectories = job.totalDirectories ∧ row.status ≠ .completed := by
    intro row member named
    rw [sound.started_row found member named]
    split
    · exact ⟨rfl, rfl, rfl, nofun⟩
    · refine ⟨rfl, rfl, rfl, fun completed => ?_⟩
      rcases growing with status | status <;> rw [status] at completed <;> cases completed
  have grown := @Database.entriesOf_grown db job (raiseTotals job added) added members
  have ids : ∀ row : DirectoryUploadJob,
      (if row.id = job.id then raiseTotals job added row else row).id = row.id := by
    intro row
    split <;> rfl
  have present : ∃ row ∈ (db.started job).directoryUploadJobs, row.id = job.id := by
    have member := (Database.findJob_some found).1
    unfold Database.started
    split
    · exact ⟨_, List.mem_map_of_mem member, by rw [if_pos rfl]; rfl⟩
    · exact ⟨job, member, rfl⟩
  have owner : ∀ entry : DirectoryUploadEntry, entry ∈ db.directoryUploadEntries ++ added →
      ∃ row ∈ (db.started job).directoryUploadJobs, row.id = entry.directoryUploadId := by
    intro entry membership
    rcases List.mem_append.mp membership with old | new
    · exact starting.owned entry ((db.started_directoryUploadEntries job).symm ▸ old)
    · rw [members entry new]
      exact present
  refine ⟨fun entry membership => ?_, fun row membership => ?_, fun row membership completed => ?_⟩
  · have placed : entry ∈ db.directoryUploadEntries ++ added :=
      db.started_directoryUploadEntries job ▸ membership
    obtain ⟨row, member, same⟩ := owner entry placed
    exact ⟨_, List.mem_map_of_mem member, (ids row).trans same⟩
  · obtain ⟨before, present, rfl⟩ := List.mem_map.mp membership
    have listed := starting.listed before present
    rw [db.started_entriesOf job before.id] at listed
    rw [ids, grown]
    split
    · rename_i same
      obtain ⟨entries, files, directories, _⟩ := row_eq before present same
      exact raiseTotals_listed listed ⟨entries, files, directories⟩
    · rw [List.append_nil]
      exact listed
  · obtain ⟨before, present, rfl⟩ := List.mem_map.mp membership
    split at completed
    · rename_i same
      exact absurd completed (row_eq before present same).2.2.2
    · rename_i other
      rw [if_neg other, grown, if_neg other, List.append_nil]
      have finished := starting.finished before present completed
      rw [db.started_entriesOf job before.id] at finished
      exact finished

end Tallied

section Requests

variable {σ : Type} {app : AppState σ} {db db' : Database}

theorem DirectoryEffect.tallied {identity : Identity} {request : DirectoryRequest}
    (effect : DirectoryEffect app identity request db db') (sound : DirectoriesNumbered db)
    (tallied : Tallied db) : Tallied db' := by
  cases effect with
  | unchanged | settled => exact tallied
  | created new => exact tallied.created sound new
  | added found growing collected =>
    exact tallied.added sound found growing fun entry member =>
      (collectEntries_new collected entry member).1
  | finalized =>
    refine tallied.updateJob (fun _ => ⟨rfl, rfl⟩) (fun job member _ => ?_) fun _ _ _ => nofun
    obtain ⟨totalEntries, totalFiles, totalDirectories, uploadedBytes⟩ := tallied.listed job member
    exact ⟨totalEntries, totalFiles, totalDirectories, uploadedBytes⟩
  | initiated found selected member => exact (tallied.started _).initiate _ _
  | reported named found selected member => exact tallied.report sound selected member
  | retried | cancelled => exact tallied.setStatus nofun
  | completed found uploading unfailed =>
    refine tallied.updateJob (fun _ => ⟨rfl, rfl⟩) (fun row member named => ?_)
      fun row member named _ => ?_
    · obtain ⟨_, totalFiles, totalDirectories, uploadedBytes⟩ := tallied.record_listed member
      rw [progress_eq, ← named]
      exact ⟨rfl, totalFiles, totalDirectories, uploadedBytes⟩
    · rw [progress_eq, ← named]
      exact ⟨rfl, Int.le_refl _, Int.le_refl _, Int.le_refl _⟩
  | patched found =>
    refine tallied.updateJob (fun _ => ⟨rfl, rfl⟩) (fun job member _ => ?_)
      fun job member _ completed => ?_
    · obtain ⟨totalEntries, totalFiles, totalDirectories, uploadedBytes⟩ := tallied.listed job member
      exact ⟨totalEntries, totalFiles, totalDirectories, uploadedBytes⟩
    · obtain ⟨totalBytes, uploaded, failed, skipped⟩ := tallied.finished job member completed
      exact ⟨totalBytes, uploaded, failed, skipped⟩

/-- The job that a report or a completion names. -/
def DirectoryRequest.settles? : DirectoryRequest → Option Uuid
  | .markEntryResult jobId _ _ => some jobId
  | .complete jobId => some jobId
  | _ => none

/-- After a report or a completion that is answered, the counters of its job are accurate. -/
def LeavesAccurate (app : AppState σ) (world : World Database σ) (timed : Timed) : Prop :=
  ∀ identity request, timed.1 = .directoryUpload identity request →
    ∀ jobId ∈ request.settles?, (∃ reply, (serve app world timed).1 = .ok reply) →
      ∀ job ∈ (serve app world timed).2.db.directoryUploadJobs, job.id = jobId →
        Accurate ((serve app world timed).2.db.entriesOf jobId) job

/-- The entries of a job with the report of one of them written. -/
def Database.entriesReported (db : Database) (jobId entryId : Uuid) (status : EntryStatus)
    (result : EntryResult) : List DirectoryUploadEntry :=
  (db.entriesOf jobId).map fun row => if row.id = entryId then row.report status result else row

/-- Wherever the request aggregates the entries of a job, an aggregate over all of them
counts as one over its files would. A job that has been completed before is not aggregated
again: there the counters have to be up to date. -/
def Aggregates (db : Database) : Request → Prop
  | .directoryUpload identity (.markEntryResult jobId entryId result) =>
    ∀ status, EntryStatus.ofText result.status = .ok status →
      (db.findJob jobId identity.tenantId).isSome →
      ∀ entry ∈ db.findEntry entryId, entry.directoryUploadId = jobId →
        Aggregable (db.entriesReported jobId entryId status result)
  | .directoryUpload identity (.complete jobId) =>
    ∀ job ∈ db.findJob jobId identity.tenantId,
      (job.status = .uploading → (db.entriesOf jobId).countP (·.status = .failed) = 0 →
        Aggregable (db.entriesOf jobId)) ∧
      (job.status = .completed →
        Aggregable (db.entriesOf jobId) ∧ (db.progress jobId).record job = job)
  | _ => True

section Steps

variable {world : World Database σ} {identity : Identity} {jobId : Uuid} {now : Timestamp}

/-- The row of the job after a change of it, where its id is unique. -/
theorem updateJob_accurate_iff (sound : DirectoriesNumbered db) {tenantId : String}
    {job : DirectoryUploadJob} {change : DirectoryUploadJob → DirectoryUploadJob}
    (kept : JobKept change) (found : db.findJob jobId tenantId = some job)
    (entries : List DirectoryUploadEntry) :
    (∀ row ∈ (db.updateJob jobId change).directoryUploadJobs, row.id = jobId →
      Accurate entries row) ↔ Accurate entries (change job) := by
  obtain ⟨present, same, _⟩ := Database.findJob_some found
  constructor
  · intro accurate
    exact accurate _ (List.mem_map.mpr ⟨job, present, if_pos same⟩) ((kept job).1.trans same)
  · intro accurate row membership named
    obtain ⟨before, member, rfl⟩ := List.mem_map.mp membership
    split at named <;> rename_i matched
    · rw [if_pos matched, sound.job_eq found member matched]
      exact accurate
    · exact absurd named matched

theorem report_step (sound : DirectoriesNumbered db) (tallied : Tallied db) {tenantId : String}
    {entryId : Uuid} {result : EntryResult} {status : EntryStatus} {job : DirectoryUploadJob}
    (found : db.findJob jobId tenantId = some job) :
    (∀ row ∈ ((db.updateEntry entryId (·.report status result)).aggregated
        jobId).directoryUploadJobs, row.id = jobId →
      Accurate (((db.updateEntry entryId (·.report status result)).aggregated jobId).entriesOf
        jobId) row) ↔
    Aggregable (db.entriesReported jobId entryId status result) := by
  have entries : (db.updateEntry entryId (·.report status result)).entriesOf jobId =
      db.entriesReported jobId entryId status result :=
    db.entriesOf_updateEntry jobId entryId (report_kept status result)
  obtain ⟨present, same, _⟩ := Database.findJob_some found
  have listed : Listed (db.entriesReported jobId entryId status result) job := by
    refine Listed.map (same ▸ tallied.listed job present) fun row => ?_
    split <;> rfl
  have numbered : DirectoriesNumbered (db.updateEntry entryId (·.report status result)) :=
    ⟨sound.jobs, sound.entries.update fun row => (report_kept status result row).1⟩
  have unchanged : ((db.updateEntry entryId (·.report status result)).aggregated jobId).entriesOf
      jobId = (db.updateEntry entryId (·.report status result)).entriesOf jobId := rfl
  refine (updateJob_accurate_iff numbered (record_kept _) found _).trans ?_
  rw [progress_eq, unchanged, entries]
  exact record_accurate_iff listed

private theorem report_accurate_iff (sound : DirectoriesNumbered world.db) (tallied : Tallied world.db)
    (entryId : Uuid) (result : EntryResult) :
    LeavesAccurate app world (.directoryUpload identity (.markEntryResult jobId entryId result), now) ↔
      Aggregates world.db (.directoryUpload identity (.markEntryResult jobId entryId result)) := by
  constructor
  · intro accurate status named owned entry selected member
    obtain ⟨job, found⟩ := Option.isSome_iff_exists.mp owned
    have served := serve_markEntryResult app world now named found selected member
    have left := accurate identity _ rfl jobId rfl ⟨_, by rw [served]⟩
    rw [served] at left
    exact (report_step sound tallied found).mp left
  · rintro aggregates _ _ asks _ named ⟨reply, answered⟩
    cases asks
    cases named
    have done := World.execute_committed answered
    obtain ⟨_, done, _⟩ := Program.bind_pure_eq_ok.mp done
    obtain ⟨_, done, _⟩ := Program.bind_pure_eq_ok.mp done
    obtain ⟨status, job, entry, named, found, selected, member, committed⟩ :=
      markEntryResult_ok done
    have left := (report_step sound tallied found).mpr
      (aggregates status named (by rw [found]; rfl) entry selected member)
    rw [← committed] at left
    exact left

private theorem complete_accurate_iff (sound : DirectoriesNumbered world.db) (tallied : Tallied world.db) :
    LeavesAccurate app world (.directoryUpload identity (.complete jobId), now) ↔
      Aggregates world.db (.directoryUpload identity (.complete jobId)) := by
  have aggregated : ∀ {job}, world.db.findJob jobId identity.tenantId = some job →
      ((∀ row ∈ (world.db.updateJob job.id fun row =>
          setStatus .completed ((world.db.progress job.id).record row)).directoryUploadJobs,
        row.id = jobId → Accurate (world.db.entriesOf jobId) row) ↔
      Aggregable (world.db.entriesOf jobId)) := by
    intro job found
    obtain ⟨present, same, _⟩ := Database.findJob_some found
    have kept : JobKept fun row => setStatus .completed ((world.db.progress job.id).record row) :=
      fun _ => ⟨rfl, rfl⟩
    rw [same] at kept ⊢
    refine (updateJob_accurate_iff sound kept found _).trans ?_
    rw [progress_eq, ← record_accurate_iff (same ▸ tallied.listed job present)]
    constructor <;> rintro ⟨h1, h2, h3, h4, h5, h6, h7, h8⟩ <;> exact ⟨h1, h2, h3, h4, h5, h6, h7, h8⟩
  have settled : ∀ {job}, world.db.findJob jobId identity.tenantId = some job →
      job.status = .completed →
      ((∀ row ∈ world.db.directoryUploadJobs, row.id = jobId →
        Accurate (world.db.entriesOf jobId) row) ↔
      Aggregable (world.db.entriesOf jobId) ∧ (world.db.progress jobId).record job = job) := by
    intro job found completed
    obtain ⟨present, same, _⟩ := Database.findJob_some found
    have only : (∀ row ∈ world.db.directoryUploadJobs, row.id = jobId →
        Accurate (world.db.entriesOf jobId) row) ↔ Accurate (world.db.entriesOf jobId) job :=
      ⟨fun accurate => accurate job present same,
        fun accurate row member named => sound.job_eq found member named ▸ accurate⟩
    rw [only, progress_eq]
    exact aggregated_accurate_iff (same ▸ tallied.listed job present)
      (same ▸ tallied.finished job present completed)
  constructor
  · intro accurate job found
    have same := (Database.findJob_some found).2.1
    refine ⟨fun uploading unfailed => ?_, fun completed => ?_⟩
    · obtain ⟨reply, done⟩ := @completeJob_done σ identity jobId world.db world.store job found
        uploading (same.symm ▸ unfailed)
      have served : serve app world (.directoryUpload identity (.complete jobId), now) = _ :=
        World.execute_wrap_ok (World.execute_eq_ok.mp (World.execute_wrap_ok done _)) _
      have left := accurate identity _ rfl jobId rfl ⟨_, by rw [served]⟩
      rw [served] at left
      exact (aggregated found).mp left
    · have done := @completeJob_settled σ identity jobId world.db world.store job found completed
      have served : serve app world (.directoryUpload identity (.complete jobId), now) = _ :=
        World.execute_wrap_ok (World.execute_eq_ok.mp (World.execute_wrap_ok done _)) _
      have left := accurate identity _ rfl jobId rfl ⟨_, by rw [served]⟩
      rw [served] at left
      exact (settled found completed).mp left
  · rintro aggregates _ _ asks _ named ⟨reply, answered⟩
    cases asks
    cases named
    have done := World.execute_committed answered
    obtain ⟨_, done, _⟩ := Program.bind_pure_eq_ok.mp done
    obtain ⟨_, done, _⟩ := Program.bind_pure_eq_ok.mp done
    obtain ⟨job, found, ⟨completed, committed⟩ | ⟨uploading, unfailed, committed⟩⟩ :=
      completeJob_ok done
    · have left := (settled found completed).mpr ((aggregates job found).2 completed)
      rw [← committed] at left
      exact left
    · have same := (Database.findJob_some found).2.1
      have left := (aggregated found).mpr ((aggregates job found).1 uploading (same ▸ unfailed))
      have entries : (world.db.updateJob job.id fun row => setStatus .completed
          ((world.db.progress job.id).record row)).entriesOf jobId = world.db.entriesOf jobId := rfl
      rw [← entries, ← committed] at left
      exact left

private theorem leavesAccurate_iff (sound : DirectoriesNumbered world.db) (tallied : Tallied world.db)
    (timed : Timed) : LeavesAccurate app world timed ↔ Aggregates world.db timed.1 := by
  obtain ⟨asked, now⟩ := timed
  cases asked with
  | directoryUpload identity request =>
    cases request with
    | markEntryResult jobId entryId result => exact report_accurate_iff sound tallied entryId result
    | complete jobId => exact complete_accurate_iff sound tallied
    | _ =>
      refine iff_of_true (fun _ _ asks _ named => ?_) trivial
      cases asks
      cases named
  | _ => exact iff_of_true (fun _ _ asks => nomatch asks) trivial

end Steps

theorem serve_tallied (app : AppState σ) (world : World Database σ) (timed : Timed)
    (sound : DirectoriesNumbered world.db) (tallied : Tallied world.db) :
    Tallied (serve app world timed).2.db := by
  rcases serve_directories app world timed with ⟨jobs, entries, _⟩ | ⟨identity, request, _, effect⟩
  · exact tallied.congr jobs entries
  · exact effect.tallied sound tallied

theorem Database.Fresh.tallied (fresh : db.Fresh) : Tallied db := by
  constructor
  · rw [fresh.2.2]
    exact fun _ => nofun
  · rw [fresh.2.1]
    exact fun _ => nofun
  · rw [fresh.2.1]
    exact fun _ => nofun

theorem after_tallied {app : AppState σ} {world : World Database σ} (fresh : world.db.Fresh)
    (requests : List Timed) : Tallied (after app world requests).db := by
  refine (after_preserves (fun world => DirectoriesNumbered world.db ∧ Tallied world.db)
    (fun world timed state => ⟨(serve_change app world timed).directoriesNumbered state.1,
      serve_tallied app world timed state.1 state.2⟩) requests ?_).2
  exact ⟨@after_directoriesNumbered _ app _ fresh [], fresh.tallied⟩

/-- In a run of any requests, every report and every completion that is answered leaves the
counters of its job accurate, exactly when what it aggregates can be counted so. -/
theorem reports_keep_counters_accurate (app : AppState σ) {world : World Database σ}
    (fresh : world.db.Fresh) (requests : List Timed) :
    EachMeets app (LeavesAccurate app) world requests ↔
      EachMeets app (fun world timed => Aggregates world.db timed.1) world requests := by
  refine eachMeets_congr _ _ (fun world => DirectoriesNumbered world.db ∧ Tallied world.db) ?_ ?_ ?_
    requests
  · exact fun world timed state =>
      ⟨(serve_change app world timed).directoriesNumbered state.1,
        serve_tallied app world timed state.1 state.2⟩
  · exact fun world timed state => leavesAccurate_iff state.1 state.2 timed
  · exact ⟨@after_directoriesNumbered _ app _ fresh [], fresh.tallied⟩

theorem reports_keep_counters_accurate_small :
    EachMeets smallS3App (LeavesAccurate smallS3App) ⟨{}, smallS3⟩ smallDirectory ↔
      EachMeets smallS3App (fun world timed => Aggregates world.db timed.1) ⟨{}, smallS3⟩
        smallDirectory :=
  reports_keep_counters_accurate smallS3App (by decide) _

/-- The world in which the small directory's file is reported as uploaded. -/
def smallReported : Except Failure Reply × World Database MemoryS3 :=
  serve smallS3App (after smallS3App ⟨{}, smallS3⟩ (smallDirectory.take 4))
    (.directoryUpload smallTenant (.markEntryResult 0 1 {}), 4)

/-- The four bytes of the file that is reported as uploaded are never counted. -/
theorem uploaded_bytes_stay_zero :
    ¬ LeavesAccurate smallS3App (after smallS3App ⟨{}, smallS3⟩ (smallDirectory.take 4))
      (.directoryUpload smallTenant (.markEntryResult 0 1 {}), 4) := by
  intro accurate
  have answered : smallReported.1.toOption.isSome = true := by decide +kernel
  have missed : ∃ job ∈ smallReported.2.db.directoryUploadJobs, job.id = 0 ∧
      job.uploadedBytes ≠ bytesIn ((ofKind .file
        (smallReported.2.db.entriesOf 0)).filter (·.status = .uploaded)) := by decide +kernel
  obtain ⟨job, member, named, wrong⟩ := missed
  have replied : ∃ reply, smallReported.1 = .ok reply := by
    cases reply : smallReported.1 with
    | ok value => exact ⟨value, rfl⟩
    | error failure => rw [reply] at answered; cases answered
  exact wrong (accurate smallTenant (.markEntryResult 0 1 {}) rfl 0 rfl replied job member
    named).uploadedBytes

end Requests

end PyUploadX
