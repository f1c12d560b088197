import PyUploadX.Services.DirectoryOutcomes

/-! What each directory request commits: the guards it passed and the rows it leaves. -/
namespace PyUploadX

open Kit Kit.Program DirectoryUploadService

/-- The job's row after `_transition` out of `created`. -/
def Database.started (db : Database) (job : DirectoryUploadJob) : Database :=
  if job.status = .created then db.updateJob job.id (setStatus .manifestUploading) else db

/-- The counters of the entries as they are. -/
def Database.aggregated (db : Database) (jobId : Uuid) : Database :=
  db.updateJob jobId (db.progress jobId).record

/-- What `initiate_entry` writes of an entry. -/
def DirectoryUploadEntry.initiate (attempts : Nat) (row : DirectoryUploadEntry) :
    DirectoryUploadEntry :=
  { row with status := .uploading, attemptCount := attempts + 1 }

/-- What `mark_entry_result` writes of an entry. -/
def DirectoryUploadEntry.report (status : EntryStatus) (result : EntryResult)
    (row : DirectoryUploadEntry) : DirectoryUploadEntry :=
  { row with
    status
    fileId := result.fileId
    errorCode := result.errorCode
    errorMessage := result.errorMessage }

theorem Database.findJob_some {db : Database} {jobId : Uuid} {tenantId : String}
    {job : DirectoryUploadJob} (found : db.findJob jobId tenantId = some job) :
    job ∈ db.directoryUploadJobs ∧ job.id = jobId ∧ job.tenantId = tenantId := by
  have named := List.find?_some found
  simp only [decide_eq_true_eq] at named
  exact ⟨List.mem_of_find?_eq_some found, named⟩

theorem Database.findEntry_some {db : Database} {entryId : Uuid} {entry : DirectoryUploadEntry}
    (found : db.findEntry entryId = some entry) :
    entry ∈ db.directoryUploadEntries ∧ entry.id = entryId :=
  ⟨List.mem_of_find?_eq_some found, by simpa using List.find?_some found⟩

@[simp] theorem Database.started_directoryUploadEntries (db : Database) (job : DirectoryUploadJob) :
    (db.started job).directoryUploadEntries = db.directoryUploadEntries := by
  unfold Database.started
  split <;> rfl

@[simp] theorem Database.started_nextId (db : Database) (job : DirectoryUploadJob) :
    (db.started job).nextId = db.nextId := by
  unfold Database.started
  split <;> rfl

@[simp] theorem Database.started_entriesOf (db : Database) (job : DirectoryUploadJob)
    (jobId : Uuid) : (db.started job).entriesOf jobId = db.entriesOf jobId := by
  unfold Database.entriesOf
  rw [db.started_directoryUploadEntries job]

theorem Database.updateJob_updateJob (db : Database) (jobId : Uuid)
    (first second : DirectoryUploadJob → DirectoryUploadJob) (kept : JobKept first) :
    (db.updateJob jobId first).updateJob jobId second =
      db.updateJob jobId fun job => second (first job) := by
  unfold Database.updateJob
  simp only [List.map_map]
  congr 1
  apply List.map_congr_left
  intro job _
  by_cases same : job.id = jobId
  · simp [same, (kept job).1]
  · simp [same]

/-- The three writes of a completion. -/
theorem Database.finalized (db : Database) (jobId : Uuid) :
    ((db.updateJob jobId (setStatus .finalizing)).aggregated jobId).updateJob jobId
        (setStatus .completed) =
      db.updateJob jobId fun row => setStatus .completed ((db.progress jobId).record row) :=
  (Database.updateJob_updateJob _ _ _ _ (record_kept _)).trans
    (Database.updateJob_updateJob _ _ _ _ (setStatus_kept _))

theorem Database.findJob_updateJob (db : Database) (jobId other : Uuid) (tenantId : String)
    {change : DirectoryUploadJob → DirectoryUploadJob} (kept : JobKept change) :
    (db.updateJob other change).findJob jobId tenantId =
      (db.findJob jobId tenantId).map fun job => if job.id = other then change job else job := by
  unfold Database.findJob Database.updateJob
  rw [List.find?_map]
  congr 2
  funext job
  simp only [Function.comp_apply]
  split
  · rw [(kept job).1, (kept job).2]
  · rfl

/-! The entries of a job after a statement. -/

theorem Database.entriesOf_updateEntry (db : Database) (jobId entryId : Uuid)
    {change : DirectoryUploadEntry → DirectoryUploadEntry} (kept : EntryKept change) :
    (db.updateEntry entryId change).entriesOf jobId =
      (db.entriesOf jobId).map fun entry => if entry.id = entryId then change entry else entry := by
  unfold Database.entriesOf Database.updateEntry
  rw [List.filter_map]
  congr 1
  apply List.filter_congr
  intro entry _
  simp only [Function.comp_apply]
  split
  · rw [(kept entry).2]
  · rfl

/-- The entries of the other jobs stay as they are. -/
theorem Database.entriesOf_updateEntry_of_ne {db : Database} {jobId entryId : Uuid}
    {change : DirectoryUploadEntry → DirectoryUploadEntry} (kept : EntryKept change)
    (elsewhere : ∀ entry ∈ db.entriesOf jobId, entry.id ≠ entryId) :
    (db.updateEntry entryId change).entriesOf jobId = db.entriesOf jobId := by
  rw [db.entriesOf_updateEntry jobId entryId kept]
  conv_rhs => rw [← List.map_id (db.entriesOf jobId)]
  apply List.map_congr_left
  intro entry member
  rw [if_neg (elsewhere entry member)]
  rfl

theorem Database.entriesOf_addEntries (db : Database) (jobId : Uuid)
    (entries : List DirectoryUploadEntry) :
    (db.addEntries entries).entriesOf jobId =
      db.entriesOf jobId ++ entries.filter (·.directoryUploadId = jobId) :=
  List.filter_append _ _

theorem initiate_kept (attempts : Nat) : EntryKept (·.initiate attempts) := fun _ => ⟨rfl, rfl⟩

theorem report_kept (status : EntryStatus) (result : EntryResult) :
    EntryKept (·.report status result) := fun _ => ⟨rfl, rfl⟩

/-- The entries of a job after a batch of its own. -/
theorem Database.entriesOf_grown (db : Database) {job : DirectoryUploadJob}
    {change : DirectoryUploadJob → DirectoryUploadJob} {added : List DirectoryUploadEntry}
    (members : ∀ entry ∈ added, entry.directoryUploadId = job.id) (jobId : Uuid) :
    (((db.started job).updateJob job.id change).addEntries added).entriesOf jobId =
      db.entriesOf jobId ++ if jobId = job.id then added else [] := by
  rw [Database.entriesOf_addEntries]
  congr 1
  · exact db.started_entriesOf job jobId
  · split
    · rename_i same
      exact List.filter_eq_self.mpr fun entry member =>
        decide_eq_true ((members entry member).trans same.symm)
    · rename_i other
      exact List.filter_eq_nil_iff.mpr fun entry member matched =>
        other ((of_decide_eq_true matched).symm.trans (members entry member))

variable {σ : Type}

section Steps

variable {identity : Identity} {jobId entryId : Uuid} {db db' : Database} {store store' : σ}

private theorem getJob_ok {forUpdate : Bool} {job : DirectoryUploadJob}
    (found : (getJob identity jobId forUpdate : Handler σ DirectoryUploadJob).run db store =
      (.ok (job, db'), store')) : db.findJob jobId identity.tenantId = some job := by
  unfold getJob DirectoryRepository.getJob at found
  rw [Program.select_bind_ok] at found
  obtain ⟨value, query, found⟩ := found
  cases query
  split at found
  · rename_i present
    rw [Program.pure_eq_ok] at found
    cases found.1
    exact present
  · cases found

private theorem getEntry_ok {entry : DirectoryUploadEntry}
    (found : (getEntry jobId entryId : Handler σ DirectoryUploadEntry).run db store =
      (.ok (entry, db'), store')) :
    db.findEntry entryId = some entry ∧ entry.directoryUploadId = jobId := by
  unfold getEntry DirectoryRepository.getEntry at found
  rw [Program.run_ask_bind] at found
  split at found
  · cases found
  · rename_i present
    rw [Program.refuseIf_bind_ok, Program.pure_eq_ok] at found
    obtain ⟨same, ended⟩ := found
    cases ended.1
    exact ⟨present, Decidable.of_not_not same⟩

theorem getJob_found {forUpdate : Bool} {job : DirectoryUploadJob}
    (found : db.findJob jobId identity.tenantId = some job) :
    (getJob identity jobId forUpdate : Handler σ DirectoryUploadJob).run db store =
      (.ok (job, db), store) := by
  unfold getJob DirectoryRepository.getJob
  rw [Program.select_bind_ok]
  exact ⟨some job, by rw [found], rfl⟩

private theorem getEntry_found {entry : DirectoryUploadEntry} (selected : db.findEntry entryId = some entry)
    (member : entry.directoryUploadId = jobId) :
    (getEntry jobId entryId : Handler σ DirectoryUploadEntry).run db store =
      (.ok (entry, db), store) := by
  unfold getEntry DirectoryRepository.getEntry
  rw [Program.run_ask_bind, selected]
  exact Program.refuseIf_bind_ok.mpr ⟨not_not_intro member, rfl⟩

theorem moveTo_ok {target : DirectoryJobStatus} {job moved : DirectoryUploadJob}
    (done : moveTo target job = .ok moved) :
    target ∈ job.status.transitions ∧ moved = setStatus target job := by
  unfold moveTo at done
  cases allowed : job.status.transition target with
  | error failure => rw [allowed] at done; cases done
  | ok status =>
    rw [allowed] at done
    cases done
    obtain ⟨rfl, member⟩ := DirectoryJobStatus.transition_ok allowed
    exact ⟨member, rfl⟩

private theorem startManifest_run (job : DirectoryUploadJob) :
    (startManifest job : Handler σ Unit).run db store = (.ok ((), db.started job), store) := by
  unfold startManifest Database.started
  split
  · rename_i created
    rw [Program.liftExcept_bind_ok]
    refine ⟨setStatus .manifestUploading job, ?_, rfl⟩
    unfold moveTo
    rw [created]
    rfl
  · rfl

private theorem startManifest_ok {job : DirectoryUploadJob} {out : Unit}
    (done : (startManifest job : Handler σ Unit).run db store = (.ok (out, db'), store')) :
    db' = db.started job ∧ store' = store := by
  rw [startManifest_run] at done
  cases done
  exact ⟨rfl, rfl⟩

private theorem flushMove_ok {target : DirectoryJobStatus} {job moved : DirectoryUploadJob}
    (done : (flushMove target job : Handler σ DirectoryUploadJob).run db store =
      (.ok (moved, db'), store')) :
    target ∈ job.status.transitions ∧ moved = setStatus target job ∧
      db' = db.updateJob job.id (setStatus target) ∧ store' = store := by
  unfold flushMove at done
  rw [Program.liftExcept_bind_ok] at done
  obtain ⟨moved, transition, done⟩ := done
  obtain ⟨allowed, rfl⟩ := moveTo_ok transition
  cases done
  exact ⟨allowed, rfl, rfl, rfl⟩

end Steps

/-- A job as `create_job` adds it. -/
structure NewJob (identity : Identity) (db : Database) (job : DirectoryUploadJob) : Prop where
  fresh : job.id = db.nextId
  owner : job.tenantId = identity.tenantId
  created : job.status = .created
  unhashed : job.manifestHash = none
  totals : job.totalEntries = 0 ∧ job.totalFiles = 0 ∧ job.totalDirectories = 0 ∧ job.totalBytes = 0
  progress : job.uploadedFiles = 0 ∧ job.uploadedBytes = 0 ∧ job.failedFiles = 0 ∧
    job.skippedFiles = 0

/-- The hash that `complete_manifest` computes over the rows. -/
def Database.manifestHash (db : Database) (sha256 : Bytes → String) (jobId : Uuid) : String :=
  manifestHashFromEntries sha256
    (((db.entriesOf jobId).filter (·.entryType = .file)).map (·.manifestEntry))

/-- The rows of a batch fit the unique constraints. -/
def Database.Accepts (db : Database) (entries : List DirectoryUploadEntry) : Prop :=
  entries.Pairwise (fun first second => ¬ first.Clashes second) ∧
    ∀ entry ∈ entries, ∀ other ∈ db.directoryUploadEntries, ¬ other.Clashes entry

instance (db : Database) (entries : List DirectoryUploadEntry) : Decidable (db.Accepts entries) :=
  inferInstanceAs (Decidable (_ ∧ _))

/-- The columns take the rows of a batch and the bytes of its job, and the metrics count it. -/
structure Storable (app : AppState σ) (job : DirectoryUploadJob)
    (added : List DirectoryUploadEntry) : Prop where
  rows : added.all (·.fits app.settings.database.dialect) = true
  bytes : countBytes added ≠ 0 → bigInteger (job.totalBytes + countBytes added) = true
  counted : 0 ≤ countBytes added

/-- A batch that passes the checks, and the rows it leaves. -/
theorem addEntries_run {app : AppState σ} {identity : Identity} {jobId : Uuid} {db : Database}
    {store : σ} {entries : List EntryRequest} {job : DirectoryUploadJob}
    {added : List DirectoryUploadEntry} (found : db.findJob jobId identity.tenantId = some job)
    (growing : job.status = .created ∨ job.status = .manifestUploading)
    (few : entries.length ≤ app.settings.directoryUpload.limits.maximumEntriesPerManifestRequest)
    (collected : collectEntries app.nfc app.settings.directoryUpload.limits job db.nextId
      ((db.entriesOf job.id).map (·.normalizedPath)) entries = .ok added)
    (accepted : db.Accepts added) (storable : Storable app job added) :
    (addEntries app identity jobId entries).run db store =
      (.ok (added.length,
        ((db.started job).updateJob job.id (raiseTotals job added)).addEntries added), store) := by
  unfold addEntries
  rw [(getJob_readOnly _).bind_eq_ok]
  refine ⟨job, getJob_found found, ?_⟩
  rw [Program.refuseIf_bind_ok]
  refine ⟨by tauto, ?_⟩
  rw [Program.refuseIf_bind_ok]
  refine ⟨Nat.not_lt.mpr few, ?_⟩
  rw [Program.bind_eq_ok]
  refine ⟨(), db.started job, store, startManifest_run job, ?_⟩
  simp only [DirectoryRepository.listEntries, newId, DirectoryRepository.updateJob,
    DirectoryRepository.insertEntries, Program.run_ask_bind, Program.liftExcept_bind_ok,
    Program.run_modify_bind, Program.write_bind_ok, Program.refuseIf_bind_ok,
    Database.started_entriesOf, Database.started_nextId]
  have fits : ∀ entry ∈ added, ∀ other ∈ ((db.started job).updateJob job.id
      (raiseTotals job added)).directoryUploadEntries, ¬ other.Clashes entry := by
    intro entry member other present
    exact accepted.2 entry member other ((db.started_directoryUploadEntries job) ▸ present)
  have bytes : ¬ (countBytes added ≠ 0 ∧
      bigInteger (job.totalBytes + countBytes added) = false) := by
    rintro ⟨some, wide⟩
    rw [storable.bytes some] at wide
    cases wide
  refine ⟨added, collected, bytes, (·.addEntries added), ?_, ?_⟩
  · rw [if_neg (by simp [storable.rows]), if_pos ⟨accepted.1, fits⟩]
  · exact Program.refuseIf_bind_ok.mpr ⟨Int.not_lt.mpr storable.counted, rfl⟩

inductive DirectoryEffect (app : AppState σ) (identity : Identity) :
    DirectoryRequest → Database → Database → Prop
  | unchanged {request : DirectoryRequest} (db : Database) : DirectoryEffect app identity request db db
  | created {db : Database} {request : CreateJob} {job : DirectoryUploadJob}
      (new : NewJob identity db job) :
      DirectoryEffect app identity (.createJob request) db (db.addJob job)
  | added {db : Database} {jobId : Uuid} {entries : List EntryRequest} {job : DirectoryUploadJob}
      {added : List DirectoryUploadEntry}
      (found : db.findJob jobId identity.tenantId = some job)
      (growing : job.status = .created ∨ job.status = .manifestUploading)
      (collected : collectEntries app.nfc app.settings.directoryUpload.limits job db.nextId
        ((db.entriesOf job.id).map (·.normalizedPath)) entries = .ok added)
      (accepted : db.Accepts added) :
      DirectoryEffect app identity (.addEntries jobId entries) db
        (((db.started job).updateJob job.id (raiseTotals job added)).addEntries added)
  | finalized {db : Database} {jobId : Uuid} {expectedHash : Option String}
      {counts : Option ManifestCounts} {job : DirectoryUploadJob}
      (found : db.findJob jobId identity.tenantId = some job)
      (uploading : job.status = .manifestUploading)
      (present : db.entriesOf job.id ≠ [])
      (expected : orText expectedHash (db.manifestHash app.sha256 job.id) =
        db.manifestHash app.sha256 job.id)
      (counted : checkCounts job counts = .ok ()) :
      DirectoryEffect app identity (.completeManifest jobId expectedHash counts) db
        (db.updateJob job.id fun row =>
          { row with manifestHash := some (db.manifestHash app.sha256 job.id), status := .ready })
  | initiated {db : Database} {jobId entryId : Uuid} {job : DirectoryUploadJob}
      {entry : DirectoryUploadEntry} (found : db.findJob jobId identity.tenantId = some job)
      (selected : db.findEntry entryId = some entry) (member : entry.directoryUploadId = jobId) :
      DirectoryEffect app identity (.initiateEntry jobId entryId) db
        ((db.started job).updateEntry entryId (·.initiate entry.attemptCount))
  | reported {db : Database} {jobId entryId : Uuid} {result : EntryResult} {status : EntryStatus}
      {job : DirectoryUploadJob} {entry : DirectoryUploadEntry}
      (named : EntryStatus.ofText result.status = .ok status)
      (found : db.findJob jobId identity.tenantId = some job)
      (selected : db.findEntry entryId = some entry) (member : entry.directoryUploadId = jobId) :
      DirectoryEffect app identity (.markEntryResult jobId entryId result) db
        ((db.updateEntry entryId (·.report status result)).aggregated jobId)
  | retried {db : Database} {jobId : Uuid} {job : DirectoryUploadJob}
      (found : db.findJob jobId identity.tenantId = some job)
      (allowed : .uploading ∈ job.status.transitions) :
      DirectoryEffect app identity (.retry jobId) db (db.updateJob job.id (setStatus .uploading))
  | completed {db : Database} {jobId : Uuid} {job : DirectoryUploadJob}
      (found : db.findJob jobId identity.tenantId = some job) (uploading : job.status = .uploading)
      (unfailed : (db.entriesOf job.id).countP (·.status = .failed) = 0) :
      DirectoryEffect app identity (.complete jobId) db
        (db.updateJob job.id fun row => setStatus .completed ((db.progress job.id).record row))
  | settled {db : Database} {jobId : Uuid} {job : DirectoryUploadJob}
      (found : db.findJob jobId identity.tenantId = some job) (done : job.status = .completed) :
      DirectoryEffect app identity (.complete jobId) db db
  | cancelled {db : Database} {jobId : Uuid} {job : DirectoryUploadJob}
      (found : db.findJob jobId identity.tenantId = some job)
      (allowed : .cancelling ∈ job.status.transitions) :
      DirectoryEffect app identity (.cancel jobId) db (db.updateJob job.id (setStatus .cancelled))
  | patched {db : Database} {jobId : Uuid} {requested : Option LifecycleRequest}
      {job : DirectoryUploadJob} {effective : EffectiveLifecycle}
      (found : db.findJob jobId identity.tenantId = some job) :
      DirectoryEffect app identity (.patchLifecycle jobId requested) db
        (db.updateJob job.id fun row =>
          { row with requestedLifecycle := requested, effectiveLifecycle := some effective })

section Effects

variable {app : AppState σ} {identity : Identity} {jobId entryId : Uuid} {db db' : Database}
  {store store' : σ}

theorem createJob_ok {request : CreateJob} {now : Timestamp} {job : DirectoryUploadJob}
    (done : (createJob app identity request now).run db store = (.ok (job, db'), store')) :
    NewJob identity db job ∧ db' = db.addJob job := by
  unfold createJob at done
  simp only [Program.refuseIf_bind_ok, Program.liftExcept_bind_ok] at done
  obtain ⟨_, _, _, _, _, done⟩ := done
  rw [(effectiveLifecycle_readOnly _ _).bind_eq_ok] at done
  obtain ⟨effective, _, done⟩ := done
  simp only [Program.liftExcept_bind_ok, SettingService.getSessionExpiry, newId,
    Program.run_ask_bind, DirectoryRepository.insertJob_bind_ok, Program.pure_eq_ok] at done
  obtain ⟨source, _, policy, _, _, same, _⟩ := done
  cases same
  exact ⟨⟨rfl, rfl, rfl, rfl, ⟨rfl, rfl, rfl, rfl⟩, ⟨rfl, rfl, rfl, rfl⟩⟩, rfl⟩

theorem addEntries_ok {entries : List EntryRequest} {count : Nat}
    (done : (addEntries app identity jobId entries).run db store = (.ok (count, db'), store')) :
    ∃ job added, db.findJob jobId identity.tenantId = some job ∧
      (job.status = .created ∨ job.status = .manifestUploading) ∧
      collectEntries app.nfc app.settings.directoryUpload.limits job db.nextId
        ((db.entriesOf job.id).map (·.normalizedPath)) entries = .ok added ∧
      db.Accepts added ∧
      db' = ((db.started job).updateJob job.id (raiseTotals job added)).addEntries added ∧
      count = added.length ∧ Storable app job added := by
  unfold addEntries at done
  rw [(getJob_readOnly _).bind_eq_ok] at done
  obtain ⟨job, found, done⟩ := done
  simp only [Program.refuseIf_bind_ok] at done
  obtain ⟨growing, _, done⟩ := done
  rw [Program.bind_eq_ok] at done
  obtain ⟨_, db₁, store₁, starts, done⟩ := done
  obtain ⟨rfl, rfl⟩ := startManifest_ok starts
  simp only [DirectoryRepository.listEntries, newId, DirectoryRepository.updateJob,
    DirectoryRepository.insertEntries, Program.run_ask_bind, Program.liftExcept_bind_ok,
    Program.run_modify_bind, Program.write_bind_ok, Program.refuseIf_bind_ok,
    Database.started_entriesOf, Database.started_nextId] at done
  obtain ⟨added, collected, bytes, change, stated, done⟩ := done
  split at stated
  · cases stated
  rename_i rows
  split at stated
  · rename_i accepted
    cases stated
    obtain ⟨counted, done⟩ := Program.refuseIf_bind_ok.mp done
    cases done
    refine ⟨job, added, getJob_ok found, by tauto, collected, ⟨accepted.1, ?_⟩, rfl, rfl,
      by simpa using rows, fun some => by simpa [some] using bytes, Int.not_lt.mp counted⟩
    intro entry member other present
    refine accepted.2 entry member other ?_
    exact (db.started_directoryUploadEntries job).symm ▸ present
  · cases stated

private theorem completeManifest_ok {expectedHash : Option String} {counts : Option ManifestCounts}
    {reply : DirectoryUploadJob}
    (done : (completeManifest app identity jobId expectedHash counts).run db store =
      (.ok (reply, db'), store')) :
    ∃ job, db.findJob jobId identity.tenantId = some job ∧ job.status = .manifestUploading ∧
      db.entriesOf job.id ≠ [] ∧
      orText expectedHash (db.manifestHash app.sha256 job.id) =
        db.manifestHash app.sha256 job.id ∧
      checkCounts job counts = .ok () ∧
      db' = db.updateJob job.id fun row =>
        { row with manifestHash := some (db.manifestHash app.sha256 job.id), status := .ready } := by
  unfold completeManifest at done
  rw [(getJob_readOnly _).bind_eq_ok] at done
  obtain ⟨job, found, done⟩ := done
  simp only [Program.refuseIf_bind_ok, DirectoryRepository.listEntries, Program.run_ask_bind,
    Program.liftExcept_bind_ok, DirectoryRepository.flushJob, Program.run_modify_bind,
    Program.pure_eq_ok] at done
  obtain ⟨_, present, expected, _, counted, moved, transition, same, _⟩ := done
  cases same
  obtain ⟨allowed, rfl⟩ := moveTo_ok transition
  have uploading : job.status = .manifestUploading := by
    cases status : job.status <;> simp [status, DirectoryJobStatus.transitions] at allowed
    rfl
  exact ⟨job, getJob_ok found, uploading, present, Decidable.of_not_not expected, counted, rfl⟩

private theorem initiateEntry_ok {reply : DirectoryUploadEntry}
    (done : (initiateEntry identity jobId entryId : Handler σ DirectoryUploadEntry).run db store =
      (.ok (reply, db'), store')) :
    ∃ job entry, db.findJob jobId identity.tenantId = some job ∧
      db.findEntry entryId = some entry ∧ entry.directoryUploadId = jobId ∧
      db' = (db.started job).updateEntry entryId (·.initiate entry.attemptCount) := by
  unfold initiateEntry at done
  rw [(getEntry_readOnly _).bind_eq_ok] at done
  obtain ⟨entry, selected, done⟩ := done
  rw [(getJob_readOnly _).bind_eq_ok] at done
  obtain ⟨job, found, done⟩ := done
  rw [Program.bind_eq_ok] at done
  obtain ⟨_, db₁, store₁, starts, done⟩ := done
  obtain ⟨rfl, rfl⟩ := startManifest_ok starts
  cases done
  obtain ⟨listed, member⟩ := getEntry_ok selected
  exact ⟨job, entry, getJob_ok found, listed, member, rfl⟩

theorem markEntryResult_ok {result : EntryResult} {reply : DirectoryUploadEntry}
    (done : (markEntryResult identity jobId entryId result :
      Handler σ DirectoryUploadEntry).run db store = (.ok (reply, db'), store')) :
    ∃ status job entry, EntryStatus.ofText result.status = .ok status ∧
      db.findJob jobId identity.tenantId = some job ∧
      db.findEntry entryId = some entry ∧ entry.directoryUploadId = jobId ∧
      db' = (db.updateEntry entryId (·.report status result)).aggregated jobId := by
  unfold markEntryResult at done
  rw [Program.liftExcept_bind_ok] at done
  obtain ⟨status, named, done⟩ := done
  rw [(getEntry_readOnly _).bind_eq_ok] at done
  obtain ⟨entry, selected, done⟩ := done
  rw [(getJob_readOnly _).bind_eq_ok] at done
  obtain ⟨job, found, done⟩ := done
  cases done
  obtain ⟨listed, member⟩ := getEntry_ok selected
  exact ⟨status, job, entry, named, getJob_ok found, listed, member, rfl⟩

private theorem retry_ok {reply : DirectoryUploadJob}
    (done : (retry identity jobId : Handler σ DirectoryUploadJob).run db store =
      (.ok (reply, db'), store')) :
    ∃ job, db.findJob jobId identity.tenantId = some job ∧
      .uploading ∈ job.status.transitions ∧
      db' = db.updateJob job.id (setStatus .uploading) := by
  unfold retry at done
  rw [(getJob_readOnly _).bind_eq_ok] at done
  obtain ⟨job, found, done⟩ := done
  rw [Program.refuseIf_bind_ok] at done
  obtain ⟨allowed, _, same, _⟩ := flushMove_ok done.2
  exact ⟨job, getJob_ok found, allowed, same⟩

theorem completeJob_ok {reply : DirectoryUploadJob}
    (done : (DirectoryUploadService.complete identity jobId : Handler σ DirectoryUploadJob).run
      db store = (.ok (reply, db'), store')) :
    ∃ job, db.findJob jobId identity.tenantId = some job ∧
      (job.status = .completed ∧ db' = db ∨
        job.status = .uploading ∧ (db.entriesOf job.id).countP (·.status = .failed) = 0 ∧
        db' = db.updateJob job.id fun row =>
          setStatus .completed ((db.progress job.id).record row)) := by
  unfold DirectoryUploadService.complete at done
  rw [(getJob_readOnly _).bind_eq_ok] at done
  obtain ⟨job, found, done⟩ := done
  refine ⟨job, getJob_ok found, ?_⟩
  split at done
  · rename_i completed
    cases done
    exact .inl ⟨completed, rfl⟩
  · simp only [Program.refuseIf_bind_ok, DirectoryRepository.countEntriesByStatus,
      Program.run_ask_bind] at done
    obtain ⟨_, unfailed, done⟩ := done
    rw [Program.bind_eq_ok] at done
    obtain ⟨finalizing, db₁, store₁, first, done⟩ := done
    obtain ⟨allowed, rfl, rfl, rfl⟩ := flushMove_ok first
    rw [Program.bind_eq_ok] at done
    obtain ⟨progress, db₂, store₂, aggregates, done⟩ := done
    cases aggregates
    obtain ⟨_, _, rfl, _⟩ := flushMove_ok done
    have uploading : job.status = .uploading := by
      cases status : job.status <;> simp [status, DirectoryJobStatus.transitions] at allowed
      rfl
    refine .inr ⟨uploading, Decidable.of_not_not unfailed, ?_⟩
    exact db.finalized job.id

private theorem cancel_ok {reply : DirectoryUploadJob}
    (done : (cancel identity jobId : Handler σ DirectoryUploadJob).run db store =
      (.ok (reply, db'), store')) :
    ∃ job, db.findJob jobId identity.tenantId = some job ∧
      .cancelling ∈ job.status.transitions ∧
      db' = db.updateJob job.id (setStatus .cancelled) := by
  unfold cancel at done
  rw [(getJob_readOnly _).bind_eq_ok] at done
  obtain ⟨job, found, done⟩ := done
  rw [Program.refuseIf_bind_ok, Program.liftExcept_bind_ok] at done
  obtain ⟨_, moved, cancelling, done⟩ := done
  obtain ⟨allowed, _, same, _⟩ := flushMove_ok done
  split at cancelling
  · rename_i cancelled
    cases cancelling
    simp [cancelled, DirectoryJobStatus.transitions] at allowed
  · obtain ⟨stopped, rfl⟩ := moveTo_ok cancelling
    exact ⟨job, getJob_ok found, stopped, same⟩

private theorem patchLifecycle_ok {requested : Option LifecycleRequest} {now : Timestamp}
    {reply : DirectoryUploadJob}
    (done : (patchLifecycle app identity jobId requested now).run db store =
      (.ok (reply, db'), store')) :
    ∃ job effective, db.findJob jobId identity.tenantId = some job ∧
      db' = db.updateJob job.id fun row =>
        { row with requestedLifecycle := requested, effectiveLifecycle := some effective } := by
  unfold patchLifecycle at done
  rw [(getJob_readOnly _).bind_eq_ok] at done
  obtain ⟨job, found, done⟩ := done
  rw [Program.liftExcept_bind_ok] at done
  obtain ⟨effective, _, done⟩ := done
  cases done
  exact ⟨job, effective, getJob_ok found, rfl⟩

/-- A committed directory request has one of the effects. -/
theorem directoryUpload_effect {request : DirectoryRequest} {now : Timestamp}
    {reply : DirectoryReply}
    (done : (directoryUpload app identity request now).run db store = (.ok (reply, db'), store')) :
    DirectoryEffect app identity request db db' := by
  cases request with
  | createJob request =>
    obtain ⟨_, done, _⟩ := Program.bind_pure_eq_ok.mp done
    obtain ⟨new, rfl⟩ := createJob_ok done
    exact .created new
  | addEntries jobId entries =>
    obtain ⟨_, done, _⟩ := Program.bind_pure_eq_ok.mp done
    obtain ⟨job, added, found, growing, collected, accepted, rfl, _⟩ := addEntries_ok done
    exact .added found growing collected accepted
  | completeManifest jobId expectedHash counts =>
    obtain ⟨_, done, _⟩ := Program.bind_pure_eq_ok.mp done
    obtain ⟨job, found, uploading, present, expected, counted, rfl⟩ := completeManifest_ok done
    exact .finalized found uploading present expected counted
  | getJob jobId =>
    obtain ⟨_, done, _⟩ := Program.bind_pure_eq_ok.mp done
    rw [((getJob_readOnly _).ok done).1]
    exact .unchanged _
  | listEntries jobId cursor limit =>
    obtain ⟨_, done, _⟩ := Program.bind_pure_eq_ok.mp done
    rw [((listEntries_readOnly _ _).ok done).1]
    exact .unchanged _
  | getManifest jobId =>
    obtain ⟨_, done, _⟩ := Program.bind_pure_eq_ok.mp done
    rw [((listEntries_readOnly _ _).ok done).1]
    exact .unchanged _
  | initiateEntry jobId entryId =>
    obtain ⟨_, done, _⟩ := Program.bind_pure_eq_ok.mp done
    obtain ⟨job, entry, found, selected, member, rfl⟩ := initiateEntry_ok done
    exact .initiated found selected member
  | markEntryResult jobId entryId result =>
    obtain ⟨_, done, _⟩ := Program.bind_pure_eq_ok.mp done
    obtain ⟨status, job, entry, named, found, selected, member, rfl⟩ := markEntryResult_ok done
    exact .reported named found selected member
  | retry jobId =>
    obtain ⟨_, done, _⟩ := Program.bind_pure_eq_ok.mp done
    obtain ⟨job, found, allowed, rfl⟩ := retry_ok done
    exact .retried found allowed
  | complete jobId =>
    obtain ⟨_, done, _⟩ := Program.bind_pure_eq_ok.mp done
    obtain ⟨job, found, ⟨completed, rfl⟩ | ⟨uploading, unfailed, rfl⟩⟩ := completeJob_ok done
    · exact .settled found completed
    · exact .completed found uploading unfailed
  | cancel jobId =>
    obtain ⟨_, done, _⟩ := Program.bind_pure_eq_ok.mp done
    obtain ⟨job, found, allowed, rfl⟩ := cancel_ok done
    exact .cancelled found allowed
  | patchLifecycle jobId requested =>
    obtain ⟨_, done, _⟩ := Program.bind_pure_eq_ok.mp done
    obtain ⟨job, effective, found, rfl⟩ := patchLifecycle_ok done
    exact .patched found

/-- The entry can be reported on whatever the status of its job. -/
theorem markEntryResult_done {result : EntryResult} {status : EntryStatus}
    {job : DirectoryUploadJob} {entry : DirectoryUploadEntry}
    (named : EntryStatus.ofText result.status = .ok status)
    (found : db.findJob jobId identity.tenantId = some job)
    (selected : db.findEntry entryId = some entry) (member : entry.directoryUploadId = jobId) :
    (markEntryResult identity jobId entryId result : Handler σ DirectoryUploadEntry).run db store =
      (.ok (entry.report status result,
        (db.updateEntry entryId (·.report status result)).aggregated jobId), store) := by
  unfold markEntryResult
  rw [Program.liftExcept_bind_ok]
  refine ⟨status, named, ?_⟩
  rw [(getEntry_readOnly _).bind_eq_ok]
  refine ⟨entry, getEntry_found selected member, ?_⟩
  rw [(getJob_readOnly _).bind_eq_ok]
  exact ⟨job, getJob_found found, rfl⟩

/-- A manifest that is not empty, with the hash and the counts of its rows. -/
theorem completeManifest_done {expectedHash : Option String} {counts : Option ManifestCounts}
    {job : DirectoryUploadJob} (found : db.findJob jobId identity.tenantId = some job)
    (uploading : job.status = .manifestUploading) (present : db.entriesOf job.id ≠ [])
    (expected : orText expectedHash (db.manifestHash app.sha256 job.id) =
      db.manifestHash app.sha256 job.id)
    (counted : checkCounts job counts = .ok ()) :
    (completeManifest app identity jobId expectedHash counts).run db store =
      (.ok ({ job with manifestHash := some (db.manifestHash app.sha256 job.id), status := .ready },
        db.updateJob job.id fun row =>
          { row with manifestHash := some (db.manifestHash app.sha256 job.id), status := .ready }),
        store) := by
  have moved : ∀ hash, moveTo .ready { job with manifestHash := hash } =
      .ok { job with manifestHash := hash, status := .ready } := by
    intro hash
    unfold moveTo
    rw [uploading]
    rfl
  unfold completeManifest
  rw [(getJob_readOnly _).bind_eq_ok]
  refine ⟨job, getJob_found found, ?_⟩
  rw [Program.refuseIf_bind_ok]
  refine ⟨by simp [uploading], ?_⟩
  unfold DirectoryRepository.listEntries
  rw [Program.run_ask_bind, Program.refuseIf_bind_ok]
  refine ⟨present, ?_⟩
  rw [Program.refuseIf_bind_ok]
  refine ⟨not_not_intro expected, ?_⟩
  rw [Program.liftExcept_bind_ok]
  refine ⟨(), counted, ?_⟩
  rw [moved]
  rfl

/-- A job is completed from `uploading`, once no entry has failed. -/
theorem completeJob_done {job : DirectoryUploadJob}
    (found : db.findJob jobId identity.tenantId = some job) (uploading : job.status = .uploading)
    (unfailed : (db.entriesOf job.id).countP (·.status = .failed) = 0) :
    ∃ reply, (DirectoryUploadService.complete identity jobId : Handler σ DirectoryUploadJob).run
      db store = (.ok (reply, db.updateJob job.id fun row =>
        setStatus .completed ((db.progress job.id).record row)), store) := by
  refine ⟨setStatus .completed ((db.progress job.id).record (setStatus .finalizing job)), ?_⟩
  unfold DirectoryUploadService.complete
  rw [(getJob_readOnly _).bind_eq_ok]
  refine ⟨job, getJob_found found, ?_⟩
  rw [if_neg (by rw [uploading]; nofun), Program.refuseIf_bind_ok]
  refine ⟨by simp [uploading], ?_⟩
  unfold DirectoryRepository.countEntriesByStatus
  rw [Program.run_ask_bind, Program.refuseIf_bind_ok]
  refine ⟨not_not_intro unfailed, ?_⟩
  have finalizing : moveTo .finalizing job = .ok (setStatus .finalizing job) := by
    unfold moveTo
    rw [uploading]
    rfl
  unfold flushMove
  rw [finalizing, ← db.finalized job.id]
  rfl

theorem completeJob_settled {job : DirectoryUploadJob}
    (found : db.findJob jobId identity.tenantId = some job) (done : job.status = .completed) :
    (DirectoryUploadService.complete identity jobId : Handler σ DirectoryUploadJob).run db store =
      (.ok (job, db), store) := by
  unfold DirectoryUploadService.complete
  rw [(getJob_readOnly _).bind_eq_ok]
  refine ⟨job, getJob_found found, ?_⟩
  rw [if_pos done]
  rfl

end Effects

end PyUploadX
