import PyUploadX.System.CompletedJobs

/-! A manifest batch that is sent once more, because its first response was lost. -/
namespace PyUploadX

open Kit DirectoryUploadService

variable {σ : Type} {app : AppState σ}

/-- `total_files`, `total_directories`, `total_entries` and `total_bytes` of a job. -/
def Database.counters (db : Database) (jobId : Uuid) (tenantId : String) : Option (Totals × Int) :=
  (db.findJob jobId tenantId).map fun job => (job.totals, job.totalBytes)

/-- A request about a manifest that succeeds and leaves the manifest as it is. -/
structure Idle (app : AppState σ) (world : World Database σ) (jobId : Uuid) (tenantId : String)
    (timed : Timed) : Prop where
  succeeds : (serve app world timed).1.isOk = true
  entries : (serve app world timed).2.db.entriesOf jobId = world.db.entriesOf jobId
  counters : (serve app world timed).2.db.counters jobId tenantId = world.db.counters jobId tenantId
  completed : ∀ identity expectedHash counts now,
    let complete := (.directoryUpload identity (.completeManifest jobId expectedHash counts), now)
    (serve app (serve app world timed).2 complete).1 = (serve app world complete).1

/-- The job has an entry at the path. -/
def Database.Lists (db : Database) (jobId : Uuid) (path : ObjectKey) : Prop :=
  path ∈ (db.entriesOf jobId).map (·.normalizedPath)

section Paths

variable {db db' : Database} {jobId : Uuid} {path : ObjectKey}

private theorem Database.lists_iff : db.Lists jobId path ↔ ∃ entry ∈ db.directoryUploadEntries,
    entry.directoryUploadId = jobId ∧ entry.normalizedPath = path := by
  unfold Database.Lists Database.entriesOf
  simp only [List.mem_map, List.mem_filter, decide_eq_true_eq, and_assoc]

theorem Database.Lists.updateEntry (lists : db.Lists jobId path) {entryId : Uuid}
    {change : DirectoryUploadEntry → DirectoryUploadEntry} (kept : EntryKept change)
    (same : ∀ entry, (change entry).normalizedPath = entry.normalizedPath) :
    (db.updateEntry entryId change).Lists jobId path := by
  obtain ⟨entry, member, rfl, rfl⟩ := Database.lists_iff.mp lists
  apply Database.lists_iff.mpr
  refine ⟨_, List.mem_map_of_mem member, ?_, ?_⟩
  · split
    · exact (kept entry).2
    · rfl
  · split
    · exact same entry
    · rfl

theorem Database.Lists.addEntries (lists : db.Lists jobId path)
    (entries : List DirectoryUploadEntry) : (db.addEntries entries).Lists jobId path := by
  obtain ⟨entry, member, named⟩ := Database.lists_iff.mp lists
  exact Database.lists_iff.mpr ⟨entry, List.mem_append_left entries member, named⟩

theorem Database.Lists.congr (lists : db.Lists jobId path)
    (entries : db'.directoryUploadEntries = db.directoryUploadEntries) : db'.Lists jobId path := by
  unfold Database.Lists Database.entriesOf
  rw [entries]
  exact lists

/-- No request takes an entry away or moves it. -/
theorem DirectoryEffect.lists {identity : Identity} {request : DirectoryRequest}
    (effect : DirectoryEffect app identity request db db') (lists : db.Lists jobId path) :
    db'.Lists jobId path := by
  cases effect with
  | unchanged | settled => exact lists
  | created | finalized | retried | completed | cancelled | patched => exact lists.congr rfl
  | @added _ _ _ job added =>
    have started : ((db.started job).updateJob job.id (raiseTotals job added)).Lists jobId path :=
      lists.congr (db.started_directoryUploadEntries job)
    exact started.addEntries added
  | @initiated _ _ _ job entry =>
    have started : (db.started job).Lists jobId path :=
      lists.congr (db.started_directoryUploadEntries job)
    exact started.updateEntry (initiate_kept _) fun _ => rfl
  | @reported _ _ entryId result status =>
    have reported : (db.updateEntry entryId (·.report status result)).Lists jobId path :=
      lists.updateEntry (report_kept status result) fun _ => rfl
    exact reported.congr rfl

private theorem after_lists (app : AppState σ) {world : World Database σ} (requests : List Timed)
    (lists : world.db.Lists jobId path) : (after app world requests).db.Lists jobId path := by
  refine after_preserves (fun world => world.db.Lists jobId path) ?_ requests lists
  intro world timed lists
  rcases serve_directories app world timed with ⟨_, entries, _⟩ | ⟨identity, request, _, effect⟩
  · exact lists.congr entries
  · exact effect.lists lists

variable {nfc : String → String} {limits : DirectoryUploadLimits} {job : DirectoryUploadJob}
  {id : Uuid} {existing : List ObjectKey} {raw : EntryRequest} {rest : List EntryRequest}
  {entries : List DirectoryUploadEntry}

/-- The path of the first entry of a batch was not there before, and is there afterwards. -/
theorem collectEntries_first
    (collected : collectEntries nfc limits job id existing (raw :: rest) = .ok entries) :
    ∃ path, normalizeRelativePath nfc limits.maximumPathDepth limits.maximumRelativePathBytes
        raw.relativePath = .ok path ∧ path ∉ existing ∧
      ∃ entry ∈ entries, entry.directoryUploadId = job.id ∧ entry.normalizedPath = path := by
  obtain ⟨entry, others, collects, _, new, _, rfl⟩ := collectEntries_cons collected
  refine ⟨entry.normalizedPath, collects.path, new, entry, List.mem_cons_self, ?_, rfl⟩
  rw [collects.row]
  rfl

end Paths

section Batch

variable {identity : Identity} {jobId : Uuid} {entries : List EntryRequest} {now : Timestamp}
  {world : World Database σ} {reply : Reply}

private theorem serve_addEntries_ok
    (done : (serve app world (.directoryUpload identity (.addEntries jobId entries), now)).1 =
      .ok reply) :
    ∃ job added, world.db.findJob jobId identity.tenantId = some job ∧
      collectEntries app.nfc app.settings.directoryUpload.limits job world.db.nextId
        ((world.db.entriesOf job.id).map (·.normalizedPath)) entries = .ok added ∧
      (serve app world (.directoryUpload identity (.addEntries jobId entries), now)).2.db =
        ((world.db.started job).updateJob job.id (raiseTotals job added)).addEntries added := by
  have ran := World.execute_committed done
  obtain ⟨_, ran, _⟩ := Program.bind_pure_eq_ok.mp ran
  obtain ⟨_, ran, _⟩ := Program.bind_pure_eq_ok.mp ran
  obtain ⟨job, added, found, _, collected, _, same, _⟩ := addEntries_ok ran
  exact ⟨job, added, found, collected, same⟩

/-- A batch with an entry is refused once that entry is in the manifest. -/
theorem batch_empty_of_accepted_twice {later : List Timed} {again : Reply} {now' : Timestamp}
    (accepted : (serve app world
      (.directoryUpload identity (.addEntries jobId entries), now)).1 = .ok reply)
    (repeated : (serve app (after app (serve app world
        (.directoryUpload identity (.addEntries jobId entries), now)).2 later)
      (.directoryUpload identity (.addEntries jobId entries), now')).1 = .ok again) :
    entries = [] := by
  obtain ⟨job, added, found, collected, written⟩ := serve_addEntries_ok accepted
  obtain ⟨job', added', found', collected', _⟩ := serve_addEntries_ok repeated
  cases entries with
  | nil => rfl
  | cons raw rest =>
    obtain ⟨path, normalized, _, entry, member, belongs, named⟩ := collectEntries_first collected
    obtain ⟨path', normalized', new, _⟩ := collectEntries_first collected'
    obtain rfl : path = path' := Except.ok.inj (normalized.symm.trans normalized')
    have same := (Database.findJob_some found).2.1
    have same' := (Database.findJob_some found').2.1
    have listed : (serve app world (.directoryUpload identity (.addEntries jobId (raw :: rest)),
        now)).2.db.Lists jobId path := by
      rw [written]
      exact Database.lists_iff.mpr
        ⟨entry, List.mem_append_right _ member, belongs.trans same, named⟩
    rw [same'] at new
    exact absurd (after_lists app later listed) new

/-- A batch without entries writes nothing of a job whose manifest has begun. -/
theorem serve_empty_batch {job : DirectoryUploadJob}
    (found : world.db.findJob jobId identity.tenantId = some job)
    (uploading : job.status = .manifestUploading) :
    serve app world (.directoryUpload identity (.addEntries jobId []), now) =
      (.ok (.directory (.added 0)), world) := by
  apply World.execute_eq_ok.mpr
  refine Program.bind_pure_eq_ok.mpr ⟨_, Program.bind_pure_eq_ok.mpr ⟨_, ?_, rfl⟩, rfl⟩
  have begun : world.db.started job = world.db := if_neg (by rw [uploading]; simp)
  have raised : ∀ row, raiseTotals job [] row = row := fun _ => rfl
  have same : ((world.db.started job).updateJob job.id (raiseTotals job [])).addEntries [] =
      world.db := by
    rw [begun]
    unfold Database.updateJob Database.addEntries
    simp only [raised, ite_self, List.map_id', List.append_nil, List.length_nil, Nat.add_zero]
  have accepted : world.db.Accepts [] := ⟨List.Pairwise.nil, by simp⟩
  have ran := @addEntries_run _ app identity jobId world.db world.store [] job [] found (.inr uploading)
    (Nat.zero_le _) rfl accepted ⟨rfl, absurd rfl, Int.le_refl 0⟩
  rw [same] at ran
  exact ran

end Batch

/-- A batch that was accepted can be repeated, while its manifest is still open, exactly
when it is empty. -/
theorem repeated_batch_idle_iff (app : AppState σ) (world : World Database σ) (identity : Identity)
    (jobId : Uuid) (entries : List EntryRequest) (first second : Timestamp) (later : List Timed)
    (accepted : (serve app world
      (.directoryUpload identity (.addEntries jobId entries), first)).1.isOk = true)
    (uploading : ((after app world
        ((.directoryUpload identity (.addEntries jobId entries), first) :: later)).db.findJob jobId
          identity.tenantId).map (·.status) = some .manifestUploading) :
    Idle app (after app world
        ((.directoryUpload identity (.addEntries jobId entries), first) :: later)) jobId
        identity.tenantId (.directoryUpload identity (.addEntries jobId entries), second) ↔
      entries = [] := by
  obtain ⟨reply, accepted⟩ := except_isOk_iff.mp accepted
  obtain ⟨job, found, unfinished⟩ := Option.map_eq_some_iff.mp uploading
  constructor
  · intro idle
    obtain ⟨again, repeated⟩ := except_isOk_iff.mp idle.succeeds
    exact batch_empty_of_accepted_twice accepted repeated
  · rintro rfl
    have same := @serve_empty_batch _ app identity jobId second _ _ found unfinished
    exact {
      succeeds := by rw [same]; rfl
      entries := by rw [same]
      counters := by rw [same]
      completed := fun _ _ _ _ => by rw [same] }

def emptyJob : World Database MemoryS3 :=
  after smallS3App ⟨{}, smallS3⟩ [(.directoryUpload smallTenant (.createJob { bucket := "files" }), 0)]

/-- A batch of one file, and what else comes before the batch is sent again. -/
def fileBatch : List EntryRequest := [{ relativePath := "a.bin", sizeBytes := 5 }]

def laterBatches : List Timed := [
  (.directoryUpload smallTenant (.addEntries 0 [{ relativePath := "b.bin", sizeBytes := 3 }]), 2),
  (.directoryUpload smallTenant (.addEntries 0 []), 3)]

theorem repeated_batch_small :
    Idle smallS3App (after smallS3App emptyJob
        ((.directoryUpload smallTenant (.addEntries 0 fileBatch), 1) :: laterBatches)) 0 "tenant"
        (.directoryUpload smallTenant (.addEntries 0 fileBatch), 4) ↔
      fileBatch = [] :=
  repeated_batch_idle_iff smallS3App emptyJob smallTenant 0 fileBatch 1 4 laterBatches
    (by decide +kernel) (by decide +kernel)

/-- The second time, the path of the entry is a duplicate. -/
theorem repeated_batch_is_refused :
    let request := .directoryUpload smallTenant (.addEntries 0 [{ relativePath := "a.bin" }])
    (serve smallS3App emptyJob (request, 1)).1 = .ok (.directory (.added 1)) ∧
      ((after smallS3App emptyJob [(request, 1)]).db.findJob 0 "tenant").map (·.status) =
        some .manifestUploading ∧
      (serve smallS3App (after smallS3App emptyJob [(request, 1)]) (request, 2)).1 =
        .error (.api (.duplicateNormalizedPath "a.bin")) := by
  decide +kernel

end PyUploadX
