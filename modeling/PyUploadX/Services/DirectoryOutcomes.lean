import Mathlib.Logic.Relation
import PyUploadX.Api.DirectoryUploads
import PyUploadX.Kit.Ensures
import PyUploadX.Services.Outcomes

/-! What a directory request writes: rows of the job it named, which is the tenant's. -/
namespace PyUploadX

open Kit Kit.Program DirectoryUploadService

/-- The columns that say which job a row is, and whose. -/
def JobKept (change : DirectoryUploadJob → DirectoryUploadJob) : Prop :=
  ∀ job, (change job).id = job.id ∧ (change job).tenantId = job.tenantId

def EntryKept (change : DirectoryUploadEntry → DirectoryUploadEntry) : Prop :=
  ∀ entry, (change entry).id = entry.id ∧
    (change entry).directoryUploadId = entry.directoryUploadId

theorem setStatus_kept (status : DirectoryJobStatus) : JobKept (setStatus status) :=
  fun _ => ⟨rfl, rfl⟩

theorem record_kept (progress : Progress) : JobKept progress.record := fun _ => ⟨rfl, rfl⟩

theorem raiseTotals_kept (read : DirectoryUploadJob) (entries : List DirectoryUploadEntry) :
    JobKept (raiseTotals read entries) := fun _ => ⟨rfl, rfl⟩

/-- One statement of a directory request. -/
inductive DirectoryChange (tenantId : String) : Database → Database → Prop
  | created {db : Database} {job : DirectoryUploadJob} (fresh : job.id = db.nextId)
      (owner : job.tenantId = tenantId) : DirectoryChange tenantId db (db.addJob job)
  | job {db : Database} {jobId : Uuid} {change : DirectoryUploadJob → DirectoryUploadJob}
      (owned : (db.findJob jobId tenantId).isSome)
      (kept : JobKept change) : DirectoryChange tenantId db (db.updateJob jobId change)
  | entries {db : Database} {jobId : Uuid} {entries : List DirectoryUploadEntry}
      (owned : (db.findJob jobId tenantId).isSome)
      (members : ∀ entry ∈ entries, entry.directoryUploadId = jobId)
      (fresh : entries.map (·.id) = List.range' db.nextId entries.length) :
      DirectoryChange tenantId db (db.addEntries entries)
  | entry {db : Database} {jobId entryId : Uuid} {entry : DirectoryUploadEntry}
      {change : DirectoryUploadEntry → DirectoryUploadEntry}
      (owned : (db.findJob jobId tenantId).isSome) (found : db.findEntry entryId = some entry)
      (member : entry.directoryUploadId = jobId)
      (kept : EntryKept change) : DirectoryChange tenantId db (db.updateEntry entryId change)

/-- Any number of statements. -/
abbrev DirectoryChanges (tenantId : String) : Database → Database → Prop :=
  Relation.ReflTransGen (DirectoryChange tenantId)

/-- The rows outside the two directory tables, and the ids. -/
structure BesidesDirectories (db db' : Database) : Prop where
  fileObjects : db'.fileObjects = db.fileObjects
  uploadSessions : db'.uploadSessions = db.uploadSessions
  uploadParts : db'.uploadParts = db.uploadParts
  lifecycleEvents : db'.lifecycleEvents = db.lifecycleEvents
  webhookOutbox : db'.webhookOutbox = db.webhookOutbox
  storageBuckets : db'.storageBuckets = db.storageBuckets
  overrides : db'.overrides = db.overrides
  nextId : db.nextId ≤ db'.nextId

theorem DirectoryChange.besides {tenantId : String} {db db' : Database}
    (change : DirectoryChange tenantId db db') : BesidesDirectories db db' := by
  cases change with
  | created => exact ⟨rfl, rfl, rfl, rfl, rfl, rfl, rfl, Nat.le_max_left _ _⟩
  | job => exact ⟨rfl, rfl, rfl, rfl, rfl, rfl, rfl, Nat.le_refl _⟩
  | entries => exact ⟨rfl, rfl, rfl, rfl, rfl, rfl, rfl, Nat.le_add_right _ _⟩
  | entry => exact ⟨rfl, rfl, rfl, rfl, rfl, rfl, rfl, Nat.le_refl _⟩

theorem DirectoryChanges.besides {tenantId : String} {db db' : Database}
    (changes : DirectoryChanges tenantId db db') : BesidesDirectories db db' := by
  induction changes with
  | refl => exact ⟨rfl, rfl, rfl, rfl, rfl, rfl, rfl, Nat.le_refl _⟩
  | tail _ last ih =>
    have next := last.besides
    exact {
      fileObjects := next.fileObjects.trans ih.fileObjects
      uploadSessions := next.uploadSessions.trans ih.uploadSessions
      uploadParts := next.uploadParts.trans ih.uploadParts
      lifecycleEvents := next.lifecycleEvents.trans ih.lifecycleEvents
      webhookOutbox := next.webhookOutbox.trans ih.webhookOutbox
      storageBuckets := next.storageBuckets.trans ih.storageBuckets
      overrides := next.overrides.trans ih.overrides
      nextId := ih.nextId.trans next.nextId }

theorem findJob_updateJob {db : Database} {jobId other : Uuid} {tenantId : String}
    {change : DirectoryUploadJob → DirectoryUploadJob} (kept : JobKept change)
    (owned : (db.findJob jobId tenantId).isSome) :
    ((db.updateJob other change).findJob jobId tenantId).isSome := by
  unfold Database.findJob at owned ⊢
  rw [List.find?_isSome] at owned ⊢
  obtain ⟨job, member, named⟩ := owned
  refine ⟨_, List.mem_map_of_mem member, ?_⟩
  split
  · rw [(kept job).1, (kept job).2]
    exact named
  · exact named

section

variable {σ : Type} {tenantId : String} {jobId : Uuid} {db₀ : Database}

/-- So far the request wrote what it may, and the job it named is the tenant's. -/
def Owning (tenantId : String) (db₀ : Database) (jobId : Uuid) (db : Database) : Prop :=
  DirectoryChanges tenantId db₀ db ∧ (db.findJob jobId tenantId).isSome

theorem Owning.updateJob {db : Database} (owning : Owning tenantId db₀ jobId db)
    {change : DirectoryUploadJob → DirectoryUploadJob} (kept : JobKept change) :
    Owning tenantId db₀ jobId (db.updateJob jobId change) :=
  ⟨owning.1.tail (.job owning.2 kept), findJob_updateJob kept owning.2⟩

theorem flushJob_ensures {name : Operation} {change : DirectoryUploadJob → DirectoryUploadJob}
    (kept : JobKept change) :
    Ensures (Owning tenantId db₀ jobId)
      (Program.modify name (some (.job jobId)) (·.updateJob jobId change) : Handler σ Unit)
      fun _ => Owning tenantId db₀ jobId :=
  .modify fun _ owning => owning.updateJob kept

private theorem aggregateProgress_ensures :
    Ensures (Owning tenantId db₀ jobId)
      (DirectoryRepository.aggregateProgress jobId : Handler σ Progress)
      fun _ => Owning tenantId db₀ jobId :=
  .bind .ask fun _ => .bind
    (.modify fun _ holds => holds.1.updateJob (record_kept _)) fun _ => .pure fun _ => id

/-- Where the job is found, it is the tenant's from there on. -/
theorem getJob_bind {α : Type} {identity : Identity} {forUpdate : Bool} {before : Database → Prop}
    {next : DirectoryUploadJob → Handler σ α} {after : α → Database → Prop}
    (reached : ∀ db, before db → DirectoryChanges identity.tenantId db₀ db)
    (rest : ∀ job, job.id = jobId →
      Ensures (fun db => Owning identity.tenantId db₀ jobId db ∧ before db) (next job) after) :
    Ensures before (getJob identity jobId forUpdate >>= next) after := by
  have found : Ensures before (getJob identity jobId forUpdate : Handler σ DirectoryUploadJob)
      fun job db => job.id = jobId ∧ Owning identity.tenantId db₀ jobId db ∧ before db := by
    refine .bind .select fun found => ?_
    cases found with
    | none => exact .fail
    | some job =>
      refine .pure fun db holds => ?_
      have read : db.findJob jobId identity.tenantId = some job := Except.ok.inj holds.2
      have named := List.find?_some read
      simp only [decide_eq_true_eq] at named
      exact ⟨named.1, ⟨reached db holds.1, by rw [read]; rfl⟩, holds.1⟩
  exact .bind found fun job => .of_fact (rest job)

private theorem startManifest_ensures {job : DirectoryUploadJob} (named : job.id = jobId) :
    Ensures (Owning tenantId db₀ jobId) (startManifest job : Handler σ Unit)
      fun _ => Owning tenantId db₀ jobId := by
  unfold startManifest
  split
  · refine .liftExcept_bind fun moved _ => ?_
    rw [named]
    exact flushJob_ensures (setStatus_kept _)
  · exact .pure fun _ => id

private theorem moveTo_id {target : DirectoryJobStatus} {job moved : DirectoryUploadJob}
    (done : moveTo target job = .ok moved) : moved.id = job.id := by
  unfold moveTo at done
  cases allowed : job.status.transition target with
  | error failure => rw [allowed] at done; cases done
  | ok status => rw [allowed] at done; cases done; rfl

private theorem flushMove_moves {target : DirectoryJobStatus} {job : DirectoryUploadJob}
    (named : job.id = jobId) :
    Ensures (Owning tenantId db₀ jobId) (flushMove target job : Handler σ DirectoryUploadJob)
      fun moved db => moved.id = jobId ∧ Owning tenantId db₀ jobId db := by
  refine .liftExcept_bind fun moved done => ?_
  rw [named]
  exact .bind (flushJob_ensures (setStatus_kept _)) fun _ =>
    .pure fun _ owning => ⟨(moveTo_id done).trans named, owning⟩

private theorem flushMove_ensures {target : DirectoryJobStatus} {job : DirectoryUploadJob}
    (named : job.id = jobId) :
    Ensures (Owning tenantId db₀ jobId) (flushMove target job : Handler σ DirectoryUploadJob)
      fun _ => DirectoryChanges tenantId db₀ :=
  (flushMove_moves named).weaken fun _ _ holds => holds.2.1

/-- A move of the job, and what follows with the moved row. -/
theorem flushMove_bind {α : Type} {target : DirectoryJobStatus} {job : DirectoryUploadJob}
    {next : DirectoryUploadJob → Handler σ α} {after : α → Database → Prop}
    (named : job.id = jobId)
    (rest : ∀ moved, moved.id = jobId → Ensures (Owning tenantId db₀ jobId) (next moved) after) :
    Ensures (Owning tenantId db₀ jobId) (flushMove target job >>= next) after :=
  .bind (flushMove_moves named) fun moved => .of_fact (rest moved)

/-- The entry that is found belongs to the job that was named. -/
theorem getEntry_bind {α : Type} {entryId : Uuid} {before : Database → Prop}
    {next : DirectoryUploadEntry → Handler σ α} {after : α → Database → Prop}
    (rest : ∀ entry, entry.directoryUploadId = jobId →
      Ensures (fun db => before db ∧ db.findEntry entryId = some entry) (next entry) after) :
    Ensures before (getEntry jobId entryId >>= next) after := by
  have found : Ensures before (getEntry jobId entryId : Handler σ DirectoryUploadEntry)
      fun entry db => entry.directoryUploadId = jobId ∧ before db ∧
        db.findEntry entryId = some entry := by
    refine .bind .ask fun found => ?_
    cases found with
    | none => exact .fail
    | some entry =>
      exact .refuseIf_bind fun same => .pure fun db holds => ⟨Decidable.of_not_not same, holds⟩
  exact .bind found fun entry => .of_fact (rest entry)

private theorem flushEntry_ensures {entryId : Uuid} {entry : DirectoryUploadEntry}
    {change : DirectoryUploadEntry → DirectoryUploadEntry} (kept : EntryKept change)
    (member : entry.directoryUploadId = jobId) :
    Ensures (fun db => Owning tenantId db₀ jobId db ∧ db.findEntry entryId = some entry)
      (DirectoryRepository.flushEntry entryId change : Handler σ Unit)
      fun _ => Owning tenantId db₀ jobId :=
  .modify fun _ holds => ⟨holds.1.1.tail (.entry holds.1.2 holds.2 member kept), holds.1.2⟩

/-- The row that a request of a batch becomes. -/
structure Collects (nfc : String → String) (limits : DirectoryUploadLimits)
    (job : DirectoryUploadJob) (raw : EntryRequest) (entry : DirectoryUploadEntry) : Prop where
  path : normalizeRelativePath nfc limits.maximumPathDepth limits.maximumRelativePathBytes
    raw.relativePath = .ok entry.normalizedPath
  key : joinPrefix nfc job.destinationPrefix entry.normalizedPath.text = .ok entry.objectKey
  named : EntryType.ofText raw.entryType = .ok entry.entryType
  row : entry = newEntry job raw entry.normalizedPath entry.objectKey entry.entryType entry.id

section Collected

variable {nfc : String → String} {limits : DirectoryUploadLimits} {job : DirectoryUploadJob}
  {id : Uuid} {existing : List ObjectKey} {raw : EntryRequest} {raws rest : List EntryRequest}
  {entries : List DirectoryUploadEntry}

theorem collectEntries_cons
    (collected : collectEntries nfc limits job id existing (raw :: rest) = .ok entries) :
    ∃ entry others, Collects nfc limits job raw entry ∧ entry.id = id ∧
      entry.normalizedPath ∉ existing ∧
      collectEntries nfc limits job (id + 1) (entry.normalizedPath :: existing) rest = .ok others ∧
      entries = entry :: others := by
  obtain ⟨normalized, path, collected⟩ := except_bind_eq_ok.mp collected
  split at collected
  · cases collected
  · rename_i new
    obtain ⟨objectKey, key, collected⟩ := except_bind_eq_ok.mp collected
    obtain ⟨entryType, named, collected⟩ := except_bind_eq_ok.mp collected
    obtain ⟨others, tail, collected⟩ := except_bind_eq_ok.mp collected
    cases collected
    exact ⟨newEntry job raw normalized objectKey entryType id, others, ⟨path, key, named, rfl⟩, rfl,
      new, tail, rfl⟩

/-- A batch becomes its rows, one by one. -/
theorem collectEntries_rows (collected : collectEntries nfc limits job id existing raws = .ok entries) :
    List.Forall₂ (Collects nfc limits job) raws entries := by
  induction raws generalizing id existing entries with
  | nil =>
    cases collected
    exact .nil
  | cons raw rest ih =>
    obtain ⟨entry, others, collects, _, _, tail, rfl⟩ := collectEntries_cons collected
    exact .cons collects (ih tail)

theorem collectEntries_mem (collected : collectEntries nfc limits job id existing raws = .ok entries) :
    ∀ entry ∈ entries, ∃ raw, Collects nfc limits job raw entry := by
  have rows := collectEntries_rows collected
  clear collected
  induction rows with
  | nil => exact List.forall_mem_nil _
  | cons collects later ih => exact List.forall_mem_cons.mpr ⟨⟨_, collects⟩, ih⟩

/-- A new entry is of its job, and nothing has happened to it. -/
theorem collectEntries_new (collected : collectEntries nfc limits job id existing raws = .ok entries) :
    ∀ entry ∈ entries, entry.directoryUploadId = job.id ∧ entry.status = .pending := by
  intro entry member
  obtain ⟨raw, collects⟩ := collectEntries_mem collected entry member
  rw [collects.row]
  exact ⟨rfl, rfl⟩

theorem collectEntries_ids (collected : collectEntries nfc limits job id existing raws = .ok entries) :
    entries.map (·.id) = List.range' id entries.length := by
  induction raws generalizing id existing entries with
  | nil =>
    cases collected
    rfl
  | cons raw rest ih =>
    obtain ⟨entry, others, _, first, _, tail, rfl⟩ := collectEntries_cons collected
    rw [List.map_cons, ih tail, first, List.length_cons, List.range'_succ]

end Collected

variable {app : AppState σ} {identity : Identity}

/-- What every request comes to. -/
abbrev Writes {α : Type} (tenantId : String) (db₀ : Database) : α → Database → Prop :=
  fun _ => DirectoryChanges tenantId db₀

theorem unchanged (tenantId : String) (db : Database) (same : db₀ = db) :
    DirectoryChanges tenantId db₀ db := same ▸ .refl

private theorem createJob_ensures {request : CreateJob} {now : Timestamp} :
    Ensures (Eq db₀) (createJob app identity request now) (Writes identity.tenantId db₀) := by
  refine .refuseIf_bind fun _ => .refuseIf_bind fun _ => .refuseIf_bind fun _ =>
    .liftExcept_bind fun _ _ => .readOnly_bind (effectiveLifecycle_readOnly _ _) fun _ =>
    .liftExcept_bind fun _ _ => .liftExcept_bind fun _ _ => .readOnly_bind (.ask _) fun _ =>
    .bind .ask fun fresh => ?_
  have added : ∀ job : DirectoryUploadJob, job.id = fresh → job.tenantId = identity.tenantId →
      Ensures (fun db => db₀ = db ∧ db.nextId = fresh)
        (DirectoryRepository.insertJob app.settings.database.dialect job : Handler σ Unit) (Writes identity.tenantId db₀) := by
    refine fun job named owner => .write fun db change holds inserted => ?_
    obtain ⟨rfl, next⟩ := holds
    split at inserted <;> cases inserted
    exact .single (.created (named.trans next.symm) owner)
  exact .bind (added _ rfl rfl) fun _ => .pure fun _ => id

private theorem addEntries_ensures {entries : List EntryRequest} :
    Ensures (Eq db₀) (addEntries app identity jobId entries) (Writes identity.tenantId db₀) := by
  refine getJob_bind (unchanged _) fun job named => .refuseIf_bind fun _ => .refuseIf_bind fun _ => ?_
  refine .bind (startManifest_ensures named).left fun _ => .readOnly_bind (.ask _) fun present =>
    .bind .ask fun fresh => .liftExcept_bind fun added collected => ?_
  have members := fun entry member => (collectEntries_new collected entry member).1
  have ids := collectEntries_ids collected
  rw [named] at members ⊢
  have totals : Ensures (fun db => Owning identity.tenantId db₀ jobId db ∧ db.nextId = fresh)
      (DirectoryRepository.updateJob job.totals (countTotals added) jobId (raiseTotals job added) :
        Handler σ Unit)
      fun _ db => Owning identity.tenantId db₀ jobId db ∧ db.nextId = fresh :=
    .modify fun db holds => ⟨holds.1.updateJob (raiseTotals_kept _ _), holds.2⟩
  refine .refuseIf_bind fun _ => .bind totals fun _ =>
    .bind (.write fun db change holds stated => ?_) fun _ => .refuseIf_bind fun _ => .pure fun _ => id
  split at stated
  · cases stated
  split at stated
  · cases stated
    rw [← holds.2] at ids
    exact holds.1.1.tail (.entries holds.1.2 members ids)
  · cases stated

private theorem completeManifest_ensures {expectedHash : Option String} {counts : Option ManifestCounts} :
    Ensures (Eq db₀) (completeManifest app identity jobId expectedHash counts)
      (Writes identity.tenantId db₀) := by
  refine getJob_bind (unchanged _) fun job named => .refuseIf_bind fun _ =>
    .readOnly_bind (.ask _) fun entries => .refuseIf_bind fun _ => .refuseIf_bind fun _ =>
    .liftExcept_bind fun _ _ => .liftExcept_bind fun moved _ => ?_
  rw [named]
  have finalized : ∀ hash, JobKept fun row =>
      { row with manifestHash := some hash, status := moved.status } := fun _ _ => ⟨rfl, rfl⟩
  exact .bind (flushJob_ensures (finalized _)).left fun _ => .pure fun _ owning => owning.1

private theorem initiateEntry_ensures {entryId : Uuid} :
    Ensures (Eq db₀) (initiateEntry identity jobId entryId : Handler σ DirectoryUploadEntry)
      (Writes identity.tenantId db₀) := by
  refine getEntry_bind fun entry member => getJob_bind (fun db holds => unchanged _ db holds.1)
    fun job named => ?_
  have still : Ensures (·.findEntry entryId = some entry) (startManifest job : Handler σ Unit)
      fun _ db => db.findEntry entryId = some entry := by
    unfold startManifest
    split
    · exact .liftExcept_bind fun _ _ => .modify fun _ found => found
    · exact .pure fun _ => id
  have starts := ((startManifest_ensures named).both still).consequence
    (fun db (holds : Owning identity.tenantId db₀ jobId db ∧ db₀ = db ∧ _) => ⟨holds.1, holds.2.2⟩)
    fun _ _ => id
  have kept : EntryKept fun row =>
      { row with status := .uploading, attemptCount := entry.attemptCount + 1 } :=
    fun _ => ⟨rfl, rfl⟩
  exact .bind starts fun _ => .bind (flushEntry_ensures kept member) fun _ =>
    .pure fun _ owning => owning.1

private theorem markEntryResult_ensures {entryId : Uuid} {result : EntryResult} :
    Ensures (Eq db₀)
      (markEntryResult identity jobId entryId result : Handler σ DirectoryUploadEntry)
      (Writes identity.tenantId db₀) := by
  refine .liftExcept_bind fun status _ => getEntry_bind fun entry member =>
    getJob_bind (fun db holds => unchanged _ db holds.1) fun job named => ?_
  have kept : EntryKept fun row => { row with
      status, fileId := result.fileId, errorCode := result.errorCode
      errorMessage := result.errorMessage } := fun _ => ⟨rfl, rfl⟩
  have flushed : Ensures
      (fun db => Owning identity.tenantId db₀ jobId db ∧ db₀ = db ∧ db.findEntry entryId = some entry)
      (DirectoryRepository.flushEntry entryId _ : Handler σ Unit)
      fun _ => Owning identity.tenantId db₀ jobId :=
    (flushEntry_ensures kept member).consequence (fun _ holds => ⟨holds.1, holds.2.2⟩) fun _ _ => id
  exact .bind flushed fun _ => .bind aggregateProgress_ensures fun _ =>
    .pure fun _ owning => owning.1

private theorem retry_ensures :
    Ensures (Eq db₀) (retry identity jobId : Handler σ DirectoryUploadJob)
      (Writes identity.tenantId db₀) := by
  refine getJob_bind (unchanged _) fun job named => .refuseIf_bind fun _ => ?_
  exact (flushMove_ensures named).left

private theorem complete_ensures :
    Ensures (Eq db₀) (DirectoryUploadService.complete identity jobId : Handler σ DirectoryUploadJob)
      (Writes identity.tenantId db₀) := by
  refine getJob_bind (unchanged _) fun job named => ?_
  split
  · exact .pure fun _ holds => holds.1.1
  · refine .refuseIf_bind fun _ => .readOnly_bind (.ask _) fun _ => .refuseIf_bind fun _ => ?_
    refine (flushMove_bind named fun finalizing named => ?_).left
    rw [named]
    refine .bind aggregateProgress_ensures fun progress => ?_
    exact flushMove_ensures ((record_kept progress finalizing).1.trans named)

private theorem cancel_ensures :
    Ensures (Eq db₀) (cancel identity jobId : Handler σ DirectoryUploadJob)
      (Writes identity.tenantId db₀) := by
  refine getJob_bind (unchanged _) fun job named => .refuseIf_bind fun _ =>
    .liftExcept_bind fun moved done => (flushMove_ensures ?_).left
  split at done
  · cases done
    exact named
  · exact (moveTo_id done).trans named

private theorem patchLifecycle_ensures {requested : Option LifecycleRequest} {now : Timestamp} :
    Ensures (Eq db₀) (patchLifecycle app identity jobId requested now)
      (Writes identity.tenantId db₀) := by
  refine getJob_bind (unchanged _) fun job named => .liftExcept_bind fun effective _ => ?_
  rw [named]
  have kept : JobKept fun row =>
      { row with requestedLifecycle := requested, effectiveLifecycle := some effective } :=
    fun _ => ⟨rfl, rfl⟩
  exact .bind (flushJob_ensures kept).left fun _ => .pure fun _ owning => owning.1

theorem getJob_readOnly (forUpdate : Bool) :
    (getJob identity jobId forUpdate : Handler σ DirectoryUploadJob).ReadOnly := by
  refine .bind (.select _ _) fun found => ?_
  cases found with
  | none => exact .fail _
  | some job => exact .pure _

theorem listEntries_readOnly (cursor : Option String) (limit : Int) :
    (listEntries identity jobId cursor limit :
      Handler σ (List DirectoryUploadEntry × Option String)).ReadOnly :=
  .bind (getJob_readOnly _) fun _ => .bind (.ask _) fun _ => .pure _

/-- A committed directory request wrote rows of its tenant only. -/
theorem directoryUpload_ensures {request : DirectoryRequest} {now : Timestamp} :
    Ensures (Eq db₀) (directoryUpload app identity request now) (Writes identity.tenantId db₀) := by
  cases request with
  | createJob request => exact .bind createJob_ensures fun _ => .pure fun _ => id
  | addEntries jobId entries => exact .bind addEntries_ensures fun _ => .pure fun _ => id
  | completeManifest jobId expectedHash counts =>
    exact .bind completeManifest_ensures fun _ => .pure fun _ => id
  | getJob jobId =>
    exact .readOnly_bind (getJob_readOnly _) fun _ => .pure fun db => unchanged _ db
  | listEntries jobId cursor limit =>
    exact .readOnly_bind (listEntries_readOnly _ _) fun _ => .pure fun db => unchanged _ db
  | getManifest jobId =>
    exact .readOnly_bind (listEntries_readOnly _ _) fun _ => .pure fun db => unchanged _ db
  | initiateEntry jobId entryId => exact .bind initiateEntry_ensures fun _ => .pure fun _ => id
  | markEntryResult jobId entryId result =>
    exact .bind markEntryResult_ensures fun _ => .pure fun _ => id
  | retry jobId => exact .bind retry_ensures fun _ => .pure fun _ => id
  | complete jobId => exact .bind complete_ensures fun _ => .pure fun _ => id
  | cancel jobId => exact .bind cancel_ensures fun _ => .pure fun _ => id
  | patchLifecycle jobId requested => exact .bind patchLifecycle_ensures fun _ => .pure fun _ => id

private theorem flushJob_offline {name : Operation} (change : DirectoryUploadJob → DirectoryUploadJob) :
    (Program.modify name (some (.job jobId)) (·.updateJob jobId change) : Handler σ Unit).Offline :=
  .modify _ _ _

private theorem startManifest_offline (job : DirectoryUploadJob) :
    (startManifest job : Handler σ Unit).Offline := by
  unfold startManifest
  split
  · exact .bind (.of_readOnly (.liftExcept _)) fun _ => flushJob_offline _
  · exact .pure _

private theorem flushMove_offline (target : DirectoryJobStatus) (job : DirectoryUploadJob) :
    (flushMove target job : Handler σ DirectoryUploadJob).Offline :=
  .bind (.of_readOnly (.liftExcept _)) fun _ => .bind (flushJob_offline _) fun _ => .pure _

theorem getEntry_readOnly (entryId : Uuid) :
    (getEntry jobId entryId : Handler σ DirectoryUploadEntry).ReadOnly := by
  refine .bind (.ask _) fun found => ?_
  cases found with
  | none => exact .fail _
  | some entry => exact .bind (.refuseIf _ _) fun _ => .pure _

private theorem aggregateProgress_offline :
    (DirectoryRepository.aggregateProgress jobId : Handler σ Progress).Offline :=
  .bind (.of_readOnly (.ask _)) fun _ => .bind (.modify _ _ _) fun _ => .pure _

private theorem complete_offline :
    (DirectoryUploadService.complete identity jobId : Handler σ DirectoryUploadJob).Offline := by
  refine .bind (.of_readOnly (getJob_readOnly _)) fun job => ?_
  split
  · exact .pure _
  · exact .bind (.of_readOnly (.refuseIf _ _)) fun _ => .bind (.of_readOnly (.ask _)) fun _ =>
      .bind (.of_readOnly (.refuseIf _ _)) fun _ => .bind (flushMove_offline _ _) fun _ =>
      .bind aggregateProgress_offline fun _ => flushMove_offline _ _

/-- No directory request calls the storage. -/
theorem directoryUpload_offline (request : DirectoryRequest) (now : Timestamp) :
    (directoryUpload app identity request now).Offline := by
  have asks : ∀ {α : Type} {program : Handler σ α}, program.ReadOnly → program.Offline :=
    fun reads => .of_readOnly reads
  cases request with
  | createJob request =>
    refine .bind (.bind (asks (.refuseIf _ _)) fun _ => .bind (asks (.refuseIf _ _)) fun _ =>
      .bind (asks (.refuseIf _ _)) fun _ => .bind (asks (.liftExcept _)) fun _ =>
      .bind (asks (effectiveLifecycle_readOnly _ _)) fun _ => .bind (asks (.liftExcept _)) fun _ =>
      .bind (asks (.liftExcept _)) fun _ => .bind (asks (.ask _)) fun _ =>
      .bind (asks (.ask _)) fun _ => .bind (.write _ _ _) fun _ => .pure _) fun _ => .pure _
  | addEntries jobId entries =>
    refine .bind (.bind (asks (getJob_readOnly _)) fun _ => .bind (asks (.refuseIf _ _)) fun _ =>
      .bind (asks (.refuseIf _ _)) fun _ => .bind (startManifest_offline _) fun _ =>
      .bind (asks (.ask _)) fun _ => .bind (asks (.ask _)) fun _ =>
      .bind (asks (.liftExcept _)) fun _ => .bind (asks (.refuseIf _ _)) fun _ =>
      .bind (flushJob_offline _) fun _ => .bind (.write _ _ _) fun _ =>
      .bind (asks (.refuseIf _ _)) fun _ => .pure _) fun _ => .pure _
  | completeManifest jobId expectedHash counts =>
    refine .bind (.bind (asks (getJob_readOnly _)) fun _ => .bind (asks (.refuseIf _ _)) fun _ =>
      .bind (asks (.ask _)) fun _ => .bind (asks (.refuseIf _ _)) fun _ =>
      .bind (asks (.refuseIf _ _)) fun _ => .bind (asks (.liftExcept _)) fun _ =>
      .bind (asks (.liftExcept _)) fun _ => .bind (flushJob_offline _) fun _ => .pure _) fun _ =>
      .pure _
  | getJob jobId => exact .bind (asks (getJob_readOnly _)) fun _ => .pure _
  | listEntries jobId cursor limit =>
    exact .bind (asks (listEntries_readOnly _ _)) fun _ => .pure _
  | getManifest jobId => exact .bind (asks (listEntries_readOnly _ _)) fun _ => .pure _
  | initiateEntry jobId entryId =>
    exact .bind (.bind (asks (getEntry_readOnly _)) fun _ => .bind (asks (getJob_readOnly _)) fun _ =>
      .bind (startManifest_offline _) fun _ => .bind (.modify _ _ _) fun _ => .pure _) fun _ =>
      .pure _
  | markEntryResult jobId entryId result =>
    exact .bind (.bind (asks (.liftExcept _)) fun _ => .bind (asks (getEntry_readOnly _)) fun _ =>
      .bind (asks (getJob_readOnly _)) fun _ => .bind (.modify _ _ _) fun _ =>
      .bind aggregateProgress_offline fun _ => .pure _) fun _ => .pure _
  | retry jobId =>
    exact .bind (.bind (asks (getJob_readOnly _)) fun _ => .bind (asks (.refuseIf _ _)) fun _ =>
      flushMove_offline _ _) fun _ => .pure _
  | complete jobId => exact .bind complete_offline fun _ => .pure _
  | cancel jobId =>
    exact .bind (.bind (asks (getJob_readOnly _)) fun _ => .bind (asks (.refuseIf _ _)) fun _ =>
      .bind (asks (.liftExcept _)) fun _ => flushMove_offline _ _) fun _ => .pure _
  | patchLifecycle jobId requested =>
    exact .bind (.bind (asks (getJob_readOnly _)) fun _ => .bind (asks (.liftExcept _)) fun _ =>
      .bind (flushJob_offline _) fun _ => .pure _) fun _ => .pure _

end

end PyUploadX
