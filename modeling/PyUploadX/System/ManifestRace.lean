import PyUploadX.Kit.Guarded
import PyUploadX.System.JobProgress
import PyUploadX.System.SessionLock

/-! Batches of entries beside the completion of their manifest. A batch reads the job
without a lock and writes its counters from what it read; the completion locks it. -/
namespace PyUploadX

open Kit DirectoryUploadService

/-- `ready` or later. -/
def DirectoryJobStatus.finalized : DirectoryJobStatus → Bool
  | .ready | .uploading | .paused | .finalizing | .completed | .completedWithErrors => true
  | .created | .manifestUploading | .cancelling | .cancelled => false

/-- What the hash is computed over. -/
def hashedEntries (entries : List DirectoryUploadEntry) : List ManifestEntry :=
  (ofKind .file entries).map (·.manifestEntry)

/-- The manifest of a job stands for its entries. -/
structure WholeManifest (sha256 : Bytes → String) (entries : List DirectoryUploadEntry)
    (job : DirectoryUploadJob) : Prop where
  hash : job.manifestHash = some (manifestHashFromEntries sha256 (hashedEntries entries))
  files : job.totalFiles = (ofKind .file entries).length
  directories : job.totalDirectories = (ofKind .directory entries).length
  entries : job.totalEntries = entries.length

section Requests

variable {σ : Type} {app : AppState σ} {db db' : Database} {sha256 : Bytes → String}

/-- Finalized jobs have the hash of their entries. -/
def Hashed (sha256 : Bytes → String) (db : Database) : Prop :=
  ∀ job ∈ db.directoryUploadJobs, job.status.finalized = true →
    job.manifestHash = some (manifestHashFromEntries sha256 (hashedEntries (db.entriesOf job.id)))

theorem Hashed.updateJob (hashed : Hashed sha256 db) {jobId : Uuid}
    {change : DirectoryUploadJob → DirectoryUploadJob} (kept : JobKept change)
    (changed : ∀ job ∈ db.directoryUploadJobs, job.id = jobId →
      (change job).status.finalized = true → (change job).manifestHash =
        some (manifestHashFromEntries sha256 (hashedEntries (db.entriesOf jobId)))) :
    Hashed sha256 (db.updateJob jobId change) := by
  intro row membership finalized
  obtain ⟨job, member, rfl⟩ := List.mem_map.mp membership
  split at finalized <;> rename_i named
  · rw [if_pos named, (kept job).1, named]
    exact changed job member named finalized
  · rw [if_neg named]
    exact hashed job member finalized

theorem Hashed.entries (hashed : Hashed sha256 db)
    (jobs : db'.directoryUploadJobs = db.directoryUploadJobs)
    (entries : ∀ job ∈ db.directoryUploadJobs, job.status.finalized = true →
      hashedEntries (db'.entriesOf job.id) = hashedEntries (db.entriesOf job.id)) :
    Hashed sha256 db' := by
  intro job member finalized
  rw [jobs] at member
  rw [entries job member finalized]
  exact hashed job member finalized

theorem hashedEntries_updateEntry (db : Database) (jobId entryId : Uuid)
    {change : DirectoryUploadEntry → DirectoryUploadEntry} (kept : EntryKept change)
    (type : ∀ entry, (change entry).entryType = entry.entryType)
    (same : ∀ entry, (change entry).manifestEntry = entry.manifestEntry) :
    hashedEntries ((db.updateEntry entryId change).entriesOf jobId) =
      hashedEntries (db.entriesOf jobId) := by
  have types : ((fun entry : DirectoryUploadEntry => decide (entry.entryType = .file)) ∘
      fun entry => if entry.id = entryId then change entry else entry) =
      fun entry => decide (entry.entryType = .file) := by
    funext entry
    simp only [Function.comp_apply]
    split
    · rw [type]
    · rfl
  rw [db.entriesOf_updateEntry jobId entryId kept]
  unfold hashedEntries ofKind
  rw [List.filter_map, types, List.map_map]
  apply List.map_congr_left
  intro entry _
  simp only [Function.comp_apply]
  split
  · exact same entry
  · rfl

theorem DirectoryEffect.hashed {identity : Identity} {request : DirectoryRequest}
    (effect : DirectoryEffect app identity request db db') (sound : DirectoriesNumbered db)
    (hashed : Hashed app.sha256 db) : Hashed app.sha256 db' := by
  have started : ∀ job, Hashed app.sha256 (db.started job) := by
    intro job
    unfold Database.started
    split
    · refine hashed.updateJob (setStatus_kept _) fun _ _ _ finalized => ?_
      cases finalized
    · exact hashed
  cases effect with
  | unchanged | settled => exact hashed
  | created new =>
    intro job membership finalized
    rcases List.mem_append.mp membership with old | added
    · exact hashed job old finalized
    · rw [List.mem_singleton.mp added, new.created] at finalized
      cases finalized
  | @added _ jobId entries job added found growing collected =>
    have members : ∀ entry ∈ added, entry.directoryUploadId = job.id :=
      fun entry member => (collectEntries_new collected entry member).1
    have growing' : ∀ row ∈ (db.started job).directoryUploadJobs, row.id = job.id →
        row.status.finalized = false := by
      intro row member named
      rw [sound.started_row found member named]
      rcases growing with status | status <;> simp [status, setStatus, DirectoryJobStatus.finalized]
    intro row membership finalized
    obtain ⟨before, member, rfl⟩ := List.mem_map.mp membership
    split at finalized <;> rename_i named
    · have unfinalized := growing' before member named
      rw [show (raiseTotals job added before).status = before.status from rfl, unfinalized] at finalized
      cases finalized
    · rw [if_neg named, db.entriesOf_grown members, if_neg named, List.append_nil,
        ← db.started_entriesOf job before.id]
      exact started job before member finalized
  | finalized found uploading present expected counted =>
    refine hashed.updateJob (fun _ => ⟨rfl, rfl⟩) fun row member named _ => rfl
  | @initiated _ jobId entryId job entry found selected member =>
    exact (started job).entries rfl fun row _ _ =>
      hashedEntries_updateEntry (db.started job) row.id entryId (initiate_kept entry.attemptCount)
        (fun _ => rfl) fun _ => rfl
  | @reported _ jobId entryId result status job entry named found selected member =>
    have marked : Hashed app.sha256 (db.updateEntry entryId (·.report status result)) :=
      hashed.entries rfl fun row _ _ => hashedEntries_updateEntry db row.id entryId
        (report_kept status result) (fun _ => rfl) fun _ => rfl
    exact marked.updateJob (record_kept _) fun row member named finalized =>
      named ▸ marked row member finalized
  | @retried _ jobId job found allowed =>
    refine hashed.updateJob (setStatus_kept _) fun row member named _ => ?_
    have same := sound.job_eq found member (named.trans (Database.findJob_some found).2.1)
    have finalized : row.status.finalized = true := by
      rw [same]
      cases status : job.status <;> rw [status] at allowed <;>
        first | rfl | simp [DirectoryJobStatus.transitions] at allowed
    exact named ▸ hashed row member finalized
  | @completed _ jobId job found uploading unfailed =>
    refine hashed.updateJob (fun _ => ⟨rfl, rfl⟩) fun row member named _ => ?_
    have same := sound.job_eq found member (named.trans (Database.findJob_some found).2.1)
    have finalized : row.status.finalized = true := by
      rw [same, uploading]
      rfl
    exact named ▸ hashed row member finalized
  | cancelled =>
    refine hashed.updateJob (setStatus_kept _) fun _ _ _ finalized => ?_
    cases finalized
  | patched found =>
    exact hashed.updateJob (fun _ => ⟨rfl, rfl⟩) fun row member named finalized =>
      named ▸ hashed row member finalized

end Requests

section Rows

variable {db : Database} {jobId : Uuid}

def Database.jobRows (db : Database) (jobId : Uuid) : List DirectoryUploadJob :=
  db.directoryUploadJobs.filter (·.id = jobId)

/-- What the holder of a job's row sees of it and of its entries. -/
def shownJob (db : Database) : Row → List DirectoryUploadJob × List DirectoryUploadEntry
  | .job jobId => (db.jobRows jobId, db.entriesOf jobId)
  | .upload _ | .file _ | .entry _ => ([], [])

private theorem Database.mem_jobRows {row : DirectoryUploadJob} :
    row ∈ db.jobRows jobId ↔ row ∈ db.directoryUploadJobs ∧ row.id = jobId := by
  rw [Database.jobRows, List.mem_filter, decide_eq_true_eq]

private theorem Database.mem_jobRows_updateJob {change : DirectoryUploadJob → DirectoryUploadJob}
    {row : DirectoryUploadJob} (member : row ∈ (db.updateJob jobId change).jobRows jobId) :
    ∃ before ∈ db.jobRows jobId, row = change before := by
  obtain ⟨present, named⟩ := Database.mem_jobRows.mp member
  obtain ⟨before, old, rfl⟩ := List.mem_map.mp present
  split at named <;> rename_i same
  · exact ⟨before, Database.mem_jobRows.mpr ⟨old, same⟩, if_pos same⟩
  · exact absurd named same

theorem shownJob_updateJob {change : DirectoryUploadJob → DirectoryUploadJob}
    (kept : JobKept change) {key : Row} (other : key ≠ .job jobId) (db : Database) :
    shownJob (db.updateJob jobId change) key = shownJob db key := by
  cases key with
  | job otherId =>
    have different : jobId ≠ otherId := fun same => other (by rw [same])
    refine Prod.ext (Table.filter_update fun row _ named => ?_) rfl
    constructor
    · exact decide_eq_false (named ▸ different)
    · rw [(kept row).1, named]
      exact decide_eq_false different
  | upload | file | entry => rfl

private theorem shownJob_addEntries {entries : List DirectoryUploadEntry}
    (members : ∀ entry ∈ entries, entry.directoryUploadId = jobId) {key : Row}
    (other : key ≠ .job jobId) (db : Database) :
    shownJob (db.addEntries entries) key = shownJob db key := by
  cases key with
  | job otherId =>
    have different : jobId ≠ otherId := fun same => other (by rw [same])
    refine Prod.ext rfl (Table.filter_append fun entry member => ?_)
    exact decide_eq_false (members entry member ▸ different)
  | upload | file | entry => rfl

end Rows

section Counters

variable {entries added : List DirectoryUploadEntry}

private theorem countTotals_eq (entries : List DirectoryUploadEntry) :
    countTotals entries =
      ⟨(ofKind .file entries).length, (ofKind .directory entries).length, entries.length⟩ := by
  have kinds := length_kinds entries
  unfold ofKind at kinds ⊢
  unfold countTotals
  dsimp only
  congr 1
  omega

/-- What the batch adds to is what the row has. -/
def Totals.Adds (read added current : Totals) : Prop :=
  (added.files = 0 ∨ read.files = current.files) ∧
    (added.directories = 0 ∨ read.directories = current.directories) ∧
    (added.entries = 0 ∨ read.entries = current.entries)

instance (read added current : Totals) : Decidable (read.Adds added current) :=
  inferInstanceAs (Decidable (_ ∧ _))

private theorem raised_of_adds {read count current : Int} (adds : count = 0 ∨ read = current) :
    raised read count current = current + count := by
  unfold raised
  split <;> omega

private theorem raiseTotals_totals {job row : DirectoryUploadJob} (counted : row.totals = countTotals entries)
    (adds : job.totals.Adds (countTotals added) row.totals) :
    (raiseTotals job added row).totals = countTotals (entries ++ added) := by
  obtain ⟨files, directories, all⟩ := adds
  have written : (raiseTotals job added row).totals =
      ⟨raised job.totals.files (countTotals added).files row.totals.files,
        raised job.totals.directories (countTotals added).directories row.totals.directories,
        raised job.totals.entries (countTotals added).entries row.totals.entries⟩ := rfl
  rw [written, raised_of_adds files, raised_of_adds directories, raised_of_adds all, counted]
  unfold countTotals
  simp only [List.filter_append, List.length_append, Int.natCast_add]
  congr 1
  omega

end Counters

section Transactions

variable {σ : Type} {app : AppState σ} {jobId : Uuid} {held : Row → Prop}
  {world after : World Database σ} {pending : Database → Database}

/-- Jobs and their entries are left to who locked the job. -/
def sharing : Protocol Row Operation Database σ := guarding (fun _ => ()) shownJob fun _ _ => True

/-- What a flush of a job read without a lock says of its counters. -/
def Operation.update? : Operation → Option (Totals × Totals)
  | .updateJob read added => some (read, added)
  | _ => none

/-- A batch writes to a row whose manifest is open, and adds to the counters it has. -/
def AddsToCommitted (_ : Nat) (name : Operation) (lock : Option Row) (world : World Database σ) :
    Prop :=
  ∀ update ∈ name.update?, ∀ row ∈ world.db.directoryUploadJobs, lock = some (.job row.id) →
    row.status.finalized = false ∧ update.1.Adds update.2 row.totals

instance (i : Nat) (name : Operation) (lock : Option Row) (world : World Database σ) :
    Decidable (AddsToCommitted i name lock world) :=
  inferInstanceAs (Decidable (∀ update ∈ name.update?, ∀ row ∈ world.db.directoryUploadJobs,
    lock = some (.job row.id) → row.status.finalized = false ∧ update.1.Adds update.2 row.totals))

/-- What is kept of the job: its counters, and once it is finalized its hash. -/
structure Manifested (sha256 : Bytes → String) (jobId : Uuid) (db : Database) : Prop where
  counted : ∀ row ∈ db.jobRows jobId, row.totals = countTotals (db.entriesOf jobId)
  hashed : ∀ row ∈ db.jobRows jobId, row.status.finalized = true →
    row.manifestHash = some (manifestHashFromEntries sha256 (hashedEntries (db.entriesOf jobId)))

def KeepsManifest (sha256 : Bytes → String) (jobId : Uuid) (_ : Nat) (db : Database) (_ : Reply)
    (db' : Database) : Prop :=
  Manifested sha256 jobId db → Manifested sha256 jobId db'

/-- The job is locked, and the writes so far show in it alone. -/
structure HoldsJob (jobId : Uuid) (held : Row → Prop) (pending : Database → Database) : Prop where
  mine : held (.job jobId)
  within : Within (fun _ => ()) shownJob held pending

namespace HoldsJob

theorem lock (holds : HoldsJob jobId held pending) (lock : Option Row) :
    HoldsJob jobId (Protocol.hold held lock) pending :=
  ⟨.inl holds.mine, holds.within.lock lock⟩

theorem updateJob (holds : HoldsJob jobId held pending)
    {change : DirectoryUploadJob → DirectoryUploadJob} (kept : JobKept change) :
    HoldsJob jobId held ((·.updateJob jobId change) ∘ pending) :=
  ⟨holds.mine, holds.within.write (fun _ => rfl) fun key free db =>
    shownJob_updateJob kept (fun same => free (by rw [same]; exact holds.mine)) db⟩

theorem addEntries (holds : HoldsJob jobId held pending) {entries : List DirectoryUploadEntry}
    (members : ∀ entry ∈ entries, entry.directoryUploadId = jobId) :
    HoldsJob jobId held ((·.addEntries entries) ∘ pending) :=
  ⟨holds.mine, holds.within.write (fun _ => rfl) fun key free db =>
    shownJob_addEntries members (fun same => free (by rw [same]; exact holds.mine)) db⟩

end HoldsJob

/-- The rows and the entries of a locked job stay as they are. -/
theorem shown_later (relied : sharing.rely held world after) (mine : held (.job jobId)) :
    after.db.jobRows jobId = world.db.jobRows jobId ∧
      after.db.entriesOf jobId = world.db.entriesOf jobId :=
  Prod.mk.inj (relied.2 (.job jobId) mine)

/-- Nothing is written, or the status of a job that was just created. -/
def Begun (jobId : Uuid) (held : Row → Prop) (pending : Database → Database) : Prop :=
  pending = id ∨
    HoldsJob jobId held pending ∧ pending = (·.updateJob jobId (setStatus .manifestUploading))

/-- The counters are raised, and `new` is inserted so far. -/
structure Raised (jobId : Uuid) (read : Totals) (added new : List DirectoryUploadEntry)
    (held : Row → Prop) (world : World Database σ) (pending : Database → Database) : Prop where
  holds : HoldsJob jobId held pending
  unfinalized : ∀ row ∈ world.db.jobRows jobId, row.status.finalized = false ∧
    read.Adds (countTotals added) row.totals
  rows : ∀ db, ∀ row ∈ (pending db).jobRows jobId, ∃ before ∈ db.jobRows jobId,
    (before.status.finalized = false → row.status.finalized = false) ∧
    ∀ entries, before.totals = countTotals entries →
      read.Adds (countTotals added) before.totals → row.totals = countTotals (entries ++ added)
  entries : ∀ db, (pending db).entriesOf jobId = db.entriesOf jobId ++ new

namespace Raised

variable {read : Totals} {added new : List DirectoryUploadEntry}

theorem later (raised : Raised jobId read added new held world pending)
    (relied : sharing.rely held world after) : Raised jobId read added new held after pending := by
  obtain ⟨holds, unfinalized, rows, entries⟩ := raised
  rw [← (shown_later relied holds.mine).1] at unfinalized
  exact ⟨holds, unfinalized, rows, entries⟩

theorem insert (raised : Raised jobId read added [] held world pending)
    (members : ∀ entry ∈ added, entry.directoryUploadId = jobId) :
    Raised jobId read added added (Protocol.hold held none) world
      ((·.addEntries added) ∘ pending) := by
  have own : added.filter (·.directoryUploadId = jobId) = added :=
    List.filter_eq_self.mpr fun entry member => decide_eq_true (members entry member)
  refine ⟨(raised.holds.addEntries members).lock none, raised.unfinalized, raised.rows, fun db => ?_⟩
  rw [Function.comp_apply, Database.entriesOf_addEntries, raised.entries db, List.append_nil, own]

theorem ends (raised : Raised jobId read added added held world pending) (sha256 : Bytes → String)
    (i : Nat) (reply : Reply) :
    Machine.Ends sharing (KeepsManifest sha256 jobId i) held world pending reply := by
  refine ⟨raised.holds.within.compatible world world.store, fun manifested => ⟨?_, ?_⟩⟩
  · intro row member
    obtain ⟨before, present, _, counted⟩ := raised.rows world.db row member
    rw [raised.entries world.db]
    exact counted _ (manifested.counted before present) (raised.unfinalized before present).2
  · intro row member finalized
    obtain ⟨before, present, status, _⟩ := raised.rows world.db row member
    rw [status (raised.unfinalized before present).1] at finalized
    cases finalized

end Raised

theorem Begun.raise {job : DirectoryUploadJob} {added : List DirectoryUploadEntry}
    (begun : Begun jobId held pending)
    (committed : ∀ row ∈ world.db.jobRows jobId, row.status.finalized = false ∧
      job.totals.Adds (countTotals added) row.totals) :
    Raised jobId job.totals added [] (Protocol.hold held (some (.job jobId))) world
      ((·.updateJob jobId (raiseTotals job added)) ∘ pending) := by
  have holds : HoldsJob jobId (Protocol.hold held (some (.job jobId))) pending := by
    refine ⟨.inr rfl, ?_⟩
    rcases begun with rfl | ⟨holds, _⟩
    · exact .start
    · exact holds.within.lock _
  refine ⟨holds.updateJob (raiseTotals_kept job added), committed, fun db row member => ?_,
    fun db => ?_⟩
  · obtain ⟨moved, present, rfl⟩ := Database.mem_jobRows_updateJob member
    rcases begun with rfl | ⟨_, rfl⟩
    · exact ⟨moved, present, id, fun entries counted adds => raiseTotals_totals counted adds⟩
    · obtain ⟨before, old, rfl⟩ := Database.mem_jobRows_updateJob present
      exact ⟨before, old, fun _ => rfl, fun entries counted adds =>
        @raiseTotals_totals _ _ _ (setStatus _ before) counted adds⟩
  · rcases begun with rfl | ⟨_, rfl⟩ <;> exact (List.append_nil _).symm

private theorem startManifest_safe (i : Nat) {job : DirectoryUploadJob} (named : job.id = jobId) :
    sharing.Safe (AddsToCommitted i) (fun held _ pending _ => Begun jobId held pending)
      (startManifest job : Handler σ Unit) (fun _ => False) world id := by
  unfold startManifest
  split
  · refine .liftExcept fun moved transition => ?_
    obtain ⟨_, rfl⟩ := moveTo_ok transition
    unfold DirectoryRepository.updateJob
    subst named
    refine .modify_done fun first _ _ last _ => .inr ⟨?_, rfl⟩
    have holds : HoldsJob job.id (Protocol.hold (fun _ => False) (some (Row.job job.id))) id :=
      ⟨.inr rfl, .start⟩
    exact holds.updateJob (setStatus_kept _)
  · exact fun last _ => .inl rfl

private theorem addEntries_safe (i : Nat) (identity : Identity) (entries : List EntryRequest)
    (sha256 : Bytes → String) :
    sharing.Safe (AddsToCommitted i)
      (fun held world pending _ => ∀ reply,
        Machine.Ends sharing (KeepsManifest sha256 jobId i) held world pending reply)
      (addEntries app identity jobId entries) (fun _ => False) world id := by
  have found : sharing.Safe (AddsToCommitted i)
      (fun held _ pending job => job.id = jobId ∧ held = (fun _ => False) ∧ pending = id)
      (DirectoryUploadService.getJob identity jobId : Handler σ DirectoryUploadJob) (fun _ => False)
      world id := by
    unfold DirectoryUploadService.getJob DirectoryRepository.getJob
    refine .select fun first _ value read => ?_
    cases read
    split
    · rename_i job present
      refine fun last _ => ⟨(Database.findJob_some present).2.1, ?_, rfl⟩
      funext key
      simp [Protocol.hold]
    · trivial
  unfold addEntries
  refine .bind (found.weaken ?_)
  rintro held world pending job ⟨named, rfl, rfl⟩
  refine .refuseIf fun _ => .refuseIf fun _ => .bind ((startManifest_safe i named).weaken ?_)
  intro held world pending _ begun
  unfold DirectoryRepository.listEntries newId
  refine .ask fun first _ => .ask fun second _ => .liftExcept fun added collected => ?_
  have members : ∀ entry ∈ added, entry.directoryUploadId = jobId :=
    fun entry member => ((collectEntries_new collected entry member).1).trans named
  unfold DirectoryRepository.updateJob DirectoryRepository.insertEntries
  rw [named]
  refine .refuseIf fun _ => .modify fun third _ committed =>
    .write fun fourth relied _ change stated => ?_
  have committed : ∀ row ∈ third.db.jobRows jobId, row.status.finalized = false ∧
      job.totals.Adds (countTotals added) row.totals := by
    intro row member
    obtain ⟨present, rfl⟩ := Database.mem_jobRows.mp member
    exact committed _ rfl row present rfl
  split at stated
  · cases stated
  split at stated
  · cases stated
    refine .refuseIf fun _ last relied' reply => ?_
    exact ((((begun.raise committed).later relied).insert members).later relied').ends sha256 i reply
  · cases stated

/-- The completion has locked the job before it reads its entries. -/
theorem completeManifest_safe (i : Nat) (identity : Identity) (expectedHash : Option String)
    (counts : Option ManifestCounts) :
    sharing.Safe (AddsToCommitted i)
      (fun held world pending _ => ∀ reply,
        Machine.Ends sharing (KeepsManifest app.sha256 jobId i) held world pending reply)
      (completeManifest app identity jobId expectedHash counts) (fun _ => False) world id := by
  have found : sharing.Safe (AddsToCommitted i)
      (fun held _ pending job => job.id = jobId ∧ held (.job jobId) ∧ pending = id)
      (DirectoryUploadService.getJob identity jobId true : Handler σ DirectoryUploadJob)
      (fun _ => False) world id := by
    unfold DirectoryUploadService.getJob DirectoryRepository.getJob
    refine .select fun first _ value read => ?_
    cases read
    split
    · rename_i job present
      exact fun last _ => ⟨(Database.findJob_some present).2.1, .inr rfl, rfl⟩
    · trivial
  unfold completeManifest
  refine .bind (found.weaken ?_)
  rintro held world pending job ⟨named, mine, rfl⟩
  unfold DirectoryRepository.listEntries DirectoryRepository.flushJob
  rw [named]
  refine .refuseIf fun _ => .ask fun first _ => .refuseIf fun _ => .refuseIf fun _ =>
    .liftExcept fun _ _ => .liftExcept fun moved transition => ?_
  obtain ⟨_, rfl⟩ := moveTo_ok transition
  refine .modify fun second relied _ last relied' reply => ?_
  have holds : HoldsJob jobId held id := ⟨mine, .start⟩
  have kept : JobKept fun row : DirectoryUploadJob => { row with
      manifestHash := some (first.db.manifestHash app.sha256 jobId), status := .ready } :=
    fun _ => ⟨rfl, rfl⟩
  have written := (holds.updateJob kept).lock (some (.job jobId))
  have same : first.db.entriesOf jobId = last.db.entriesOf jobId :=
    ((shown_later relied mine).2.symm).trans (shown_later relied' written.mine).2.symm
  refine ⟨written.within.compatible last last.store, fun manifested => ⟨?_, ?_⟩⟩
  · intro row member
    obtain ⟨before, present, rfl⟩ := Database.mem_jobRows_updateJob member
    exact manifested.counted before present
  · intro row member _
    obtain ⟨before, _, rfl⟩ := Database.mem_jobRows_updateJob member
    exact congrArg (fun entries => some (manifestHashFromEntries app.sha256 (hashedEntries entries)))
      same

end Transactions

section Interleaving

variable {σ : Type} {app : AppState σ} {world : World Database σ}

/-- The requests that make and complete the manifest of one job. -/
inductive OnManifest (jobId : Uuid) : Request → Prop
  | addEntries (identity : Identity) (entries : List EntryRequest) :
      OnManifest jobId (.directoryUpload identity (.addEntries jobId entries))
  | completeManifest (identity : Identity) (expectedHash : Option String)
      (counts : Option ManifestCounts) :
      OnManifest jobId (.directoryUpload identity (.completeManifest jobId expectedHash counts))

theorem OnManifest.safe {jobId : Uuid} {request : Request} (onManifest : OnManifest jobId request)
    (i : Nat) (clock : Timestamp) :
    sharing.Safe (AddsToCommitted i)
      (Machine.Ends sharing (KeepsManifest app.sha256 jobId i)) (handle app request clock)
      (fun _ => False) world id := by
  cases onManifest with
  | addEntries identity entries =>
    refine .map (.map ((addEntries_safe i identity entries app.sha256).weaken ?_))
    exact fun held world pending count ends => ends _
  | completeManifest identity expectedHash counts =>
    refine .map (.map ((completeManifest_safe i identity expectedHash counts).weaken ?_))
    exact fun held world pending job ends => ends _

private theorem after_hashed {world : World Database σ} (fresh : world.db.Fresh) (requests : List Timed) :
    Hashed app.sha256 (after app world requests).db := by
  refine (after_preserves (fun world => DirectoriesNumbered world.db ∧ Hashed app.sha256 world.db)
    (fun world timed state => ⟨(serve_change app world timed).directoriesNumbered state.1, ?_⟩)
    requests ?_).2
  · rcases serve_directories app world timed with ⟨jobs, entries, _⟩ | ⟨identity, request, _, effect⟩
    · refine state.2.entries jobs fun job _ _ => ?_
      unfold Database.entriesOf
      rw [entries]
    · exact effect.hashed state.1 state.2
  · refine ⟨@after_directoriesNumbered _ app _ fresh [], ?_⟩
    unfold Hashed
    rw [fresh.2.1]
    exact fun _ => nofun

private theorem after_manifested {world : World Database σ} (fresh : world.db.Fresh)
    (requests : List Timed) (jobId : Uuid) :
    Manifested app.sha256 jobId (after app world requests).db := by
  constructor
  · intro row member
    obtain ⟨present, rfl⟩ := Database.mem_jobRows.mp member
    have listed := (@after_tallied _ app _ fresh requests).listed row present
    rw [countTotals_eq, DirectoryUploadJob.totals, listed.totalFiles, listed.totalDirectories,
      listed.totalEntries]
  · intro row member finalized
    obtain ⟨present, rfl⟩ := Database.mem_jobRows.mp member
    exact after_hashed fresh requests row present finalized

private theorem sharing_sound {jobId : Uuid} {requests : Nat → Timed}
    (onManifest : ∀ i, OnManifest jobId (requests i).1) :
    (sideBySide app world requests).Sound sharing AddsToCommitted
      (KeepsManifest app.sha256 jobId) :=
  Machine.sound_start fun i => (onManifest i).safe i _

end Interleaving

/-- However batches and completions of one manifest interleave after any run, as long as no
batch writes to counters that have moved or to a finalized job: in every committed state a
finalized job has the hash and the counts of its rows. -/
theorem batches_keep_manifests_whole {σ : Type} (app : AppState σ) {world : World Database σ}
    (fresh : world.db.Fresh) (earlier : List Timed) (jobId : Uuid) (requests : Nat → Timed)
    (onManifest : ∀ i, OnManifest jobId (requests i).1) (moves : List Move)
    (current : (sideBySide app (after app world earlier) requests).Obeys AddsToCommitted moves) :
    let db := ((sideBySide app (after app world earlier) requests).run moves).db
    ∀ job ∈ db.directoryUploadJobs, job.id = jobId → job.status.finalized = true →
      WholeManifest app.sha256 (db.entriesOf jobId) job := by
  intro db job member named finalized
  have manifested : Manifested app.sha256 jobId db :=
    (sharing_sound onManifest).run_commits (fun db _ => Manifested app.sha256 jobId db)
      (after_manifested fresh earlier jobId)
      (fun i db value db' replies manifested keeps => keeps manifested) current
  have row := Database.mem_jobRows.mpr ⟨member, named⟩
  have counted := manifested.counted job row
  rw [countTotals_eq] at counted
  obtain ⟨files, directories, entries⟩ := Totals.mk.inj counted
  exact ⟨manifested.hashed job row finalized, files, directories, entries⟩

/-- The completion of a manifest beside its batches, each with one file. -/
def manifestRequests : Nat → Timed
  | 0 => (.directoryUpload smallTenant (.completeManifest 0 none none), 2)
  | 1 => (.directoryUpload smallTenant (.addEntries 0 [{ relativePath := "a.bin" }]), 1)
  | _ => (.directoryUpload smallTenant (.addEntries 0 [{ relativePath := "b.bin" }]), 1)

private theorem manifestRequests_onManifest : ∀ i, OnManifest 0 (manifestRequests i).1
  | 0 => .completeManifest ..
  | 1 => .addEntries ..
  | _ + 2 => .addEntries ..

/-- The batches one after the other, and the completion. -/
def oneByOne : List Move :=
  List.replicate 8 (.advance 1) ++ List.replicate 8 (.advance 2) ++ List.replicate 8 (.advance 0)

theorem batches_keep_manifests_whole_small :
    let world := after smallS3App ⟨{}, smallS3⟩ (smallDirectory.take 1)
    let db := ((sideBySide smallS3App world manifestRequests).run oneByOne).db
    ∀ job ∈ db.directoryUploadJobs, job.id = 0 → job.status.finalized = true →
      WholeManifest smallS3App.sha256 (db.entriesOf 0) job :=
  batches_keep_manifests_whole smallS3App (by decide) _ 0 manifestRequests
    manifestRequests_onManifest oneByOne (by decide +kernel)

/-- Both batches read the job before either writes it: the job counts one file of two. -/
theorem batch_overwrites_counters :
    let world := after smallS3App ⟨{}, smallS3⟩ (smallDirectory.take 1)
    let db := ((sideBySide smallS3App world manifestRequests).run (.advance 2 :: oneByOne)).db
    ¬ ∀ job ∈ db.directoryUploadJobs, job.id = 0 → job.status.finalized = true →
      WholeManifest smallS3App.sha256 (db.entriesOf 0) job := by
  intro world db whole
  have fewer : ∃ job ∈ db.directoryUploadJobs, (job.id = 0 ∧ job.status.finalized = true) ∧
      job.totalFiles ≠ (ofKind .file (db.entriesOf 0)).length := by
    decide +kernel
  obtain ⟨job, member, ⟨named, finalized⟩, differs⟩ := fewer
  exact differs (whole job member named finalized).files

end PyUploadX
