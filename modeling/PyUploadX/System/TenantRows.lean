import PyUploadX.Db.Integrity
import PyUploadX.Kit.Tables
import PyUploadX.Storage.Factory

/-! What a tenant can write: the rows of the others stay as they are, in every table and
on every path. -/
namespace PyUploadX

open Kit Kit.Table

variable {σ : Type} {app : AppState σ} {tenantId : String}

/-- The rows of all tenants but one. Parts and entries have the tenant of the session and
of the job they belong to. -/
structure OtherRows where
  fileObjects : List FileObject
  uploadSessions : List UploadSession
  uploadParts : List UploadPart
  directoryUploadJobs : List DirectoryUploadJob
  directoryUploadEntries : List DirectoryUploadEntry

namespace Database

def otherFiles (db : Database) (tenantId : String) : List FileObject :=
  db.fileObjects.filter (·.tenantId ≠ tenantId)

def otherUploads (db : Database) (tenantId : String) : List UploadSession :=
  db.uploadSessions.filter (·.tenantId ≠ tenantId)

def otherJobs (db : Database) (tenantId : String) : List DirectoryUploadJob :=
  db.directoryUploadJobs.filter (·.tenantId ≠ tenantId)

def others (db : Database) (tenantId : String) : OtherRows where
  fileObjects := db.otherFiles tenantId
  uploadSessions := db.otherUploads tenantId
  uploadParts := db.uploadParts.filter fun part =>
    (db.otherUploads tenantId).any (·.id = part.uploadId)
  directoryUploadJobs := db.otherJobs tenantId
  directoryUploadEntries := db.directoryUploadEntries.filter fun entry =>
    (db.otherJobs tenantId).any (·.id = entry.directoryUploadId)

/-- Every session under the id is the tenant's. -/
def OwnsUpload (db : Database) (tenantId : String) (uploadId : Uuid) : Prop :=
  ∀ upload ∈ db.uploadSessions, upload.id = uploadId → upload.tenantId = tenantId

def OwnsFile (db : Database) (tenantId : String) (fileId : Uuid) : Prop :=
  ∀ file ∈ db.fileObjects, file.id = fileId → file.tenantId = tenantId

def OwnsJob (db : Database) (tenantId : String) (jobId : Uuid) : Prop :=
  ∀ job ∈ db.directoryUploadJobs, job.id = jobId → job.tenantId = tenantId

end Database

section Statements

variable {db : Database}

private theorem others_congr {db' : Database} (files : db'.otherFiles tenantId = db.otherFiles tenantId)
    (sessions : db'.uploadSessions = db.uploadSessions)
    (parts : db'.uploadParts = db.uploadParts)
    (jobs : db'.directoryUploadJobs = db.directoryUploadJobs)
    (entries : db'.directoryUploadEntries = db.directoryUploadEntries) :
    db'.others tenantId = db.others tenantId := by
  unfold Database.others Database.otherUploads Database.otherJobs
  rw [files, sessions, parts, jobs, entries]

theorem Database.OwnsUpload.hidden {uploadId : Uuid} (own : db.OwnsUpload tenantId uploadId) :
    (db.otherUploads tenantId).any (·.id = uploadId) = false := by
  refine any_filter_eq_false fun upload member named => ?_
  simp [own upload member (of_decide_eq_true named)]

theorem Database.OwnsJob.hidden {jobId : Uuid} (own : db.OwnsJob tenantId jobId) :
    (db.otherJobs tenantId).any (·.id = jobId) = false := by
  refine any_filter_eq_false fun job member named => ?_
  simp [own job member (of_decide_eq_true named)]

private theorem others_insertUpload {upload : UploadSession} (own : upload.tenantId = tenantId) :
    (db.insertUpload upload).others tenantId = db.others tenantId := by
  have same : (db.insertUpload upload).otherUploads tenantId = db.otherUploads tenantId := by
    refine filter_append fun row member => ?_
    rw [List.mem_singleton.mp member]
    simp [own]
  unfold Database.others
  rw [same]
  rfl

private theorem others_updateUpload {uploadId : Uuid} (own : db.OwnsUpload tenantId uploadId)
    (change : UploadSession → UploadSession) (kept : ∀ row, (change row).tenantId = row.tenantId) :
    (db.updateUpload uploadId change).others tenantId = db.others tenantId := by
  have same : (db.updateUpload uploadId change).otherUploads tenantId =
      db.otherUploads tenantId := by
    refine filter_update fun row member named => ?_
    rw [kept, own row member named]
    simp
  unfold Database.others
  rw [same]
  rfl

private theorem others_upsertPart {part : UploadPart} (own : db.OwnsUpload tenantId part.uploadId) :
    (db.upsertPart part).others tenantId = db.others tenantId := by
  unfold Database.others Database.upsertPart
  dsimp only
  split
  · congr 1
    refine filter_update fun row _ conflicting => ?_
    rw [conflicting.1]
    exact ⟨own.hidden, own.hidden⟩
  · congr 1
    refine filter_append fun row added => ?_
    rw [List.mem_singleton.mp added]
    exact own.hidden

private theorem others_addFile {file : FileObject} (own : file.tenantId = tenantId) :
    (db.addFile file).others tenantId = db.others tenantId := by
  have same : (db.addFile file).otherFiles tenantId = db.otherFiles tenantId := by
    refine filter_append fun row member => ?_
    rw [List.mem_singleton.mp member]
    simp [own]
  unfold Database.others
  rw [same]
  rfl

private theorem otherFiles_updateFile {fileId : Uuid} {change : FileObject → FileObject}
    (own : db.OwnsFile tenantId fileId) (kept : ∀ row, (change row).tenantId = row.tenantId) :
    (db.updateFile fileId change).otherFiles tenantId = db.otherFiles tenantId := by
  refine filter_update fun row member named => ?_
  rw [kept, own row member named]
  simp

private theorem others_addJob {job : DirectoryUploadJob} (own : job.tenantId = tenantId) :
    (db.addJob job).others tenantId = db.others tenantId := by
  have same : (db.addJob job).otherJobs tenantId = db.otherJobs tenantId := by
    refine filter_append fun row member => ?_
    rw [List.mem_singleton.mp member]
    simp [own]
  unfold Database.others
  rw [same]
  rfl

private theorem others_updateJob {jobId : Uuid} {change : DirectoryUploadJob → DirectoryUploadJob}
    (own : db.OwnsJob tenantId jobId) (kept : JobKept change) :
    (db.updateJob jobId change).others tenantId = db.others tenantId := by
  have same : (db.updateJob jobId change).otherJobs tenantId = db.otherJobs tenantId := by
    refine filter_update fun row member named => ?_
    rw [(kept row).2, own row member named]
    simp
  unfold Database.others
  rw [same]
  rfl

private theorem others_addEntries {jobId : Uuid} {entries : List DirectoryUploadEntry}
    (own : db.OwnsJob tenantId jobId)
    (members : ∀ entry ∈ entries, entry.directoryUploadId = jobId) :
    (db.addEntries entries).others tenantId = db.others tenantId := by
  unfold Database.others
  congr 1
  refine filter_append fun entry member => ?_
  rw [members entry member]
  exact own.hidden

private theorem others_updateEntry {jobId entryId : Uuid}
    {change : DirectoryUploadEntry → DirectoryUploadEntry} (own : db.OwnsJob tenantId jobId)
    (members : ∀ entry ∈ db.directoryUploadEntries, entry.id = entryId →
      entry.directoryUploadId = jobId) (kept : EntryKept change) :
    (db.updateEntry entryId change).others tenantId = db.others tenantId := by
  unfold Database.others
  congr 1
  refine filter_update fun entry member named => ?_
  rw [(kept entry).2, members entry member named]
  exact ⟨own.hidden, own.hidden⟩

end Statements

/-- The ids of the directory tables: each names a row, and a fresh one names none. -/
structure DirectoriesNumbered (db : Database) : Prop where
  jobs : Numbered (·.id) db.nextId db.directoryUploadJobs
  entries : Numbered (·.id) db.nextId db.directoryUploadEntries

namespace DirectoryChange

variable {db db' : Database}

theorem numbered (change : DirectoryChange tenantId db db') (sound : DirectoriesNumbered db) :
    DirectoriesNumbered db' := by
  have later := change.besides.nextId
  cases change with
  | @created job fresh owner =>
    have added : Numbered (·.id) (db.nextId + 1) (db.directoryUploadJobs ++ [job]) :=
      @Numbered.append _ _ _ _ sound.jobs [job] (by rw [List.map_singleton, fresh]; rfl)
    exact ⟨added.later (by rw [← fresh]; exact Nat.le_max_right _ _), sound.entries.later later⟩
  | job owned kept => exact ⟨sound.jobs.update fun row => (kept row).1, sound.entries⟩
  | entries owned members fresh => exact ⟨sound.jobs.later later, sound.entries.append fresh⟩
  | entry owned found member kept =>
    exact ⟨sound.jobs, sound.entries.update fun row => (kept row).1⟩

theorem others (change : DirectoryChange tenantId db db') (sound : DirectoriesNumbered db) :
    db'.others tenantId = db.others tenantId := by
  have ownsJob : ∀ {jobId}, (db.findJob jobId tenantId).isSome → db.OwnsJob tenantId jobId := by
    intro jobId owned job member named
    obtain ⟨found, lookup⟩ := Option.isSome_iff_exists.mp owned
    have matched := List.find?_some lookup
    simp only [decide_eq_true_eq] at matched
    have same : job = found := sound.jobs.eq_of_key member (List.mem_of_find?_eq_some lookup)
      (named.trans matched.1.symm)
    rw [same]
    exact matched.2
  cases change with
  | created fresh owner => exact others_addJob owner
  | job owned kept => exact others_updateJob (ownsJob owned) kept
  | entries owned members fresh => exact others_addEntries (ownsJob owned) members
  | @entry jobId entryId entry change owned found member kept =>
    refine others_updateEntry (ownsJob owned) (fun row present named => ?_) kept
    have matched : entry.id = entryId := by simpa using List.find?_some found
    have same : row = entry := sound.entries.eq_of_key present (List.mem_of_find?_eq_some found)
      (named.trans matched.symm)
    rw [same]
    exact member

end DirectoryChange

theorem DirectoryChanges.numbered {db db' : Database} (changes : DirectoryChanges tenantId db db')
    (sound : DirectoriesNumbered db) : DirectoriesNumbered db' := by
  induction changes with
  | refl => exact sound
  | tail _ last ih => exact last.numbered ih

theorem DirectoryChanges.others {db db' : Database} (changes : DirectoryChanges tenantId db db')
    (sound : DirectoriesNumbered db) : db'.others tenantId = db.others tenantId := by
  induction changes with
  | refl => rfl
  | tail earlier last ih => exact (last.others (DirectoryChanges.numbered earlier sound)).trans ih

section Changes

variable {asked : Request} {db db' : Database}

private theorem upsertPart_directories (db : Database) (part : UploadPart) :
    (db.upsertPart part).directoryUploadJobs = db.directoryUploadJobs ∧
      (db.upsertPart part).directoryUploadEntries = db.directoryUploadEntries := by
  unfold Database.upsertPart
  dsimp only
  split <;> exact ⟨rfl, rfl⟩

/-- Only a directory request writes the directory tables. -/
theorem Change.directories_cases (change : Change app asked db db') :
    (db'.directoryUploadJobs = db.directoryUploadJobs ∧
      db'.directoryUploadEntries = db.directoryUploadEntries) ∨
    ∃ identity request, asked = .directoryUpload identity request ∧
      DirectoryChanges identity.tenantId db db' := by
  cases change with
  | buckets files sessions parts ids jobs entries => exact .inl ⟨jobs, entries⟩
  | @part upload part now starts =>
    obtain ⟨jobs, entries⟩ := upsertPart_directories
      (if starts then db.updateUpload upload.id (·.setStatus .uploading) else db) part
    refine .inl ⟨jobs.trans ?_, entries.trans ?_⟩ <;> split <;> rfl
  | expired unfinished =>
    left
    rw [expired_eq]
    exact ⟨rfl, rfl⟩
  | file kind same files => exact .inl same.2.2.2.2
  | batch same loads turns => exact .inl same.2.2.2.2
  | directories asks changes => exact .inr ⟨_, _, asks, changes⟩
  | _ => exact .inl ⟨rfl, rfl⟩

theorem Change.directoriesNumbered (change : Change app asked db db')
    (sound : DirectoriesNumbered db) : DirectoriesNumbered db' := by
  rcases change.directories_cases with ⟨jobs, entries⟩ | ⟨identity, request, _, changes⟩
  · have later := change.nextId_le
    exact ⟨by rw [jobs]; exact sound.jobs.later later,
      by rw [entries]; exact sound.entries.later later⟩
  · exact changes.numbered sound

private theorem Identified.ownsUpload (ids : Identified db) {upload : UploadSession}
    (found : upload ∈ db.uploadSessions) (owner : upload.tenantId = tenantId) :
    db.OwnsUpload tenantId upload.id := by
  intro row member named
  rw [ids.upload_unique member found named]
  exact owner

theorem Identified.ownsFile (ids : Identified db) {file : FileObject}
    (found : file ∈ db.fileObjects) (owner : file.tenantId = tenantId) :
    db.OwnsFile tenantId file.id := by
  intro row member named
  rw [ids.file_unique member found named]
  exact owner

theorem Database.OwnsUpload.updateUpload {uploadId other : Uuid}
    {change : UploadSession → UploadSession} (own : db.OwnsUpload tenantId uploadId)
    (kept : ∀ row, (change row).core = row.core) :
    (db.updateUpload other change).OwnsUpload tenantId uploadId := by
  intro row membership named
  obtain ⟨before, member, rfl⟩ := List.mem_map.mp membership
  have same : (if before.id = other then change before else before).core = before.core := by
    split
    · exact kept before
    · rfl
  exact (congrArg UploadSession.tenantId same).trans
    (own before member ((congrArg UploadSession.id same).symm.trans named))

/-- A request of one tenant leaves the rows of the others: what it writes was found under
the tenant, or is new and the tenant's. -/
theorem Change.others (change : Change app asked db db') (tenant : asked.tenant? = some tenantId)
    (ids : Identified db) (sound : DirectoriesNumbered db) :
    db'.others tenantId = db.others tenantId := by
  have same_tenant : ∀ {owner}, asked.tenant? = some owner → owner = tenantId := fun asks =>
    Option.some.inj (asks.symm.trans tenant)
  cases change with
  | none => rfl
  | buckets files sessions parts _ jobs entries =>
    exact others_congr (by unfold Database.otherFiles; rw [files]) sessions parts jobs entries
  | created asks new owner =>
    subst asks
    exact others_insertUpload (owner.trans (same_tenant rfl))
  | @part upload part now starts found _ _ owner _ _ _ _ asker =>
    have own := ids.ownsUpload found (same_tenant asker)
    have started : (if starts then db.updateUpload upload.id (·.setStatus .uploading)
        else db).OwnsUpload tenantId upload.id := by
      split
      · exact own.updateUpload fun _ => rfl
      · exact own
    have stored : ((if starts then db.updateUpload upload.id (·.setStatus .uploading)
        else db).upsertPart part).OwnsUpload tenantId upload.id := by
      unfold Database.OwnsUpload
      rw [Database.upsertPart_uploadSessions]
      exact started
    refine (others_updateUpload stored (·.touch now) fun _ => rfl).trans
      ((others_upsertPart (by rw [owner]; exact started)).trans ?_)
    split
    · exact others_updateUpload own (·.setStatus .uploading) fun _ => rfl
    · rfl
  | touched uploadId now owned =>
    obtain ⟨upload, found, rfl, asker⟩ := owned
    exact others_updateUpload (ids.ownsUpload found (same_tenant asker)) (·.touch now) fun _ => rfl
  | prolonged uploadId expiresAt now owned =>
    obtain ⟨upload, found, rfl, asker⟩ := owned
    exact others_updateUpload (ids.ownsUpload found (same_tenant asker))
      (·.prolong expiresAt now) fun _ => rfl
  | aborted found _ asker =>
    exact others_updateUpload (ids.ownsUpload found (same_tenant asker))
      (·.setStatus .aborted) fun _ => rfl
  | expired _ nobody => rw [nobody] at tenant; cases tenant
  | @completed identity uploadId upload stored now asks found owner unfinished vacant =>
    subst asks
    have asker : identity.tenantId = tenantId := same_tenant rfl
    have own : (db.addFile (UploadService.completedFileObject app identity upload db.nextId stored
        now)).OwnsUpload tenantId upload.id := ids.ownsUpload found (owner.trans asker)
    unfold uploadCompleted
    exact (others_updateUpload own (·.setCompleted _) fun _ => rfl).trans (others_addFile asker)
  | uploaded asks policy vacant =>
    subst asks
    exact others_addFile (same_tenant rfl)
  | file kind same files owned =>
    obtain ⟨file, found, rfl, asker⟩ := owned
    have kept := otherFiles_updateFile (ids.ownsFile found (same_tenant asker)) fun row =>
      congrArg FileIdentity.tenantId (kind.identity row)
    refine others_congr ?_ same.1 same.2.1 same.2.2.2.2.1 same.2.2.2.2.2
    unfold Database.otherFiles at kept ⊢
    rw [files, kept]
  | batch _ _ _ nobody => rw [nobody] at tenant; cases tenant
  | directories asks changes =>
    subst asks
    obtain rfl := same_tenant rfl
    exact changes.others sound

end Changes

/-- A service before its first request. -/
def Database.Fresh (db : Database) : Prop :=
  db.Initial ∧ db.directoryUploadJobs = [] ∧ db.directoryUploadEntries = []

instance (db : Database) : Decidable db.Fresh := inferInstanceAs (Decidable (_ ∧ _ ∧ _))

theorem after_directoriesNumbered {world : World Database σ} (fresh : world.db.Fresh)
    (requests : List Timed) : DirectoriesNumbered (after app world requests).db := by
  refine after_preserves (fun world => DirectoriesNumbered world.db)
    (fun world timed sound => (serve_change app world timed).directoriesNumbered sound) requests ?_
  constructor
  · rw [fresh.2.1]
    exact .nil _ _
  · rw [fresh.2.2]
    exact .nil _ _

/-- In every state that is reached, a request of a tenant leaves every row of the other
tenants as it is, whether it succeeds or fails. -/
theorem requests_write_own_rows (app : AppState σ) {world : World Database σ}
    (fresh : world.db.Fresh) (requests : List Timed) (timed : Timed) {tenantId : String}
    (tenant : timed.1.tenant? = some tenantId) :
    (serve app (after app world requests) timed).2.db.others tenantId =
      (after app world requests).db.others tenantId :=
  (serve_change app _ timed).others tenant (after_integrity app fresh.1 requests).ids
    (after_directoriesNumbered fresh requests)

/-- A stranger aborts the session of another tenant. -/
theorem requests_write_own_rows_small :
    (serve smallS3App (after smallS3App ⟨{}, smallS3⟩ [(.createSession smallTenant smallSession, 0)])
        (.abort strangerTenant 0, 1)).2.db.others "stranger" =
      (after smallS3App ⟨{}, smallS3⟩
        [(.createSession smallTenant smallSession, 0)]).db.others "stranger" :=
  requests_write_own_rows smallS3App (by decide) _ _ rfl

end PyUploadX
