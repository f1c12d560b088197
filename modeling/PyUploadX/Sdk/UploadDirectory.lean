import PyUploadX.Sdk.Manifest
import PyUploadX.System.JobProgress

/-! What `upload_directory` sends of a walk, up to the completion of the manifest. -/
namespace PyUploadX

open Kit Kit.Table DirectoryUploadService

variable {σ : Type} {app : AppState σ}

namespace Sdk

/-- A batch of entries. -/
def sendEntries (identity : Identity) (jobId : Uuid) (batch : List WalkedEntry) : Request :=
  .directoryUpload identity (.addEntries jobId (batch.map (·.request)))

/-- The batches one after the other, each with the time it is sent at. -/
def sendBatches (identity : Identity) (jobId : Uuid) (batches : List (List WalkedEntry × Timestamp)) :
    List Timed :=
  batches.map fun batch => (sendEntries identity jobId batch.1, batch.2)

/-- `POST …/manifest/complete`, with the hash over the files and the two counts. -/
def completeManifest (sha256 : Bytes → String) (identity : Identity) (jobId : Uuid)
    {nfc : String → String} (walk : Walk nfc) : Request :=
  .directoryUpload identity (.completeManifest jobId (some (manifestHashFromEntries sha256 walk.files))
    (some { files := some walk.files.length, directories := some walk.directories.length }))

end Sdk

/-- The service answers the request. -/
def Accepted (app : AppState σ) (world : World Database σ) (timed : Timed) : Prop :=
  ∃ reply, (serve app world timed).1 = .ok reply

/-- What has arrived of a walk. -/
structure Arrived (db : Database) (tenantId : String) (jobId : Uuid) (sent : List Sdk.WalkedEntry) :
    Prop where
  rows : (db.entriesOf jobId).map (·.walked) = sent
  distinct : ((db.entriesOf jobId).map (·.normalizedPath)).Nodup
  job : ∃ job, db.findJob jobId tenantId = some job ∧
    (sent ≠ [] → job.status = .manifestUploading)

section Batches

variable {db db' : Database} {identity : Identity} {jobId : Uuid} {sent batch : List Sdk.WalkedEntry}

/-- The unique constraint on the paths of one job. -/
theorem Database.Accepts.distinct {entries : List DirectoryUploadEntry} (accepted : db.Accepts entries)
    (members : ∀ entry ∈ entries, entry.directoryUploadId = jobId)
    (distinct : ((db.entriesOf jobId).map (·.normalizedPath)).Nodup) :
    ((db.entriesOf jobId ++ entries).map (·.normalizedPath)).Nodup := by
  have own : (entries.map (·.normalizedPath)).Nodup := by
    refine List.pairwise_map.mpr (accepted.1.imp_of_mem fun first second clash same => ?_)
    exact clash ⟨(members _ first).trans (members _ second).symm, .inl same⟩
  rw [List.map_append, List.nodup_append]
  refine ⟨distinct, own, fun path old other new same => ?_⟩
  obtain ⟨entry, present, rfl⟩ := List.mem_map.mp old
  obtain ⟨added, member, rfl⟩ := List.mem_map.mp new
  obtain ⟨listed, belongs⟩ := List.mem_filter.mp present
  exact accepted.2 added member entry listed
    ⟨(of_decide_eq_true belongs).trans (members added member).symm, .inl same⟩

theorem Arrived.next (forms : Sdk.NormalForms app.nfc)
    (arrived : Arrived db identity.tenantId jobId sent)
    (normal : ∀ entry ∈ batch, ∃ rawPath,
      Sdk.normalizeRelativePath app.nfc rawPath = .ok entry.path)
    {store store' : σ} {count : Nat}
    (done : (addEntries app identity jobId (batch.map (·.request))).run db store =
      (.ok (count, db'), store')) : Arrived db' identity.tenantId jobId (sent ++ batch) := by
  obtain ⟨job, added, found, growing, collected, accepted, rfl, _⟩ := addEntries_ok done
  have named := (Database.findJob_some found).2.1
  have members : ∀ entry ∈ added, entry.directoryUploadId = job.id :=
    fun entry member => (collectEntries_new collected entry member).1
  have grown : (((db.started job).updateJob job.id (raiseTotals job added)).addEntries
      added).entriesOf jobId = db.entriesOf jobId ++ added :=
    (db.entriesOf_grown members jobId).trans (by rw [if_pos named.symm])
  constructor
  · rw [grown, List.map_append, arrived.rows, Sdk.collectEntries_walked forms normal collected]
  · rw [grown]
    exact accepted.distinct (fun entry member => (members entry member).trans named)
      arrived.distinct
  · have started : ∃ row, (db.started job).findJob jobId identity.tenantId = some row ∧
        row.status = .manifestUploading := by
      unfold Database.started
      split
      · rw [db.findJob_updateJob jobId job.id identity.tenantId (setStatus_kept _), found]
        exact ⟨_, rfl, by dsimp only; rw [if_pos rfl]; rfl⟩
      · rename_i created
        exact ⟨job, found, growing.resolve_left created⟩
    obtain ⟨row, present, uploading⟩ := started
    have updated := (db.started job).findJob_updateJob jobId job.id identity.tenantId
      (raiseTotals_kept job added)
    rw [present] at updated
    refine ⟨_, updated, fun _ => ?_⟩
    dsimp only
    split <;> exact uploading

/-- The batches that are answered have arrived, in their order. -/
theorem Arrived.batches (forms : Sdk.NormalForms app.nfc) {world : World Database σ}
    (arrived : Arrived world.db identity.tenantId jobId sent)
    (batches : List (List Sdk.WalkedEntry × Timestamp))
    (normal : ∀ entry ∈ (batches.map Prod.fst).flatten, ∃ rawPath,
      Sdk.normalizeRelativePath app.nfc rawPath = .ok entry.path)
    (accepted : EachMeets app (Accepted app) world (Sdk.sendBatches identity jobId batches)) :
    Arrived (after app world (Sdk.sendBatches identity jobId batches)).db identity.tenantId jobId
      (sent ++ (batches.map Prod.fst).flatten) := by
  induction batches generalizing world sent with
  | nil =>
    rw [List.map_nil, List.flatten_nil, List.append_nil]
    exact arrived
  | cons batch rest ih =>
    obtain ⟨⟨reply, answered⟩, others⟩ := accepted
    rw [List.map_cons, List.flatten_cons] at normal ⊢
    have done := World.execute_committed answered
    obtain ⟨_, done, _⟩ := Program.bind_pure_eq_ok.mp done
    obtain ⟨_, done, _⟩ := Program.bind_pure_eq_ok.mp done
    have next := arrived.next forms
      (fun entry member => normal entry (List.mem_append_left _ member)) done
    have last := ih next (fun entry member => normal entry (List.mem_append_right _ member)) others
    rw [List.append_assoc] at last
    exact last

/-- A new job is found, and has no entries. -/
theorem Arrived.created (sound : DirectoriesNumbered db) (tallied : Tallied db)
    {job : DirectoryUploadJob} (new : NewJob identity db job) :
    Arrived (db.addJob job) identity.tenantId job.id [] := by
  have empty : (db.addJob job).entriesOf job.id = [] := new.fresh ▸ tallied.entriesOf_fresh sound
  have others : db.findJob job.id identity.tenantId = none := by
    refine List.find?_eq_none.mpr fun row member matched => ?_
    have old := sound.jobs.old row member
    rw [(of_decide_eq_true matched).1, new.fresh] at old
    exact Nat.lt_irrefl _ old
  have last : [job].find? (fun row => decide (row.id = job.id ∧ row.tenantId = identity.tenantId)) =
      some job := List.find?_cons_of_pos (decide_eq_true ⟨rfl, new.owner⟩)
  have found : (db.addJob job).findJob job.id identity.tenantId = some job :=
    List.find?_append.trans (congrArg₂ Option.or others last)
  exact ⟨by rw [empty]; rfl, by rw [empty]; exact List.nodup_nil, job, found,
    fun sent => absurd rfl sent⟩

private theorem ofKind_walked (kind : EntryType) (rows : List DirectoryUploadEntry) :
    (ofKind kind rows).map (·.walked) = (rows.map (·.walked)).filter (·.entryType = kind) := by
  unfold ofKind
  rw [List.filter_map]
  rfl

/-- The files and the directories of a walk, told apart by the type of their rows. -/
theorem Arrived.kinds {nfc : String → String} {walk : Sdk.Walk nfc} {tenantId : String}
    (arrived : Arrived db tenantId jobId walk.entries) :
    (ofKind .file (db.entriesOf jobId)).map (·.walked) = walk.files ∧
      (ofKind .directory (db.entriesOf jobId)).map (·.walked) = walk.directories := by
  have files : ∀ entry ∈ walk.files, entry.entryType ≠ .directory := fun entry member directory => by
    rw [walk.isFile entry member] at directory
    cases directory
  have directories : ∀ entry ∈ walk.directories, entry.entryType ≠ .file := fun entry member file => by
    rw [walk.isDirectory entry member] at file
    cases file
  constructor
  · rw [ofKind_walked, arrived.rows, Sdk.Walk.entries, List.filter_append,
      List.filter_eq_nil_iff.mpr fun entry member matched =>
        directories entry member (of_decide_eq_true matched),
      List.filter_eq_self.mpr fun entry member => decide_eq_true (walk.isFile entry member),
      List.nil_append]
  · rw [ofKind_walked, arrived.rows, Sdk.Walk.entries, List.filter_append,
      List.filter_eq_self.mpr fun entry member => decide_eq_true (walk.isDirectory entry member),
      List.filter_eq_nil_iff.mpr fun entry member matched =>
        files entry member (of_decide_eq_true matched),
      List.append_nil]

/-- The server's hash, whatever order the rows are read in. -/
theorem Arrived.hash {nfc : String → String} {walk : Sdk.Walk nfc} {tenantId : String}
    (arrived : Arrived db tenantId jobId walk.entries) (sha256 : Bytes → String)
    {rows : List DirectoryUploadEntry} (order : rows.Perm (db.entriesOf jobId)) :
    manifestHashFromEntries sha256 ((rows.filter (·.entryType = .file)).map (·.manifestEntry)) =
      Sdk.manifestHashFromEntries sha256 walk.files := by
  have files : (ofKind .file (db.entriesOf jobId)).map (·.manifestEntry) =
      walk.files.map (·.manifestEntry) := by
    rw [← arrived.kinds.1, List.map_map]
    rfl
  have distinct : ((rows.filter (·.entryType = .file)).map (·.normalizedPath)).Nodup :=
    (((order.map _).nodup_iff).mpr arrived.distinct).sublist (List.filter_sublist.map _)
  rw [Sdk.manifestHashFromEntries_eq, ← files]
  refine manifestHashFromEntries_perm ((order.filter _).map _) ?_ sha256
  rw [List.map_map]
  have texts := distinct.map (fun _ _ => ObjectKey.text_injective)
  rw [List.map_map] at texts
  exact texts

end Batches

private theorem orText_self (text : String) : orText (some text) text = text := ite_self _

/-- A walk with an entry, sent in any batches that are accepted, is completed under the
hash and the counts of the SDK, whatever order the rows are read in. -/
theorem accepted_walk_completes (app : AppState σ) (forms : Sdk.NormalForms app.nfc)
    {world : World Database σ} (fresh : world.db.Fresh) (earlier : List Timed) {identity : Identity}
    {request : CreateJob} {now later : Timestamp} {job : DirectoryUploadJob}
    (created : (serve app (after app world earlier)
      (.directoryUpload identity (.createJob request), now)).1 = .ok (.directory (.job job)))
    (walk : Sdk.Walk app.nfc) (present : walk.entries ≠ [])
    (batches : List (List Sdk.WalkedEntry × Timestamp))
    (split : (batches.map Prod.fst).flatten = walk.entries)
    (accepted : EachMeets app (Accepted app)
      (serve app (after app world earlier) (.directoryUpload identity (.createJob request), now)).2
      (Sdk.sendBatches identity job.id batches)) :
    let sent := after app world (earlier ++ (.directoryUpload identity (.createJob request), now) ::
      Sdk.sendBatches identity job.id batches)
    (∃ completed, (serve app sent (Sdk.completeManifest app.sha256 identity job.id walk, later)).1 =
        .ok (.directory (.job completed)) ∧
      completed.status = .ready ∧
      completed.manifestHash = some (Sdk.manifestHashFromEntries app.sha256 walk.files) ∧
      completed.totalFiles = walk.files.length ∧
      completed.totalDirectories = walk.directories.length) ∧
    ∀ rows : List DirectoryUploadEntry, rows.Perm (sent.db.entriesOf job.id) →
      manifestHashFromEntries app.sha256
        ((rows.filter (·.entryType = .file)).map (·.manifestEntry)) =
        Sdk.manifestHashFromEntries app.sha256 walk.files := by
  intro sent
  have unfolded : sent = after app (serve app (after app world earlier)
      (.directoryUpload identity (.createJob request), now)).2
      (Sdk.sendBatches identity job.id batches) := by
    rw [← after_cons, ← after_append]
  have done := World.execute_committed created
  obtain ⟨reply, made, same⟩ := Program.bind_pure_eq_ok.mp done
  cases same
  obtain ⟨row, made, same⟩ := Program.bind_pure_eq_ok.mp made
  cases same
  obtain ⟨new, added⟩ := createJob_ok made
  have start : Arrived (serve app (after app world earlier)
      (.directoryUpload identity (.createJob request), now)).2.db identity.tenantId job.id [] := by
    have first := Arrived.created (after_directoriesNumbered fresh earlier)
      (after_tallied fresh earlier) new
    rw [← added] at first
    exact first
  have arrived : Arrived sent.db identity.tenantId job.id walk.entries := by
    have normal : ∀ entry ∈ (batches.map Prod.fst).flatten, ∃ rawPath,
        Sdk.normalizeRelativePath app.nfc rawPath = .ok entry.path := by
      rw [split]
      exact walk.normal
    have last := start.batches forms batches normal accepted
    rw [split, List.nil_append, ← unfolded] at last
    exact last
  have hash := fun rows order => @Arrived.hash _ _ _ walk _ arrived app.sha256 rows order
  refine ⟨?_, hash⟩
  obtain ⟨current, found, uploading⟩ := arrived.job
  obtain ⟨member, named, _⟩ := Database.findJob_some found
  have tallied : Tallied sent.db := after_tallied fresh _
  have listed := tallied.listed current member
  rw [named] at listed
  have files : current.totalFiles = walk.files.length := by
    rw [listed.totalFiles, ← arrived.kinds.1, List.length_map]
  have directories : current.totalDirectories = walk.directories.length := by
    rw [listed.totalDirectories, ← arrived.kinds.2, List.length_map]
  have actual : sent.db.manifestHash app.sha256 current.id =
      Sdk.manifestHashFromEntries app.sha256 walk.files := by
    rw [named]
    exact hash _ (List.Perm.refl _)
  have rows : sent.db.entriesOf current.id ≠ [] := by
    intro empty
    have none := arrived.rows
    rw [← named, empty] at none
    exact present none.symm
  have expected : orText (some (Sdk.manifestHashFromEntries app.sha256 walk.files))
      (sent.db.manifestHash app.sha256 current.id) = sent.db.manifestHash app.sha256 current.id := by
    rw [actual]
    exact orText_self _
  have counted : checkCounts current (some { files := some walk.files.length
                                             directories := some walk.directories.length }) =
      .ok () := by
    unfold checkCounts
    rw [files, directories]
    simp
  have completed := @completeManifest_done σ app identity job.id sent.db sent.store _ _ current found
    (uploading present) rows expected counted
  have answered : serve app sent (Sdk.completeManifest app.sha256 identity job.id walk, later) = _ :=
    World.execute_wrap_ok (World.execute_eq_ok.mp (World.execute_wrap_ok completed _)) _
  exact ⟨_, congrArg Prod.fst answered, rfl, congrArg some actual, files, directories⟩

section Small

private theorem fileName_present : ["a.bin"] ≠ [] := List.cons_ne_nil _ _

private theorem directoryName_present : ["b"] ≠ [] := List.cons_ne_nil _ _

private theorem fileName_ordinary : ∀ segment ∈ ["a.bin"], OrdinarySegment segment := by decide

private theorem directoryName_ordinary : ∀ segment ∈ ["b"], OrdinarySegment segment := by decide

def smallFile : Sdk.WalkedEntry where
  entryType := .file
  path := ⟨["a.bin"], fileName_present, fileName_ordinary⟩
  sizeBytes := 4
  lastModifiedNs := some 7
  fingerprint := some "fp:1"

def smallSubdirectory : Sdk.WalkedEntry where
  entryType := .directory
  path := ⟨["b"], directoryName_present, directoryName_ordinary⟩
  sizeBytes := 0

private theorem small_normal : ∀ entry ∈ [smallSubdirectory] ++ [smallFile], ∃ rawPath,
    Sdk.normalizeRelativePath id rawPath = .ok entry.path := by
  intro entry member
  rcases List.mem_cons.mp member with rfl | later
  · exact ⟨"./b", by decide⟩
  · rw [List.mem_singleton.mp later]
    exact ⟨"a.bin", by decide⟩

def smallWalk : Sdk.Walk id where
  files := [smallFile]
  directories := [smallSubdirectory]
  isFile := fun _ member => congrArg Sdk.WalkedEntry.entryType (List.mem_singleton.mp member)
  isDirectory := fun _ member => congrArg Sdk.WalkedEntry.entryType (List.mem_singleton.mp member)
  normal := small_normal

def smallJob : DirectoryUploadJob where
  id := 0
  tenantId := "tenant"
  principalId := "principal"
  source := .sdk
  rootDirectoryName := ""
  bucket := "files"
  destinationPrefix := ""
  status := .created
  conflictPolicy := .reject
  requestedLifecycle := none
  effectiveLifecycle := some ⟨"ttl", "delete", some 2592000, some 2592000000000⟩
  expiresAt := 86400000000

theorem accepted_of_isSome {world : World Database σ} {timed : Timed}
    (answered : (serve app world timed).1.toOption.isSome = true) : Accepted app world timed := by
  obtain ⟨reply, answer⟩ := Option.isSome_iff_exists.mp answered
  exact ⟨reply, except_toOption_eq_some.mp answer⟩

/-- The directory and the file are sent in two batches. -/
theorem accepted_walk_completes_small :
    let created := (.directoryUpload smallTenant (.createJob { bucket := "files" }), 0)
    let sent := after smallS3App ⟨{}, smallS3⟩ ([] ++ created ::
      Sdk.sendBatches smallTenant 0 [(smallWalk.directories, 1), (smallWalk.files, 2)])
    (∃ completed, (serve smallS3App sent
        (Sdk.completeManifest smallS3App.sha256 smallTenant 0 smallWalk, 3)).1 =
          .ok (.directory (.job completed)) ∧
      completed.status = .ready ∧
      completed.manifestHash =
        some (Sdk.manifestHashFromEntries smallS3App.sha256 smallWalk.files) ∧
      completed.totalFiles = 1 ∧ completed.totalDirectories = 1) ∧
    ∀ rows : List DirectoryUploadEntry, rows.Perm (sent.db.entriesOf 0) →
      manifestHashFromEntries smallS3App.sha256
        ((rows.filter (·.entryType = .file)).map (·.manifestEntry)) =
        Sdk.manifestHashFromEntries smallS3App.sha256 smallWalk.files :=
  @accepted_walk_completes _ smallS3App Sdk.normalForms_id ⟨{}, smallS3⟩ (by decide) [] smallTenant
    { bucket := "files" } 0 3 smallJob (by decide +kernel) smallWalk (by decide)
    [(smallWalk.directories, 1), (smallWalk.files, 2)] rfl
    ⟨accepted_of_isSome (by decide +kernel), accepted_of_isSome (by decide +kernel), trivial⟩

/-- A walk without an entry needs no batch, and its manifest is refused. -/
theorem empty_walk_is_refused :
    (serve smallS3App (after smallS3App ⟨{}, smallS3⟩
        [(.directoryUpload smallTenant (.createJob { bucket := "files" }), 0)])
      (Sdk.completeManifest smallS3App.sha256 smallTenant 0
        (⟨[], [], nofun, nofun, nofun⟩ : Sdk.Walk id), 1)).1 =
      .error (.api (.manifestIncomplete "Manifest contains no entries.")) := by
  decide +kernel

end Small

end PyUploadX
