import PyUploadX.Sdk.Multipart
import PyUploadX.Services.FailedUpload
import PyUploadX.Services.PartLedger
import PyUploadX.Storage.PartBytes

/-! A file sent in the SDK's parts to a session on disk, in any order and with repetitions,
and completed: the object is the file. -/
namespace PyUploadX

open Kit UploadService LocalStorageAdapter

section Forward

variable {σ : Type} {app : AppState σ}

/-- No session has parts below the configured minimum. -/
theorem Change.wide {asked : Request} {db db' : Database} (change : Change app asked db db')
    (sound : ∀ core ∈ db.cores,
      app.settings.uploads.multipart.minimumPartSizeBytes ≤ core.partSize) :
    ∀ core ∈ db'.cores, app.settings.uploads.multipart.minimumPartSizeBytes ≤ core.partSize := by
  rcases change.cores with same | ⟨_, _, upload, _, new, rfl⟩
  · rwa [same]
  · intro core member
    rw [Database.cores, Database.insertUpload, List.map_append] at member
    rcases List.mem_append.mp member with old | added
    · exact sound core old
    · rw [List.map_singleton, List.mem_singleton] at added
      subst added
      exact new.wide

theorem after_wide {world : World Database σ} (initial : world.db.Initial)
    (requests : List Timed) : ∀ core ∈ (after app world requests).db.cores,
      app.settings.uploads.multipart.minimumPartSizeBytes ≤ core.partSize := by
  have start : ∀ core ∈ world.db.cores,
      app.settings.uploads.multipart.minimumPartSizeBytes ≤ core.partSize := by
    intro core member
    rw [Database.cores, initial.2.1] at member
    cases member
  exact after_preserves (fun world => ∀ core ∈ world.db.cores,
    app.settings.uploads.multipart.minimumPartSizeBytes ≤ core.partSize)
    (fun world timed sound => (serve_change app world timed).wide sound) requests start

private theorem findUpload_updateUpload {db : Database} {uploadId : Uuid} {tenantId : String}
    {upload : UploadSession} {change : UploadSession → UploadSession}
    (kept : ∀ row, (change row).id = row.id ∧ (change row).tenantId = row.tenantId)
    (found : db.findUpload uploadId tenantId = some upload) :
    (db.updateUpload uploadId change).findUpload uploadId tenantId = some (change upload) := by
  have named : ((fun row : UploadSession => decide (row.id = uploadId ∧ row.tenantId = tenantId)) ∘
      fun row => if row.id = uploadId then change row else row) =
        fun row => decide (row.id = uploadId ∧ row.tenantId = tenantId) := by
    funext row
    by_cases same : row.id = uploadId
    · simp [same, kept]
    · simp [same]
  have own := (Database.findUpload_some found).2.1
  unfold Database.findUpload at found ⊢
  rw [Database.updateUpload, List.find?_map, named, found, Option.map_some, if_pos own]

theorem findUpload_partAccepted {db : Database} {tenantId : String} {upload : UploadSession}
    (part : UploadPart) (now : Timestamp)
    (found : db.findUpload upload.id tenantId = some upload) :
    ∃ row, (partAccepted db upload part now).findUpload upload.id tenantId = some row ∧
      row.core = upload.core ∧
      row.status = if upload.status = .initiated then .uploading else upload.status := by
  unfold partAccepted
  by_cases initiated : upload.status = .initiated
  · rw [if_pos initiated]
    have started := @findUpload_updateUpload db upload.id tenantId upload (·.setStatus .uploading)
      (fun _ => ⟨rfl, rfl⟩) found
    have stored : ((db.updateUpload upload.id (·.setStatus .uploading)).upsertPart part).findUpload
        upload.id tenantId = some (upload.setStatus .uploading) := by
      rw [Database.findUpload, Database.upsertPart_uploadSessions]
      exact started
    exact ⟨_, findUpload_updateUpload (fun _ => ⟨rfl, rfl⟩) stored, rfl, (if_pos initiated).symm⟩
  · rw [if_neg initiated]
    have stored : (db.upsertPart part).findUpload upload.id tenantId = some upload := by
      rw [Database.findUpload, Database.upsertPart_uploadSessions]
      exact found
    exact ⟨_, findUpload_updateUpload (fun _ => ⟨rfl, rfl⟩) stored, rfl, (if_neg initiated).symm⟩

/-- An adapter other than the local one is completed from its listing, which is compared
with the rows first. -/
theorem storedParts_listed {upload : UploadSession} {committed : List UploadPart} {db : Database}
    {store : σ} {parts : List UploadedPart} {storageUploadId : StorageUploadId}
    (issued : upload.storageId? = some storageUploadId)
    (lists : app.storage.capabilities.listParts = true) (remote : app.storage.isLocal = false)
    (listed : app.storage.listParts upload.bucket upload.objectKey storageUploadId store =
      .ok parts) :
    (storedParts app upload committed).run db store =
      ((etagMismatch committed parts).elim (.ok (parts, db)) fun number =>
        .error (.api (.partEtagMismatch number)), store) := by
  have answered : (Program.askStore .listParts (app.storage.listParts upload.bucket upload.objectKey
      storageUploadId) : Handler σ (List UploadedPart)).run db store =
        (.ok (parts, db), store) := by
    rw [Program.run_askStore, listed]
    rfl
  unfold storedParts
  rw [issued]
  dsimp only
  rw [if_pos lists, Program.run_bind_ok answered]
  rw [if_neg (fun both => Bool.false_ne_true (remote.symm.trans both.2))]
  cases etagMismatch committed parts <;> rfl

/-- With enough rows, `complete` hands over what is listed. -/
theorem partsToComplete_run {upload : UploadSession} {db : Database} {store : σ}
    {parts : List UploadedPart}
    (enough : upload.totalParts ≤ (committedOf (db.partsOf upload.id)).length)
    (listed : (storedParts app upload (committedOf (db.partsOf upload.id))).run db store =
      (.ok (parts, db), store))
    (open_ : upload.status = .initiated ∨ upload.status = .uploading) :
    (partsToComplete app upload).run db store = (.ok (parts, db), store) := by
  have going : ¬ (upload.status ≠ .uploading ∧ upload.status ≠ .initiated) := by tauto
  unfold partsToComplete PartRepository.listPartsForUpload
  rw [Program.run_ask_bind, Program.run_bind_ok (Program.refuseIf_false (by omega) _ _),
    Program.run_bind_ok listed, if_neg going]
  rfl

theorem assemble_run {identity : Identity} {upload : UploadSession} {parts : List UploadedPart}
    (now : Timestamp) {db : Database} {store store' : σ} {stored : StoredObject}
    (assembled : app.storage.completeMultipartUpload upload.bucket upload.objectKey
      upload.storageKey parts store = (.ok stored, store'))
    (vacant : db.occupied identity.tenantId upload.bucket upload.objectKey = false)
    (fits : upload.fits app.settings.database.dialect = true) :
    ∃ db', (assemble app identity upload parts now).run db store =
      (.ok (completedFileObject app identity upload db.nextId stored now, db'), store') := by
  have called : ∀ db, (Program.onStore .completeMultipartUpload
      (app.storage.completeMultipartUpload upload.bucket upload.objectKey upload.storageKey parts) :
      Handler σ StoredObject).run db store = (.ok (stored, db), store') := by
    intro db
    rw [Program.run_onStore, assembled]
    rfl
  have inserted : (FileRepository.insertFile app.settings.database.dialect
      (completedFileObject app identity upload db.nextId stored now)).run
        (db.updateUpload upload.id (·.setStatus .completing)) store' =
      (.ok ((), (db.updateUpload upload.id (·.setStatus .completing)).addFile
        (completedFileObject app identity upload db.nextId stored now)), store') := by
    rw [insertFile_run, if_neg fun long => Bool.false_ne_true (long.symm.trans fits), if_neg]
    exact Bool.eq_false_iff.mp vacant
  unfold assemble UploadRepository.flushUpload newId
  rw [Program.run_modify_bind, Program.run_bind_ok (called _), Program.run_ask_bind]
  dsimp only [Database.updateUpload_nextId]
  rw [Program.run_bind_ok inserted, Program.run_modify_bind]
  exact ⟨_, rfl⟩

theorem mul_partSize_le {totalSize partSize number : Nat} (positive : 0 < partSize)
    (early : number < totalParts totalSize partSize) (first : 1 ≤ number) :
    number * partSize ≤ totalSize := by
  rcases Nat.eq_zero_or_pos totalSize with empty | nonempty
  · rw [empty, totalParts_zero positive] at early
    omega
  · exact (partOffset_lt positive nonempty (Nat.succ_le_of_lt early)).le

/-- A part of the SDK has the length that the endpoint asks for. -/
theorem checkPartSize_slice {upload : UploadSession} {content : Bytes} {number minimum : Nat}
    (laidOut : LaidOut app upload.core) (wide : minimum ≤ upload.partSize)
    (sized : content.length = upload.totalSize) (first : 1 ≤ number)
    (last : number ≤ upload.totalParts) :
    checkPartSize minimum upload number
      (slice upload.partSize content (number - 1)).length = .ok () := by
  have positive : 0 < upload.partSize := laidOut.positive
  have parts : upload.totalParts = totalParts upload.totalSize upload.partSize := laidOut.parts
  have length := slice_length upload.partSize content (number - 1)
  unfold checkPartSize
  rw [if_neg]
  rintro (long | ⟨short, early, _⟩)
  · omega
  · have full := mul_partSize_le positive
      (parts ▸ Nat.lt_of_le_of_ne last early : number < totalParts upload.totalSize upload.partSize)
      first
    have before : (number - 1) * upload.partSize + upload.partSize = number * upload.partSize := by
      rw [← Nat.succ_mul, Nat.succ_eq_add_one, Nat.sub_add_cancel first]
    omega

/-- A session with a row for every number has rows enough. -/
theorem committed_enough {db : Database} (sound : PartsInRange db) {upload : UploadSession}
    (rows : ∀ number ∈ List.range' 1 upload.totalParts,
      ∃ row ∈ db.uploadParts, row.key = (upload.id, number)) :
    upload.totalParts ≤ (committedOf (db.partsOf upload.id)).length := by
  have reported : List.range' 1 upload.totalParts ⊆
      (committedOf (db.partsOf upload.id)).map (·.partNumber) := by
    intro number inside
    obtain ⟨part, present, key⟩ := rows number inside
    obtain ⟨owner, same⟩ := Prod.mk.inj key
    have committed := sound.committed part present
    refine List.mem_map.mpr ⟨part, List.mem_filter.mpr ⟨mem_partsOf.mpr ⟨present, owner⟩, ?_⟩, same⟩
    exact decide_eq_true committed
  have shorter := (List.Nodup.subperm List.nodup_range' reported).length_le
  rwa [List.length_range', List.length_map] at shorter

end Forward

section OnDisk

variable {settings : Settings} {nfc : String → String} {sha256 : Bytes → String}

private theorem storedParts_run {upload : UploadSession} (committed : List UploadPart) {db : Database}
    {store : LocalState} {parts : List UploadedPart}
    (laidOut : LaidOut (localApp settings nfc sha256) upload.core)
    (listed : listParts upload.storageKey store = .ok parts) (filled : parts ≠ []) :
    (storedParts (localApp settings nfc sha256) upload committed).run db store =
      (.ok (parts, db), store) := by
  have key := storageKey_local laidOut
  have named : upload.storageId? = some (.session upload.id) := by
    have stored : upload.storageUploadId = some (.session upload.id) := laidOut.storageId rfl
    rw [UploadSession.storageId?, stored]
  have matched : etagMismatch committed parts = none := by
    have untagged : ∀ part ∈ parts, part.etag = "" := by
      cases listed
      intro part member
      obtain ⟨number, _, rfl⟩ := List.mem_map.mp member
      rfl
    unfold etagMismatch
    rw [Option.map_eq_none_iff, List.find?_eq_none]
    intro part member
    cases committed.find? fun row => decide (row.partNumber = part.partNumber) with
    | none => simp
    | some row => simp [untagged part member]
  have answered : (Program.askStore .listParts (listParts (.session upload.id)) :
      Handler LocalState (List UploadedPart)).run db store = (.ok (parts, db), store) := by
    rw [Program.run_askStore, ← key, listed]
    rfl
  unfold storedParts
  rw [named]
  change (Program.askStore .listParts (listParts (.session upload.id)) >>= _ :
    Handler LocalState (List UploadedPart)).run db store = _
  rw [Program.run_bind_ok answered]
  simp only [filled, false_and, if_false, matched]
  rfl

/-- The session while its parts are sent: everything else stands as it did. -/
structure Sending (identity : Identity) (upload : UploadSession) (content : Bytes)
    (origin world : World Database LocalState) (sent : List Nat) : Prop where
  session : ∃ row, world.db.findUpload upload.id identity.tenantId = some row ∧
    row.core = upload.core ∧ (row.status = .initiated ∨ row.status = .uploading)
  files : world.db.fileObjects = origin.db.fileObjects
  tree : world.store.tree = origin.store.tree
  quiet : world.store.faults = []
  rows : ∀ number ∈ sent, ∃ row ∈ world.db.uploadParts, row.key = (upload.id, number)
  stored : ∀ number ∈ sent, (partFiles world.store (.session upload.id)).lookup number =
    some (slice upload.partSize content (number - 1))

theorem partAccepted_fileObjects (db : Database) (upload : UploadSession) (part : UploadPart)
    (now : Timestamp) : (partAccepted db upload part now).fileObjects = db.fileObjects := by
  unfold partAccepted
  rw [Database.updateUpload_fileObjects, Database.upsertPart_fileObjects]
  split <;> rfl

/-- The columns that lay out the parts are those of the session row, whatever its status. -/
theorem core_layout {row upload : UploadSession} (same : row.core = upload.core) :
    row.id = upload.id ∧ row.bucket = upload.bucket ∧ row.objectKey = upload.objectKey ∧
      row.totalSize = upload.totalSize ∧ row.partSize = upload.partSize ∧
      row.totalParts = upload.totalParts := by
  have columns : ∀ {α : Type} (column : UploadSession → α), column row.core = column upload.core :=
    fun column => congrArg column same
  exact ⟨columns (·.id), columns (·.bucket), columns (·.objectKey), columns (·.totalSize),
    columns (·.partSize), columns (·.totalParts)⟩

theorem Sending.send {identity : Identity} {upload : UploadSession} {content : Bytes}
    {origin world : World Database LocalState} {sent : List Nat} {number : Nat} (now : Timestamp)
    (sending : Sending identity upload content origin world sent)
    (laidOut : LaidOut (localApp settings nfc sha256) upload.core)
    (wide : settings.uploads.multipart.minimumPartSizeBytes ≤ upload.partSize)
    (sized : content.length = upload.totalSize) (first : 1 ≤ number)
    (last : number ≤ upload.totalParts) :
    let served := serve (localApp settings nfc sha256) world
      (Sdk.uploadPart sha256 identity upload content number, now)
    (∃ part, served.1 = .ok (.part part)) ∧
      Sending identity upload content origin served.2 (number :: sent) := by
  obtain ⟨row, found, core, open_⟩ := sending.session
  obtain ⟨named, _, _, total, size, count⟩ := core_layout core
  have parts : upload.totalParts = totalParts content.length upload.partSize := by
    rw [sized]
    exact laidOut.parts
  have body : Sdk.partBody content upload.totalSize upload.partSize number =
      slice upload.partSize content (number - 1) := by
    rw [← sized]
    exact Sdk.partBody_eq_slice laidOut.positive (parts ▸ last)
  have active : ensureActive row = .ok () := by
    unfold ensureActive
    rcases open_ with status | status <;> rw [status]
  have inRange : checkPartNumber row (number : Int) = .ok number := by
    unfold checkPartNumber
    rw [count, if_pos (by omega), Int.toNat_natCast]
  have laidOut' : LaidOut (localApp settings nfc sha256) row.core := core ▸ laidOut
  have fits : checkPartSize
      (localApp settings nfc sha256).settings.uploads.multipart.minimumPartSizeBytes row number
        (slice upload.partSize content (number - 1)).length = .ok () := by
    rw [← size]
    exact checkPartSize_slice laidOut' (size ▸ wide) (sized.trans total.symm) first
      (last.trans_eq count.symm)
  have key : row.storageKey = .session upload.id := (storageKey_local laidOut').trans (by rw [named])
  have put := uploadPart_run sha256 (.session upload.id) number
    (slice upload.partSize content (number - 1)) world.store
  rw [takeFault_quiet sending.quiet, if_pos rfl] at put
  have ran := proxyUploadPart_run (slice upload.partSize content (number - 1))
    (slice upload.partSize content (number - 1)).length
    (some (Sdk.partSha256 sha256 content upload.totalSize upload.partSize number)) now found active
    inRange fits world.store
  simp only [localApp, LocalStorageAdapter, key, put] at ran
  have served := World.execute_wrap_ok ran Reply.part
  rw [Sdk.uploadPart, body, serve, handle, localApp, LocalStorageAdapter, served]
  generalize storedPart : storedRow row number _ _ = part
  have partKey : part.key = (upload.id, number) := by
    rw [← storedPart]
    exact Prod.ext named rfl
  refine ⟨⟨part, rfl⟩, ?_⟩
  refine {
    session := ?_
    files := (partAccepted_fileObjects _ _ _ _).trans sending.files
    tree := sending.tree
    quiet := sending.quiet
    rows := fun other member => ?_
    stored := fun other member => ?_ }
  · rw [← named] at found
    obtain ⟨next, foundNext, sameCore, status⟩ := findUpload_partAccepted part now found
    refine ⟨next, named ▸ foundNext, sameCore.trans core, .inr (status.trans ?_)⟩
    rcases open_ with initiated | uploading
    · rw [if_pos initiated]
    · rw [uploading, if_neg UploadStatus.noConfusion]
  · have started : (if row.status = .initiated then
        world.db.updateUpload row.id (·.setStatus .uploading) else world.db).uploadParts =
          world.db.uploadParts := by
      split <;> rfl
    change ∃ row' ∈ (Database.upsertPart _ part).uploadParts, row'.key = (upload.id, other)
    by_cases same : other = number
    · rw [same, ← partKey]
      exact upsertPart_added _ part
    · obtain ⟨old, present, oldKey⟩ :=
        sending.rows other ((List.mem_cons.mp member).resolve_left same)
      refine ⟨old, upsertPart_kept (started.symm ▸ present) fun clash => same ?_, oldKey⟩
      rw [oldKey, partKey] at clash
      exact (Prod.mk.inj clash).2
  · change (partFiles (setPartFiles world.store (.session upload.id) _)
      (.session upload.id)).lookup other = _
    rw [partFiles_setPartFiles, if_pos rfl]
    by_cases same : other = number
    · rw [same]
      exact AList.lookup_insert _
    · rw [AList.lookup_insert_ne same]
      exact sending.stored other ((List.mem_cons.mp member).resolve_left same)

/-- The requests that send the listed parts, each at its time. -/
def sends (sha256 : Bytes → String) (identity : Identity) (upload : UploadSession)
    (content : Bytes) (puts : List (Nat × Timestamp)) : List Timed :=
  puts.map fun put => (Sdk.uploadPart sha256 identity upload content put.1, put.2)

theorem Sending.sendAll {identity : Identity} {upload : UploadSession} {content : Bytes}
    {origin world : World Database LocalState} {sent : List Nat}
    (sending : Sending identity upload content origin world sent)
    (laidOut : LaidOut (localApp settings nfc sha256) upload.core)
    (wide : settings.uploads.multipart.minimumPartSizeBytes ≤ upload.partSize)
    (sized : content.length = upload.totalSize) {puts : List (Nat × Timestamp)}
    (inRange : ∀ put ∈ puts, 1 ≤ put.1 ∧ put.1 ≤ upload.totalParts) :
    (∀ done next rest, sends sha256 identity upload content puts = done ++ next :: rest →
      ∃ part, (serve (localApp settings nfc sha256)
        (after (localApp settings nfc sha256) world done) next).1 = .ok (.part part)) ∧
      ∃ numbers, (∀ number, number ∈ numbers ↔ number ∈ sent ∨ ∃ at_, (number, at_) ∈ puts) ∧
        Sending identity upload content origin (after (localApp settings nfc sha256) world
          (sends sha256 identity upload content puts)) numbers := by
  induction puts generalizing world sent with
  | nil =>
    refine ⟨fun done next rest split => ?_, sent, by simp, sending⟩
    have empty := congrArg List.length split
    simp [sends] at empty
  | cons put others ih =>
    obtain ⟨first, last⟩ := inRange put (by simp)
    obtain ⟨accepted, next⟩ := sending.send put.2 laidOut wide sized first last
    obtain ⟨all, numbers, listed, finished⟩ :=
      ih next fun other member => inRange other (List.mem_cons_of_mem _ member)
    refine ⟨fun done step rest split => ?_, numbers, fun number => ?_, finished⟩
    · rcases List.cons_eq_append_iff.mp split with ⟨rfl, same⟩ | ⟨before, rfl, same⟩
      · cases same
        exact accepted
      · exact all before step rest same
    · rw [listed, List.mem_cons]
      constructor
      · rintro ((rfl | old) | ⟨at_, member⟩)
        · exact .inr ⟨put.2, by simp⟩
        · exact .inl old
        · exact .inr ⟨at_, List.mem_cons_of_mem _ member⟩
      · rintro (old | ⟨at_, member⟩)
        · exact .inl (.inr old)
        · rcases List.mem_cons.mp member with rfl | later
          · exact .inl (.inl rfl)
          · exact .inr ⟨at_, later⟩

/-- The parts of a content, put together by their numbers, are the content. -/
theorem contents_whole {files : PartFiles} {parts : List UploadedPart} {content : Bytes}
    {partSize count : Nat} (covers : content.length ≤ count * partSize)
    (numbers : (parts.map (·.partNumber)).Perm (List.range' 1 count))
    (stored : ∀ number ∈ List.range' 1 count,
      files.lookup number = some (slice partSize content (number - 1))) :
    contents files (sortedParts parts) = content :=
  @joined_whole (files.lookup ·) parts content partSize count covers numbers stored

/-- With every part sent, the session is completed from all of them. -/
theorem Sending.complete {identity : Identity} {upload : UploadSession} {content : Bytes}
    {origin world : World Database LocalState} {sent : List Nat} (now : Timestamp)
    (sending : Sending identity upload content origin world sent)
    (sound : Integrity (localApp settings nfc sha256) world.db)
    (staged : @Staged _ (localApp settings nfc sha256) (localBackend sha256) world)
    (sized : content.length = upload.totalSize)
    (all : ∀ number, 1 ≤ number → number ≤ upload.totalParts → number ∈ sent)
    (opens : Opens origin.store upload.bucket upload.objectKey)
    (free : origin.store.tree.node? (objectPath upload.bucket upload.objectKey) ≠ some .directory)
    (vacant : origin.db.occupied identity.tenantId upload.bucket upload.objectKey = false) :
    let served := serve (localApp settings nfc sha256) world (.complete identity upload.id, now)
    ∃ file, served.1 = .ok (.file file) ∧ file.sizeBytes = content.length ∧
      view.object? served.2.store upload.bucket upload.objectKey = some content := by
  obtain ⟨row, found, core, open_⟩ := sending.session
  obtain ⟨named, bucket, objectKey, total, size, count⟩ := core_layout core
  obtain ⟨member, _⟩ := Database.findUpload_some found
  have laidOut := sound.laidOut row.core (mem_cores member)
  have key : row.storageKey = .session upload.id := (storageKey_local laidOut).trans (by rw [named])
  have layout : upload.totalParts = totalParts content.length upload.partSize := by
    rw [sized, ← count, ← total, ← size]
    exact laidOut.parts
  have positive : 0 < upload.partSize := size ▸ laidOut.positive
  have within : ∀ number ∈ List.range' 1 upload.totalParts, number ∈ sent := by
    intro number inside
    rw [List.mem_range'_1] at inside
    exact all number inside.1 (by omega)
  obtain ⟨parts, listed⟩ : ∃ parts, listParts row.storageKey world.store = .ok parts := ⟨_, rfl⟩
  have names := (listParts_ok listed).2
  have stored : ∀ number ∈ List.range' 1 upload.totalParts,
      (partFiles world.store row.storageKey).lookup number =
        some (slice upload.partSize content (number - 1)) := by
    intro number inside
    rw [key]
    exact sending.stored number (within number inside)
  have numbers : (parts.map (·.partNumber)).Perm (List.range' 1 upload.totalParts) := by
    rw [← count]
    refine @Staged.listed_perm _ (localApp settings nfc sha256) (localBackend sha256) world staged
      row member row.bucket row.objectKey parts listed fun number inside => ?_
    exact AList.lookup_isSome.mp (Option.isSome_of_eq_some (stored number (count ▸ inside)))
  have enough : row.totalParts ≤ (committedOf (world.db.partsOf row.id)).length := by
    refine committed_enough sound.parts fun number inside => ?_
    rw [named]
    exact sending.rows number (within number (count ▸ inside))
  have filled : parts ≠ [] := by
    rintro rfl
    have one := one_le_totalParts content.length upload.partSize
    have lengths := numbers.length_eq
    rw [List.length_range', List.map_nil, List.length_nil] at lengths
    omega
  have prepared := partsToComplete_run enough (storedParts_run _ laidOut listed filled) open_
  have present : ∀ part ∈ parts, part.partNumber ∈ partFiles world.store row.storageKey :=
    fun part inside => (names part.partNumber).mp (List.mem_map_of_mem inside)
  have ran : ¬ Interrupted world.store row.bucket row.objectKey := by
    rintro (fault | directory)
    · rw [takeFault_quiet sending.quiet] at fault
      exact fault rfl
    · rw [sending.tree, bucket, objectKey] at directory
      exact free directory
  have opens' : Opens world.store row.bucket row.objectKey := by
    unfold Opens
    rw [sending.tree, bucket, objectKey]
    exact opens
  obtain ⟨object, store', assembled⟩ := complete_run sha256 present opens' ran
  have vacant' : world.db.occupied identity.tenantId row.bucket row.objectKey = false := by
    rw [Database.occupied, sending.files, bucket, objectKey]
    exact vacant
  obtain ⟨db', finished⟩ := @assemble_run _ (localApp settings nfc sha256) identity row parts now
    world.db world.store store' object assembled vacant' laidOut.fits
  have unfinished : row.status.terminal = false := by
    rcases open_ with status | status <;> rw [status] <;> rfl
  have done := complete_unfinished (localApp settings nfc sha256) now found unfinished world.store
  rw [Program.run_bind_ok prepared, finished] at done
  have served := World.execute_wrap_ok done Reply.file
  refine ⟨completedFileObject (localApp settings nfc sha256) identity row world.db.nextId object now,
    ?_, ?_, ?_⟩
  · rw [serve, handle, served]
  · exact total.trans sized.symm
  · have content' := (LocalStorageAdapter.complete_ok assembled).1
    have covers : content.length ≤ upload.totalParts * upload.partSize :=
      layout ▸ totalParts_covers content.length positive
    rw [contents_whole covers numbers stored, bucket, objectKey] at content'
    rw [serve, handle, served]
    exact content'

end OnDisk

end PyUploadX
