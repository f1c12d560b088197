import PyUploadX.Sdk.UploadDirectory
import PyUploadX.Services.WholeUpload

/-! A file in one request, and the same file through a session. -/
namespace PyUploadX

open Kit UploadService

variable {σ : Type} {app : AppState σ}

/-- The session for the same file; the client chooses the part size and the mode. -/
def ProxyUpload.session (request : ProxyUpload) (partSize : Option Int) (uploadMode : String) :
    CreateSession where
  bucket := request.bucket
  objectKey := request.objectKey
  originalFilename := request.originalFilename
  contentType := request.contentType
  totalSize := request.stream.length
  partSize
  uploadMode
  fileFingerprint := request.fileFingerprint
  expectedSha256 := request.checksumSha256
  lifecycle := request.lifecycle
  metadata := request.metadata

/-- A part that is sent: its number, its checksum, and the time. -/
structure SentPart where
  number : Int
  checksumSha256 : Option String := none
  time : Timestamp

/-- The requests that send slices of the content, in any order and with any repetitions. -/
def partRequests (identity : Identity) (upload : UploadSession) (content : Bytes)
    (sent : List SentPart) : List Timed :=
  sent.map fun part =>
    (.proxyUploadPart identity upload.id part.number
      (slice upload.partSize content (part.number.toNat - 1)) part.checksumSha256, part.time)

/-- The columns that both paths fill from the same parameters. -/
structure SameColumns (first second : FileObject) : Prop where
  objectKey : first.objectKey = second.objectKey
  originalFilename : first.originalFilename = second.originalFilename
  sizeBytes : first.sizeBytes = second.sizeBytes
  contentType : first.contentType = second.contentType
  checksumAlgorithm : first.checksumAlgorithm = second.checksumAlgorithm
  checksumValue : first.checksumValue = second.checksumValue
  fileFingerprint : first.fileFingerprint = second.fileFingerprint
  metadata : first.metadata = second.metadata
  lifecycleMode : first.lifecycleMode = second.lifecycleMode
  lifecycleAction : first.lifecycleAction = second.lifecycleAction
  ttlSeconds : first.ttlSeconds = second.ttlSeconds
  lifecycleSource : first.lifecycleSource = second.lifecycleSource
  status : first.status = second.status

/-- The row of a completion reads only columns that no request changes. -/
theorem completedFileObject_core (identity : Identity) (upload : UploadSession) (id : Uuid)
    (stored : StoredObject) (now : Timestamp) :
    completedFileObject app identity upload.core id stored now =
      completedFileObject app identity upload id stored now := rfl

/-- The session while its parts are sent: every row it has stands for its slice. -/
structure Receiving (backend : PartBackend app.storage) (identity : Identity)
    (upload : UploadSession) (content : Bytes) (world : World Database σ) : Prop where
  session : ∃ row, world.db.findUpload upload.id identity.tenantId = some row ∧
    row.core = upload.core ∧ (row.status = .initiated ∨ row.status = .uploading)
  slices : ∀ part ∈ world.db.uploadParts, part.uploadId = upload.id →
    backend.part? world.store upload.bucket upload.objectKey upload.storageKey part.partNumber =
      some (slice upload.partSize content (part.partNumber - 1))

theorem partAccepted_uploadParts (db : Database) (upload : UploadSession) (part : UploadPart)
    (now : Timestamp) : (partAccepted db upload part now).uploadParts =
      (db.upsertPart part).uploadParts := by
  have started : ∀ change : UploadSession → UploadSession,
      ((db.updateUpload upload.id change).upsertPart part).uploadParts =
        (db.upsertPart part).uploadParts := by
    intro change
    unfold Database.upsertPart
    dsimp only
    rw [apply_ite Database.uploadParts, apply_ite Database.uploadParts]
    rfl
  unfold partAccepted
  split
  · exact started _
  · rfl

/-- The number of a part that is in range is the one that was asked for. -/
theorem checkPartNumber_toNat {upload : UploadSession} {partNumber : Int} {number : Nat}
    (inRange : checkPartNumber upload partNumber = .ok number) : number = partNumber.toNat := by
  unfold checkPartNumber at inRange
  split at inRange
  · cases inRange
    rfl
  · cases inRange

theorem Receiving.receive {backend : PartBackend app.storage} {identity : Identity}
    {upload : UploadSession} {content : Bytes} {world : World Database σ}
    (receiving : Receiving backend identity upload content world) (part : SentPart)
    (accepted : Accepted app world
      (.proxyUploadPart identity upload.id part.number
        (slice upload.partSize content (part.number.toNat - 1)) part.checksumSha256, part.time)) :
    Receiving backend identity upload content
      (serve app world (.proxyUploadPart identity upload.id part.number
        (slice upload.partSize content (part.number.toNat - 1)) part.checksumSha256,
          part.time)).2 := by
  obtain ⟨reply, answered⟩ := accepted
  obtain ⟨_, done, _⟩ := Program.bind_pure_eq_ok.mp (World.execute_committed answered)
  have served := World.execute_wrap_ok done Reply.part
  obtain ⟨row, number, stored, found, _, inRange, _, put, written, committed⟩ :=
    proxyUploadPart_ok done
  obtain ⟨known, same, core, open_⟩ := receiving.session
  rw [same] at found
  cases found
  obtain ⟨named, bucket, objectKey, _, _, _⟩ := core_layout core
  have key : row.storageKey = upload.storageKey := congrArg (·.storageKey) core
  rw [bucket, objectKey, key] at put
  have numbered := checkPartNumber_toNat inRange
  rw [serve, handle, served, committed]
  constructor
  · rw [← named] at same ⊢
    obtain ⟨next, foundNext, sameCore, status⟩ := findUpload_partAccepted _ part.time same
    refine ⟨next, foundNext, sameCore.trans core, .inr (status.trans ?_)⟩
    rcases open_ with initiated | uploading
    · rw [if_pos initiated]
    · rw [uploading, if_neg UploadStatus.noConfusion]
  · intro other member owner
    rw [partAccepted_uploadParts] at member
    dsimp only
    rcases upsertPart_mem member with ⟨samePart, _⟩ | ⟨old, different⟩
    · have sameNumber : other.partNumber = number := by
        rw [(Prod.mk.inj samePart).2, written]
        rfl
      rw [sameNumber, backend.uploadPart_stores put, numbered]
    · have otherNumber : other.partNumber ≠ number := by
        intro sameNumber
        apply different
        rw [written]
        exact Prod.ext (owner.trans named.symm) sameNumber
      have kept := backend.uploadPart_others upload.bucket upload.objectKey upload.storageKey number
        (slice upload.partSize content (part.number.toNat - 1))
        (slice upload.partSize content (part.number.toNat - 1)).length part.checksumSha256
        world.store other.partNumber otherNumber
      rw [put] at kept
      rw [kept]
      exact receiving.slices other old owner

theorem Receiving.receiveAll {backend : PartBackend app.storage} {identity : Identity}
    {upload : UploadSession} {content : Bytes} {world : World Database σ} {sent : List SentPart}
    (receiving : Receiving backend identity upload content world)
    (accepted : EachMeets app (Accepted app) world (partRequests identity upload content sent)) :
    Receiving backend identity upload content
      (after app world (partRequests identity upload content sent)) := by
  induction sent generalizing world with
  | nil => exact receiving
  | cons part rest ih => exact ih (receiving.receive part accepted.1) accepted.2

theorem after_request (app : AppState σ) (origin : World Database σ) (earlier : List Timed)
    (timed : Timed) (later : List Timed) :
    after app (serve app (after app origin earlier) timed).2 later =
      after app origin (earlier ++ timed :: later) := by
  rw [after_append, after_cons]

private theorem findUpload_insertUpload {db : Database} {upload : UploadSession}
    (new : ∀ row ∈ db.uploadSessions, row.id ≠ upload.id) :
    (db.insertUpload upload).findUpload upload.id upload.tenantId = some upload := by
  have absent : db.uploadSessions.find? (fun row =>
      decide (row.id = upload.id ∧ row.tenantId = upload.tenantId)) = none := by
    refine List.find?_eq_none.mpr fun row member named => ?_
    exact new row member (of_decide_eq_true named).1
  unfold Database.findUpload Database.insertUpload
  rw [List.find?_append, absent, Option.none_or]
  exact List.find?_cons_of_pos (decide_eq_true ⟨rfl, rfl⟩)

/-- A new session has no part yet. -/
theorem createSession_receiving (backend : PartBackend app.storage) {identity : Identity}
    {request : CreateSession} {upload : UploadSession} {now : Timestamp} {world : World Database σ}
    (sound : Integrity app world.db) (content : Bytes)
    (created : (serve app world (.createSession identity request, now)).1 = .ok (.upload upload)) :
    Receiving backend identity upload content
      (serve app world (.createSession identity request, now)).2 := by
  obtain ⟨_, done, same⟩ := Program.bind_pure_eq_ok.mp (World.execute_committed created)
  cases same
  have served := World.execute_wrap_ok done Reply.upload
  obtain ⟨safeKey, layout, mode, effective, storageUploadId, lifetime, _, _, _, _, _, _, _, row,
    committed⟩ := createSession_ok done
  have id : upload.id = world.db.nextId := by rw [row]; rfl
  have owner : upload.tenantId = identity.tenantId := by rw [row]; rfl
  have status : upload.status = .initiated := by rw [row]; rfl
  rw [serve, handle, served, committed]
  constructor
  · refine ⟨upload, ?_, rfl, .inl status⟩
    rw [← owner]
    refine findUpload_insertUpload fun old member clash => ?_
    have older := sound.ids.uploadsOld old.core (mem_cores member)
    exact older.ne (clash.trans id)
  · intro part member owned
    have older := sound.parts.owned part member
    exact absurd (owned.trans id) older.ne

/-- Every row of the session has its slice in the storage. -/
theorem Receiving.rowsStored {backend : PartBackend app.storage} {identity : Identity}
    {upload row : UploadSession} {content : Bytes} {world : World Database σ}
    (receiving : Receiving backend identity upload content world)
    (sound : Integrity app world.db) (member : row ∈ world.db.uploadSessions)
    (core : row.core = upload.core) :
    (∀ number ∈ committedNumbers world.db row,
      backend.part? world.store row.bucket row.objectKey row.storageKey number =
        some (slice upload.partSize content (number - 1))) ∧
    RowsStored backend.toStoreView world row := by
  obtain ⟨named, bucket, objectKey, _, _, _⟩ := core_layout core
  have key : row.storageKey = upload.storageKey := congrArg (·.storageKey) core
  have slices : ∀ number ∈ committedNumbers world.db row,
      backend.part? world.store row.bucket row.objectKey row.storageKey number =
        some (slice upload.partSize content (number - 1)) := by
    intro number listed
    obtain ⟨part, inRows, rfl⟩ := List.mem_map.mp listed
    obtain ⟨inTable, owner⟩ := mem_partsOf.mp (List.mem_of_mem_filter inRows)
    rw [bucket, objectKey, key]
    exact receiving.slices part inTable (owner.trans named)
  refine ⟨slices, fun number listed => ?_⟩
  have bounds := (committedNumbers_sound sound member).2 number listed
  exact backend.hasPart_of_part bounds.1 (slices number listed)

/-- A session whose parts were all sent and taken is completed as the content. -/
theorem Receiving.complete {backend : PartBackend app.storage} {identity : Identity}
    {upload : UploadSession} {content : Bytes} {world : World Database σ} {later : Timestamp}
    {file : FileObject} (receiving : Receiving backend identity upload content world)
    (sound : Integrity app world.db) (staged : Staged backend.toBackend world)
    (sized : upload.totalSize = content.length)
    (completed : (serve app world (.complete identity upload.id, later)).1 = .ok (.file file)) :
    (∃ id stored, file = completedFileObject app identity upload id stored later) ∧
      backend.object? (serve app world (.complete identity upload.id, later)).2.store upload.bucket
        upload.objectKey = some content ∧
      world.db.occupied identity.tenantId upload.bucket upload.objectKey = false := by
  obtain ⟨_, done, same⟩ := Program.bind_pure_eq_ok.mp (World.execute_committed completed)
  cases same
  have served := World.execute_wrap_ok done Reply.file
  obtain ⟨known, found, core, open_⟩ := receiving.session
  obtain ⟨row, present, outcome⟩ := complete_ok done
  rw [found] at present
  cases present
  rcases outcome with ⟨finished, _⟩ | ⟨parts, stored, _, prepared, assembled, written, vacant, _⟩
  · rw [finished] at open_
    rcases open_ with other | other <;> cases other
  · obtain ⟨named, bucket, objectKey, total, size, count⟩ := core_layout core
    have key : known.storageKey = upload.storageKey := congrArg (·.storageKey) core
    obtain ⟨member, _⟩ := Database.findUpload_some found
    have laidOut := sound.laidOut known.core (mem_cores member)
    obtain ⟨enough, _, _⟩ := partsToComplete_ok prepared
    have rows := committedNumbers_perm sound member enough
    obtain ⟨slices, kept⟩ := receiving.rowsStored sound member core
    obtain ⟨numbers, _⟩ := (handed_whole_iff backend.toBackend sound staged member
      (handedParts_some.mpr prepared)).mpr kept
    have covers : content.length ≤ known.totalParts * upload.partSize := by
      have parts : known.totalParts = totalParts known.totalSize known.partSize := laidOut.parts
      rw [parts, total, size, sized]
      exact totalParts_covers content.length (size ▸ laidOut.positive)
    have whole := joined_whole covers numbers fun number inside =>
      slices number (rows.mem_iff.mpr inside)
    refine ⟨⟨world.db.nextId, stored, ?_⟩, ?_, ?_⟩
    · rw [written, ← completedFileObject_core, core, completedFileObject_core]
    · have object := backend.complete_joins assembled
      rw [whole, bucket, objectKey] at object
      rw [serve, handle, served]
      exact object
    · rw [← bucket, ← objectKey]
      exact vacant

/-- Both ways of storing a file give it the same object and, exactly when it has no metadata,
the same columns: a session keeps none. -/
theorem upload_paths_agree_iff (app : AppState σ) (backend : PartBackend app.storage)
    (origin : World Database σ) (initial : origin.db.Initial)
    (unstaged : ∀ bucket key id number,
      ¬ backend.hasPart origin.store bucket key (.session id) number)
    (earlier : List Timed) (identity : Identity) (request : ProxyUpload) (partSize : Option Int)
    (uploadMode : String) (now : Timestamp) (single : FileObject)
    (direct : (serve app (after app origin earlier) (.proxyUpload identity request, now)).1 =
      .ok (.file single))
    (upload : UploadSession)
    (created : (serve app (after app origin earlier)
      (.createSession identity (request.session partSize uploadMode), now)).1 =
        .ok (.upload upload))
    (sent : List SentPart)
    (accepted : EachMeets app (Accepted app)
      (serve app (after app origin earlier)
        (.createSession identity (request.session partSize uploadMode), now)).2
      (partRequests identity upload request.stream sent))
    (later : Timestamp) (file : FileObject)
    (completed : (serve app
      (after app (serve app (after app origin earlier)
        (.createSession identity (request.session partSize uploadMode), now)).2
        (partRequests identity upload request.stream sent))
      (.complete identity upload.id, later)).1 = .ok (.file file)) :
    let afterOne := (serve app (after app origin earlier) (.proxyUpload identity request, now)).2
    let afterAll := (serve app
      (after app (serve app (after app origin earlier)
        (.createSession identity (request.session partSize uploadMode), now)).2
        (partRequests identity upload request.stream sent))
      (.complete identity upload.id, later)).2
    (SameColumns single file ∧
      backend.object? afterOne.store request.bucket single.objectKey =
        backend.object? afterAll.store request.bucket single.objectKey) ↔
    request.metadata = [] := by
  intro afterOne afterAll
  have sound := after_integrity app initial earlier
  have receiving := (createSession_receiving backend sound request.stream created).receiveAll accepted
  have reached := after_request app origin earlier
    (.createSession identity (request.session partSize uploadMode), now)
    (partRequests identity upload request.stream sent)
  obtain ⟨_, opened, same⟩ := Program.bind_pure_eq_ok.mp (World.execute_committed created)
  cases same
  obtain ⟨safeKey, layout, mode, effective, storageUploadId, lifetime, normalized, _, _, _, _,
    decided, _, row, _⟩ := createSession_ok opened
  have sized : upload.totalSize = request.stream.length := by
    rw [row]
    exact Int.toNat_natCast _
  obtain ⟨⟨id, stored, written⟩, whole, _⟩ := receiving.complete
    (by rw [reached]; exact after_integrity app initial _)
    (by rw [reached]; exact after_staged backend.toBackend initial unstaged _) sized completed
  obtain ⟨_, done, same⟩ := Program.bind_pure_eq_ok.mp (World.execute_committed direct)
  cases same
  have served := World.execute_wrap_ok done Reply.file
  obtain ⟨safeKey', effective', object, valid, put, uploaded, _, _⟩ := proxyUpload_ok done
  obtain ⟨normalized', _, decided'⟩ := validateUpload_ok valid
  cases normalized.symm.trans normalized'
  cases decided.symm.trans decided'
  have stays : (if app.settings.lifecycle.enabled then effective else none) = effective := by
    rcases effectiveLifecycle_ok decided with ⟨disabled, rfl⟩ | ⟨enabled, _⟩
    · rw [ite_self]
    · rw [if_pos enabled]
  have bytes : backend.object? afterOne.store request.bucket single.objectKey =
      backend.object? afterAll.store request.bucket single.objectKey := by
    have content := backend.putObject_ok put
    have key : single.objectKey = safeKey := by rw [uploaded]; rfl
    have place : upload.bucket = request.bucket ∧ upload.objectKey = safeKey := by
      rw [row]
      exact ⟨rfl, rfl⟩
    rw [place.1, place.2] at whole
    have whole' : backend.object? afterAll.store request.bucket safeKey = some request.stream := whole
    rw [key, whole']
    dsimp only [afterOne]
    rw [serve, handle, served]
    exact content
  rw [and_iff_left bytes]
  constructor
  · intro columns
    have kept := columns.metadata
    rw [uploaded, written] at kept
    exact kept
  · intro empty
    have columns : (completedFileObject app identity upload id stored later).lifecycleMode =
          (lifecycleColumns effective).mode ∧
        (completedFileObject app identity upload id stored later).ttlSeconds =
          (lifecycleColumns effective).ttlSeconds := by
      rw [row]
      constructor
      · exact congrArg (fun policy => (lifecycleColumns policy).mode) stays
      · exact congrArg (fun policy => (lifecycleColumns policy).ttlSeconds) stays
    rw [uploaded, written]
    have size : object.sizeBytes = upload.totalSize := (backend.putObject_size put).trans sized.symm
    refine {
      objectKey := ?_, originalFilename := ?_, sizeBytes := size, contentType := ?_
      checksumAlgorithm := ?_, checksumValue := ?_, fileFingerprint := ?_, metadata := empty
      lifecycleMode := columns.1.symm, lifecycleAction := ?_, ttlSeconds := columns.2.symm
      lifecycleSource := ?_, status := rfl } <;> rw [row] <;> rfl

def smallParts : List SentPart := [{ number := 2, time := 1 }, { number := 1, time := 2 }]

theorem upload_paths_agree_small : ∃ single file : FileObject,
    (serve smallLocalApp ⟨{}, {}⟩ (.proxyUpload smallTenant smallUpload, 0)).1 =
      .ok (.file single) ∧ file.uploadId = some 0 ∧ SameColumns single file := by
  have agree := upload_paths_agree_iff smallLocalApp (localParts _) ⟨{}, {}⟩ (by decide)
    (fun _ _ _ number => AList.notMem_empty number) [] smallTenant smallUpload none "automatic" 0
    _ rfl _ rfl smallParts ⟨⟨_, rfl⟩, ⟨_, rfl⟩, trivial⟩ 3 _ rfl
  exact ⟨_, _, rfl, rfl, (agree.mpr rfl).1⟩

/-- The small file with one entry of metadata. -/
def labelledUpload : ProxyUpload := { smallUpload with metadata := [("owner", "archive")] }

/-- Both ways store it, and only the first keeps its entry. -/
theorem session_drops_metadata : ∃ single upload file,
    (serve smallLocalApp ⟨{}, {}⟩ (.proxyUpload smallTenant labelledUpload, 0)).1 =
      .ok (.file single) ∧
    (serve smallLocalApp ⟨{}, {}⟩
      (.createSession smallTenant (labelledUpload.session none "automatic"), 0)).1 =
        .ok (.upload upload) ∧
    (serve smallLocalApp
      (after smallLocalApp (serve smallLocalApp ⟨{}, {}⟩
        (.createSession smallTenant (labelledUpload.session none "automatic"), 0)).2
        (partRequests smallTenant upload labelledUpload.stream smallParts))
      (.complete smallTenant upload.id, 3)).1 = .ok (.file file) ∧
    single.metadata = [("owner", "archive")] ∧ file.metadata = [] ∧
    ¬ SameColumns single file := by
  refine ⟨_, _, _, rfl, rfl, rfl, rfl, rfl, fun same => ?_⟩
  have kept : [("owner", "archive")] = [] := same.metadata
  cases kept

end PyUploadX
