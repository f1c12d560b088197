import PyUploadX.Storage.S3Uploads
import PyUploadX.System.UploadPaths

/-! The session protocol on disk and on S3: when the one can stand in for the other. -/
namespace PyUploadX

open Kit UploadService

variable {σ : Type} {app : AppState σ}

/-- The mode that a session asks for, where it says nothing the configured one. -/
def requestedMode (app : AppState σ) (db : Database) (request : CreateSession) : String :=
  orText (some request.uploadMode)
    (orText db.overrides.defaultMode app.settings.uploads.defaultMode)

/-- The session uploads in presigned mode: as asked, or automatically for its size. -/
def Presigns (app : AppState σ) (db : Database) (request : CreateSession) : Prop :=
  requestedMode app db request = "presigned" ∨
    requestedMode app db request = "automatic" ∧
      app.settings.uploads.multipart.enabled = true ∧
      db.overrides.directUploadThresholdBytes.getD app.settings.uploads.directUploadThresholdBytes <
        request.totalSize.toNat

instance (app : AppState σ) (db : Database) (request : CreateSession) :
    Decidable (Presigns app db request) :=
  inferInstanceAs (Decidable (_ ∨ _))

private theorem getDefaultMode_run (db : Database) (store : σ) :
    (SettingService.getDefaultMode app).run db store =
      (.ok (orText db.overrides.defaultMode app.settings.uploads.defaultMode, db), store) := by
  unfold SettingService.getDefaultMode
  rw [Program.run_ask]
  cases db.overrides.defaultMode <;> rfl

theorem chooseMode_presigned_iff {request : CreateSession} {db db' : Database} {store store' : σ}
    {mode : UploadMode}
    (chosen : (chooseMode app request.totalSize.toNat request.uploadMode).run db store =
      (.ok (mode, db'), store')) : mode = .presigned ↔ Presigns app db request := by
  have asked : (chooseMode app request.totalSize.toNat request.uploadMode).run db store =
      (if requestedMode app db request = "automatic" then
        if app.settings.uploads.multipart.enabled = true ∧
            db.overrides.directUploadThresholdBytes.getD
              app.settings.uploads.directUploadThresholdBytes < request.totalSize.toNat then
          pure .presigned
        else pure .proxy
      else if requestedMode app db request = "proxy" then pure .proxy
      else if requestedMode app db request = "presigned" then do
        Program.refuseIf (app.storage.capabilities.multipart = false ∧ 0 < request.totalSize.toNat)
          (.api (.storageCapabilityNotSupported "multipart"))
        pure .presigned
      else Program.fail (.api (.invalidUploadMode request.uploadMode)) :
        Handler σ UploadMode).run db store := by
    unfold chooseMode
    rw [Program.run_bind_ok (getDefaultMode_run db store)]
    dsimp only
    change (if requestedMode app db request = "automatic" then _ else _ :
      Handler σ UploadMode).run db store = _
    split
    · rw [SettingService.getDirectThreshold, Program.run_ask_bind]
    · rfl
  rw [asked] at chosen
  unfold Presigns
  split at chosen
  · rename_i automatic
    split at chosen
    · rename_i large
      cases chosen
      exact iff_of_true rfl (.inr ⟨automatic, large⟩)
    · rename_i small
      cases chosen
      refine iff_of_false UploadMode.noConfusion ?_
      rintro (presigned | ⟨_, large⟩)
      · rw [automatic] at presigned
        exact absurd presigned (by decide)
      · exact small large
  · rename_i chosenMode
    split at chosen
    · rename_i proxy
      cases chosen
      refine iff_of_false UploadMode.noConfusion ?_
      rintro (presigned | ⟨automatic, _⟩)
      · rw [proxy] at presigned
        exact absurd presigned (by decide)
      · exact chosenMode automatic
    · split at chosen
      · rename_i presigned
        rw [Program.refuseIf_bind_ok, Program.pure_eq_ok] at chosen
        cases chosen.2.1
        exact iff_of_true rfl (.inl presigned)
      · cases chosen

def sentPart (checksum : Nat → Option String) (clock : Nat → Timestamp) (number : Nat) :
    SentPart where
  number := number
  checksumSha256 := checksum number
  time := clock number

/-- Every number once, in order. -/
def allParts (upload : UploadSession) (checksum : Nat → Option String) (clock : Nat → Timestamp) :
    List SentPart :=
  (List.range' 1 upload.totalParts).map (sentPart checksum clock)

private theorem ensureActive_open {upload : UploadSession}
    (open_ : upload.status = .initiated ∨ upload.status = .uploading) :
    ensureActive upload = .ok () := by
  unfold ensureActive
  rcases open_ with status | status <;> rw [status]

private theorem checkPartNumber_within {upload : UploadSession} {number : Nat} (first : 1 ≤ number)
    (last : number ≤ upload.totalParts) : checkPartNumber upload number = .ok number := by
  unfold checkPartNumber
  rw [if_pos (by omega), Int.toNat_natCast]

theorem partRequests_fileObjects {identity : Identity} {upload : UploadSession} {content : Bytes}
    {sent : List SentPart} {world : World Database σ}
    (accepted : EachMeets app (Accepted app) world (partRequests identity upload content sent)) :
    (after app world (partRequests identity upload content sent)).db.fileObjects =
      world.db.fileObjects := by
  induction sent generalizing world with
  | nil => rfl
  | cons part rest ih =>
    obtain ⟨⟨reply, answered⟩, others⟩ := accepted
    obtain ⟨_, done, _⟩ := Program.bind_pure_eq_ok.mp (World.execute_committed answered)
    have served := World.execute_wrap_ok done Reply.part
    obtain ⟨row, _, _, _, _, _, _, _, _, committed⟩ := proxyUploadPart_ok done
    refine (ih others).trans ?_
    rw [serve, handle, served, committed]
    exact partAccepted_fileObjects _ _ _ _

/-- The slices of a content in order, and the completion. -/
def transfer (app : AppState σ) (world : World Database σ) (identity : Identity)
    (upload : UploadSession) (content : Bytes) (checksum : Nat → Option String)
    (clock : Nat → Timestamp) (later : Timestamp) : Except Failure Reply × World Database σ :=
  serve app
    (after app world (partRequests identity upload content (allParts upload checksum clock)))
    (.complete identity upload.id, later)

/-- Every slice is taken, and the file is stored. -/
structure Transferred (app : AppState σ) (world : World Database σ) (identity : Identity)
    (upload : UploadSession) (content : Bytes) (checksum : Nat → Option String)
    (clock : Nat → Timestamp) (later : Timestamp) (file : FileObject) : Prop where
  accepted : EachMeets app (Accepted app) world
    (partRequests identity upload content (allParts upload checksum clock))
  completed : (transfer app world identity upload content checksum clock later).1 = .ok (.file file)

section OnS3

open S3StorageAdapter

variable {settings : Settings} {nfc : String → String} {sha256 : Bytes → String} {pages : Nat}
  {client : S3Client σ} {view : UploadView σ} {limit : Nat} {identity : Identity}

/-- A session in presigned mode has an open upload on S3; the ids are not empty. -/
theorem createSession_opens (laws : client.UploadLaws view limit) {request : CreateSession}
    {now : Timestamp} {db db' : Database} {store store' : σ} {upload : UploadSession}
    (done : (createSession (s3App settings nfc sha256 pages client) identity request now).run db
      store = (.ok (upload, db'), store'))
    (named : ∀ bucket key text state', client.createMultipartUpload bucket key store =
      (.ok text, state') → text ≠ "")
    (presigns : Presigns (s3App settings nfc sha256 pages client) db request) :
    upload.storageId? = some upload.storageKey ∧
      view.opened store' upload.bucket upload.objectKey upload.storageKey := by
  obtain ⟨safeKey, layout, mode, effective, storageUploadId, lifetime, _, _, _, chosen, _, _,
    initiated, rfl, rfl⟩ := createSession_ok done
  rw [(chooseMode_presigned_iff chosen).mpr presigns, initiateMultipart, if_pos rfl,
    Program.onStore_bind_ok] at initiated
  obtain ⟨issued, store₁, created, ended⟩ := initiated
  cases ended
  obtain ⟨_, answered, rfl⟩ := call_ok created
  have opened := laws.createMultipartUpload_opens answered
  have filled := named _ _ _ _ answered
  have id? : (newSession (s3App settings nfc sha256 pages client) identity request safeKey layout
      mode effective (some (.issued issued)) lifetime db.nextId now).storageId? =
        some (.issued issued) := if_neg filled
  have key : (newSession (s3App settings nfc sha256 pages client) identity request safeKey layout
      mode effective (some (.issued issued)) lifetime db.nextId now).storageKey =
        .issued issued := by
    rw [UploadSession.storageKey, id?]
    rfl
  exact ⟨id?.trans (congrArg some key.symm), key.symm ▸ opened⟩

/-- In proxy mode S3 is not asked for an upload, and the session's own id stands for one. -/
theorem createSession_unopened {request : CreateSession} {now : Timestamp} {db db' : Database}
    {store store' : σ} {upload : UploadSession}
    (done : (createSession (s3App settings nfc sha256 pages client) identity request now).run db
      store = (.ok (upload, db'), store'))
    (proxied : ¬ Presigns (s3App settings nfc sha256 pages client) db request) :
    upload.storageKey = .session upload.id ∧ store' = store := by
  obtain ⟨safeKey, layout, mode, effective, storageUploadId, lifetime, _, _, _, chosen, _, _,
    initiated, rfl, rfl⟩ := createSession_ok done
  have other : mode ≠ .presigned := fun presigned =>
    proxied ((chooseMode_presigned_iff chosen).mp presigned)
  rw [initiateMultipart, if_neg other, Program.pure_eq_ok] at initiated
  obtain ⟨same, sameStore⟩ := initiated
  cases same
  exact ⟨rfl, sameStore⟩

/-- The transfer of a content to S3, with the first parts taken. -/
structure Transferring (laws : client.UploadLaws view limit) (identity : Identity)
    (upload : UploadSession) (content : Bytes) (world : World Database σ) (count : Nat) : Prop where
  receiving : @Receiving σ (s3App settings nfc sha256 pages client)
    (s3Parts sha256 pages client view.toStoreView view.part? laws.toPartLaws) identity upload
    content world
  opened : view.opened world.store upload.bucket upload.objectKey upload.storageKey
  tagged : ∀ part ∈ world.db.uploadParts, part.uploadId = upload.id → ∃ text : String,
    part.etag = some text ∧
      view.tag? world.store upload.bucket upload.objectKey upload.storageKey part.partNumber =
        some text
  rows : ∀ number, 1 ≤ number → number ≤ count →
    ∃ row ∈ world.db.uploadParts, row.key = (upload.id, number)

/-- What S3 stores of a part that is put to an open upload. -/
theorem uploadPart_opened (laws : client.UploadLaws view limit) {bucket : String}
    {key : ObjectKey} {uploadId : StorageUploadId} {number : Nat} (body : Bytes) (size : Nat)
    (checksum : Option String) {state : σ} (first : 1 ≤ number)
    (opened : view.opened state bucket key uploadId) :
    ∃ (text : String) (stored : UploadedPart) (state' : σ),
      uploadPart client bucket key uploadId number body size checksum state = (.ok stored, state') ∧
      stored.etag = text ∧ view.opened state' bucket key uploadId ∧
      view.tag? state' bucket key uploadId number = some text ∧
      ∀ other, other ≠ number →
        view.tag? state' bucket key uploadId other = view.tag? state bucket key uploadId other := by
  have answered := (laws.uploadPart_iff bucket key uploadId number body state first).mpr opened
  have keeps := laws.uploadPart_keeps number body opened
  have others := laws.uploadPart_otherTags bucket key uploadId number body state
  cases put : client.uploadPart bucket key uploadId number body state with
  | mk reply state' =>
    rw [put] at answered keeps others
    cases reply with
    | error error => cases answered
    | ok etag =>
      obtain ⟨text, plain, quoted, known⟩ := laws.uploadPart_tags put
      let stored : UploadedPart :=
        { partNumber := number, etag := text, sizeBytes := size, checksumSha256 := checksum }
      refine ⟨text, stored, state', ?_, rfl, keeps, known, others⟩
      unfold uploadPart call
      rw [put, quoted]
      dsimp only
      rw [etagOf_quoted plain]
      rfl

/-- A slice that S3 is sent while the upload is open is taken. -/
theorem Transferring.send {laws : client.UploadLaws view limit} {upload : UploadSession}
    {content : Bytes} {world : World Database σ} {count : Nat} {part : SentPart}
    (transferring : @Transferring σ settings nfc sha256 pages client view limit laws identity upload
      content world count)
    (laidOut : LaidOut (s3App settings nfc sha256 pages client) upload.core)
    (wide : settings.uploads.multipart.minimumPartSizeBytes ≤ upload.partSize)
    (sized : content.length = upload.totalSize) (numbered : part.number = ((count + 1 : Nat) : Int))
    (last : count + 1 ≤ upload.totalParts) :
    let put : Timed := (.proxyUploadPart identity upload.id part.number
      (slice upload.partSize content (part.number.toNat - 1)) part.checksumSha256, part.time)
    Accepted (s3App settings nfc sha256 pages client) world put ∧
      @Transferring σ settings nfc sha256 pages client view limit laws identity upload content
        (serve (s3App settings nfc sha256 pages client) world put).2 (count + 1) := by
  intro put
  obtain ⟨row, found, core, open_⟩ := transferring.receiving.session
  obtain ⟨named, bucket, objectKey, total, size, parts⟩ := core_layout core
  have key : row.storageKey = upload.storageKey := congrArg (·.storageKey) core
  have toNat : part.number.toNat = count + 1 := by rw [numbered, Int.toNat_natCast]
  have inRange : checkPartNumber row part.number = .ok (count + 1) := by
    rw [numbered]
    exact checkPartNumber_within (Nat.le_add_left _ _) (last.trans_eq parts.symm)
  have laidOut' : LaidOut (s3App settings nfc sha256 pages client) row.core := core ▸ laidOut
  have fits : checkPartSize
      (s3App settings nfc sha256 pages client).settings.uploads.multipart.minimumPartSizeBytes row
        (count + 1) (slice upload.partSize content (part.number.toNat - 1)).length = .ok () := by
    rw [← size, toNat]
    exact checkPartSize_slice laidOut' (size ▸ wide) (sized.trans total.symm) (Nat.le_add_left _ _)
      (last.trans_eq parts.symm)
  obtain ⟨text, stored, store', uploaded, etag, opened, known, others⟩ :=
    uploadPart_opened laws (slice upload.partSize content (part.number.toNat - 1))
      (slice upload.partSize content (part.number.toNat - 1)).length part.checksumSha256
      (Nat.le_add_left 1 count) transferring.opened
  have ran := @proxyUploadPart_run σ (s3App settings nfc sha256 pages client) identity upload.id
    part.number row (count + 1) world.db (slice upload.partSize content (part.number.toNat - 1))
    (slice upload.partSize content (part.number.toNat - 1)).length part.checksumSha256 part.time
    found (ensureActive_open open_) inRange fits world.store
  have taken : (s3App settings nfc sha256 pages client).storage.uploadPart row.bucket row.objectKey
      row.storageKey (count + 1) (slice upload.partSize content (part.number.toNat - 1))
      (slice upload.partSize content (part.number.toNat - 1)).length part.checksumSha256
      world.store = (.ok stored, store') := by
    rw [bucket, objectKey, key]
    exact uploaded
  rw [taken] at ran
  have served := World.execute_wrap_ok ran Reply.part
  have accepted : Accepted (s3App settings nfc sha256 pages client) world put := by
    refine ⟨.part (storedRow row (count + 1) stored part.checksumSha256), ?_⟩
    dsimp only [put]
    rw [serve, handle, served]
  refine ⟨accepted, transferring.receiving.receive part accepted, ?_, ?_, ?_⟩
  all_goals
    dsimp only [put]
    rw [serve, handle, served]
    dsimp only
  · exact opened
  · intro other member owner
    rw [partAccepted_uploadParts] at member
    rcases upsertPart_mem member with ⟨same, tag, _⟩ | ⟨old, different⟩
    · have number : other.partNumber = count + 1 := (Prod.mk.inj same).2
      rw [number]
      exact ⟨text, tag.trans (congrArg some etag), known⟩
    · have aside : other.partNumber ≠ count + 1 :=
        fun clash => different (Prod.ext (owner.trans named.symm) clash)
      rw [others _ aside]
      exact transferring.tagged other old owner
  · intro number first below
    rw [partAccepted_uploadParts]
    by_cases newest : number = count + 1
    · obtain ⟨other, member, same⟩ := upsertPart_added world.db
        (storedRow row (count + 1) stored part.checksumSha256)
      refine ⟨other, member, same.trans (Prod.ext named newest.symm)⟩
    · obtain ⟨other, member, same⟩ := transferring.rows number first (by omega)
      refine ⟨other, upsertPart_kept member fun clash => newest ?_, same⟩
      exact (Prod.mk.inj (same.symm.trans clash)).2

theorem Transferring.sendRest {laws : client.UploadLaws view limit} {upload : UploadSession}
    {content : Bytes} {checksum : Nat → Option String} {clock : Nat → Timestamp}
    (laidOut : LaidOut (s3App settings nfc sha256 pages client) upload.core)
    (wide : settings.uploads.multipart.minimumPartSizeBytes ≤ upload.partSize)
    (sized : content.length = upload.totalSize) (remaining : Nat) {world : World Database σ}
    {count : Nat} (transferring : @Transferring σ settings nfc sha256 pages client view limit laws
      identity upload content world count)
    (last : count + remaining = upload.totalParts) :
    let requests := partRequests identity upload content
      ((List.range' (count + 1) remaining).map (sentPart checksum clock))
    EachMeets (s3App settings nfc sha256 pages client)
        (Accepted (s3App settings nfc sha256 pages client)) world requests ∧
      @Transferring σ settings nfc sha256 pages client view limit laws identity upload content
        (after (s3App settings nfc sha256 pages client) world requests) upload.totalParts := by
  induction remaining generalizing world count with
  | zero =>
    rw [Nat.add_zero] at last
    exact ⟨trivial, last ▸ transferring⟩
  | succ remaining ih =>
    have numbered : (sentPart checksum clock (count + 1)).number = ((count + 1 : Nat) : Int) := rfl
    have next := transferring.send laidOut wide sized numbered (by omega)
    have rest := ih next.2 (by omega)
    exact ⟨⟨next.1, rest.1⟩, rest.2⟩

theorem Transferring.sendAll {laws : client.UploadLaws view limit} {upload : UploadSession}
    {content : Bytes} {world : World Database σ}
    (transferring : @Transferring σ settings nfc sha256 pages client view limit laws identity upload
      content world 0)
    (laidOut : LaidOut (s3App settings nfc sha256 pages client) upload.core)
    (wide : settings.uploads.multipart.minimumPartSizeBytes ≤ upload.partSize)
    (sized : content.length = upload.totalSize) (checksum : Nat → Option String)
    (clock : Nat → Timestamp) :
    let requests := partRequests identity upload content (allParts upload checksum clock)
    EachMeets (s3App settings nfc sha256 pages client)
        (Accepted (s3App settings nfc sha256 pages client)) world requests ∧
      @Transferring σ settings nfc sha256 pages client view limit laws identity upload content
        (after (s3App settings nfc sha256 pages client) world requests) upload.totalParts :=
  Transferring.sendRest laidOut wide sized upload.totalParts transferring (Nat.zero_add _)

/-- Every tag that is listed is the tag of its row. -/
theorem Transferring.matched {laws : client.UploadLaws view limit} {upload : UploadSession}
    {content : Bytes} {world : World Database σ} {count : Nat} {parts : List UploadedPart}
    (transferring : @Transferring σ settings nfc sha256 pages client view limit laws identity upload
      content world count)
    (tagged : ∀ part ∈ parts,
      Tagged view world.store upload.bucket upload.objectKey upload.storageKey part) :
    etagMismatch (committedOf (world.db.partsOf upload.id)) parts = none := by
  unfold etagMismatch
  rw [Option.map_eq_none_iff, List.find?_eq_none]
  intro part member
  cases found : (committedOf (world.db.partsOf upload.id)).find? fun row =>
      decide (row.partNumber = part.partNumber) with
  | none => exact Bool.false_ne_true
  | some row =>
    have same := List.find?_some found
    have number : row.partNumber = part.partNumber := of_decide_eq_true same
    obtain ⟨inTable, owner⟩ := mem_partsOf.mp
      (List.mem_of_mem_filter (List.mem_of_find?_eq_some found))
    obtain ⟨text, etag, known⟩ := transferring.tagged row inTable owner
    rw [number, (tagged part member).2] at known
    cases known
    intro mismatch
    exact (of_decide_eq_true mismatch).2.2 (by rw [etag]; rfl)

/-- With every slice taken, the session is completed. -/
theorem Transferring.complete {laws : client.UploadLaws view limit} {upload : UploadSession}
    {content : Bytes} {world : World Database σ}
    (transferring : @Transferring σ settings nfc sha256 pages client view limit laws identity upload
      content world upload.totalParts)
    (sound : Integrity (s3App settings nfc sha256 pages client) world.db)
    (staged : @Staged σ (s3App settings nfc sha256 pages client)
      (s3Backend sha256 pages client view.toStoreView laws.toLaws) world)
    (bounded : limit < pages) (issued : upload.storageId? = some upload.storageKey)
    (vacant : world.db.occupied identity.tenantId upload.bucket upload.objectKey = false)
    (now : Timestamp) :
    ∃ file, (serve (s3App settings nfc sha256 pages client) world
      (.complete identity upload.id, now)).1 = .ok (.file file) := by
  obtain ⟨row, found, core, open_⟩ := transferring.receiving.session
  obtain ⟨named, bucket, objectKey, total, size, count⟩ := core_layout core
  have key : row.storageKey = upload.storageKey := congrArg (·.storageKey) core
  have id? : row.storageId? = some row.storageKey :=
    (congrArg (·.storageId?) core).trans (issued.trans (congrArg some key.symm))
  obtain ⟨member, _⟩ := Database.findUpload_some found
  have enough : row.totalParts ≤ (committedOf (world.db.partsOf row.id)).length := by
    refine committed_enough sound.parts fun number inside => ?_
    rw [List.mem_range'_1] at inside
    rw [named]
    exact transferring.rows number inside.1 (by omega)
  have opened : view.opened world.store row.bucket row.objectKey row.storageKey := by
    rw [bucket, objectKey, key]
    exact transferring.opened
  obtain ⟨parts, listed, tagged⟩ := listPages_run laws opened (by omega : limit - 0 < pages)
    (List.forall_mem_nil _)
  have answered : (s3App settings nfc sha256 pages client).storage.listParts row.bucket
      row.objectKey row.storageKey world.store = .ok parts := listed
  have matched : etagMismatch (committedOf (world.db.partsOf row.id)) parts = none := by
    rw [named]
    refine transferring.matched fun part inside => ?_
    rw [← bucket, ← objectKey, ← key]
    exact tagged part inside
  have compared := @storedParts_listed _ (s3App settings nfc sha256 pages client) row
    (committedOf (world.db.partsOf row.id)) world.db world.store parts _ id? rfl rfl answered
  rw [matched] at compared
  have prepared := partsToComplete_run enough compared open_
  have whole := (handed_whole_iff (s3Backend sha256 pages client view.toStoreView laws.toLaws) sound
    staged member (handedParts_some.mpr prepared)).mpr
      (transferring.receiving.rowsStored sound member core).2
  have laidOut := sound.laidOut row.core (mem_cores member)
  have within : ∀ number ∈ parts.map (·.partNumber), 1 ≤ number := by
    intro number inside
    rw [whole.1.mem_iff, List.mem_range'_1] at inside
    exact inside.1
  have filled : parts ≠ [] := by
    rintro rfl
    have one : 1 ≤ row.totalParts := laidOut.parts ▸ one_le_totalParts row.totalSize row.partSize
    have lengths := whole.1.length_eq
    rw [List.length_range', List.map_nil, List.length_nil] at lengths
    omega
  obtain ⟨stored, store', assembled⟩ := completeMultipartUpload_run laws opened filled
    (whole.1.nodup_iff.mpr List.nodup_range') (fun part inside =>
      within part.partNumber (List.mem_map_of_mem inside)) tagged
  have vacant' : world.db.occupied identity.tenantId row.bucket row.objectKey = false := by
    rw [bucket, objectKey]
    exact vacant
  obtain ⟨db', finished⟩ := @assemble_run _ (s3App settings nfc sha256 pages client) identity row
    parts now world.db world.store store' stored assembled vacant' laidOut.fits
  have unfinished : row.status.terminal = false := by
    rcases open_ with status | status <;> rw [status] <;> rfl
  have done := complete_unfinished (s3App settings nfc sha256 pages client) now found unfinished
    world.store
  rw [Program.run_bind_ok prepared, finished] at done
  have served := World.execute_wrap_ok done Reply.file
  refine ⟨completedFileObject (s3App settings nfc sha256 pages client) identity row world.db.nextId
    stored now, ?_⟩
  rw [serve, handle, served]

/-- S3 takes no part for a session that it has opened no upload for. -/
theorem unopened_refuses (laws : client.UploadLaws view limit) {upload : UploadSession}
    {content : Bytes} {world : World Database σ} {checksum : Nat → Option String}
    {clock : Nat → Timestamp}
    (session : ∃ row, world.db.findUpload upload.id identity.tenantId = some row ∧
      row.core = upload.core)
    (parts : 1 ≤ upload.totalParts)
    (unopened : ¬ view.opened world.store upload.bucket upload.objectKey upload.storageKey) :
    ¬ EachMeets (s3App settings nfc sha256 pages client)
      (Accepted (s3App settings nfc sha256 pages client)) world
      (partRequests identity upload content (allParts upload checksum clock)) := by
  intro accepted
  have listed : allParts upload checksum clock = sentPart checksum clock 1 ::
      (List.range' 2 (upload.totalParts - 1)).map (sentPart checksum clock) := by
    unfold allParts
    obtain ⟨count, same⟩ := Nat.exists_eq_add_of_le' parts
    rw [same]
    rfl
  rw [listed] at accepted
  obtain ⟨reply, answered⟩ := accepted.1
  obtain ⟨_, done, _⟩ := Program.bind_pure_eq_ok.mp (World.execute_committed answered)
  obtain ⟨row, number, stored, found, _, inRange, _, put, _, _⟩ := proxyUploadPart_ok done
  obtain ⟨known, same, core⟩ := session
  rw [same] at found
  cases found
  obtain ⟨_, bucket, objectKey, _, _, _⟩ := core_layout core
  have key : row.storageKey = upload.storageKey := congrArg (·.storageKey) core
  have first : 1 ≤ number := (checkPartNumber_toNat inRange).symm ▸ Nat.le_refl 1
  obtain ⟨etag, taken, _⟩ := call_ok put
  rw [bucket, objectKey, key] at taken
  exact unopened ((laws.uploadPart_iff _ _ _ _ _ _ first).mp (congrArg (·.1.isOk) taken))

/-- A new session in presigned mode is ready for its first slice. -/
theorem createSession_transferring (laws : client.UploadLaws view limit) {request : CreateSession}
    {now : Timestamp} {world : World Database σ} {upload : UploadSession} (content : Bytes)
    (sound : Integrity (s3App settings nfc sha256 pages client) world.db)
    (created : (serve (s3App settings nfc sha256 pages client) world
      (.createSession identity request, now)).1 = .ok (.upload upload))
    (named : ∀ bucket key text state', client.createMultipartUpload bucket key world.store =
      (.ok text, state') → text ≠ "")
    (presigns : Presigns (s3App settings nfc sha256 pages client) world.db request) :
    upload.storageId? = some upload.storageKey ∧
      @Transferring σ settings nfc sha256 pages client view limit laws identity upload content
        (serve (s3App settings nfc sha256 pages client) world
          (.createSession identity request, now)).2 0 := by
  have receiving := createSession_receiving
    (s3Parts sha256 pages client view.toStoreView view.part? laws.toPartLaws) sound content created
  obtain ⟨_, done, same⟩ := Program.bind_pure_eq_ok.mp (World.execute_committed created)
  cases same
  have served := World.execute_wrap_ok done Reply.upload
  obtain ⟨issued, opened⟩ := createSession_opens laws done named presigns
  obtain ⟨safeKey, layout, mode, effective, storageUploadId, lifetime, _, _, _, _, _, _, _, row,
    committed⟩ := createSession_ok done
  refine ⟨issued, receiving, ?_, ?_, fun number first below => absurd first (by omega)⟩
  · rw [serve, handle, served]
    exact opened
  · intro part member owner
    rw [serve, handle, served, committed] at member
    have older := sound.parts.owned part member
    have id : upload.id = world.db.nextId := by rw [row]; rfl
    exact absurd (owner.trans id) older.ne

/-- A session that creates is laid out for the announced size, at the announced place. -/
theorem createSession_place {app : AppState σ} {request : CreateSession} {now : Timestamp}
    {world : World Database σ} {upload : UploadSession}
    (created : (serve app world (.createSession identity request, now)).1 = .ok (.upload upload)) :
    upload.bucket = request.bucket ∧
      validateObjectKey app request.objectKey = .ok upload.objectKey ∧
      upload.totalSize = request.totalSize.toNat ∧
      (serve app world (.createSession identity request, now)).2.db.fileObjects =
        world.db.fileObjects := by
  obtain ⟨_, done, same⟩ := Program.bind_pure_eq_ok.mp (World.execute_committed created)
  cases same
  have served := World.execute_wrap_ok done Reply.upload
  obtain ⟨safeKey, layout, mode, effective, storageUploadId, lifetime, normalized, _, _, _, _, _, _,
    row, committed⟩ := createSession_ok done
  refine ⟨by rw [row]; rfl, by rw [row]; exact normalized, by rw [row]; rfl, ?_⟩
  rw [serve, handle, served, committed]
  rfl

/-- What S3 does with a content that the disk stores: exactly in presigned mode it stores the
same object, of the same size. -/
theorem backends_interchangeable_iff (laws : client.UploadLaws view limit)
    (bounded : limit < pages) (disk remote : Settings) (origin : World Database LocalState)
    (initial : origin.db.Initial)
    (unstaged : ∀ id number, number ∉ LocalStorageAdapter.partFiles origin.store (.session id))
    (earlier : List Timed) (originS3 : World Database σ) (initialS3 : originS3.db.Initial)
    (unstagedS3 : ∀ bucket key id number,
      ¬ view.hasPart originS3.store bucket key (.session id) number)
    (earlierS3 : List Timed)
    (sameFiles : ∀ tenantId bucket key,
      (after (localApp disk nfc sha256) origin earlier).db.occupied tenantId bucket key =
        (after (s3App remote nfc sha256 pages client) originS3 earlierS3).db.occupied tenantId
          bucket key)
    (named : ∀ bucket key text state', client.createMultipartUpload bucket key
      (after (s3App remote nfc sha256 pages client) originS3 earlierS3).store =
        (.ok text, state') → text ≠ "")
    (unissued : ∀ bucket key id, ¬ view.opened
      (after (s3App remote nfc sha256 pages client) originS3 earlierS3).store bucket key
        (.session id))
    (request : CreateSession) (now : Timestamp) (upload uploadS3 : UploadSession)
    (created : (serve (localApp disk nfc sha256) (after (localApp disk nfc sha256) origin earlier)
      (.createSession identity request, now)).1 = .ok (.upload upload))
    (createdS3 : (serve (s3App remote nfc sha256 pages client)
      (after (s3App remote nfc sha256 pages client) originS3 earlierS3)
      (.createSession identity request, now)).1 = .ok (.upload uploadS3))
    (content : Bytes) (sized : (content.length : Int) = request.totalSize)
    (checksum : Nat → Option String) (clock : Nat → Timestamp) (later : Timestamp)
    (file : FileObject)
    (onDisk : Transferred (localApp disk nfc sha256)
      (serve (localApp disk nfc sha256) (after (localApp disk nfc sha256) origin earlier)
        (.createSession identity request, now)).2 identity upload content checksum clock later
        file) :
    let startS3 := after (s3App remote nfc sha256 pages client) originS3 earlierS3
    let readyS3 := (serve (s3App remote nfc sha256 pages client) startS3
      (.createSession identity request, now)).2
    let ready := (serve (localApp disk nfc sha256)
      (after (localApp disk nfc sha256) origin earlier) (.createSession identity request, now)).2
    (∃ fileS3,
      Transferred (s3App remote nfc sha256 pages client) readyS3 identity uploadS3 content checksum
        clock later fileS3 ∧
      fileS3.sizeBytes = file.sizeBytes ∧
      view.object? (transfer (s3App remote nfc sha256 pages client) readyS3 identity uploadS3
          content checksum clock later).2.store uploadS3.bucket uploadS3.objectKey =
        LocalStorageAdapter.view.object? (transfer (localApp disk nfc sha256) ready identity upload
          content checksum clock later).2.store upload.bucket upload.objectKey) ↔
      Presigns (s3App remote nfc sha256 pages client) startS3.db request := by
  intro startS3 readyS3 ready
  have sound := after_integrity (localApp disk nfc sha256) initial earlier
  have soundS3 := after_integrity (s3App remote nfc sha256 pages client) initialS3 earlierS3
  obtain ⟨bucket, objectKey, total, files⟩ := createSession_place created
  obtain ⟨bucketS3, objectKeyS3, totalS3, filesS3⟩ := createSession_place createdS3
  have samePlace : uploadS3.bucket = upload.bucket ∧ uploadS3.objectKey = upload.objectKey :=
    ⟨bucketS3.trans bucket.symm, Except.ok.inj (objectKeyS3.symm.trans objectKey)⟩
  have receiving := (createSession_receiving (localParts sha256) sound content created).receiveAll
    onDisk.accepted
  obtain ⟨⟨id, stored, written⟩, whole, vacant⟩ := receiving.complete
    (by rw [after_request]; exact after_integrity _ initial _)
    (by
      rw [after_request]
      exact after_staged _ initial (fun _ _ id number => unstaged id number) _)
    (by omega) onDisk.completed
  have receivingS3 := createSession_receiving
    (s3Parts sha256 pages client view.toStoreView view.part? laws.toPartLaws) soundS3 content
    createdS3
  obtain ⟨row, found, core, _⟩ := receivingS3.session
  have readySound : Integrity (s3App remote nfc sha256 pages client) readyS3.db := by
    have same := after_request (s3App remote nfc sha256 pages client) originS3 earlierS3
      (.createSession identity request, now) []
    change readyS3 = _ at same
    rw [same]
    exact after_integrity _ initialS3 _
  have laidOut : LaidOut (s3App remote nfc sha256 pages client) uploadS3.core :=
    core ▸ readySound.laidOut row.core (mem_cores (Database.findUpload_some found).1)
  constructor
  · rintro ⟨fileS3, moved, _⟩
    by_contra proxied
    obtain ⟨_, done, same⟩ := Program.bind_pure_eq_ok.mp (World.execute_committed createdS3)
    cases same
    have served := World.execute_wrap_ok done Reply.upload
    obtain ⟨key, kept⟩ := createSession_unopened done proxied
    refine unopened_refuses laws ⟨row, found, core⟩ ?_ ?_ moved.accepted
    · exact laidOut.parts ▸ one_le_totalParts _ _
    · rw [serve, handle, served, key, kept]
      exact unissued _ _ _
  · intro presigns
    obtain ⟨issued, starting⟩ :=
      createSession_transferring laws content soundS3 createdS3 named presigns
    have wide : remote.uploads.multipart.minimumPartSizeBytes ≤ uploadS3.partSize := by
      have member := mem_cores (Database.findUpload_some found).1
      have least := after_wide initialS3 (earlierS3 ++ [(.createSession identity request, now)])
        row.core (by rw [← after_request]; exact member)
      rw [core] at least
      exact least
    obtain ⟨accepted, sent⟩ := starting.sendAll laidOut wide (by omega) checksum clock
    have vacantS3 : (after (s3App remote nfc sha256 pages client) readyS3
        (partRequests identity uploadS3 content (allParts uploadS3 checksum clock))).db.occupied
          identity.tenantId uploadS3.bucket uploadS3.objectKey = false := by
      have before := vacant
      rw [Database.occupied, partRequests_fileObjects onDisk.accepted, files] at before
      rw [Database.occupied, partRequests_fileObjects accepted, filesS3, samePlace.1, samePlace.2]
      exact (sameFiles _ _ _).symm.trans before
    have finished : Integrity (s3App remote nfc sha256 pages client)
        (after (s3App remote nfc sha256 pages client) readyS3
          (partRequests identity uploadS3 content (allParts uploadS3 checksum clock))).db := by
      dsimp only [readyS3, startS3]
      rw [after_request]
      exact after_integrity _ initialS3 _
    have staged : @Staged σ (s3App remote nfc sha256 pages client)
        (s3Backend sha256 pages client view.toStoreView laws.toLaws)
        (after (s3App remote nfc sha256 pages client) readyS3
          (partRequests identity uploadS3 content (allParts uploadS3 checksum clock))) := by
      dsimp only [readyS3, startS3]
      rw [after_request]
      exact after_staged _ initialS3 unstagedS3 _
    obtain ⟨fileS3, completed⟩ := sent.complete finished staged bounded issued vacantS3 later
    obtain ⟨⟨idS3, storedS3, writtenS3⟩, wholeS3, _⟩ :=
      sent.receiving.complete finished staged (by omega) completed
    refine ⟨fileS3, ⟨accepted, completed⟩, ?_, wholeS3.trans whole.symm⟩
    rw [written, writtenS3]
    exact totalS3.trans total.symm

end OnS3

/-- `smallSettings` on an S3 service that gives every part the same tag. -/
def taggedS3App : AppState MemoryS3 :=
  s3App (smallSettings .s3) id (fun content => toString content.length) 4
    (MemoryS3.client fun _ => "tag")

def presignedSession : CreateSession := { smallSession with uploadMode := "presigned" }

private theorem plainTag_small : PlainTag "tag" := ⟨by decide, by decide⟩

theorem backends_interchangeable_presigned : ∃ uploadS3 fileS3,
    Transferred taggedS3App
      (serve taggedS3App ⟨{}, smallS3⟩ (.createSession smallTenant presignedSession, 0)).2
      smallTenant uploadS3 [1, 2, 3, 4] (fun _ => none) (fun _ => 1) 4 fileS3 ∧
    fileS3.sizeBytes = 4 := by
  have agree := @backends_interchangeable_iff MemoryS3 id (fun content => toString content.length)
    4 (MemoryS3.client fun _ => "tag") (MemoryS3.uploadView fun _ => "tag") 0 smallTenant
    (MemoryS3.client_uploadLaws (fun _ => plainTag_small) 0) (by decide) (smallSettings .local)
    (smallSettings .s3) ⟨{}, {}⟩ (by decide) (fun _ number => AList.notMem_empty number) []
    ⟨{}, smallS3⟩ (by decide) (fun _ _ _ number present => AList.notMem_empty number present.2) []
    (fun _ _ _ => rfl) (by
      intro bucket key text state' created
      change MemoryS3.createMultipartUpload bucket key smallS3 = _ at created
      unfold MemoryS3.createMultipartUpload at created
      split at created <;> cases created
      decide) (fun _ _ _ => Bool.false_ne_true) presignedSession 0 _ _ rfl rfl [1, 2, 3, 4] rfl
    (fun _ => none) (fun _ => 1) 4 _ ⟨⟨⟨_, rfl⟩, ⟨_, rfl⟩, trivial⟩, rfl⟩
  obtain ⟨fileS3, moved, size, _⟩ := agree.mpr (by decide)
  exact ⟨_, fileS3, moved, size⟩

/-- With no mode asked for, a small session is not opened on S3: its parts are refused there. -/
theorem proxied_session_fails_on_s3 : ∃ upload file uploadS3,
    (serve smallLocalApp ⟨{}, {}⟩ (.createSession smallTenant smallSession, 0)).1 =
      .ok (.upload upload) ∧
    Transferred smallLocalApp
      (serve smallLocalApp ⟨{}, {}⟩ (.createSession smallTenant smallSession, 0)).2 smallTenant
      upload [1, 2, 3, 4] (fun _ => none) (fun _ => 1) 4 file ∧
    (serve taggedS3App ⟨{}, smallS3⟩ (.createSession smallTenant smallSession, 0)).1 =
      .ok (.upload uploadS3) ∧
    ∀ fileS3, ¬ Transferred taggedS3App
      (serve taggedS3App ⟨{}, smallS3⟩ (.createSession smallTenant smallSession, 0)).2 smallTenant
      uploadS3 [1, 2, 3, 4] (fun _ => none) (fun _ => 1) 4 fileS3 := by
  refine ⟨_, _, _, rfl, ⟨⟨⟨_, rfl⟩, ⟨_, rfl⟩, trivial⟩, rfl⟩, rfl, fun fileS3 moved => ?_⟩
  obtain ⟨reply, answered⟩ := moved.accepted.1
  cases answered

end PyUploadX
