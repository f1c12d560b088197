import Mathlib.Data.Finset.Sort
import PyUploadX.Kit.Ledgers
import PyUploadX.Services.PartLedger
import PyUploadX.Storage.PartBytes
import PyUploadX.System.PermanentLinks

/-! `reconcile upload`: the rows of a session against the parts in the storage, and what in the
history of the service a difference comes from. -/
namespace PyUploadX

open Kit UploadService

structure ReconcileReport where
  sessionId : String
  dbParts : List Nat
  storageParts : List Nat
  missingInDb : List Nat
  missingInStorage : List Nat
  consistent : Bool
  deriving DecidableEq

namespace ReconcileService

section Service

variable {σ : Type} (app : AppState σ)

/-- Without a tenant the row of any tenant is found. -/
def getUpload (uploadId : Uuid) (tenantId : Option String) : Handler σ (Option UploadSession) :=
  Program.ask fun db : Database => db.uploadSessions.find? fun upload =>
    upload.id = uploadId ∧ ∀ tenant ∈ tenantId, upload.tenantId = tenant

/-- The numbers the storage lists; its errors are raised. -/
def storageNumbers (upload : UploadSession) : Handler σ (List Nat) := do
  match upload.storageId? with
  | some storageUploadId =>
    if app.storage.capabilities.listParts then
      let stored ← Program.askStore .listParts
        (app.storage.listParts upload.bucket upload.objectKey storageUploadId)
      return stored.map (·.partNumber)
    else return []
  | none => return []

def report (upload : UploadSession) (dbNumbers storageNumbers : List Nat) : ReconcileReport :=
  let dbSet := dbNumbers.toFinset
  let storageSet := storageNumbers.toFinset
  { sessionId := uuidText upload.id
    dbParts := dbNumbers
    storageParts := storageSet.sort (· ≤ ·)
    missingInDb := (storageSet \ dbSet).sort (· ≤ ·)
    missingInStorage := (dbSet \ storageSet).sort (· ≤ ·)
    consistent := dbSet = storageSet }

def reconcileUpload (uploadId : Uuid) (tenantId : Option String) : Handler σ ReconcileReport := do
  let some upload ← getUpload uploadId tenantId
    | Program.fail (.value ("upload " ++ uuidText uploadId ++ " not found"))
  let rows ← PartRepository.listPartsForUpload upload.id
  let dbNumbers := (committedOf rows).map (·.partNumber)
  let storageNumbers ← storageNumbers app upload
  return report upload dbNumbers storageNumbers

end Service

private theorem mem_missingInDb {upload : UploadSession} {dbNumbers storageNumbers : List Nat}
    {number : Nat} : number ∈ (report upload dbNumbers storageNumbers).missingInDb ↔
      number ∈ storageNumbers ∧ number ∉ dbNumbers := by
  simp [report]

private theorem mem_missingInStorage {upload : UploadSession} {dbNumbers storageNumbers : List Nat}
    {number : Nat} : number ∈ (report upload dbNumbers storageNumbers).missingInStorage ↔
      number ∈ dbNumbers ∧ number ∉ storageNumbers := by
  simp [report]

/-- The verdict is that nothing is missing on either side. -/
theorem consistent_iff {upload : UploadSession} {dbNumbers storageNumbers : List Nat} :
    (report upload dbNumbers storageNumbers).consistent = true ↔
      (report upload dbNumbers storageNumbers).missingInDb = [] ∧
        (report upload dbNumbers storageNumbers).missingInStorage = [] := by
  simp only [report, decide_eq_true_eq, List.eq_nil_iff_forall_not_mem, Finset.mem_sort,
    Finset.mem_sdiff, not_and_not_right, Finset.ext_iff]
  exact ⟨fun same => ⟨fun number => (same number).mpr, fun number => (same number).mp⟩,
    fun ⟨inDb, inStorage⟩ number => ⟨inStorage number, inDb number⟩⟩

end ReconcileService

/-! The two records of a session on disk: its rows and its part files. -/

section Records

open LocalStorageAdapter

variable {settings : Settings} {nfc : String → String} {sha256 : Bytes → String}

def fileHeld (uploadId : Uuid) (world : World Database LocalState) (number : Nat) : Prop :=
  number ∈ partFiles world.store (.session uploadId)

def rowHeld (uploadId : Uuid) (world : World Database LocalState) (number : Nat) : Prop :=
  (uploadId, number) ∈ world.db.uploadParts.map (·.key)

/-- A part file is put where there was none, and there is no row for it. -/
def StoredAlone (uploadId : Uuid) (world next : World Database LocalState) (number : Nat) : Prop :=
  ¬ fileHeld uploadId world number ∧ fileHeld uploadId next number ∧ ¬ rowHeld uploadId next number

/-- A part file is removed, or a row is written without there being one. -/
def RecordedAlone (uploadId : Uuid) (world next : World Database LocalState) (number : Nat) :
    Prop :=
  ¬ fileHeld uploadId next number ∧
    (fileHeld uploadId world number ∨
      ¬ rowHeld uploadId world number ∧ rowHeld uploadId next number)

/-- A part file without a row: the transaction of the upload was lost. -/
inductive Unrecorded (uploadId : Uuid) : Request → Nat → Prop
  | lost (identity : Identity) (number : Nat) (body : Bytes) (checksumSha256 : Option String) :
      Unrecorded uploadId (.lostPart identity uploadId number body checksumSha256) number

/-- A row without a part file: the client has reported the part, an upload of it broke off, or
the session's files went when it was to be completed or aborted. -/
inductive Unstored (uploadId : Uuid) : Request → Except Failure Reply → Nat → Prop
  | reported (identity : Identity) (number : Nat) (etag : String) (sizeBytes : Int)
      (checksumSha256 : Option String) (reply : Reply) :
      Unstored uploadId (.commitPart identity uploadId number etag sizeBytes checksumSha256)
        (.ok reply) number
  | brokenOff (identity : Identity) (number : Nat) (body : Bytes)
      (checksumSha256 : Option String) (failure : Failure) :
      Unstored uploadId (.proxyUploadPart identity uploadId number body checksumSha256)
        (.error failure) number
  | lost (identity : Identity) (number : Nat) (body : Bytes) (checksumSha256 : Option String)
      (failure : Failure) :
      Unstored uploadId (.lostPart identity uploadId number body checksumSha256) (.error failure)
        number
  | completed (identity : Identity) (reply : Except Failure Reply) (number : Nat) :
      Unstored uploadId (.complete identity uploadId) reply number
  | aborted (identity : Identity) (reply : Except Failure Reply) (number : Nat) :
      Unstored uploadId (.abort identity uploadId) reply number

/-- The session whose part files a request may remove as a whole. -/
def Request.ends? : Request → Option Uuid
  | .complete _ uploadId => some uploadId
  | .abort _ uploadId => some uploadId
  | _ => none

private theorem complete_staging (sha256 : Bytes → String) (bucket : String) (key : ObjectKey)
    (uploadId : StorageUploadId) (parts : List UploadedPart) (state : LocalState)
    {other : StorageUploadId} (different : other ≠ uploadId) :
    partFiles (completeMultipartUpload sha256 bucket key uploadId parts state).2 other =
      partFiles state other := by
  have dropped : ∀ tree : FileTree String Bytes,
      partFiles { dropStaging (takeFault state).2 uploadId with tree } other =
        partFiles state other := by
    intro tree
    have files := partFiles_dropStaging (takeFault state).2 uploadId other
    rw [if_neg different] at files
    refine files.trans ?_
    unfold partFiles
    rw [takeFault_staging]
  unfold completeMultipartUpload
  dsimp only
  split
  · rfl
  · split
    · exact dropped _
    · split
      · split
        · exact dropped _
        · exact dropped _
      · exact dropped _
      · exact dropped _

/-- The part files of a session are those that were there. -/
def SameFiles (uploadId : Uuid) (store left : LocalState) : Prop :=
  partFiles left (.session uploadId) = partFiles store (.session uploadId)

/-- An abort removes the part files of its own session only. -/
theorem abort_staging {db : Database}
    (laidOut : ∀ core ∈ db.cores, LaidOut (localApp settings nfc sha256) core)
    (identity : Identity) {uploadId other : Uuid} (different : other ≠ uploadId)
    (store : LocalState) :
    SameFiles other store
      ((abort (localApp settings nfc sha256) identity uploadId).run db store).2 := by
  unfold abort
  refine Program.ReadOnly.bind_effect (.select _ _) rfl fun found read => ?_
  cases found with
  | none => rfl
  | some upload =>
    have known : db.findUpload uploadId identity.tenantId = some upload := by
      simp only [UploadRepository.getUpload, Program.run, Prod.mk.injEq, Except.ok.injEq] at read
      exact read.1.1
    obtain ⟨member, named, _⟩ := Database.findUpload_some known
    refine Program.ReadOnly.bind_effect (.refuseIf _ _) rfl fun _ _ => ?_
    dsimp only
    split
    · rfl
    · refine Program.ReadOnly.bind_effect (.liftExcept _) rfl fun _ _ => ?_
      unfold UploadRepository.flushUpload
      rw [Program.run_modify_bind]
      split
      · rename_i storageUploadId stored
        rw [Program.run_tryStore_bind]
        rw [Program.Offline.bind (.of_readOnly (.liftExcept _)) fun _ =>
          .bind (.modify _ _ _) fun _ => .pure _]
        have own : storageUploadId = .session upload.id := by
          have key := storageKey_local (laidOut upload.core (mem_cores member))
          rw [UploadSession.storageKey, stored] at key
          exact key
        have apart : StorageUploadId.session other ≠ storageUploadId := by
          rw [own, named]
          exact fun same => different (StorageUploadId.session.inj same)
        exact (partFiles_dropStaging store storageUploadId (.session other)).trans (if_neg apart)
      · rfl

/-- The last step of a request does nothing to the store. -/
theorem execute_wrap_store {σ α : Type} (world : World Database σ) (program : Handler σ α)
    (wrap : α → Reply) :
    (world.execute (program >>= fun value => pure (wrap value))).2.store =
      (program.run world.db world.store).2 := by
  unfold World.execute
  rw [Program.run_bind]
  rcases program.run world.db world.store with ⟨_ | ⟨_, _⟩, _⟩ <;> rfl

/-- Of the effects on the store only the end of a session removes its part files. -/
theorem StoreEffect.files_other {db : Database} {store store' : LocalState} {asked : Request}
    (effect : StoreEffect (localApp settings nfc sha256) db store asked store')
    (laidOut : ∀ core ∈ db.cores, LaidOut (localApp settings nfc sha256) core) {uploadId : Uuid}
    (other : asked.partOwner? ≠ some uploadId) (unended : asked.ends? ≠ some uploadId)
    (kept : ∀ identity aborted, asked ≠ .abort identity aborted) :
    partFiles store' (.session uploadId) = partFiles store (.session uploadId) := by
  have of_staging : ∀ {after : LocalState}, after.staging = store.staging →
      partFiles after (.session uploadId) = partFiles store (.session uploadId) := by
    intro after same
    unfold partFiles
    rw [same]
  cases effect with
  | none => rfl
  | createBucket identity name bucket => exact of_staging (createBucket_effect bucket store).1
  | deleteBucket identity name bucket => exact of_staging (deleteBucket_effect bucket store).1
  | initiate identity request safeKey metadata => rfl
  | @part request upload number body checksumSha256 asks found first last =>
    have key := storageKey_local (laidOut upload.core (mem_cores found))
    have different : StorageUploadId.session uploadId ≠ upload.storageKey := by
      rw [key]
      intro same
      exact other (asks.trans (congrArg some (StorageUploadId.session.inj same).symm))
    exact (uploadPart_effect sha256 upload.storageKey number body body.length store).2 _ different
  | @complete identity completed upload parts found prepared =>
    obtain ⟨member, named, _⟩ := Database.findUpload_some found
    have key := storageKey_local (laidOut upload.core (mem_cores member))
    have different : StorageUploadId.session uploadId ≠ upload.storageKey := by
      rw [key, named]
      intro same
      exact unended (congrArg some (StorageUploadId.session.inj same).symm)
    exact complete_staging sha256 upload.bucket upload.objectKey upload.storageKey parts store
      different
  | @abort identity aborted => exact absurd rfl (kept identity aborted)
  | @put identity request now safeKey effective valid =>
    exact of_staging (putObject_effect sha256 request.bucket safeKey request.stream
      request.contentType (some request.sizeBytes) request.checksumSha256 store).1
  | @delete identity fileId file found live =>
    exact of_staging (deleteObject_effect file.bucket file.objectKey store).1
  | batch turns => exact of_staging (turns_local_staging turns)

/-- A request for no part of a session, and for the end of none or another, leaves its part
files. -/
theorem serve_files_other {world : World Database LocalState}
    (laidOut : ∀ core ∈ world.db.cores, LaidOut (localApp settings nfc sha256) core)
    {timed : Timed} {uploadId : Uuid} (other : timed.1.partOwner? ≠ some uploadId)
    (unended : timed.1.ends? ≠ some uploadId) :
    partFiles (serve (localApp settings nfc sha256) world timed).2.store (.session uploadId) =
      partFiles world.store (.session uploadId) := by
  by_cases aborts : ∃ identity aborted, timed.1 = .abort identity aborted
  · obtain ⟨asked, now⟩ := timed
    obtain ⟨identity, aborted, rfl⟩ := aborts
    have ran : (serve (localApp settings nfc sha256) world (.abort identity aborted, now)).2.store =
        _ := execute_wrap_store world (abort (localApp settings nfc sha256) identity aborted) _
    rw [ran]
    exact abort_staging laidOut identity (fun same => unended (congrArg some same.symm)) _
  · refine (serve_storeEffect world timed).files_other laidOut other unended ?_
    intro identity aborted same
    exact aborts ⟨identity, aborted, same⟩

private theorem mem_upsertPart_keys (db : Database) (part : UploadPart) (key : Uuid × Nat) :
    key ∈ (db.upsertPart part).uploadParts.map (·.key) ↔
      key ∈ db.uploadParts.map (·.key) ∨ key = part.key := by
  rw [upsertPart_keys]
  split
  · rename_i present
    exact ⟨.inl, fun held => held.elim id fun same => same ▸ present⟩
  · rw [List.mem_append, List.mem_singleton]

theorem upsertPart_rows (db : Database) {part : UploadPart} {uploadId : Uuid} {number : Nat}
    (key : part.key = (uploadId, number)) (item : Nat) :
    (uploadId, item) ∈ (db.upsertPart part).uploadParts.map (·.key) ↔
      (uploadId, item) ∈ db.uploadParts.map (·.key) ∨ item = number := by
  rw [mem_upsertPart_keys, key, Prod.mk.injEq]
  simp

private theorem rowHeld_other {world : World Database LocalState} {timed : Timed} {uploadId : Uuid}
    (other : timed.1.partOwner? ≠ some uploadId) (number : Nat) :
    rowHeld uploadId (serve (localApp settings nfc sha256) world timed).2 number ↔
      rowHeld uploadId world number := by
  have change := serve_change (localApp settings nfc sha256) world timed
  unfold rowHeld
  simp only [List.mem_map]
  constructor
  · rintro ⟨row, member, key⟩
    exact ⟨row, (change.partsOf_other other (Prod.mk.inj key).1).mp member, key⟩
  · rintro ⟨row, member, key⟩
    exact ⟨row, (change.partsOf_other other (Prod.mk.inj key).1).mpr member, key⟩

/-! The requests for a part of the session. -/

/-- What an upload does to the part files of its session, whatever becomes of the row. -/
theorem proxyUploadPart_files {world : World Database LocalState} (identity : Identity)
    (uploadId : Uuid) (partNumber : Int) (body : Bytes) (checksumSha256 : Option String)
    (now : Timestamp)
    (laidOut : ∀ core ∈ world.db.cores, LaidOut (localApp settings nfc sha256) core)
    {number : Nat} (other : partNumber ≠ number) :
    let left := ((proxyUploadPart (localApp settings nfc sha256) identity uploadId partNumber body
      body.length checksumSha256 now).run world.db world.store).2
    number ∈ partFiles left (.session uploadId) ↔
      number ∈ partFiles world.store (.session uploadId) := by
  intro left
  rcases proxyUploadPart_cases (localApp settings nfc sha256) identity uploadId partNumber body
      body.length checksumSha256 now world.db world.store with
    ⟨failure, stopped⟩ | ⟨upload, stored, found, active, inRange, sized⟩
  · have same : left = world.store := congrArg Prod.snd stopped
    rw [same]
  · obtain ⟨member, named, _⟩ := Database.findUpload_some found
    have key := storageKey_local (laidOut upload.core (mem_cores member))
    rw [named] at key
    obtain ⟨-, -, numbered⟩ := checkPartNumber_ok inRange
    have different : number ≠ stored := fun same => other (by rw [numbered, same])
    have ran := proxyUploadPart_run body body.length checksumSha256 now found active inRange sized
      world.store
    have put : left = (uploadPart sha256 (.session uploadId) stored body body.length
        world.store).2 := by
      rw [key] at ran
      have result := congrArg Prod.snd ran
      refine result.trans ?_
      dsimp only [localApp, LocalStorageAdapter]
      rcases uploadPart sha256 (.session uploadId) stored body body.length world.store with
        ⟨_ | _, _⟩ <;> rfl
    have lookup := uploadPart_others sha256 (.session uploadId) stored body body.length world.store
      different
    rw [put, ← AList.lookup_isSome, ← AList.lookup_isSome, lookup]

variable (settings nfc sha256) in
private theorem serve_lostPart (world : World Database LocalState) (identity : Identity) (uploadId : Uuid)
    (partNumber : Int) (body : Bytes) (checksumSha256 : Option String) (now : Timestamp) :
    ∃ failure, serve (localApp settings nfc sha256) world
        (.lostPart identity uploadId partNumber body checksumSha256, now) =
      (.error failure, ⟨world.db, ((proxyUploadPart (localApp settings nfc sha256) identity uploadId
        partNumber body body.length checksumSha256 now).run world.db world.store).2⟩) := by
  unfold serve World.execute handle
  rw [Program.run_bind]
  rcases (proxyUploadPart (localApp settings nfc sha256) identity uploadId partNumber body
      body.length checksumSha256 now).run world.db world.store with ⟨failure | ⟨part, db⟩, store⟩
  · exact ⟨failure, rfl⟩
  · exact ⟨.connectionLost, rfl⟩

variable (settings nfc sha256) in
theorem serve_directPart (world : World Database LocalState) (uploadId : Uuid) (partNumber : Nat)
    (body : Bytes) (now : Timestamp) :
    (serve (localApp settings nfc sha256) world (.directPart uploadId partNumber body, now)).2 =
      world := by
  have stopped : ∃ failure, (putPresigned (localApp settings nfc sha256) uploadId partNumber
      body).run world.db world.store = (.error failure, world.store) := by
    unfold putPresigned
    rw [Program.run_ask_bind]
    split
    · exact ⟨_, rfl⟩
    · split
      · exact ⟨_, rfl⟩
      · exact ⟨_, rfl⟩
  obtain ⟨failure, stopped⟩ := stopped
  rw [serve, handle, World.execute_wrap_error stopped fun _ => Reply.done]

variable (settings nfc sha256) in
/-- A part that is reported is refused, or its row is written. -/
theorem serve_commitPart (world : World Database LocalState) (identity : Identity)
    (uploadId : Uuid) (partNumber : Int) (etag : String) (sizeBytes : Int)
    (checksumSha256 : Option String) (now : Timestamp) :
    let served := serve (localApp settings nfc sha256) world
      (.commitPart identity uploadId partNumber etag sizeBytes checksumSha256, now)
    served.2 = world ∨ ∃ upload number, upload.id = uploadId ∧ partNumber = Int.ofNat number ∧
      served = (.ok .done, ⟨(world.db.upsertPart (reportedRow upload number etag sizeBytes
        checksumSha256)).updateUpload upload.id (·.touch now), world.store⟩) := by
  intro served
  have offline : ((commitPart identity uploadId partNumber etag sizeBytes checksumSha256 now :
      Handler LocalState Unit).run world.db world.store).2 = world.store :=
    commitPart_offline _ _ _ _ _ _ _ _ _
  rcases ran : (commitPart identity uploadId partNumber etag sizeBytes checksumSha256 now :
      Handler LocalState Unit).run world.db world.store with ⟨failure | ⟨out, db⟩, store⟩
  · rw [ran] at offline
    cases offline
    left
    exact congrArg Prod.snd (World.execute_wrap_error ran fun _ => Reply.done)
  · obtain ⟨upload, number, found, -, inRange, rfl, rfl, -⟩ := commitPart_ok ran
    obtain ⟨-, named, -⟩ := Database.findUpload_some found
    obtain ⟨-, -, numbered⟩ := checkPartNumber_ok inRange
    right
    exact ⟨upload, number, named, numbered, World.execute_wrap_ok ran fun _ => Reply.done⟩

/-! One step of the service. -/

variable (settings nfc sha256) in
/-- What a step puts into the two records of a session, and for what cause. -/
abbrev Posted (uploadId : Uuid) (world : World Database LocalState) (timed : Timed) : Prop :=
  let served := serve (localApp settings nfc sha256) world timed
  Posting (fileHeld uploadId world) (rowHeld uploadId world) (fileHeld uploadId served.2)
    (rowHeld uploadId served.2) (Unrecorded uploadId timed.1) (Unstored uploadId timed.1 served.1)

private theorem Unstored.of_ends {uploadId : Uuid} {asked : Request} (ended : asked.ends? = some uploadId)
    (reply : Except Failure Reply) (number : Nat) : Unstored uploadId asked reply number := by
  unfold Request.ends? at ended
  split at ended
  · cases ended
    exact .completed _ _ _
  · cases ended
    exact .aborted _ _ _
  · cases ended

private theorem posted_other {world : World Database LocalState}
    (sound : Integrity (localApp settings nfc sha256) world.db) {timed : Timed} {uploadId : Uuid}
    (other : timed.1.partOwner? ≠ some uploadId) :
    Posted settings nfc sha256 uploadId world timed := by
  have rows : ∀ number,
      rowHeld uploadId (serve (localApp settings nfc sha256) world timed).2 number ↔
        rowHeld uploadId world number := rowHeld_other other
  by_cases ended : timed.1.ends? = some uploadId
  · have files := (serve_storeEffect world timed).partFiles_other other sound.laidOut
    refine ⟨fun number held => .inl ?_, fun number => (rows number).mpr,
      fun number held => .inl ((rows number).mp held),
      fun number _ => .inr (.of_ends ended _ number)⟩
    unfold fileHeld at held ⊢
    rcases files with same | dropped
    · rw [← same]
      exact held
    · rw [dropped] at held
      cases held
  · have files := serve_files_other sound.laidOut other ended
    refine .of_iff (fun number => ?_) rows
    unfold fileHeld
    rw [files]

/-- A part that is stored joins the files of its session. -/
theorem fileHeld_stored {uploadId : Uuid} {db : Database} (store : LocalState) (number : Nat)
    (body : Bytes) (item : Nat) :
    fileHeld uploadId ⟨db, setPartFiles (takeFault store).2 (.session uploadId)
        ((partFiles store (.session uploadId)).insert number body)⟩ item ↔
      item ∈ partFiles store (.session uploadId) ∨ item = number := by
  unfold fileHeld
  rw [partFiles_setPartFiles, if_pos rfl, AList.mem_insert, or_comm]

/-- An accepted part is in both records; one that breaks off may be in the rows alone. -/
theorem posted_proxiedPart {world : World Database LocalState}
    (sound : Integrity (localApp settings nfc sha256) world.db) (identity : Identity)
    (uploadId : Uuid) (partNumber : Int) (body : Bytes) (checksumSha256 : Option String)
    (now : Timestamp) : Posted settings nfc sha256 uploadId world
      (.proxyUploadPart identity uploadId partNumber body checksumSha256, now) := by
  have outcome := serve_proxiedPart settings nfc sha256 world identity uploadId partNumber body
    checksumSha256 now
  have key : ∀ upload, world.db.findUpload uploadId identity.tenantId = some upload →
      upload.id = uploadId ∧ upload.storageKey = .session uploadId := by
    intro upload found
    obtain ⟨member, named, _⟩ := Database.findUpload_some found
    have own := storageKey_local (sound.laidOut upload.core (mem_cores member))
    rw [named] at own
    exact ⟨named, own⟩
  have files : ∀ number : Nat, partNumber ≠ number →
      (fileHeld uploadId (serve (localApp settings nfc sha256) world
        (.proxyUploadPart identity uploadId partNumber body checksumSha256, now)).2 number ↔
        fileHeld uploadId world number) := by
    intro number other
    have ran : (serve (localApp settings nfc sha256) world
        (.proxyUploadPart identity uploadId partNumber body checksumSha256, now)).2.store = _ :=
      execute_wrap_store world (proxyUploadPart (localApp settings nfc sha256) identity uploadId
        partNumber body body.length checksumSha256 now) _
    unfold fileHeld
    rw [ran]
    exact proxyUploadPart_files identity uploadId partNumber body checksumSha256 now sound.laidOut
      other
  unfold Posted
  generalize serve (localApp settings nfc sha256) world
    (.proxyUploadPart identity uploadId partNumber body checksumSha256, now) = served
      at outcome files ⊢
  cases outcome with
  | refused failure => exact .unchanged
  | brokenOff failure upload number found =>
    refine ⟨fun item held => .inl ?_, fun _ held => held, fun _ held => .inl held,
      fun item held => ?_⟩
    · unfold fileHeld at held ⊢
      rw [(key upload found).2, partFiles_setPartFiles, if_pos rfl, AList.mem_erase] at held
      exact held.2
    · by_cases named : partNumber = item
      · subst named
        exact .inr (.brokenOff identity item body checksumSha256 failure)
      · exact .inl ((files item named).mpr held)
  | stored upload part found owner numbered sized unfaulted =>
    obtain ⟨named, own⟩ := key upload found
    have started : (if upload.status = .initiated then
        world.db.updateUpload upload.id (·.setStatus .uploading) else world.db).uploadParts =
          world.db.uploadParts := by
      split <;> rfl
    have partKey : part.key = (uploadId, part.partNumber) := Prod.ext (owner.trans named) rfl
    rw [own]
    refine .of_both (fileHeld_stored world.store part.partNumber body) fun item => ?_
    unfold rowHeld partAccepted
    rw [Database.updateUpload_uploadParts, upsertPart_rows _ partKey, started]

/-- A part whose transaction is lost may be in the storage alone, or break off. -/
theorem posted_lostPart {world : World Database LocalState}
    (sound : Integrity (localApp settings nfc sha256) world.db) (identity : Identity)
    (uploadId : Uuid) (partNumber : Int) (body : Bytes) (checksumSha256 : Option String)
    (now : Timestamp) : Posted settings nfc sha256 uploadId world
      (.lostPart identity uploadId partNumber body checksumSha256, now) := by
  obtain ⟨failure, served⟩ := serve_lostPart settings nfc sha256 world identity uploadId
    partNumber body checksumSha256 now
  have files : ∀ number : Nat, partNumber ≠ number → _ := fun number other =>
    proxyUploadPart_files identity uploadId partNumber body checksumSha256 now sound.laidOut other
  unfold Posted
  rw [served]
  refine ⟨fun item held => ?_, fun _ held => held, fun _ held => .inl held, fun item held => ?_⟩
  · by_cases named : partNumber = item
    · subst named
      exact .inr (.inr (.lost identity item body checksumSha256))
    · exact .inl ((files item named).mp held)
  · by_cases named : partNumber = item
    · subst named
      exact .inr (.lost identity item body checksumSha256 failure)
    · exact .inl ((files item named).mpr held)

theorem posted_commitPart {world : World Database LocalState} (identity : Identity)
    (uploadId : Uuid) (partNumber : Int) (etag : String) (sizeBytes : Int)
    (checksumSha256 : Option String) (now : Timestamp) : Posted settings nfc sha256 uploadId world
      (.commitPart identity uploadId partNumber etag sizeBytes checksumSha256, now) := by
  have outcome := serve_commitPart settings nfc sha256 world
    identity uploadId partNumber etag sizeBytes checksumSha256 now
  unfold Posted
  rcases outcome with refused | ⟨upload, number, named, rfl, served⟩
  · dsimp only
    rw [refused]
    exact .unchanged
  · rw [served]
    have rows : ∀ item, rowHeld uploadId ⟨(world.db.upsertPart (reportedRow upload number etag
        sizeBytes checksumSha256)).updateUpload upload.id (·.touch now), world.store⟩ item ↔
          rowHeld uploadId world item ∨ item = number := by
      intro item
      have key : (reportedRow upload number etag sizeBytes checksumSha256).key =
          (uploadId, number) := Prod.ext named rfl
      unfold rowHeld
      rw [Database.updateUpload_uploadParts, upsertPart_rows _ key]
    refine ⟨fun _ held => .inl held, fun item held => (rows item).mpr (.inl held),
      fun item held => ?_, fun _ held => .inl held⟩
    rcases (rows item).mp held with before | rfl
    · exact .inl before
    · exact .inr (.inr (.reported identity item etag sizeBytes checksumSha256 .done))

/-- Whatever is asked for, a difference between the records has its cause. -/
theorem posted {world : World Database LocalState}
    (sound : Integrity (localApp settings nfc sha256) world.db) (timed : Timed) (uploadId : Uuid) :
    Posted settings nfc sha256 uploadId world timed := by
  by_cases owner : timed.1.partOwner? = some uploadId
  · obtain ⟨asked, now⟩ := timed
    cases asked with
    | proxyUploadPart identity asked partNumber body checksumSha256 =>
      cases owner
      exact posted_proxiedPart sound identity uploadId partNumber body checksumSha256 now
    | lostPart identity asked partNumber body checksumSha256 =>
      cases owner
      exact posted_lostPart sound identity uploadId partNumber body checksumSha256 now
    | directPart asked partNumber body =>
      have untouched := serve_directPart settings nfc sha256 world asked partNumber body now
      unfold Posted
      dsimp only
      rw [untouched]
      exact .unchanged
    | commitPart identity asked partNumber etag sizeBytes checksumSha256 =>
      cases owner
      exact posted_commitPart identity uploadId partNumber etag sizeBytes checksumSha256 now
    | _ => cases owner
  · exact posted_other sound owner

/-! The report. -/

open ReconcileService

theorem storageNumbers_run (db : Database) {upload : UploadSession}
    (laidOut : LaidOut (localApp settings nfc sha256) upload.core) (store : LocalState) :
    ∃ numbers, (storageNumbers (localApp settings nfc sha256) upload).run db store =
        (.ok (numbers, db), store) ∧
      ∀ number, number ∈ numbers ↔ number ∈ partFiles store (.session upload.id) := by
  have named : upload.storageId? = some (.session upload.id) := by
    have stored : upload.storageUploadId = some (.session upload.id) := laidOut.storageId rfl
    rw [UploadSession.storageId?, stored]
  have lists : (localApp settings nfc sha256).storage.capabilities.listParts = true := rfl
  obtain ⟨parts, listed⟩ : ∃ parts, listParts (.session upload.id) store = .ok parts := ⟨_, rfl⟩
  have answered : (Program.askStore .listParts ((localApp settings nfc sha256).storage.listParts
      upload.bucket upload.objectKey (.session upload.id)) :
        Handler LocalState (List UploadedPart)).run db store = (.ok (parts, db), store) := by
    rw [Program.run_askStore]
    exact congrArg (fun answer => (answer.map (·, db), store)) listed
  refine ⟨parts.map (·.partNumber), ?_, (listParts_ok listed).2⟩
  unfold storageNumbers
  rw [named]
  dsimp only
  rw [if_pos lists, Program.run_bind_ok answered]
  rfl

theorem mem_committedNumbers {db : Database} (parts : PartsInRange db) {upload : UploadSession}
    {number : Nat} : number ∈ committedNumbers db upload ↔
      (upload.id, number) ∈ db.uploadParts.map (·.key) := by
  unfold committedNumbers
  simp only [List.mem_map]
  constructor
  · rintro ⟨part, member, rfl⟩
    obtain ⟨present, owner⟩ := mem_partsOf.mp (List.mem_of_mem_filter member)
    exact ⟨part, present, Prod.ext owner rfl⟩
  · rintro ⟨part, present, key⟩
    obtain ⟨owner, numbered⟩ := Prod.mk.inj key
    refine ⟨part, List.mem_filter.mpr ⟨mem_partsOf.mpr ⟨present, owner⟩, ?_⟩, numbered⟩
    exact decide_eq_true (parts.committed part present)

private theorem Identified.find_upload {db : Database} (sound : Identified db) {upload : UploadSession}
    (member : upload ∈ db.uploadSessions) (named : UploadSession → Bool)
    (holds : named upload = true) (only : ∀ other, named other = true → other.id = upload.id) :
    db.uploadSessions.find? named = some upload := by
  cases search : db.uploadSessions.find? named with
  | none => exact absurd holds (List.find?_eq_none.mp search upload member)
  | some other =>
    have same := only other (List.find?_some search)
    rw [sound.upload_unique (List.mem_of_find?_eq_some search) member same]

/-- `reconcile upload` reads the two records of the session and changes nothing. -/
theorem reconcileUpload_run {world : World Database LocalState}
    (sound : Integrity (localApp settings nfc sha256) world.db) {upload : UploadSession}
    (found : upload ∈ world.db.uploadSessions) :
    ∃ numbers, world.execute (reconcileUpload (localApp settings nfc sha256) upload.id none) =
        (.ok (report upload (committedNumbers world.db upload) numbers), world) ∧
      ∀ number, number ∈ numbers ↔ fileHeld upload.id world number := by
  obtain ⟨numbers, listed, same⟩ := storageNumbers_run world.db
    (sound.laidOut upload.core (mem_cores found)) world.store
  refine ⟨numbers, World.execute_eq_ok.mpr ?_, same⟩
  have located := sound.ids.find_upload found (fun other =>
    decide (other.id = upload.id ∧ ∀ tenant ∈ (none : Option String), other.tenantId = tenant))
    (by simp) (fun other named => (of_decide_eq_true named).1)
  unfold reconcileUpload ReconcileService.getUpload
  rw [Program.run_ask_bind, located]
  dsimp only
  rw [PartRepository.listPartsForUpload, Program.run_ask_bind, Program.run_bind_ok listed]
  rfl

/-- In every state that is reached, on disk, `reconcile upload` reports a part as missing in the
database only where its file was stored by an upload whose transaction was lost, and as missing in
the storage only where the client had reported the part without there being a file, or the file
was removed: by an upload that broke off, or when the session was to be completed or aborted.
Where nothing is missing the verdict is that the two are consistent. -/
theorem reconcile_finds_causes (settings : Settings) (nfc : String → String)
    (sha256 : Bytes → String) {world : World Database LocalState} (initial : world.db.Initial)
    {uploadId : Uuid} (unstaged : ∀ number, number ∉ partFiles world.store (.session uploadId))
    (requests : List Timed)
    (found : ∃ upload ∈ (after (localApp settings nfc sha256) world requests).db.uploadSessions,
      upload.id = uploadId) :
    let app := localApp settings nfc sha256
    let history := taken (fun world timed => (serve app world timed).2) world requests
    ∃ report, (after app world requests).execute (reconcileUpload app uploadId none) =
        (.ok report, after app world requests) ∧
      (∀ number ∈ report.missingInDb, ∃ step ∈ history,
        Unrecorded uploadId step.2.1 number ∧
          StoredAlone uploadId step.1 (serve app step.1 step.2).2 number) ∧
      (∀ number ∈ report.missingInStorage, ∃ step ∈ history,
        Unstored uploadId step.2.1 (serve app step.1 step.2).1 number ∧
          RecordedAlone uploadId step.1 (serve app step.1 step.2).2 number) ∧
      (report.consistent = true ↔ report.missingInDb = [] ∧ report.missingInStorage = []) := by
  intro app history
  have start : Integrity app world.db := initial.integrity
  have sound : Integrity app (after app world requests).db := after_integrity app initial requests
  obtain ⟨upload, member, rfl⟩ := found
  obtain ⟨numbers, ran, listed⟩ := reconcileUpload_run sound member
  have explained : Explained (fileHeld upload.id (after app world requests))
      (rowHeld upload.id (after app world requests)) ([] ++ history)
      (fun step number => Unrecorded upload.id step.2.1 number ∧
        StoredAlone upload.id step.1 (serve app step.1 step.2).2 number)
      (fun step number => Unstored upload.id step.2.1 (serve app step.1 step.2).1 number ∧
        RecordedAlone upload.id step.1 (serve app step.1 step.2).2 number) := by
    refine explained_run (fun world timed sound => serve_integrity world timed sound)
      (fun world timed sound => (posted sound timed upload.id).parting) start ⟨?_, ?_⟩ requests
    · exact fun number held => absurd held (unstaged number)
    · intro number held
      rw [rowHeld, initial.2.2] at held
      cases held
  have rows : ∀ number, number ∈ committedNumbers (after app world requests).db upload ↔
      rowHeld upload.id (after app world requests) number := fun _ =>
    mem_committedNumbers sound.parts
  refine ⟨_, ran, fun number missing => ?_, fun number missing => ?_, consistent_iff⟩
  · obtain ⟨stored, unrecorded⟩ := mem_missingInDb.mp missing
    rcases explained.ofFirst number ((listed number).mp stored) with recorded | cause
    · exact absurd ((rows number).mpr recorded) unrecorded
    · exact cause
  · obtain ⟨recorded, unstored⟩ := mem_missingInStorage.mp missing
    rcases explained.ofSecond number ((rows number).mp recorded) with stored | cause
    · exact absurd ((listed number).mpr stored) unstored
    · exact cause

/-- The second part was stored alone, by the request whose transaction was lost. -/
theorem reconcile_finds_causes_small :
    let world : World Database LocalState := ⟨{}, {}⟩
    let app := smallLocalApp
    let history := taken (fun world timed => (serve app world timed).2) world lostRun
    ∃ report, (after app world lostRun).execute (reconcileUpload app 0 none) =
        (.ok report, after app world lostRun) ∧
      (∀ number ∈ report.missingInDb, ∃ step ∈ history,
        Unrecorded 0 step.2.1 number ∧
          StoredAlone 0 step.1 (serve app step.1 step.2).2 number) ∧
      (∀ number ∈ report.missingInStorage, ∃ step ∈ history,
        Unstored 0 step.2.1 (serve app step.1 step.2).1 number ∧
          RecordedAlone 0 step.1 (serve app step.1 step.2).2 number) ∧
      (report.consistent = true ↔ report.missingInDb = [] ∧ report.missingInStorage = []) :=
  reconcile_finds_causes _ _ _ (by decide) (fun number => AList.notMem_empty number) lostRun
    (by decide)

end Records

end PyUploadX
