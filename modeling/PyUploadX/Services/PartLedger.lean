import PyUploadX.Services.Completion
import PyUploadX.Services.PartLayout

/-! The bodies a session was sent. Along a run the latest accepted body of each part is
written down, and the rows and the part files are compared with it. -/
namespace PyUploadX

open Kit UploadService

section Acceptance

variable {σ : Type} {app : AppState σ}

/-- Past its checks a proxied part hangs on the storage alone. -/
theorem proxyUploadPart_run {identity : Identity} {uploadId : Uuid} {partNumber : Int}
    {upload : UploadSession} {number : Nat} {db : Database} (body : Bytes) (sizeBytes : Nat)
    (checksumSha256 : Option String) (now : Timestamp)
    (found : db.findUpload uploadId identity.tenantId = some upload)
    (active : ensureActive upload = .ok ())
    (inRange : checkPartNumber upload partNumber = .ok number)
    (sized : checkPartSize app.settings.uploads.multipart.minimumPartSizeBytes upload number
      sizeBytes = .ok ()) (store : σ) :
    (proxyUploadPart app identity uploadId partNumber body sizeBytes checksumSha256 now).run db
        store =
      match app.storage.uploadPart upload.bucket upload.objectKey upload.storageKey number body
        sizeBytes checksumSha256 store with
      | (.error failure, store') => (.error failure, store')
      | (.ok stored, store') =>
        let part := storedRow upload number stored checksumSha256
        (.ok (part, partAccepted db upload part now), store') := by
  have session : (getSession identity uploadId : Handler σ UploadSession).run db store =
      (.ok (upload, db), store) := by
    unfold getSession UploadRepository.getUpload
    rw [Program.run_bind]
    simp only [Program.run, found]
    rfl
  unfold proxyUploadPart partAccepted
  rw [Program.run_bind_ok session, Program.run_bind_ok (Program.liftExcept_ok active _ _),
    Program.run_bind_ok (Program.liftExcept_ok inRange _ _),
    Program.run_bind_ok (Program.liftExcept_ok sized _ _)]
  split
  · rename_i status
    rw [UploadRepository.updateStatus, Program.run_modify_bind, Program.run_bind,
      Program.run_onStore]
    rcases app.storage.uploadPart upload.bucket upload.objectKey upload.storageKey number body
      sizeBytes checksumSha256 store with ⟨failure | stored, store'⟩
    · rfl
    · rfl
  · rename_i status
    rw [Program.run_bind, Program.run_onStore]
    rcases app.storage.uploadPart upload.bucket upload.objectKey upload.storageKey number body
      sizeBytes checksumSha256 store with ⟨failure | stored, store'⟩
    · rfl
    · rfl

/-- Either a check stops a proxied part, or it reaches the storage. -/
theorem proxyUploadPart_cases (app : AppState σ) (identity : Identity) (uploadId : Uuid)
    (partNumber : Int) (body : Bytes) (sizeBytes : Nat) (checksumSha256 : Option String)
    (now : Timestamp) (db : Database) (store : σ) :
    (∃ failure, (proxyUploadPart app identity uploadId partNumber body sizeBytes checksumSha256
      now).run db store = (.error failure, store)) ∨
    ∃ upload number, db.findUpload uploadId identity.tenantId = some upload ∧
      ensureActive upload = .ok () ∧ checkPartNumber upload partNumber = .ok number ∧
      checkPartSize app.settings.uploads.multipart.minimumPartSizeBytes upload number sizeBytes =
        .ok () := by
  rcases getSession_readOnly (σ := σ) identity uploadId db store with
    ⟨upload, session⟩ | ⟨failure, refused⟩
  · have stop : ∀ {α : Type} (result : Except Failure α) (next : α → Handler σ UploadPart)
        (failure : Failure), result = .error failure →
        ((Program.liftExcept result : Handler σ α) >>= next).run db store =
          (.error failure, store) := by
      rintro α result next failure rfl
      rfl
    cases active : ensureActive upload with
    | error failure =>
      refine .inl ⟨failure, ?_⟩
      unfold proxyUploadPart
      rw [Program.run_bind_ok session, stop _ _ _ active]
    | ok =>
      cases inRange : checkPartNumber upload partNumber with
      | error failure =>
        refine .inl ⟨failure, ?_⟩
        unfold proxyUploadPart
        rw [Program.run_bind_ok session, Program.run_bind_ok (Program.liftExcept_ok active _ _),
          stop _ _ _ inRange]
      | ok number =>
        cases sized : checkPartSize app.settings.uploads.multipart.minimumPartSizeBytes upload
            number sizeBytes with
        | error failure =>
          refine .inl ⟨failure, ?_⟩
          unfold proxyUploadPart
          rw [Program.run_bind_ok session, Program.run_bind_ok (Program.liftExcept_ok active _ _),
            Program.run_bind_ok (Program.liftExcept_ok inRange _ _), stop _ _ _ sized]
        | ok => exact .inr ⟨upload, number, getSession_ok session, active, inRange, sized⟩
  · refine .inl ⟨failure, ?_⟩
    unfold proxyUploadPart
    rw [Program.run_bind, refused]

end Acceptance

section Ledger

variable {σ : Type}

/-- An accepted PUT replaces the body of its part. -/
def noteBody (uploadId : Uuid) (bodies : Nat → Option Bytes) :
    Request → Except Failure Reply → Nat → Option Bytes
  | .proxyUploadPart _ id number body _, .ok _ =>
    if id = uploadId then Function.update bodies number.toNat (some body) else bodies
  | _, _ => bodies

/-- The latest accepted body of each part of a session, after a run. -/
def bodiesAfter (app : AppState σ) (uploadId : Uuid) :
    World Database σ → List Timed → (Nat → Option Bytes) → Nat → Option Bytes
  | _, [], bodies => bodies
  | world, timed :: rest, bodies =>
    let served := serve app world timed
    bodiesAfter app uploadId served.2 rest (noteBody uploadId bodies timed.1 served.1)

def acceptedBodies (app : AppState σ) (uploadId : Uuid) (world : World Database σ)
    (requests : List Timed) : Nat → Option Bytes :=
  bodiesAfter app uploadId world requests fun _ => none

/-- The parts of the session come by proxied PUTs that commit. -/
def ByProxy (uploadId : Uuid) (request : Request) : Prop :=
  request.partOwner? = some uploadId →
    ∃ identity number body checksumSha256,
      request = .proxyUploadPart identity uploadId number body checksumSha256

/-- The rows of the session have the sizes of the bodies, and its part files, as far as
there are any, their contents. -/
structure Ledgered (uploadId : Uuid) (world : World Database LocalState)
    (bodies : Nat → Option Bytes) : Prop where
  rows : ∀ row ∈ world.db.uploadParts, row.uploadId = uploadId →
    ∃ body, bodies row.partNumber = some body ∧ row.sizeBytes = body.length
  kept : ∀ number body, bodies number = some body →
    ∃ row ∈ world.db.uploadParts, row.key = (uploadId, number)
  files : ∀ number content,
    (LocalStorageAdapter.partFiles world.store (.session uploadId)).lookup number = some content →
      bodies number = some content

/-- A request for no part of the session leaves its rows alone. -/
theorem Change.partsOf_other {app : AppState σ} {asked : Request} {db db' : Database}
    (change : Change app asked db db') {uploadId : Uuid}
    (other : asked.partOwner? ≠ some uploadId) {row : UploadPart} (owner : row.uploadId = uploadId) :
    row ∈ db'.uploadParts ↔ row ∈ db.uploadParts := by
  cases change with
  | buckets files sessions parts ids => rw [parts]
  | directories asks changes => rw [changes.besides.uploadParts]
  | @part upload part now starts found unfinished starting owned first last committed asks =>
    have different : row.key ≠ part.key := by
      intro same
      apply other
      rw [asks, ← owned, ← owner]
      exact congrArg some (Prod.mk.inj same).1.symm
    rw [Database.updateUpload_uploadParts]
    have started : (if starts = true then db.updateUpload upload.id (·.setStatus .uploading)
        else db).uploadParts = db.uploadParts := by
      split <;> rfl
    rw [← started]
    constructor
    · intro member
      rcases upsertPart_mem member with ⟨same, _⟩ | ⟨old, _⟩
      · exact absurd same different
      · exact old
    · exact fun member => upsertPart_kept member different
  | expired unfinished => rw [expired_uploadParts]
  | file kind same files => rw [same.2.1]
  | batch same loads turns => rw [same.2.1]
  | _ => exact Iff.rfl

theorem storageKey_local {settings : Settings} {nfc : String → String} {sha256 : Bytes → String}
    {upload : UploadSession} (laidOut : LaidOut (localApp settings nfc sha256) upload.core) :
    upload.storageKey = .session upload.id := by
  have stored : upload.storageUploadId = some (.session upload.id) := laidOut.storageId rfl
  unfold UploadSession.storageKey UploadSession.storageId?
  rw [stored]
  rfl

open LocalStorageAdapter in
theorem turns_local_staging {settings : Settings} {nfc : String → String}
    {sha256 : Bytes → String} {now : Timestamp} {due files files' : List FileObject}
    {store store' : LocalState}
    (turns : LifecycleWorker.Turns (localApp settings nfc sha256) now due files store files'
      store') : store'.staging = store.staging := by
  refine @LifecycleWorker.turns_store _ _ (fun left => left.staging = store.staging) _ _ _ _ _ _
    turns (fun file before _ _ ran kept => ?_) rfl
  have removal := (deleteObject_effect file.bucket file.objectKey before).1
  change deleteObject file.bucket file.objectKey before = _ at ran
  rw [ran] at removal
  exact removal.trans kept

open LocalStorageAdapter in
/-- On disk a request for no part of a session leaves its part files, or removes them all. -/
theorem StoreEffect.partFiles_other {settings : Settings} {nfc : String → String}
    {sha256 : Bytes → String} {db : Database} {store store' : LocalState} {asked : Request}
    (effect : StoreEffect (localApp settings nfc sha256) db store asked store')
    {uploadId : Uuid} (other : asked.partOwner? ≠ some uploadId)
    (laidOut : ∀ core ∈ db.cores, LaidOut (localApp settings nfc sha256) core) :
    partFiles store' (.session uploadId) = partFiles store (.session uploadId) ∨
      partFiles store' (.session uploadId) = ∅ := by
  have of_staging : ∀ {after : LocalState}, after.staging = store.staging →
      partFiles after (.session uploadId) = partFiles store (.session uploadId) := by
    intro after same
    unfold partFiles
    rw [same]
  cases effect with
  | none => exact .inl rfl
  | createBucket identity name bucket =>
    exact .inl (of_staging (createBucket_effect bucket store).1)
  | deleteBucket identity name bucket =>
    exact .inl (of_staging (deleteBucket_effect bucket store).1)
  | initiate identity request safeKey metadata => exact .inl rfl
  | @part request upload number body checksumSha256 asks found first last =>
    left
    have key := storageKey_local (laidOut upload.core (mem_cores found))
    have different : StorageUploadId.session uploadId ≠ upload.storageKey := by
      rw [key]
      intro same
      exact other (asks.trans (congrArg some (StorageUploadId.session.inj same).symm))
    exact (uploadPart_effect sha256 upload.storageKey number body body.length store).2 _ different
  | @complete identity completed upload parts found prepared =>
    exact (complete_effect sha256 upload.bucket upload.objectKey upload.storageKey parts store).1 _
  | @abort identity aborted upload storageUploadId =>
    have dropped := partFiles_dropStaging store storageUploadId (.session uploadId)
    split at dropped
    · exact .inr dropped
    · exact .inl dropped
  | @put identity request now safeKey effective valid =>
    exact .inl (of_staging (putObject_effect sha256 request.bucket safeKey request.stream
      request.contentType (some request.sizeBytes) request.checksumSha256 store).1)
  | @delete identity fileId file found live =>
    exact .inl (of_staging (deleteObject_effect file.bucket file.objectKey store).1)
  | batch turns => exact .inl (of_staging (turns_local_staging turns))

private theorem noteBody_other {uploadId : Uuid} {asked : Request} (other : asked.partOwner? ≠ some uploadId)
    (bodies : Nat → Option Bytes) (reply : Except Failure Reply) :
    noteBody uploadId bodies asked reply = bodies := by
  unfold noteBody
  split
  · rename_i id number body checksumSha256 value
    rw [if_neg fun same => other (congrArg some same)]
  · rfl

open LocalStorageAdapter in
/-- On disk a proxied part is stopped by a check, breaks off, or is stored and noted. -/
inductive ProxiedPart (app : AppState LocalState) (sha256 : Bytes → String)
    (world : World Database LocalState) (identity : Identity) (uploadId : Uuid) (body : Bytes)
    (checksumSha256 : Option String) (partNumber : Int) (now : Timestamp) :
    Except Failure Reply × World Database LocalState → Prop
  | refused (failure : Failure) :
      ProxiedPart app sha256 world identity uploadId body checksumSha256 partNumber now
        (.error failure, world)
  | brokenOff (failure : Failure) (upload : UploadSession) (number : Nat)
      (found : world.db.findUpload uploadId identity.tenantId = some upload) :
      ProxiedPart app sha256 world identity uploadId body checksumSha256 partNumber now
        (.error failure, ⟨world.db, setPartFiles (takeFault world.store).2 upload.storageKey
          ((partFiles world.store upload.storageKey).erase number)⟩)
  | stored (upload : UploadSession) (part : UploadPart)
      (found : world.db.findUpload uploadId identity.tenantId = some upload)
      (owner : part.uploadId = upload.id) (numbered : partNumber = part.partNumber)
      (sized : part.sizeBytes = body.length)
      (unfaulted : (takeFault world.store).1 = none) :
      ProxiedPart app sha256 world identity uploadId body checksumSha256 partNumber now
        (.ok (.part part), ⟨partAccepted world.db upload part now,
          setPartFiles (takeFault world.store).2 upload.storageKey
            ((partFiles world.store upload.storageKey).insert part.partNumber body)⟩)

open LocalStorageAdapter in
theorem serve_proxiedPart (settings : Settings) (nfc : String → String) (sha256 : Bytes → String)
    (world : World Database LocalState) (identity : Identity) (uploadId : Uuid)
    (partNumber : Int) (body : Bytes) (checksumSha256 : Option String) (now : Timestamp) :
    ProxiedPart (localApp settings nfc sha256) sha256 world identity uploadId body checksumSha256
      partNumber now (serve (localApp settings nfc sha256) world
        (.proxyUploadPart identity uploadId partNumber body checksumSha256, now)) := by
  rcases proxyUploadPart_cases (localApp settings nfc sha256) identity uploadId partNumber body
      body.length checksumSha256 now world.db world.store with
    ⟨failure, stopped⟩ | ⟨upload, number, found, active, inRange, sized⟩
  · have served := World.execute_wrap_error stopped Reply.part
    rw [serve, handle, served]
    exact .refused failure
  · have put := uploadPart_run sha256 upload.storageKey number body world.store
    have ran := proxyUploadPart_run body body.length checksumSha256 now found active inRange sized
      world.store
    obtain ⟨first, last, same⟩ := checkPartNumber_ok inRange
    simp only [localApp, LocalStorageAdapter, put] at ran
    by_cases unfaulted : (takeFault world.store).1 = none
    · simp only [if_pos unfaulted] at ran
      have served := World.execute_wrap_ok ran Reply.part
      rw [serve, handle, localApp, LocalStorageAdapter, served]
      exact .stored upload _ found rfl same rfl unfaulted
    · simp only [if_neg unfaulted] at ran
      have served := World.execute_wrap_error ran Reply.part
      rw [serve, handle, localApp, LocalStorageAdapter, served]
      exact .brokenOff _ upload number found

open LocalStorageAdapter in
/-- Every request that brings parts of the session by proxy only keeps the ledger. -/
theorem serve_ledgered {settings : Settings} {nfc : String → String} {sha256 : Bytes → String}
    {uploadId : Uuid} {world : World Database LocalState} {timed : Timed}
    {bodies : Nat → Option Bytes} (sound : Integrity (localApp settings nfc sha256) world.db)
    (byProxy : ByProxy uploadId timed.1) (ledger : Ledgered uploadId world bodies) :
    Ledgered uploadId (serve (localApp settings nfc sha256) world timed).2
      (noteBody uploadId bodies timed.1 (serve (localApp settings nfc sha256) world timed).1) := by
  by_cases named : timed.1.partOwner? = some uploadId
  · obtain ⟨identity, partNumber, body, checksumSha256, asked⟩ := byProxy named
    obtain ⟨_, now⟩ := timed
    subst asked
    have outcome := serve_proxiedPart settings nfc sha256 world identity uploadId partNumber body
      checksumSha256 now
    have key : ∀ upload, world.db.findUpload uploadId identity.tenantId = some upload →
        upload.id = uploadId ∧ upload.storageKey = .session uploadId := by
      intro upload found
      obtain ⟨member, named, _⟩ := Database.findUpload_some found
      have own := storageKey_local (sound.laidOut upload.core (mem_cores member))
      rw [named] at own
      exact ⟨named, own⟩
    generalize serve (localApp settings nfc sha256) world
      (.proxyUploadPart identity uploadId partNumber body checksumSha256, now) = served at outcome ⊢
    cases outcome with
    | refused failure => exact ledger
    | brokenOff failure upload number found =>
      rw [(key upload found).2]
      refine ⟨ledger.rows, ledger.kept, fun other content stored => ?_⟩
      rw [partFiles_setPartFiles, if_pos rfl] at stored
      by_cases same : other = number
      · rw [same, AList.lookup_erase] at stored
        cases stored
      · rw [AList.lookup_erase_ne same] at stored
        exact ledger.files other content stored
    | stored upload part found owner numbered sized unfaulted =>
      obtain ⟨named, own⟩ := key upload found
      have noted : noteBody uploadId bodies
          (.proxyUploadPart identity uploadId partNumber body checksumSha256) (.ok (.part part)) =
            Function.update bodies part.partNumber (some body) := by
        rw [numbered]
        exact if_pos rfl
      have started : (if upload.status = .initiated then
          world.db.updateUpload upload.id (·.setStatus .uploading) else world.db).uploadParts =
            world.db.uploadParts := by
        split <;> rfl
      have partKey : part.key = (uploadId, part.partNumber) :=
        Prod.ext (owner.trans named) rfl
      rw [noted, own]
      refine ⟨fun row member mine => ?_, fun number content sent => ?_,
        fun number content stored => ?_⟩
      · rcases upsertPart_mem member with ⟨same, _, size, _⟩ | ⟨old, different⟩
        · rw [partKey] at same
          rw [(Prod.mk.inj same).2, Function.update_self]
          exact ⟨body, rfl, size.trans sized⟩
        · rw [started] at old
          have other : row.partNumber ≠ part.partNumber := by
            intro same
            apply different
            rw [partKey, ← same, ← mine]
            rfl
          rw [Function.update_of_ne other]
          exact ledger.rows row old mine
      · by_cases same : number = part.partNumber
        · rw [same, ← partKey]
          exact upsertPart_added _ part
        · rw [Function.update_of_ne same] at sent
          obtain ⟨row, member, rowKey⟩ := ledger.kept number content sent
          rw [← started] at member
          refine ⟨row, upsertPart_kept member fun clash => same ?_, rowKey⟩
          rw [rowKey, partKey] at clash
          exact (Prod.mk.inj clash).2
      · rw [partFiles_setPartFiles, if_pos rfl] at stored
        by_cases same : number = part.partNumber
        · rw [same, AList.lookup_insert] at stored
          rw [same, Function.update_self]
          exact stored
        · rw [AList.lookup_insert_ne same] at stored
          rw [Function.update_of_ne same]
          exact ledger.files number content stored
  · rw [noteBody_other named]
    have change := serve_change (localApp settings nfc sha256) world timed
    have files := (serve_storeEffect world timed).partFiles_other named sound.laidOut
    refine ⟨fun row member owner => ?_, fun number body sent => ?_, fun number content stored => ?_⟩
    · exact ledger.rows row ((change.partsOf_other named owner).mp member) owner
    · obtain ⟨row, member, key⟩ := ledger.kept number body sent
      exact ⟨row, (change.partsOf_other named (Prod.mk.inj key).1).mpr member, key⟩
    · rcases files with same | dropped
      · exact ledger.files number content (same ▸ stored)
      · rw [dropped] at stored
        cases stored

private theorem after_ledgered {settings : Settings} {nfc : String → String} {sha256 : Bytes → String}
    {uploadId : Uuid} {world : World Database LocalState} {requests : List Timed}
    {bodies : Nat → Option Bytes} (sound : Integrity (localApp settings nfc sha256) world.db)
    (byProxy : ∀ timed ∈ requests, ByProxy uploadId timed.1)
    (ledger : Ledgered uploadId world bodies) :
    Ledgered uploadId (after (localApp settings nfc sha256) world requests)
      (bodiesAfter (localApp settings nfc sha256) uploadId world requests bodies) := by
  induction requests generalizing world bodies with
  | nil => exact ledger
  | cons timed rest ih =>
    have next := serve_ledgered sound (byProxy timed (by simp)) ledger
    have later : ∀ timed ∈ rest, ByProxy uploadId timed.1 :=
      fun timed member => byProxy timed (by simp [member])
    exact ih (serve_integrity world timed sound) later next

/-- Before the first upload there is nothing to write down. -/
theorem Database.Initial.ledgered {world : World Database LocalState} (initial : world.db.Initial)
    {uploadId : Uuid}
    (unstaged : ∀ number, number ∉ LocalStorageAdapter.partFiles world.store (.session uploadId)) :
    Ledgered uploadId world fun _ => none := by
  refine ⟨fun row member => ?_, fun number body sent => ?_, fun number content stored => ?_⟩
  · rw [initial.2.2] at member
    cases member
  · cases sent
  · have member := AList.lookup_isSome.mp (Option.isSome_of_eq_some stored)
    exact absurd member (unstaged number)

end Ledger

section Assembly

open LocalStorageAdapter

variable {settings : Settings} {nfc : String → String} {sha256 : Bytes → String}

private theorem sortedParts_perm (parts : List UploadedPart) : (sortedParts parts).Perm parts :=
  List.perm_insertionSort _ parts

theorem contents_length (files : PartFiles) (parts : List UploadedPart) :
    (contents files (sortedParts parts)).length =
      ((parts.map (·.partNumber)).map fun number =>
        ((files.lookup number).getD []).length).sum := by
  unfold contents
  rw [List.length_flatMap, List.map_map]
  exact ((sortedParts_perm parts).map _).sum_eq

/-- A completion that succeeds on disk assembles the listed part files. -/
theorem handed_listed {upload : UploadSession} {committed : List UploadPart} {db : Database}
    {store : LocalState} {parts : List UploadedPart}
    (laidOut : LaidOut (localApp settings nfc sha256) upload.core)
    (listed : (storedParts (localApp settings nfc sha256) upload committed).run db store =
      (.ok (parts, db), store))
    (rows : committed ≠ [])
    (present : ∀ part ∈ parts, part.partNumber ∈ partFiles store upload.storageKey) :
    listParts upload.storageKey store = .ok parts ∧ parts ≠ [] := by
  rcases storedParts_ok listed with ⟨listing, filled⟩ | ⟨rfl, empty | unable | unnamed⟩
  · exact ⟨listing, filled rfl⟩
  · obtain ⟨row, member⟩ := List.exists_mem_of_ne_nil _ rows
    have there := present (handedRow row) (List.mem_map_of_mem member)
    have names := ((listParts_ok empty).2 row.partNumber).mpr there
    cases names
  · cases unable
  · have stored : upload.storageUploadId = some (.session upload.id) := laidOut.storageId rfl
    rw [UploadSession.storageId?, stored] at unnamed
    cases unnamed

/-- Every accepted body has the length its part has to have. -/
def ExactBodies (upload : UploadSession) (bodies : Nat → Option Bytes) : Prop :=
  ∀ number body, bodies number = some body → body.length = upload.partLength number

/-- Every committed row of the session has the size its part has to have. -/
def ExactRows (db : Database) (upload : UploadSession) : Prop :=
  ∀ row ∈ committedOf (db.partsOf upload.id), row.sizeBytes = upload.partLength row.partNumber

private theorem exactRows_iff {world : World Database LocalState} {bodies : Nat → Option Bytes}
    (sound : Integrity (localApp settings nfc sha256) world.db) {upload : UploadSession}
    (ledger : Ledgered upload.id world bodies) :
    ExactRows world.db upload ↔ ExactBodies upload bodies := by
  constructor
  · intro exact number body sent
    obtain ⟨row, member, key⟩ := ledger.kept number body sent
    obtain ⟨owner, same⟩ := Prod.mk.inj key
    have committed : row ∈ committedOf (world.db.partsOf upload.id) := by
      apply List.mem_filter.mpr
      exact ⟨mem_partsOf.mpr ⟨member, owner⟩, by simpa using sound.parts.committed row member⟩
    obtain ⟨noted, latest, size⟩ := ledger.rows row member owner
    rw [same, sent] at latest
    cases latest
    have length := exact row committed
    rw [size, same] at length
    exact Int.ofNat.inj length
  · intro exact row committed
    obtain ⟨member, owner⟩ := mem_partsOf.mp (List.mem_of_mem_filter committed)
    obtain ⟨body, latest, size⟩ := ledger.rows row member owner
    rw [size, exact row.partNumber body latest]

/-- With exact bodies the merged file is complete when no part file is missing. -/
theorem merged_length_iff {world : World Database LocalState} {bodies : Nat → Option Bytes}
    (sound : Integrity (localApp settings nfc sha256) world.db)
    (staged : @Staged _ (localApp settings nfc sha256) (localBackend sha256) world)
    {upload : UploadSession} (ledger : Ledgered upload.id world bodies)
    (found : upload ∈ world.db.uploadSessions) {parts : List UploadedPart}
    (handed : handedParts (localApp settings nfc sha256) upload world = some parts)
    (present : ∀ part ∈ parts,
      part.partNumber ∈ partFiles world.store upload.storageKey)
    (exact : ExactBodies upload bodies) :
    (contents (partFiles world.store upload.storageKey) (sortedParts parts)).length =
        upload.totalSize ↔ RowsStored view world upload := by
  have laidOut := sound.laidOut upload.core (mem_cores found)
  have positive : 0 < upload.partSize := laidOut.positive
  have layout : upload.totalParts = totalParts upload.totalSize upload.partSize := laidOut.parts
  have key := storageKey_local laidOut
  obtain ⟨enough, listed, _⟩ := partsToComplete_ok (handedParts_some.mp handed)
  have rows : committedOf (world.db.partsOf upload.id) ≠ [] := by
    intro empty
    have one := one_le_totalParts upload.totalSize upload.partSize
    rw [empty, layout, List.length_nil] at enough
    omega
  obtain ⟨listing, filled⟩ := handed_listed laidOut listed rows present
  obtain ⟨nodup, names⟩ := listParts_ok listing
  have within : parts.map (·.partNumber) ⊆ List.range' 1 upload.totalParts := by
    intro number member
    have there := (names number).mp member
    have bounds := staged.inRange upload.core (mem_cores found) "" upload.objectKey number there
    rw [List.mem_range'_1]
    exact ⟨bounds.1, Nat.lt_one_add_iff.mpr bounds.2⟩
  have lengths : (contents (partFiles world.store upload.storageKey) (sortedParts parts)).length =
      ((parts.map (·.partNumber)).map upload.partLength).sum := by
    rw [contents_length]
    congr 1
    apply List.map_congr_left
    intro number member
    have there := (names number).mp member
    obtain ⟨content, stored⟩ := Option.isSome_iff_exists.mp (AList.lookup_isSome.mpr there)
    rw [stored]
    rw [key] at stored
    exact exact number content (ledger.files number content stored)
  have total := sum_partLength positive layout
  have whole : Whole view world.store upload parts ↔ RowsStored view world upload :=
    @handed_whole_iff _ (localApp settings nfc sha256) (localBackend sha256) _ sound staged _ found
      _ handed
  rw [lengths, ← whole]
  constructor
  · intro sums
    refine ⟨?_, present⟩
    rcases Nat.eq_zero_or_pos upload.totalSize with empty | nonempty
    · -- An empty upload is one empty part, which the sum does not see.
      have one : upload.totalParts = 1 := by
        rw [layout, empty]
        exact totalParts_zero positive
      apply (nodup.subperm within).perm_of_length_le
      rw [List.length_range', one, List.length_map]
      exact List.length_pos_iff.mpr filled
    · have filledParts : ∀ number ∈ List.range' 1 upload.totalParts,
          0 < upload.partLength number := by
        intro number member
        rw [List.mem_range'_1] at member
        exact partLength_pos positive layout nonempty (by omega)
      exact perm_of_sum_eq nodup within filledParts (sums.trans total.symm)
  · rintro ⟨numbers, _⟩
    rw [(numbers.map _).sum_eq, total]

/-- A `complete` on disk that assembles a session stores `total_size` bytes, from parts of
the right sizes, exactly when every accepted body had the length of its part and no part
file was lost. -/
theorem completed_size_iff_exact_bodies (settings : Settings) (nfc : String → String)
    (sha256 : Bytes → String) (world : World Database LocalState) (initial : world.db.Initial)
    (unstaged : ∀ id number, number ∉ partFiles world.store (.session id))
    (uploadId : Uuid) (requests : List Timed)
    (byProxy : ∀ timed ∈ requests, ByProxy uploadId timed.1)
    (identity : Identity) (upload : UploadSession)
    (found : (after (localApp settings nfc sha256) world requests).db.findUpload uploadId
      identity.tenantId = some upload)
    (unfinished : upload.status.terminal = false) (now : Timestamp) (file : FileObject)
    (completed : (serve (localApp settings nfc sha256)
      (after (localApp settings nfc sha256) world requests) (.complete identity uploadId, now)).1 =
        .ok (.file file)) :
    (((serve (localApp settings nfc sha256)
        (after (localApp settings nfc sha256) world requests)
        (.complete identity uploadId, now)).2.store.tree.file?
          (objectPath file.bucket file.objectKey)).map List.length = some file.sizeBytes ∧
      ExactRows (after (localApp settings nfc sha256) world requests).db upload) ↔
    (ExactBodies upload (acceptedBodies (localApp settings nfc sha256) uploadId world requests) ∧
      RowsStored view (after (localApp settings nfc sha256) world requests) upload) := by
  have start : Integrity (localApp settings nfc sha256) world.db := initial.integrity
  have ledger := after_ledgered start byProxy (initial.ledgered (unstaged uploadId))
  have sound := after_integrity (localApp settings nfc sha256) initial requests
  have staged := @after_staged _ (localApp settings nfc sha256) (localBackend sha256) _ initial
    (fun _ _ id number => unstaged id number) requests
  rw [acceptedBodies]
  generalize bodiesAfter (localApp settings nfc sha256) uploadId world requests (fun _ => none) =
    bodies at ledger ⊢
  generalize after (localApp settings nfc sha256) world requests = reached at *
  obtain ⟨member, rfl, _⟩ := Database.findUpload_some found
  obtain ⟨_, done, reply⟩ := Program.bind_pure_eq_ok.mp (World.execute_committed completed)
  cases reply
  obtain ⟨same, present, before | ⟨parts, stored, _, prepared, assembled, row, _⟩⟩ :=
    PyUploadX.complete_ok done
  · rw [found] at present
    cases present
    rw [before.1] at unfinished
    cases unfinished
  · rw [found] at present
    cases present
    have handed := handedParts_some.mpr prepared
    obtain ⟨content, inFiles⟩ := LocalStorageAdapter.complete_ok assembled
    have object : (serve (localApp settings nfc sha256) reached
        (.complete identity upload.id, now)).2.store.tree.file?
          (objectPath file.bucket file.objectKey) =
        some (contents (partFiles reached.store upload.storageKey) (sortedParts parts)) := by
      rw [row]
      exact content
    have size : file.sizeBytes = upload.totalSize := by rw [row]; rfl
    rw [object, size, exactRows_iff sound ledger, Option.map_some, Option.some.injEq, and_comm,
      and_congr_right_iff]
    exact fun exact => merged_length_iff sound staged ledger member handed inFiles exact

private theorem storedRun_byProxy : ∀ timed ∈ storedRun, ByProxy 0 timed.1 := by
  intro timed member
  rcases List.mem_cons.mp member with rfl | member
  · exact fun named => by cases named
  · rcases List.mem_cons.mp member with rfl | member
    · exact fun _ => ⟨_, _, _, _, rfl⟩
    · rw [List.mem_singleton] at member
      subst member
      exact fun _ => ⟨_, _, _, _, rfl⟩

theorem storedRun_size_iff :
    let world := after smallLocalApp ⟨{}, {}⟩ storedRun
    let upload := (world.db.findUpload 0 "tenant").get (by decide)
    let completed := serve smallLocalApp world (.complete smallTenant 0, 0)
    let file := (servedFile completed.1).get (by decide)
    ((completed.2.store.tree.file? (objectPath file.bucket file.objectKey)).map List.length =
          some file.sizeBytes ∧ ExactRows world.db upload) ↔
      (ExactBodies upload (acceptedBodies smallLocalApp 0 ⟨{}, {}⟩ storedRun) ∧
        RowsStored view world upload) :=
  completed_size_iff_exact_bodies (smallSettings .local) id (fun content => toString content.length)
    ⟨{}, {}⟩ (by decide) (fun _ number => AList.notMem_empty number) 0 storedRun storedRun_byProxy
    smallTenant _ (Option.some_get (by decide)).symm (by decide) 0 _
    (servedFile_eq_some.mp (Option.some_get (by decide)).symm)

/-- The last part of the session comes with one byte of two. -/
def shortRun : List Timed :=
  [(.createSession smallTenant smallSession, 0),
    (.proxyUploadPart smallTenant 0 1 [1, 2] none, 0),
    (.proxyUploadPart smallTenant 0 2 [3] none, 0)]

/-- It is accepted, and the completed file claims a byte that the object lacks. -/
theorem short_last_part_completes :
    let world := after smallLocalApp ⟨{}, {}⟩ shortRun
    let completed := serve smallLocalApp world (.complete smallTenant 0, 0)
    (servedFile completed.1).map (·.sizeBytes) = some 4 ∧
    (acceptedBodies smallLocalApp 0 ⟨{}, {}⟩ shortRun 1,
      acceptedBodies smallLocalApp 0 ⟨{}, {}⟩ shortRun 2) = (some [1, 2], some [3]) ∧
    completed.2.store.tree.file? ["files", "a.bin"] = some [1, 2, 3] := by
  decide

end Assembly

end PyUploadX
