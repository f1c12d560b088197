import PyUploadX.Services.WholeUpload
import PyUploadX.Storage.LocalKeys

/-! The digest a client announces, and the digest of what is stored on disk. -/
namespace PyUploadX

open Kit UploadService LocalStorageAdapter

namespace LocalStorageAdapter

private theorem CompleteOutcome.of_ok {bucket : String} {key : ObjectKey} {uploadId : StorageUploadId}
    {parts : List UploadedPart} {state : LocalState} {stored : StoredObject}
    {files : List String → Option Bytes}
    (outcome : CompleteOutcome bucket key uploadId parts state (.ok stored) files) :
    Opens state bucket key ∧ ¬ BreaksOff state bucket key uploadId parts := by
  cases outcome with
  | completed object opens ran => exact ⟨opens, ran⟩

private theorem CompleteOutcome.exists_ok {bucket : String} {key : ObjectKey} {uploadId : StorageUploadId}
    {parts : List UploadedPart} {state : LocalState} {result : Except Failure StoredObject}
    {files : List String → Option Bytes}
    (outcome : CompleteOutcome bucket key uploadId parts state result files)
    (opens : Opens state bucket key) (ran : ¬ BreaksOff state bucket key uploadId parts) :
    ∃ stored, result = .ok stored := by
  cases outcome with
  | unopened failure closed => exact absurd opens closed
  | brokenOff failure opens stopped => exact absurd stopped ran
  | completed object opens ran => exact ⟨object, rfl⟩

private theorem PutOutcome.matched_of_ok {sha256 : Bytes → String} {bucket : String} {key : ObjectKey} {stream : Bytes}
    {checksum : Option String} {state : LocalState} {stored : StoredObject}
    {files : List String → Option Bytes}
    (outcome : PutOutcome sha256 bucket key stream checksum state (.ok stored) files) :
    ¬ Mismatched sha256 stream checksum := by
  cases outcome with
  | stored object opens ran matched => exact matched

end LocalStorageAdapter

variable {settings : Settings} {nfc : String → String} {sha256 : Bytes → String}

/-- Letter case is left out of account. -/
def SameDigest (first second : String) : Prop := first.toLower = second.toLower

instance (first second : String) : Decidable (SameDigest first second) :=
  inferInstanceAs (Decidable (first.toLower = second.toLower))

/-- The checksum of the row is the digest of the object. -/
def FileObject.Attested (sha256 : Bytes → String) (store : LocalState) (file : FileObject) : Prop :=
  ∃ bytes ∈ view.object? store file.bucket file.objectKey, ∃ value ∈ file.checksumValue,
    SameDigest value (sha256 bytes)

/-- Every row with a SHA-256 that the request adds is attested by the object it wrote. -/
def CreatesAttested (app : AppState LocalState) (sha256 : Bytes → String)
    (world : World Database LocalState) (timed : Timed) : Prop :=
  ∀ file ∈ (serve app world timed).2.db.fileObjects,
    (∀ old ∈ world.db.fileObjects, old.id ≠ file.id) → file.checksumAlgorithm = some "sha256" →
      file.Attested sha256 (serve app world timed).2.store

/-- A completion that will go through, with the parts it will join. -/
structure Assembling (app : AppState LocalState) (world : World Database LocalState)
    (identity : Identity) (uploadId : Uuid) (upload : UploadSession) (parts : List UploadedPart) :
    Prop where
  found : world.db.findUpload uploadId identity.tenantId = some upload
  unfinished : upload.status.terminal = false
  handed : handedParts app upload world = some parts
  opens : Opens world.store upload.bucket upload.objectKey
  ran : ¬ BreaksOff world.store upload.bucket upload.objectKey upload.storageKey parts
  vacant : world.db.occupied identity.tenantId upload.bucket upload.objectKey = false

/-- No session is completed whose parts, joined, have another digest than was announced. -/
def AnnouncesTruly (app : AppState LocalState) (sha256 : Bytes → String)
    (world : World Database LocalState) (timed : Timed) : Prop :=
  match timed.1 with
  | .complete identity uploadId =>
    ∀ upload parts, Assembling app world identity uploadId upload parts →
      ∀ announced ∈ firstText upload.expectedSha256 none,
        SameDigest announced (sha256 (contents (partFiles world.store upload.storageKey)
          (sortedParts parts)))
  | _ => True

private theorem firstText_some {value : String} {given : Option String}
    (first : firstText given none = some value) : given = some value := by
  unfold firstText at first
  split at first
  · split at first
    · cases first
    · exact first
  · cases first

/-- The algorithm is recorded with a checksum, and not without one. -/
theorem checksumAlgorithm_eq {given : Option String}
    (recorded : ((firstText given none).map fun _ => "sha256") = some "sha256") :
    ∃ value, firstText given none = some value := by
  obtain ⟨value, first, _⟩ := Option.map_eq_some_iff.mp recorded
  exact ⟨value, first⟩

/-- What a completion that assembles leaves. -/
structure Assembled (app : AppState LocalState) (world after : World Database LocalState)
    (identity : Identity) (upload : UploadSession) (parts : List UploadedPart) (now : Timestamp) :
    Prop where
  row : ∃ stored, after.db.fileObjects = world.db.fileObjects ++
    [completedFileObject app identity upload world.db.nextId stored now]
  object : view.object? after.store upload.bucket upload.objectKey =
    some (contents (partFiles world.store upload.storageKey) (sortedParts parts))

private theorem assembled_of_run {world : World Database LocalState} {identity : Identity}
    {uploadId : Uuid} {now : Timestamp} {file : FileObject} {db' : Database} {store' : LocalState}
    (ran : (UploadService.complete (localApp settings nfc sha256) identity uploadId now).run
      world.db world.store = (.ok (file, db'), store'))
    {upload : UploadSession} (found : world.db.findUpload uploadId identity.tenantId = some upload)
    (unfinished : upload.status.terminal = false) :
    ∃ parts, Assembling (localApp settings nfc sha256) world identity uploadId upload parts ∧
      Assembled (localApp settings nfc sha256) world
        (serve (localApp settings nfc sha256) world (.complete identity uploadId, now)).2 identity
        upload parts now := by
  have served := World.execute_wrap_ok ran Reply.file
  obtain ⟨row, same, outcome⟩ := PyUploadX.complete_ok ran
  rw [found] at same
  cases same
  rcases outcome with ⟨finished, _⟩ | ⟨parts, stored, _, prepared, joined, written, vacant,
    committed⟩
  · rw [finished] at unfinished
    cases unfinished
  · obtain ⟨result, after, done, outcome⟩ := completeMultipartUpload_outcome sha256 upload.bucket
      upload.objectKey upload.storageKey parts world.store
    have same : (result, after) = (.ok stored, store') := done.symm.trans joined
    cases same
    obtain ⟨opens, unbroken⟩ := outcome.of_ok
    refine ⟨parts, ⟨found, unfinished, handedParts_some.mpr prepared, opens, unbroken, vacant⟩, ?_⟩
    · rw [serve, handle, served]
      constructor
      · refine ⟨stored, ?_⟩
        rw [committed, written]
        rfl
      · exact (LocalStorageAdapter.complete_ok joined).1

theorem serve_complete_cases (world : World Database LocalState) (identity : Identity)
    (uploadId : Uuid) (now : Timestamp) :
    (serve (localApp settings nfc sha256) world (.complete identity uploadId, now)).2.db.fileObjects =
        world.db.fileObjects ∨
      ∃ upload parts,
        Assembling (localApp settings nfc sha256) world identity uploadId upload parts ∧
        Assembled (localApp settings nfc sha256) world
          (serve (localApp settings nfc sha256) world (.complete identity uploadId, now)).2 identity
          upload parts now := by
  rcases ran : (UploadService.complete (localApp settings nfc sha256) identity uploadId now).run
    world.db world.store with ⟨failure | ⟨file, db'⟩, store'⟩
  · left
    have served := World.execute_wrap_error ran Reply.file
    rw [serve, handle, served]
  · obtain ⟨upload, found, outcome⟩ := PyUploadX.complete_ok ran
    rcases outcome with ⟨_, _, _, same, _⟩ | ⟨_, _, open_, _⟩
    · left
      have served := World.execute_wrap_ok ran Reply.file
      rw [serve, handle, served, same]
    · right
      obtain ⟨parts, assembled⟩ := assembled_of_run ran found (unfinished_of_status open_)
      exact ⟨upload, parts, assembled⟩

theorem Assembling.assembled {world : World Database LocalState}
    (sound : Integrity (localApp settings nfc sha256) world.db) {identity : Identity}
    {uploadId : Uuid} {upload : UploadSession} {parts : List UploadedPart}
    (assembling : Assembling (localApp settings nfc sha256) world identity uploadId upload parts)
    (now : Timestamp) :
    Assembled (localApp settings nfc sha256) world
      (serve (localApp settings nfc sha256) world (.complete identity uploadId, now)).2 identity
      upload parts now := by
  obtain ⟨result, store', done, outcome⟩ := completeMultipartUpload_outcome sha256 upload.bucket
    upload.objectKey upload.storageKey parts world.store
  obtain ⟨object, rfl⟩ := outcome.exists_ok assembling.opens assembling.ran
  obtain ⟨db', assembled⟩ := @assemble_run _ (localApp settings nfc sha256) identity upload parts now
    world.db world.store store' object done assembling.vacant
    (sound.laidOut upload.core (mem_cores (Database.findUpload_some assembling.found).1)).fits
  have ran := complete_unfinished (localApp settings nfc sha256) now assembling.found
    assembling.unfinished world.store
  rw [Program.run_bind_ok (handedParts_some.mp assembling.handed), assembled] at ran
  obtain ⟨others, again, left⟩ := assembled_of_run ran assembling.found assembling.unfinished
  have same := again.handed.symm.trans assembling.handed
  cases same
  exact left

/-- A completion creates an attested row, or none, exactly when the announced digest is that
of the parts. -/
theorem complete_attested_iff {world : World Database LocalState}
    (sound : Integrity (localApp settings nfc sha256) world.db) (identity : Identity)
    (uploadId : Uuid) (now : Timestamp) :
    CreatesAttested (localApp settings nfc sha256) sha256 world (.complete identity uploadId, now) ↔
      AnnouncesTruly (localApp settings nfc sha256) sha256 world
        (.complete identity uploadId, now) := by
  constructor
  · intro attested upload parts assembling announced first
    obtain ⟨⟨stored, rows⟩, object⟩ := assembling.assembled sound now
    have value := firstText_some first
    have added := attested (completedFileObject (localApp settings nfc sha256) identity upload
      world.db.nextId stored now) (rows ▸ List.mem_append_right _ (List.mem_singleton_self _))
      (fun old member => (sound.ids.filesOld old.identity (mem_identities member)).ne)
      (by
        change (firstText upload.expectedSha256 none).map _ = _
        rw [first]
        rfl)
    obtain ⟨bytes, there, recorded, checksum, same⟩ := added
    cases object.symm.trans there
    cases value.symm.trans checksum
    exact same
  · intro truly file member new recorded
    rcases serve_complete_cases world identity uploadId now with same | ⟨upload, parts, assembling,
      ⟨⟨stored, rows⟩, object⟩⟩
    · rw [same] at member
      exact absurd rfl (new file member)
    · rw [rows] at member
      rcases List.mem_append.mp member with old | added
      · exact absurd rfl (new file old)
      · rw [List.mem_singleton.mp added] at recorded ⊢
        obtain ⟨announced, first⟩ := checksumAlgorithm_eq recorded
        exact ⟨_, object, announced, firstText_some first,
          truly upload parts assembling announced first⟩

/-- An upload in one request is refused where its digest is another one. -/
theorem proxyUpload_attested (world : World Database LocalState) (identity : Identity)
    (request : ProxyUpload) (now : Timestamp) :
    CreatesAttested (localApp settings nfc sha256) sha256 world
      (.proxyUpload identity request, now) := by
  intro file member new recorded
  rcases ran : (FileService.proxyUpload (localApp settings nfc sha256) identity request now).run
    world.db world.store with ⟨failure | ⟨row, db'⟩, store'⟩
  · have served := World.execute_wrap_error ran Reply.file
    rw [serve, handle, served] at member
    exact absurd rfl (new file member)
  · have served := World.execute_wrap_ok ran Reply.file
    obtain ⟨safeKey, effective, stored, _, put, written, _, committed⟩ := proxyUpload_ok ran
    rw [serve, handle, served, committed] at member
    rw [serve, handle, served]
    rcases List.mem_append.mp member with old | added
    · exact absurd rfl (new file old)
    · rw [List.mem_singleton.mp added, written] at recorded ⊢
      obtain ⟨announced, first⟩ := checksumAlgorithm_eq recorded
      have value : request.checksumSha256 = some announced := firstText_some first
      obtain ⟨result, after, done, _, outcome⟩ := putObject_outcome sha256 request.bucket safeKey
        request.stream request.contentType (some request.sizeBytes) request.checksumSha256 world.store
      have same : (result, after) = (.ok stored, store') := done.symm.trans put
      cases same
      have matched := outcome.matched_of_ok
      have digest : announced = sha256 request.stream := by
        by_contra different
        refine matched ⟨by rw [value]; exact Option.some_ne_none _, ?_⟩
        rw [value]
        exact fun same => different (Option.some.inj same)
      refine ⟨request.stream, LocalStorageAdapter.putObject_ok put, announced, value, ?_⟩
      rw [digest]
      rfl

theorem other_attested {world : World Database LocalState} (timed : Timed) (other : ∀ identity uploadId, timed.1 ≠ .complete identity uploadId)
    (beside : ∀ identity request, timed.1 ≠ .proxyUpload identity request) :
    CreatesAttested (localApp settings nfc sha256) sha256 world timed := by
  intro file member new _
  exfalso
  rcases (serve_change (localApp settings nfc sha256) world timed).identities with
    kept | ⟨_, _, _, _, _, _, ⟨identity, request, asked⟩ | ⟨identity, uploadId, asked⟩⟩
  · have row := mem_identities member
    rw [kept] at row
    obtain ⟨old, present, same⟩ := List.mem_map.mp row
    exact new old present (congrArg FileIdentity.id same)
  · exact beside identity request asked
  · exact other identity uploadId asked

/-- In every run on disk, every row with a SHA-256 is created for an object of that digest
exactly when no session is completed with parts of another digest than announced. -/
theorem digests_attested_iff (settings : Settings) (nfc : String → String)
    (sha256 : Bytes → String) (world : World Database LocalState) (initial : world.db.Initial)
    (requests : List Timed) :
    EachMeets (localApp settings nfc sha256)
        (CreatesAttested (localApp settings nfc sha256) sha256) world requests ↔
      EachMeets (localApp settings nfc sha256)
        (AnnouncesTruly (localApp settings nfc sha256) sha256) world requests := by
  refine eachMeets_congr _ _ (fun world => Integrity (localApp settings nfc sha256) world.db)
    (fun world timed sound => serve_integrity world timed sound) ?_ initial.integrity requests
  rintro world ⟨request, now⟩ sound
  cases request with
  | complete identity uploadId => exact complete_attested_iff sound identity uploadId now
  | proxyUpload identity request =>
    exact iff_of_true (proxyUpload_attested world identity request now) trivial
  | _ => exact iff_of_true (other_attested _ (fun _ _ => nofun) fun _ _ => nofun) trivial

/-- The small file in two parts, with the digest that its client announced. -/
def announcedRun (digest : String) : List Timed :=
  [(.createSession smallTenant { smallSession with expectedSha256 := some digest }, 0),
    (.proxyUploadPart smallTenant 0 2 [3, 4] none, 1),
    (.proxyUploadPart smallTenant 0 1 [1, 2] none, 2), (.complete smallTenant 0, 3)]

theorem digests_attested_small :
    EachMeets smallLocalApp (CreatesAttested smallLocalApp fun content => toString content.length)
        ⟨{}, {}⟩ (announcedRun "4") ↔
      EachMeets smallLocalApp (AnnouncesTruly smallLocalApp fun content => toString content.length)
        ⟨{}, {}⟩ (announcedRun "4") :=
  digests_attested_iff (smallSettings .local) id (fun content => toString content.length) ⟨{}, {}⟩
    (by decide) (announcedRun "4")

/-- A wrong digest is announced, and the file is active with it. -/
theorem announced_digest_is_not_checked :
    ¬ EachMeets smallLocalApp (CreatesAttested smallLocalApp fun content => toString content.length)
      ⟨{}, {}⟩ (announcedRun "5") := by
  intro each
  obtain ⟨_, _, _, attested, _⟩ := each
  obtain ⟨bytes, there, value, recorded, same⟩ := attested _ (List.head_mem (by decide +kernel))
    (by decide +kernel) (by decide +kernel)
  have object : bytes = [1, 2, 3, 4] := Option.mem_unique there (by decide +kernel)
  have announced : value = "5" := Option.mem_unique recorded (by decide +kernel)
  rw [object, announced] at same
  exact absurd same (by decide +kernel)

end PyUploadX
