import PyUploadX.Services.Outcomes
import PyUploadX.Storage.Factory
import PyUploadX.Storage.LocalBackend
import PyUploadX.Storage.MemoryS3

/-! What an upload in one request leaves in the storage. The object is written before the
checksum is compared and before the row is inserted. -/
namespace PyUploadX

open Kit FileService

variable {σ : Type} {app : AppState σ}

/-- The upload passes every check that `proxy_upload` makes before it writes. -/
def Validated (app : AppState σ) (world : World Database σ) (identity : Identity)
    (request : ProxyUpload) (now : Timestamp) (safeKey : ObjectKey)
    (effective : Option EffectiveLifecycle) : Prop :=
  (validateUpload app identity request now).run world.db world.store =
    (.ok ((safeKey, effective), world.db), world.store)

/-- The put of a validated upload. -/
def putOf (app : AppState σ) (world : World Database σ) (request : ProxyUpload)
    (safeKey : ObjectKey) : Except Failure StoredObject × σ :=
  app.storage.putObject request.bucket safeKey request.stream request.contentType
    (some request.sizeBytes) request.checksumSha256 world.store

/-- The texts of the request fit the columns of its row. -/
def ProxyUpload.fits (dialect : Dialect) (request : ProxyUpload) (safeKey : ObjectKey) : Bool :=
  dialect.takesAll [(1024, some (orText (some request.originalFilename) safeKey.filename)),
    (255, request.contentType), (128, request.checksumSha256), (255, request.fileFingerprint)]

theorem insertFile_run (dialect : Dialect) (file : FileObject) (db : Database) (store : σ) :
    (FileRepository.insertFile dialect file).run db store =
      if file.fits dialect = false then (.error .data, store)
      else if db.occupied file.tenantId file.bucket file.objectKey then (.error .integrity, store)
      else (.ok ((), db.addFile file), store) := by
  unfold FileRepository.insertFile
  simp only [Program.run]
  by_cases long : file.fits dialect = false
  · rw [if_pos long, if_pos long]
  · rw [if_neg long, if_neg long]
    by_cases taken : db.occupied file.tenantId file.bucket file.objectKey = true
    · rw [if_pos taken, if_pos taken]
    · rw [if_neg taken, if_neg taken]

/-- After the checks everything hangs on the put and on the row being new. -/
theorem serve_proxyUpload {world : World Database σ} {identity : Identity} {request : ProxyUpload}
    {now : Timestamp} {safeKey : ObjectKey} {effective : Option EffectiveLifecycle}
    (valid : Validated app world identity request now safeKey effective) :
    serve app world (.proxyUpload identity request, now) =
      match putOf app world request safeKey with
      | (.error failure, store') => (.error failure, ⟨world.db, store'⟩)
      | (.ok stored, store') =>
        if request.fits app.settings.database.dialect safeKey = false then
          (.error .data, ⟨world.db, store'⟩)
        else if world.db.occupied identity.tenantId request.bucket safeKey then
          (.error .integrity, ⟨world.db, store'⟩)
        else
          let file := uploadedFileObject app identity request safeKey effective world.db.nextId
            stored now
          (.ok (.file file), ⟨world.db.addFile file, store'⟩) := by
  unfold Validated at valid
  unfold serve World.execute handle proxyUpload putOf
  simp only
  rw [Program.run_bind, Program.run_bind_ok valid, Program.run_bind, Program.run_onStore]
  rcases app.storage.putObject request.bucket safeKey request.stream request.contentType
    (some request.sizeBytes) request.checksumSha256 world.store with ⟨failure | stored, store'⟩
  · rfl
  · have columns : world.db.occupied
        (uploadedFileObject app identity request safeKey effective world.db.nextId stored
          now).tenantId
        (uploadedFileObject app identity request safeKey effective world.db.nextId stored
          now).bucket
        (uploadedFileObject app identity request safeKey effective world.db.nextId stored
          now).objectKey = world.db.occupied identity.tenantId request.bucket safeKey := rfl
    have texts : (uploadedFileObject app identity request safeKey effective world.db.nextId stored
        now).fits app.settings.database.dialect = request.fits app.settings.database.dialect safeKey :=
      rfl
    simp only [Except.map, newId, Program.run_bind, Program.run_ask, insertFile_run, columns, texts]
    by_cases long : request.fits app.settings.database.dialect safeKey = false
    · rw [if_pos long, if_pos long]
    · rw [if_neg long, if_neg long]
      by_cases taken : world.db.occupied identity.tenantId request.bucket safeKey = true
      · rw [if_pos taken, if_pos taken]
      · rw [if_neg taken, if_neg taken]
        rfl

/-- Without passing the checks nothing happens. -/
theorem serve_invalid (app : AppState σ) (world : World Database σ) (identity : Identity)
    (request : ProxyUpload) (now : Timestamp)
    (invalid : ∀ safeKey effective,
      ¬ Validated app world identity request now safeKey effective) :
    ∃ failure, serve app world (.proxyUpload identity request, now) = (.error failure, world) := by
  rcases validateUpload_readOnly app identity request now world.db world.store with
    ⟨⟨safeKey, effective⟩, done⟩ | ⟨failure, refused⟩
  · exact absurd done (invalid safeKey effective)
  · refine ⟨failure, ?_⟩
    unfold serve World.execute handle proxyUpload
    simp only [Program.run_bind, refused]

end PyUploadX
