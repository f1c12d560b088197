import PyUploadX.Kit.Holdings
import PyUploadX.Services.Completion
import PyUploadX.Services.ReusedKey
import PyUploadX.System.Staging
import PyUploadX.Worker.Retries

/-! Whether an active file keeps the bytes it was stored with. Rows are told apart by
tenant, objects are not. -/
namespace PyUploadX

open Kit FileService UploadService

variable {σ : Type}

section Ghost

variable (app : AppState σ) (view : StoreView σ)

/-- The file that a request added to the table. -/
def createdFile (world : World Database σ)
    (served : Except Failure Reply × World Database σ) : Option FileObject :=
  (servedFile served.1).filter fun file => ∀ row ∈ world.db.fileObjects, row.id ≠ file.id

/-- The bytes a request stores for the file it adds: the stream of an upload in one
request, and else what the completion leaves at the file's key. -/
def storedBytes (request : Request) (file : FileObject) (store : σ) : Option Bytes :=
  match request with
  | .proxyUpload _ upload => some upload.stream
  | _ => view.object? store file.bucket file.objectKey

def noteStored (world : World Database σ) (timed : Timed) (originals : Uuid → Option Bytes) :
    Uuid → Option Bytes :=
  let served := serve app world timed
  match createdFile world served with
  | some file =>
    Function.update originals file.id (storedBytes view timed.1 file served.2.store)
  | none => originals

def originalsAfter :
    World Database σ → List Timed → (Uuid → Option Bytes) → Uuid → Option Bytes
  | _, [], originals => originals
  | world, timed :: rest, originals =>
    originalsAfter (serve app world timed).2 rest (noteStored app view world timed originals)

/-- For each file, the bytes that the request that created it stored, after a run. -/
def originalBytes (world : World Database σ) (requests : List Timed) : Uuid → Option Bytes :=
  originalsAfter app view world requests fun _ => none

end Ghost

section Places

/-- An active file of the table relies on the object at its place. -/
def HoldsPlace (files : List FileObject) (id : Uuid) (place : String × ObjectKey) : Prop :=
  ∃ file ∈ files, file.status = .active ∧ file.id = id ∧ (file.bucket, file.objectKey) = place

def StoreView.objectAt (view : StoreView σ) (store : σ) (place : String × ObjectKey) :
    Option Bytes := view.object? store place.1 place.2

/-- A change that leaves a row where it is and revives no file. -/
structure KeepsPlace (change : FileObject → FileObject) : Prop where
  id : ∀ file, (change file).id = file.id
  place : ∀ file, ((change file).bucket, (change file).objectKey) = (file.bucket, file.objectKey)
  active : ∀ file, (change file).status = .active → file.status = .active

variable {app : AppState σ}

private theorem markDeleted_keepsPlace (now : Timestamp) : KeepsPlace (markDeleted now) :=
  ⟨fun _ => rfl, fun _ => rfl, fun _ active => by cases active⟩

private theorem FileChange.keepsPlace {change : FileObject → FileObject} (kind : FileChange app change) :
    KeepsPlace change := by
  cases kind with
  | deleted now => exact markDeleted_keepsPlace now
  | updated _ => exact ⟨fun _ => rfl, fun _ => rfl, fun _ active => active⟩
  | extended _ => exact ⟨fun _ => rfl, fun _ => rfl, fun _ active => active⟩
  | permanent => exact ⟨fun _ => rfl, fun _ => rfl, fun _ active => active⟩
  | held hold => exact ⟨fun _ => rfl, fun _ => rfl, fun _ active => active⟩

private theorem turn_keepsPlace {file : FileObject} {now : Timestamp} {store store' : σ}
    {change : FileObject → FileObject}
    (turn : LifecycleWorker.Turn app file now store change store') : KeepsPlace change := by
  cases turn with
  | deleted _ _ _ => exact markDeleted_keepsPlace now
  | blocked _ => exact ⟨fun _ => rfl, fun _ => rfl, fun _ active => active⟩
  | refused _ _ _ => exact ⟨fun _ => rfl, fun _ => rfl, fun _ active => active⟩
  | notified _ _ => exact ⟨fun _ => rfl, fun _ => rfl, fun _ active => active⟩
  | settled _ _ _ => exact ⟨fun _ => rfl, fun _ => rfl, fun _ active => active⟩

private theorem HoldsPlace.of_update {files : List FileObject} {fileId id : Uuid}
    {place : String × ObjectKey} {change : FileObject → FileObject} (keeps : KeepsPlace change)
    (holds : HoldsPlace (files.map fun row => if row.id = fileId then change row else row)
      id place) : HoldsPlace files id place := by
  obtain ⟨row, membership, active, rfl, rfl⟩ := holds
  obtain ⟨file, member, rfl⟩ := List.mem_map.mp membership
  split at active
  · rename_i named
    rw [if_pos named]
    exact ⟨file, member, keeps.active file active, (keeps.id file).symm, (keeps.place file).symm⟩
  · rename_i other
    rw [if_neg other]
    exact ⟨file, member, active, rfl, rfl⟩

theorem HoldsPlace.of_deleted {files : List FileObject} {fileId id : Uuid} {now : Timestamp}
    {place : String × ObjectKey}
    (holds : HoldsPlace (files.map fun row => if row.id = fileId then markDeleted now row else row)
      id place) : HoldsPlace files id place ∧ id ≠ fileId := by
  refine ⟨holds.of_update (markDeleted_keepsPlace now), ?_⟩
  rintro rfl
  obtain ⟨row, membership, active, named, _⟩ := holds
  obtain ⟨file, _, rfl⟩ := List.mem_map.mp membership
  split at active
  · cases active
  · rename_i other
    rw [if_neg other] at named
    exact other named

private theorem HoldsPlace.of_turns {now : Timestamp} {due files files' : List FileObject}
    {store store' : σ} {id : Uuid} {place : String × ObjectKey}
    (turns : LifecycleWorker.Turns app now due files store files' store')
    (holds : HoldsPlace files' id place) : HoldsPlace files id place := by
  induction turns with
  | nil => exact holds
  | cons turn later ih => exact (ih holds).of_update (turn_keepsPlace turn)

private theorem HoldsPlace.of_added {files : List FileObject} {added : FileObject} {id : Uuid}
    {place : String × ObjectKey} (holds : HoldsPlace (files ++ [added]) id place) :
    HoldsPlace files id place ∨ (id = added.id ∧ place = (added.bucket, added.objectKey)) := by
  obtain ⟨file, membership, active, rfl, rfl⟩ := holds
  rcases List.mem_append.mp membership with old | new
  · exact .inl ⟨file, old, active, rfl, rfl⟩
  · rw [List.mem_singleton.mp new]
    exact .inr ⟨rfl, rfl⟩

end Places

variable {app : AppState σ}

/-- Every active file has its place to itself, and finds there the bytes it was stored with. -/
abbrev KeepsActive (view : StoreView σ) (files : List FileObject) (store : σ)
    (originals : Uuid → Option Bytes) : Prop :=
  Undisturbed (HoldsPlace files) originals (view.objectAt store)

section Quiet

/-- A request that adds no file and moves no object. -/
def Request.leavesObjects : Request → Bool
  | .complete _ _ | .proxyUpload _ _ | .delete _ _ | .processBatch _ => false
  | _ => true

private theorem Change.holdsPlace {asked : Request} {db db' : Database} (change : Change app asked db db')
    (quiet : asked.leavesObjects = true) {id : Uuid} {place : String × ObjectKey}
    (holds : HoldsPlace db'.fileObjects id place) : HoldsPlace db.fileObjects id place := by
  cases change with
  | none => exact holds
  | buckets files => rwa [files] at holds
  | created => exact holds
  | part starts =>
    rw [Database.updateUpload_fileObjects, Database.upsertPart_fileObjects] at holds
    cases starts with
    | true => exact holds
    | false => exact holds
  | touched => exact holds
  | prolonged => exact holds
  | aborted => exact holds
  | expired => rwa [expired_fileObjects] at holds
  | completed asks =>
    subst asks
    cases quiet
  | uploaded asks =>
    subst asks
    cases quiet
  | file kind same files =>
    rw [files] at holds
    exact holds.of_update kind.keepsPlace
  | batch same loads turns => exact holds.of_turns turns
  | directories asks changes => rwa [changes.besides.fileObjects] at holds

private theorem StoreEffect.keepsObjects (backend : Backend app.storage) {db : Database}
    {store store' : σ} {asked : Request} (effect : StoreEffect app db store asked store')
    (quiet : asked.leavesObjects = true) : backend.KeepsObjects store store' := by
  cases effect with
  | none => rfl
  | createBucket => exact (backend.createBucket_effect _ _).1
  | deleteBucket => exact (backend.deleteBucket_effect _ _).1
  | initiate => exact (backend.initiate_effect _ _ _ _ _).1
  | part => exact (backend.uploadPart_effect _ _ _ _ _ _ _ _).1
  | abort => exact (backend.abort_effect _ _ _ _).1
  | complete => cases quiet
  | put => cases quiet
  | delete => cases quiet
  | batch => cases quiet

theorem noteStored_of_row {view : StoreView σ} {world : World Database σ} {timed : Timed}
    {originals : Uuid → Option Bytes} {file : FileObject} (row : file ∈ world.db.fileObjects) :
    noteStored app view world timed originals file.id = originals file.id := by
  unfold noteStored
  cases added : createdFile world (serve app world timed) with
  | none => rfl
  | some created =>
    have new := (Option.filter_eq_some_iff.mp added).2
    refine Function.update_of_ne (fun same => ?_) _ _
    exact of_decide_eq_true new file row same

private theorem noteStored_of_holds {view : StoreView σ} {world : World Database σ} {timed : Timed}
    {originals : Uuid → Option Bytes} {id : Uuid} {place : String × ObjectKey}
    (holds : HoldsPlace world.db.fileObjects id place) :
    noteStored app view world timed originals id = originals id := by
  obtain ⟨file, row, _, rfl, _⟩ := holds
  exact noteStored_of_row row

/-- The file a request adds is noted with what the request stored. -/
theorem noteStored_created {view : StoreView σ} {world : World Database σ} {timed : Timed}
    {originals : Uuid → Option Bytes} {file : FileObject} (ids : Identified world.db)
    (served : (serve app world timed).1 = .ok (.file file)) (new : file.id = world.db.nextId) :
    noteStored app view world timed originals file.id =
      storedBytes view timed.1 file (serve app world timed).2.store := by
  have fresh : ∀ row ∈ world.db.fileObjects, row.id ≠ file.id := by
    intro row member
    rw [new]
    exact (ids.filesOld _ (mem_identities member)).ne
  have created : createdFile world (serve app world timed) = some file :=
    Option.filter_eq_some_iff.mpr ⟨servedFile_eq_some.mpr served, decide_eq_true fresh⟩
  unfold noteStored
  rw [created]
  exact Function.update_self _ _ _

private theorem serve_quiet (backend : Backend app.storage) {world : World Database σ} {timed : Timed}
    {originals : Uuid → Option Bytes} (quiet : timed.1.leavesObjects = true)
    (sound : KeepsActive backend.toStoreView world.db.fileObjects world.store originals) :
    KeepsActive backend.toStoreView (serve app world timed).2.db.fileObjects
      (serve app world timed).2.store
      (noteStored app backend.toStoreView world timed originals) := by
  have stays : ∀ {id place}, HoldsPlace (serve app world timed).2.db.fileObjects id place →
      HoldsPlace world.db.fileObjects id place := (serve_change app world timed).holdsPlace quiet
  have objects := (serve_storeEffect world timed).keepsObjects backend quiet
  refine sound.carry stays (fun holds => noteStored_of_holds (stays holds)) fun _ => ?_
  unfold StoreView.objectAt
  rw [objects]

end Quiet

section Overwriting

/-- The request gets as far as writing where the file has its bytes: a completion, which
asks for no file at its key, or the temporary name of either kind of upload. -/
inductive Overwrites (app : AppState σ) (view : StoreView σ) (world : World Database σ) :
    Timed → FileObject → Prop
  | completed {identity : Identity} {uploadId : Uuid} {now : Timestamp} {upload : UploadSession}
      {parts : List UploadedPart} {file : FileObject}
      (found : world.db.findUpload uploadId identity.tenantId = some upload)
      (prepared : (partsToComplete app upload).run world.db world.store =
        (.ok (parts, world.db), world.store))
      (bucket : file.bucket = upload.bucket)
      (key : file.objectKey = upload.objectKey ∨
        view.scratch? upload.objectKey = some file.objectKey) :
      Overwrites app view world (.complete identity uploadId, now) file
  | uploaded {identity : Identity} {request : ProxyUpload} {now : Timestamp}
      {safeKey : ObjectKey} {effective : Option EffectiveLifecycle} {file : FileObject}
      (valid : Validated app world identity request now safeKey effective)
      (bucket : file.bucket = request.bucket)
      (key : view.scratch? safeKey = some file.objectKey) :
      Overwrites app view world (.proxyUpload identity request, now) file

/-- No active file is written over. -/
def SparesActive (app : AppState σ) (view : StoreView σ) (world : World Database σ)
    (timed : Timed) : Prop :=
  ∀ file ∈ world.db.fileObjects, file.status = .active → ¬ Overwrites app view world timed file

/-- A write at a key leaves alone the objects of the files that are neither there nor at its
temporary name. -/
theorem objectAt_of_keepsOthers {view : StoreView σ} {store store' : σ} {bucket : String}
    {key : ObjectKey} {files : List FileObject} (others : view.KeepsOthers bucket key store store')
    (aside : ∀ file ∈ files, file.status = .active → file.bucket = bucket →
      ¬ (file.objectKey = key ∨ view.scratch? key = some file.objectKey))
    {id : Uuid} {place : String × ObjectKey} (holds : HoldsPlace files id place) :
    view.objectAt store' place = view.objectAt store place := by
  obtain ⟨file, row, active, _, rfl⟩ := holds
  apply others
  rintro ⟨bucket, key⟩
  exact aside file row active bucket key

/-- The request adds a file at a place that no active file holds, and its bytes lie there. -/
structure AddsStored (app : AppState σ) (view : StoreView σ) (world : World Database σ)
    (timed : Timed) (file : FileObject) : Prop where
  answered : (serve app world timed).1 = .ok (.file file)
  new : file.id = world.db.nextId
  added : (serve app world timed).2.db.fileObjects = world.db.fileObjects ++ [file]
  free : ∀ id, ¬ HoldsPlace world.db.fileObjects id (file.bucket, file.objectKey)
  stored : ∃ content, storedBytes view timed.1 file (serve app world timed).2.store = some content ∧
    view.object? (serve app world timed).2.store file.bucket file.objectKey = some content

/-- A request that writes aside from the active files and adds at most a file of its own. -/
theorem keepsActive_write {view : StoreView σ} {world : World Database σ} {timed : Timed}
    {originals : Uuid → Option Bytes} (ids : Identified world.db)
    (sound : KeepsActive view world.db.fileObjects world.store originals)
    (kept : ∀ {id place}, HoldsPlace world.db.fileObjects id place →
      view.objectAt (serve app world timed).2.store place = view.objectAt world.store place)
    (outcome : (serve app world timed).2.db.fileObjects = world.db.fileObjects ∨
      ∃ file, AddsStored app view world timed file) :
    KeepsActive view (serve app world timed).2.db.fileObjects (serve app world timed).2.store
      (noteStored app view world timed originals) := by
  rcases outcome with same | ⟨file, adds⟩
  · rw [same]
    exact sound.carry (fun holds => holds) noteStored_of_holds kept
  · obtain ⟨content, noted, stored⟩ := adds.stored
    have moved := sound.carry (fun holds => holds) (fun _ => rfl) kept
    rw [adds.added]
    exact moved.enter adds.free HoldsPlace.of_added noteStored_of_holds
      ((noteStored_created ids adds.answered adds.new).trans noted) stored

private theorem serve_complete_active (backend : Backend app.storage) {world : World Database σ}
    {originals : Uuid → Option Bytes} {identity : Identity} {uploadId : Uuid} {now : Timestamp}
    (ids : Identified world.db)
    (spares : SparesActive app backend.toStoreView world (.complete identity uploadId, now))
    (sound : KeepsActive backend.toStoreView world.db.fileObjects world.store originals) :
    let served := serve app world (.complete identity uploadId, now)
    KeepsActive backend.toStoreView served.2.db.fileObjects served.2.store
      (noteStored app backend.toStoreView world (.complete identity uploadId, now) originals) := by
  refine keepsActive_write ids sound ?_ ?_
  · have effect : StoreEffect app world.db world.store (.complete identity uploadId) _ :=
      serve_storeEffect world (.complete identity uploadId, now)
    generalize (serve app world (.complete identity uploadId, now)).2.store = store' at effect
    intro id place holds
    cases effect with
    | none => rfl
    | part asks => cases asks
    | complete found prepared =>
      refine objectAt_of_keepsOthers (backend.complete_effect _ _ _ _ _).1 ?_ holds
      exact fun file row active bucket key =>
        spares file row active (.completed found prepared bucket key)
  · rcases ran : serve app world (.complete identity uploadId, now) with
      ⟨failure | reply, db', store'⟩
    · left
      rw [(World.execute_eq_error.mp ran).2]
    · obtain ⟨file, done, rfl⟩ := Program.bind_pure_eq_ok.mp (World.execute_eq_ok.mp ran)
      obtain ⟨upload, found, ⟨_, _, _, same, _⟩ | ⟨parts, stored, _, prepared, assembled, row, _, same⟩⟩ :=
        complete_ok done
      · left
        exact congrArg _ same
      · right
        obtain ⟨content, present⟩ := Option.isSome_iff_exists.mp (backend.complete_ok assembled).1
        have lies : backend.object? store' file.bucket file.objectKey = some content := by
          rw [row]
          exact present
        have files : db'.fileObjects = world.db.fileObjects ++ [file] := congrArg _ same
        refine ⟨file, ?_, congrArg (·.id) row, ?_, ?_, content, ?_, ?_⟩
        · rw [ran]
        · rw [ran]
          exact files
        · rintro id ⟨other, member, active, _, shared⟩
          rw [row] at shared
          obtain ⟨bucket, key⟩ := Prod.mk.inj shared
          exact spares other member active (.completed found prepared bucket (.inl key))
        · rw [ran]
          exact lies
        · rw [ran]
          exact lies

private theorem serve_upload_active (backend : Backend app.storage) {world : World Database σ}
    {originals : Uuid → Option Bytes} {identity : Identity} {request : ProxyUpload}
    {now : Timestamp} (reject : app.settings.uploads.objectConflictPolicy = "reject")
    (ids : Identified world.db)
    (spares : SparesActive app backend.toStoreView world (.proxyUpload identity request, now))
    (sound : KeepsActive backend.toStoreView world.db.fileObjects world.store originals) :
    let served := serve app world (.proxyUpload identity request, now)
    KeepsActive backend.toStoreView served.2.db.fileObjects served.2.store
      (noteStored app backend.toStoreView world (.proxyUpload identity request, now) originals) := by
  by_cases checked : ∃ safeKey effective, Validated app world identity request now safeKey effective
  · obtain ⟨safeKey, effective, valid⟩ := checked
    obtain ⟨_, conflict, _⟩ := validateUpload_ok valid
    -- The check has found no object, so no active file is there.
    have absent : backend.objectAt world.store (request.bucket, safeKey) = none :=
      backend.objectExists_false (refuseExisting_ok conflict reject)
    have others : backend.KeepsOthers request.bucket safeKey world.store
      (putOf app world request safeKey).2 := (backend.putObject_effect _ _ _ _ _ _ _).1
    have kept : ∀ {id place}, HoldsPlace world.db.fileObjects id place →
        backend.objectAt (putOf app world request safeKey).2 place =
          backend.objectAt world.store place := by
      refine objectAt_of_keepsOthers others ?_
      rintro file row active bucket (rfl | scratch)
      · exact sound.vacant absent file.id ⟨file, row, active, rfl, by rw [bucket]⟩
      · exact spares file row active (.uploaded valid bucket scratch)
    have served := serve_proxyUpload valid
    rcases put : putOf app world request safeKey with ⟨failure | stored, store'⟩
    · rw [put] at served kept
      exact keepsActive_write ids sound (by rw [served]; exact kept) (.inl (by rw [served]))
    · rw [put] at served kept
      dsimp only at served
      by_cases long : request.fits app.settings.database.dialect safeKey = false
      · rw [if_pos long] at served
        exact keepsActive_write ids sound (by rw [served]; exact kept) (.inl (by rw [served]))
      rw [if_neg long] at served
      by_cases occupied : world.db.occupied identity.tenantId request.bucket safeKey = true
      · rw [if_pos occupied] at served
        exact keepsActive_write ids sound (by rw [served]; exact kept) (.inl (by rw [served]))
      · rw [if_neg occupied] at served
        refine keepsActive_write ids sound (by rw [served]; exact kept)
          (.inr ⟨_, by rw [served], rfl, by rw [served]; rfl, fun id => sound.vacant absent id,
            request.stream, rfl, ?_⟩)
        rw [served]
        exact backend.putObject_ok put
  · obtain ⟨failure, refused⟩ := serve_invalid app world identity request now
      fun safeKey effective valid => checked ⟨safeKey, effective, valid⟩
    exact keepsActive_write ids sound (fun _ => by rw [refused]) (.inl (by rw [refused]))

end Overwriting

section Deleting

private theorem StoreView.KeepsObjects.objectAt {view : StoreView σ} {store store' : σ}
    (kept : view.KeepsObjects store store') (place : String × ObjectKey) :
    view.objectAt store' place = view.objectAt store place := by
  unfold StoreView.objectAt
  rw [kept]

private theorem Backend.deleteObject_objectAt (backend : Backend app.storage) {bucket : String}
    {key : ObjectKey} {store store' : σ} {result : Except Failure Unit}
    (removed : app.storage.deleteObject bucket key store = (result, store'))
    {place : String × ObjectKey} (other : place ≠ (bucket, key)) :
    backend.objectAt store' place = backend.objectAt store place := by
  have others := (backend.deleteObject_effect bucket key store).1
  rw [removed] at others
  exact others _ _ fun ⟨same, same'⟩ => other (Prod.ext same same')

/-- A deletion that fails leaves the store, or it is the store that refused it. -/
theorem delete_error {identity : Identity} {fileId : Uuid} {now : Timestamp} {db : Database}
    {store store' : σ} {failure : Failure}
    (failed : (FileService.delete app identity fileId now).run db store =
      (.error failure, store')) :
    store' = store ∨ ∃ bucket key,
      app.storage.deleteObject bucket key store = (.error failure, store') := by
  unfold FileService.delete at failed
  rcases Program.ReadOnly.bind_error (.select _ _) failed with same | ⟨found, _, failed⟩
  · exact .inl same
  cases found with
  | none =>
    cases failed
    exact .inl rfl
  | some file =>
    rcases Program.ReadOnly.bind_error (.refuseIf _ _) failed with same | ⟨_, _, failed⟩
    · exact .inl same
    rcases Program.ReadOnly.bind_error (.refuseIf _ _) failed with same | ⟨_, _, failed⟩
    · exact .inl same
    rw [Program.bind_eq_error, Program.run_onStore] at failed
    rcases failed with refused | ⟨_, _, _, _, ended⟩
    · refine .inr ⟨file.bucket, file.objectKey, ?_⟩
      rcases outcome : app.storage.deleteObject file.bucket file.objectKey store with ⟨_ | _, _⟩
      · rw [outcome] at refused
        cases refused
        rfl
      · rw [outcome] at refused
        cases refused
    · cases ended

private theorem serve_delete_active (backend : Backend app.storage) {world : World Database σ}
    {originals : Uuid → Option Bytes} {identity : Identity} {fileId : Uuid} {now : Timestamp}
    (sound : KeepsActive backend.toStoreView world.db.fileObjects world.store originals) :
    let served := serve app world (.delete identity fileId, now)
    KeepsActive backend.toStoreView served.2.db.fileObjects served.2.store
      (noteStored app backend.toStoreView world (.delete identity fileId, now) originals) := by
  intro served
  rcases ran : served with ⟨failure | reply, db', store'⟩
  · obtain ⟨failed, same⟩ := World.execute_eq_error.mp ran
    dsimp only at same failed ⊢
    rw [same]
    refine sound.carry (fun holds => holds) noteStored_of_holds fun _ => ?_
    rcases Program.bind_eq_error.mp failed with failed | ⟨_, _, _, _, ended⟩
    · rcases delete_error failed with kept | ⟨bucket, key, refused⟩
      · rw [kept]
      · exact (backend.deleteObject_error refused).objectAt _
    · cases ended
  · obtain ⟨_, done, _⟩ := Program.bind_pure_eq_ok.mp (World.execute_eq_ok.mp ran)
    obtain ⟨file, found, live, _, removed, same⟩ := delete_ok done
    obtain ⟨member, named, _⟩ := Database.findFile_some found
    have active : file.status = .active := by
      cases status : file.status with
      | active => rfl
      | deleted => exact absurd status live
    have files : db'.fileObjects = _ := congrArg (·.fileObjects) same
    dsimp only at files ⊢
    rw [files]
    refine sound.release (fun holds => sound.alone holds ⟨file, member, active, named, rfl⟩)
      HoldsPlace.of_deleted (fun holds => noteStored_of_holds holds.of_deleted.1)
      fun other => backend.deleteObject_objectAt removed other

/-- A batch deletes the objects of files that nobody shares a place with. -/
theorem turns_keepActive (backend : Backend app.storage) {now : Timestamp}
    {due files files' : List FileObject} {store store' : σ} {originals : Uuid → Option Bytes}
    (turns : LifecycleWorker.Turns app now due files store files' store')
    (only : ∀ file ∈ due, ∀ {id}, HoldsPlace files id (file.bucket, file.objectKey) → id = file.id)
    (sound : KeepsActive backend.toStoreView files store originals) :
    KeepsActive backend.toStoreView files' store' originals := by
  induction turns with
  | nil => exact sound
  | @cons file rest files files' store store₁ store' change turn later ih =>
    refine ih (fun other inRest id holds => ?_) ?_
    · exact only other (List.mem_cons_of_mem file inRest)
        (holds.of_update (turn_keepsPlace turn))
    · have stays : ∀ {id place}, HoldsPlace
          (files.map fun row => if row.id = file.id then change row else row) id place →
          HoldsPlace files id place := fun holds => holds.of_update (turn_keepsPlace turn)
      have here : ∀ {id}, HoldsPlace files id (file.bucket, file.objectKey) → id = file.id :=
        only file List.mem_cons_self
      cases turn with
      | deleted free action removed =>
        exact sound.release here HoldsPlace.of_deleted (fun _ => rfl)
          fun other => backend.deleteObject_objectAt removed other
      | refused free action kept =>
        exact sound.carry stays (fun _ => rfl)
          fun _ => (backend.deleteObject_error kept).objectAt _
      | blocked => exact sound.carry stays (fun _ => rfl) fun _ => rfl
      | notified => exact sound.carry stays (fun _ => rfl) fun _ => rfl
      | settled => exact sound.carry stays (fun _ => rfl) fun _ => rfl

private theorem serve_batch_active (backend : Backend app.storage) {world : World Database σ}
    {originals : Uuid → Option Bytes} {batchSize : Nat} {now : Timestamp}
    (sound : KeepsActive backend.toStoreView world.db.fileObjects world.store originals) :
    let served := serve app world (.processBatch batchSize, now)
    KeepsActive backend.toStoreView served.2.db.fileObjects served.2.store
      (noteStored app backend.toStoreView world (.processBatch batchSize, now) originals) := by
  rcases serve_processBatch app world batchSize now with ⟨same, _⟩ | ⟨_, turns⟩
  · exact sound.carry (by rw [same]; exact fun holds => holds)
      (by rw [same]; exact noteStored_of_holds) fun _ => by rw [same]
  · have kept := turns_keepActive backend turns (fun file due id holds => ?_) sound
    · exact kept.carry (fun holds => holds)
        (fun holds => noteStored_of_holds (holds.of_turns turns)) fun _ => rfl
    · obtain ⟨member, active, _⟩ := LifecycleWorker.dueFiles_mem due
      exact sound.alone holds ⟨file, member, active, rfl, rfl⟩

end Deleting

/-- One request keeps the bytes of the active files it does not write over. -/
theorem serve_keepsActive (backend : Backend app.storage) {world : World Database σ}
    {timed : Timed} {originals : Uuid → Option Bytes}
    (reject : app.settings.uploads.objectConflictPolicy = "reject") (ids : Identified world.db)
    (spares : SparesActive app backend.toStoreView world timed)
    (sound : KeepsActive backend.toStoreView world.db.fileObjects world.store originals) :
    KeepsActive backend.toStoreView (serve app world timed).2.db.fileObjects
      (serve app world timed).2.store
      (noteStored app backend.toStoreView world timed originals) := by
  obtain ⟨asked, now⟩ := timed
  cases asked with
  | complete identity uploadId => exact serve_complete_active backend ids spares sound
  | proxyUpload identity request => exact serve_upload_active backend reject ids spares sound
  | delete identity fileId => exact serve_delete_active backend sound
  | processBatch batchSize => exact serve_batch_active backend sound
  | _ => exact serve_quiet backend rfl sound

theorem after_keepsActive (backend : Backend app.storage) {world : World Database σ}
    {requests : List Timed} {originals : Uuid → Option Bytes}
    (reject : app.settings.uploads.objectConflictPolicy = "reject")
    (whole : Integrity app world.db)
    (spares : EachMeets app (SparesActive app backend.toStoreView) world requests)
    (sound : KeepsActive backend.toStoreView world.db.fileObjects world.store originals) :
    KeepsActive backend.toStoreView (after app world requests).db.fileObjects
      (after app world requests).store
      (originalsAfter app backend.toStoreView world requests originals) := by
  induction requests generalizing world originals with
  | nil => exact sound
  | cons timed rest ih =>
    exact ih (serve_integrity world timed whole) spares.2
      (serve_keepsActive backend reject whole.ids spares.1 sound)

/-- Under the policy `reject`, in every state of a run that writes over no active file, each
active file has at its key the bytes that the request that created it stored. -/
theorem active_files_keep_their_bytes (app : AppState σ) (backend : Backend app.storage)
    (reject : app.settings.uploads.objectConflictPolicy = "reject") (world : World Database σ)
    (initial : world.db.Initial) (requests : List Timed)
    (spares : EachMeets app (SparesActive app backend.toStoreView) world requests) :
    ∀ count, ∀ file ∈ (after app world (requests.take count)).db.fileObjects,
      file.status = .active →
      ∃ content,
        originalBytes app backend.toStoreView world (requests.take count) file.id =
          some content ∧
        backend.object? (after app world (requests.take count)).store file.bucket file.objectKey =
          some content := by
  intro count file member active
  have start : KeepsActive backend.toStoreView world.db.fileObjects world.store fun _ => none := by
    apply Undisturbed.empty
    rintro id place ⟨file, row, _⟩
    rw [initial.1] at row
    cases row
  have kept := after_keepsActive backend reject initial.integrity (spares.take count) start
  exact kept.intact ⟨file, member, active, rfl, rfl⟩

/-- A completed upload, and another tenant's upload to the same key. -/
def refusedRun : List Timed :=
  storedRun ++ [(.complete smallTenant 0, 0), (.proxyUpload strangerTenant smallUpload, 0)]

private theorem refusedRun_spares :
    EachMeets smallLocalApp (SparesActive smallLocalApp LocalStorageAdapter.view) ⟨{}, {}⟩
      refusedRun := by
  have vacant : ∀ {world : World Database LocalState} {timed : Timed},
      world.db.fileObjects = [] →
        SparesActive smallLocalApp LocalStorageAdapter.view world timed := by
    intro world timed none file row
    rw [none] at row
    cases row
  refine ⟨vacant rfl, vacant (by decide), vacant (by decide), vacant (by decide), ?_, trivial⟩
  -- The second upload is refused before it writes.
  rintro file row active (_ | ⟨valid, _, _⟩)
  obtain ⟨path, conflict, _⟩ := validateUpload_ok valid
  have key : validateObjectKey smallLocalApp smallUpload.objectKey = .ok smallKey := by decide
  rw [key] at path
  cases path
  have answer := refuseExisting_ok conflict rfl
  revert answer
  decide

theorem refusedRun_keeps_the_first :
    let world := after smallLocalApp ⟨{}, {}⟩ refusedRun
    (∃ file ∈ world.db.fileObjects, file.status = .active) ∧
    ∀ file ∈ world.db.fileObjects, file.status = .active → ∃ content,
      originalBytes smallLocalApp LocalStorageAdapter.view ⟨{}, {}⟩ refusedRun file.id =
        some content ∧
      LocalStorageAdapter.view.object? world.store file.bucket file.objectKey = some content :=
  ⟨by decide, active_files_keep_their_bytes smallLocalApp (localBackend _) rfl ⟨{}, {}⟩
    (by decide) refusedRun refusedRun_spares 5⟩

/-- A session is opened while the key is vacant and completed when another tenant has a
file there. -/
def overtakenRun : List Timed := [
  (.createSession smallTenant smallSession, 0),
  (.proxyUploadPart smallTenant 0 1 [5, 6] none, 0),
  (.proxyUploadPart smallTenant 0 2 [7, 8] none, 0),
  (.proxyUpload strangerTenant smallUpload, 0),
  (.complete smallTenant 0, 0)]

/-- The other tenant's active file now has the bytes of the session. -/
theorem completion_replaces_a_strangers_bytes :
    let world := after smallLocalApp ⟨{}, {}⟩ overtakenRun
    smallLocalApp.settings.uploads.objectConflictPolicy = "reject" ∧
    ∃ file ∈ world.db.fileObjects, file.status = .active ∧ file.tenantId = "stranger" ∧
      originalBytes smallLocalApp LocalStorageAdapter.view ⟨{}, {}⟩ overtakenRun file.id =
        some [1, 2, 3, 4] ∧
      LocalStorageAdapter.view.object? world.store file.bucket file.objectKey =
        some [5, 6, 7, 8] := by
  decide +kernel

end PyUploadX
