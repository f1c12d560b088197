import PyUploadX.Services.Resume
import PyUploadX.Storage.Factory
import PyUploadX.Storage.LocalBackend
import PyUploadX.System.Staging

/-! What `complete` hands to the storage: it counts rows, and assembles what is listed. -/
namespace PyUploadX

open Kit UploadService

variable {σ : Type} {app : AppState σ}

/-- The parts `complete` hands to the storage, once its checks are passed. -/
def handedParts (app : AppState σ) (upload : UploadSession) (world : World Database σ) :
    Option (List UploadedPart) :=
  match (partsToComplete app upload).run world.db world.store with
  | (.ok (parts, _), _) => some parts
  | (.error _, _) => none

/-- Each number `1..total_parts` once and nothing else, all of them stored. -/
def Whole (view : StoreView σ) (store : σ) (upload : UploadSession) (parts : List UploadedPart) :
    Prop :=
  (parts.map (·.partNumber)).Perm (List.range' 1 upload.totalParts) ∧
    ∀ part ∈ parts,
      view.hasPart store upload.bucket upload.objectKey upload.storageKey part.partNumber

/-- Every committed row of the session has its part in the storage. -/
def RowsStored (view : StoreView σ) (world : World Database σ) (upload : UploadSession) : Prop :=
  ∀ number ∈ committedNumbers world.db upload,
    view.hasPart world.store upload.bucket upload.objectKey upload.storageKey number

/-- What is handed over is the listing of the storage or, where there is none, the rows. -/
theorem storedParts_ok {upload : UploadSession} {committed : List UploadPart}
    {db db' : Database} {store store' : σ} {parts : List UploadedPart}
    (done : (storedParts app upload committed).run db store = (.ok (parts, db'), store')) :
    (app.storage.listParts upload.bucket upload.objectKey upload.storageKey store = .ok parts ∧
        (app.storage.isLocal = true → parts ≠ [])) ∨
      (parts = committed.map handedRow ∧
        (app.storage.listParts upload.bucket upload.objectKey upload.storageKey store = .ok [] ∨
          app.storage.capabilities.listParts = false ∨ upload.storageId? = none)) := by
  unfold storedParts at done
  split at done
  · rename_i storageUploadId named
    have key : upload.storageKey = storageUploadId := by
      rw [UploadSession.storageKey, named]; rfl
    rw [key]
    split at done
    · rw [Program.askStore_bind_ok] at done
      obtain ⟨listed, answer, done⟩ := done
      dsimp only at done
      split at done
      · cases done
      · rw [Program.pure_eq_ok] at done
        cases done.1
        split
        · rename_i empty
          rw [empty.1] at answer
          exact .inr ⟨rfl, .inl answer⟩
        · rename_i filled
          exact .inl ⟨answer, fun onDisk empty => filled ⟨empty, onDisk⟩⟩
    · rename_i unable
      rw [Program.pure_eq_ok] at done
      cases done.1
      exact .inr ⟨rfl, .inr (.inl (Bool.eq_false_iff.mpr unable))⟩
  · rename_i unnamed
    rw [Program.pure_eq_ok] at done
    cases done.1
    exact .inr ⟨rfl, .inr (.inr unnamed)⟩

/-- Enough rows are all the rows: their numbers are `1..total_parts`. -/
theorem committedNumbers_perm {db : Database} (sound : Integrity app db) {upload : UploadSession}
    (found : upload ∈ db.uploadSessions)
    (enough : upload.totalParts ≤ (committedOf (db.partsOf upload.id)).length) :
    (committedNumbers db upload).Perm (List.range' 1 upload.totalParts) := by
  obtain ⟨nodup, inRange⟩ := committedNumbers_sound sound found
  have within : committedNumbers db upload ⊆ List.range' 1 upload.totalParts := by
    intro number member
    have bounds := inRange number member
    rw [List.mem_range'_1]
    omega
  refine (nodup.subperm within).perm_of_length_le ?_
  rw [List.length_range', committedNumbers, List.length_map]
  exact enough

theorem handedParts_some {upload : UploadSession} {world : World Database σ}
    {parts : List UploadedPart} :
    handedParts app upload world = some parts ↔
      (partsToComplete app upload).run world.db world.store =
        (.ok (parts, world.db), world.store) := by
  unfold handedParts
  rcases partsToComplete_readOnly app upload world.db world.store with
    ⟨value, done⟩ | ⟨failure, done⟩ <;> simp [done]

theorem handed_whole_iff (backend : Backend app.storage) {world : World Database σ}
    (sound : Integrity app world.db) (staged : Staged backend world) {upload : UploadSession}
    (found : upload ∈ world.db.uploadSessions) {parts : List UploadedPart}
    (handed : handedParts app upload world = some parts) :
    Whole backend.toStoreView world.store upload parts ↔
      RowsStored backend.toStoreView world upload := by
  obtain ⟨enough, listed, _⟩ := partsToComplete_ok (handedParts_some.mp handed)
  have rows := committedNumbers_perm sound found enough
  constructor
  · rintro ⟨numbers, stored⟩ number committed
    have handedOver := (rows.trans numbers.symm).mem_iff.mp committed
    obtain ⟨part, member, rfl⟩ := List.mem_map.mp handedOver
    exact stored part member
  · intro stored
    rcases storedParts_ok listed with ⟨listing, _⟩ | ⟨rfl, _⟩
    · have present := (backend.listParts_ok listing).2
      exact ⟨staged.listed_perm found listing fun number inside =>
          stored number (rows.mem_iff.mpr inside),
        fun part member => (present part.partNumber).mp (List.mem_map_of_mem member)⟩
    · have numbers : ((committedOf (world.db.partsOf upload.id)).map handedRow).map
          (·.partNumber) = committedNumbers world.db upload := by
        rw [List.map_map]; rfl
      refine ⟨numbers ▸ rows, fun part member => ?_⟩
      exact stored _ (numbers ▸ List.mem_map_of_mem member)

/-- A `complete` that assembles a session assembles it whole exactly when every committed
row of the session has its part in the storage. -/
theorem completion_whole_iff_rows_stored (app : AppState σ) (backend : Backend app.storage)
    (world : World Database σ) (initial : world.db.Initial)
    (unstaged : ∀ bucket key id number,
      ¬ backend.hasPart world.store bucket key (.session id) number)
    (requests : List Timed) (identity : Identity) (uploadId : Uuid) (upload : UploadSession)
    (found : (after app world requests).db.findUpload uploadId identity.tenantId = some upload)
    (unfinished : upload.status.terminal = false) (now : Timestamp) (file : FileObject)
    (completed : (serve app (after app world requests) (.complete identity uploadId, now)).1 =
      .ok (.file file)) :
    (∃ parts, handedParts app upload (after app world requests) = some parts ∧
      Whole backend.toStoreView (after app world requests).store upload parts) ↔
    RowsStored backend.toStoreView (after app world requests) upload := by
  have sound := after_integrity app initial requests
  have staged := after_staged backend initial unstaged requests
  obtain ⟨member, _⟩ := Database.findUpload_some found
  have handed : ∃ parts, handedParts app upload (after app world requests) = some parts := by
    obtain ⟨_, done, _⟩ := Program.bind_pure_eq_ok.mp (World.execute_committed completed)
    obtain ⟨same, present, before | ⟨parts, stored, _, prepared, _⟩⟩ := complete_ok done <;>
      (rw [found] at present; cases present)
    · rw [before.1] at unfinished
      cases unfinished
    · exact ⟨parts, handedParts_some.mpr prepared⟩
  obtain ⟨parts, handed⟩ := handed
  rw [← handed_whole_iff backend sound staged member handed]
  constructor
  · rintro ⟨other, same, whole⟩
    rw [handed] at same
    cases same
    exact whole
  · exact fun whole => ⟨parts, handed, whole⟩

def storedRun : List Timed :=
  [(.createSession smallTenant smallSession, 0),
    (.proxyUploadPart smallTenant 0 1 [1, 2] none, 0),
    (.proxyUploadPart smallTenant 0 2 [3, 4] none, 0)]

theorem storedRun_whole_iff :
    (∃ parts, handedParts smallLocalApp
        (((after smallLocalApp ⟨{}, {}⟩ storedRun).db.findUpload 0 "tenant").get (by decide))
        (after smallLocalApp ⟨{}, {}⟩ storedRun) = some parts ∧
      Whole LocalStorageAdapter.view (after smallLocalApp ⟨{}, {}⟩ storedRun).store
        (((after smallLocalApp ⟨{}, {}⟩ storedRun).db.findUpload 0 "tenant").get (by decide))
        parts) ↔
    RowsStored LocalStorageAdapter.view (after smallLocalApp ⟨{}, {}⟩ storedRun)
      (((after smallLocalApp ⟨{}, {}⟩ storedRun).db.findUpload 0 "tenant").get (by decide)) :=
  completion_whole_iff_rows_stored smallLocalApp (localBackend _) ⟨{}, {}⟩ (by decide)
    (fun _ _ _ number member => AList.notMem_empty number member) storedRun smallTenant 0 _
    (Option.some_get (by decide)).symm (by decide) 0
    ((servedFile (serve smallLocalApp (after smallLocalApp ⟨{}, {}⟩ storedRun)
      (.complete smallTenant 0, 0)).1).get (by decide))
    (servedFile_eq_some.mp (Option.some_get (by decide)).symm)

/-- Both parts of a session are committed, but only the first was ever stored. -/
def reportedRun : List Timed :=
  [(.createSession smallTenant smallSession, 0),
    (.proxyUploadPart smallTenant 0 1 [1, 2] none, 0),
    (.commitPart smallTenant 0 2 "etag" 2 none, 0)]

/-- The session is completed from its first part, and the object is two bytes short. -/
theorem reported_part_truncates :
    let world := after smallLocalApp ⟨{}, {}⟩ reportedRun
    let completed := serve smallLocalApp world (.complete smallTenant 0, 0)
    (servedFile completed.1).map (·.sizeBytes) = some 4 ∧
    (world.db.findUpload 0 smallTenant.tenantId).map (fun upload =>
      (upload.totalParts, committedNumbers world.db upload,
        (handedParts smallLocalApp upload world).map (·.map (·.partNumber)))) =
      some (2, [1, 2], some [1]) ∧
    completed.2.store.tree.file? ["files", "a.bin"] = some [1, 2] := by
  decide

end PyUploadX
