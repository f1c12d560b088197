import PyUploadX.Worker.Retries

/-! Files under a legal hold. Four of the writers ask for the hold before they write; the
extension does not. -/
namespace PyUploadX

open Kit LifecycleService LifecycleWorker

variable {σ : Type} {app : AppState σ}

/-- The columns a legal hold protects. -/
def FileObject.terms (file : FileObject) : FileStatus × LifecycleMode × LifecycleAction ×
    LifecycleStatus × Option Int × Option Timestamp × Option Timestamp :=
  (file.status, file.lifecycleMode, file.lifecycleAction, file.lifecycleStatus, file.ttlSeconds,
    file.expiresAt, file.nextActionAt)

/-- Every held file has the terms it had. -/
def HeldKept (db db' : Database) : Prop :=
  ∀ file ∈ db.fileObjects, file.legalHold = true →
    ∃ row ∈ db'.fileObjects, row.id = file.id ∧ row.terms = file.terms

/-- The requests that write the terms of files that are there. -/
def Request.WritesTerms : Request → Prop
  | .delete _ _ | .updateLifecycle _ _ _ | .extend _ _ _ | .makePermanent _ _
  | .processBatch _ => True
  | _ => False

/-- No held file is extended, unless the policy grants it the terms it has. -/
def Request.SparesHeld (app : AppState σ) (db : Database) (request : Request) (now : Timestamp) :
    Prop :=
  match request with
  | .extend identity fileId extendSeconds =>
    ∀ file, db.findFile fileId identity.tenantId = some file → file.legalHold = true →
      ∀ policy, Extends app file extendSeconds now policy → (apply policy file).terms = file.terms
  | _ => True

theorem HeldKept.refl (db : Database) : HeldKept db db :=
  fun file member _ => ⟨file, member, rfl, rfl⟩

/-- A write to the row of a file that is not held. -/
theorem HeldKept.update {db db' : Database} (ids : Identified db) {fileId : Uuid}
    {tenantId : String} {file : FileObject} (found : db.findFile fileId tenantId = some file)
    (free : file.legalHold = false) {change : FileObject → FileObject}
    (files : db'.fileObjects = (db.updateFile fileId change).fileObjects) : HeldKept db db' := by
  intro row member held
  refine ⟨row, ?_, rfl, rfl⟩
  rw [files]
  refine List.mem_map.mpr ⟨row, member, if_neg fun same => ?_⟩
  rw [ids.found_unique found member same, free] at held
  cases held

theorem turns_held {now : Timestamp} {due files files' : List FileObject} {store store' : σ}
    (turns : Turns app now due files store files' store') (unique : (files.map (·.id)).Nodup)
    (present : ∀ file ∈ due, file ∈ files) {row : FileObject} (member : row ∈ files)
    (held : row.legalHold = true) : row ∈ files' := by
  refine turns_passed turns member fun other selected same => ?_
  rw [List.inj_on_of_nodup_map unique (present other selected) member same]
  exact held

/-- A granted extension is written, whether or not the file is held. -/
theorem extend_run {identity : Identity} {fileId : Uuid} {file : FileObject} {db : Database}
    (found : db.findFile fileId identity.tenantId = some file) {extendSeconds : Int}
    {now : Timestamp} {policy : EffectiveLifecycle}
    (granted : Extends app file extendSeconds now policy) (store : σ) :
    (extend app identity fileId extendSeconds now).run db store =
      (.ok (apply policy file, (db.updateFile fileId (apply policy)).addEvent
        (unchangedEvent identity file "lifecycle.extended")), store) := by
  obtain ⟨loads, notPermanent, notFixed, positive, dated, accepted⟩ := granted
  have locked : (lockFile identity fileId : Handler σ FileObject).run db store =
      (.ok (file, db), store) := by
    unfold lockFile FileRepository.getFile
    rw [Program.run_bind]
    simp only [Program.run, found, FileRepository.loadFile, loads, if_true]
    rfl
  unfold extend
  rw [Program.run_bind_ok locked,
    Program.run_bind_ok (Program.refuseIf_false (not_or.mpr ⟨notPermanent, notFixed⟩) _ _),
    Program.run_bind_ok (Program.refuseIf_false (Int.not_le.mpr positive) _ _),
    Program.run_bind_ok (Program.liftExcept_ok (addSeconds_ok.mpr ⟨dated, rfl⟩) _ _)]
  dsimp only
  rw [← extendedTo, ← extensionRequest, Program.run_bind_ok (Program.liftExcept_ok accepted _ _)]
  rfl

private theorem serve_spares_held {world : World Database σ} (sound : Integrity app world.db)
    {request : Request} (writes : request.WritesTerms) {now : Timestamp}
    (spares : request.SparesHeld app world.db now) :
    HeldKept world.db (serve app world (request, now)).2.db := by
  apply World.execute_preserves (fun reached => HeldKept world.db reached.db)
  · intro reply db store done
    cases request with
    | delete identity fileId =>
      obtain ⟨_, done, _⟩ := Program.bind_pure_eq_ok.mp done
      obtain ⟨file, found, _, free, _, rfl⟩ := delete_ok done
      exact .update sound.ids found free rfl
    | updateLifecycle identity fileId requested =>
      obtain ⟨_, done, _⟩ := Program.bind_pure_eq_ok.mp done
      obtain ⟨file, policy, event, found, free, _, rfl, _⟩ := updateLifecycle_ok done
      exact .update sound.ids found free rfl
    | makePermanent identity fileId =>
      obtain ⟨_, done, _⟩ := Program.bind_pure_eq_ok.mp done
      obtain ⟨file, event, found, free, rfl, _⟩ := makePermanent_ok done
      exact .update sound.ids found free rfl
    | extend identity fileId extendSeconds =>
      obtain ⟨_, done, _⟩ := Program.bind_pure_eq_ok.mp done
      obtain ⟨file, policy, event, found, granted, rfl, _⟩ := extend_ok done
      cases hold : file.legalHold with
      | false => exact .update sound.ids found hold rfl
      | true =>
        intro row member held
        obtain ⟨inTable, named, _⟩ := Database.findFile_some found
        by_cases same : row.id = fileId
        · rw [sound.ids.found_unique found member same]
          refine ⟨apply policy file, ?_, rfl, spares file found hold policy granted⟩
          exact List.mem_map.mpr ⟨file, inTable, if_pos named⟩
        · exact ⟨row, List.mem_map.mpr ⟨row, member, if_neg same⟩, rfl, rfl⟩
    | processBatch batchSize =>
      obtain ⟨_, done, _⟩ := Program.bind_pure_eq_ok.mp done
      rcases processBatch_cases app batchSize now world.db world.store with
        failed | ⟨processed, db₂, store₂, finished, _, _, turns⟩
      · rw [failed] at done; cases done
      · rw [finished] at done
        cases done
        intro row member held
        have stays := turns_held turns sound.ids.fileIds_nodup
          (fun file due => (dueFiles_present due).1) member held
        exact ⟨row, stays, rfl, rfl⟩
    | _ => exact writes.elim
  · exact fun _ _ _ => .refl world.db

theorem spares_of_heldKept {world : World Database σ} (sound : Integrity app world.db)
    {request : Request} {now : Timestamp}
    (kept : HeldKept world.db (serve app world (request, now)).2.db) :
    request.SparesHeld app world.db now := by
  cases request with
  | extend identity fileId extendSeconds =>
    intro file found held policy granted
    obtain ⟨inTable, named, _⟩ := Database.findFile_some found
    have ran := extend_run found granted world.store
    have served := World.execute_wrap_ok ran Reply.file
    rw [serve, handle, served] at kept
    obtain ⟨row, member, same, terms⟩ := kept file inTable held
    obtain ⟨old, present, rfl⟩ := List.mem_map.mp member
    by_cases own : old.id = fileId
    · rw [if_pos own, sound.ids.found_unique found present own] at terms
      exact terms
    · rw [if_neg own] at same
      exact absurd (same.trans named) own
  | _ => trivial

/-- In every reachable state a request leaves the terms of every held file alone exactly
when it does not extend one to other terms. -/
theorem held_terms_kept_iff (app : AppState σ) (world : World Database σ)
    (initial : world.db.Initial) (requests : List Timed) (request : Request)
    (writes : request.WritesTerms) (now : Timestamp) :
    (∀ file ∈ (after app world requests).db.fileObjects, file.legalHold = true →
      ∃ row ∈ (serve app (after app world requests) (request, now)).2.db.fileObjects,
        row.id = file.id ∧ row.terms = file.terms) ↔
    request.SparesHeld app (after app world requests).db now := by
  have sound := after_integrity app initial requests
  exact ⟨fun kept => spares_of_heldKept sound kept, fun spares =>
    serve_spares_held sound writes spares⟩

def heldRun : List Timed :=
  [(.createSession smallTenant { smallSession with totalSize := 2 }, 0),
    (.proxyUploadPart smallTenant 0 1 [1, 2] none, 0),
    (.complete smallTenant 0, seconds 1),
    (.setLegalHold smallTenant 1 true, seconds 1)]

theorem heldRun_delete_kept :
    (∀ file ∈ (after smallLocalApp ⟨{}, {}⟩ heldRun).db.fileObjects, file.legalHold = true →
      ∃ row ∈ (serve smallLocalApp (after smallLocalApp ⟨{}, {}⟩ heldRun)
        (.delete smallTenant 1, seconds 2)).2.db.fileObjects,
        row.id = file.id ∧ row.terms = file.terms) ↔
    (Request.delete smallTenant 1).SparesHeld smallLocalApp
      (after smallLocalApp ⟨{}, {}⟩ heldRun).db (seconds 2) :=
  held_terms_kept_iff smallLocalApp ⟨{}, {}⟩ (by decide) heldRun (.delete smallTenant 1) trivial
    (seconds 2)

/-- An extension moves the end of the held file. -/
theorem extension_ignores_hold :
    let world := after smallLocalApp ⟨{}, {}⟩ heldRun
    let extended := serve smallLocalApp world (.extend smallTenant 1 60, seconds 2)
    (world.db.fileObjects.map fun file => (file.id, file.legalHold, file.expiresAt)) =
      [(1, true, some (seconds 2592000))] ∧
    (extended.2.db.fileObjects.map fun file => (file.id, file.legalHold, file.expiresAt)) =
      [(1, true, some (seconds 2592001))] := by
  decide

end PyUploadX
