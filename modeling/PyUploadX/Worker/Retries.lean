import PyUploadX.Storage.Factory
import PyUploadX.Db.Integrity

/-! Deletions that fail: which files later batches still select. -/
namespace PyUploadX

open Kit LifecycleWorker

variable {σ : Type} {app : AppState σ}

/-- The worker's selection predicate. -/
def FileObject.Due (now : Timestamp) (file : FileObject) : Prop :=
  file.status = .active ∧ file.nextActionAt.any (· ≤ now) = true ∧ file.lifecycleStatus = .active

/-- An active file that is to be deleted, and whose time has come. -/
def FileObject.Deletable (now : Timestamp) (file : FileObject) : Prop :=
  file.status = .active ∧ file.lifecycleAction = .delete ∧ file.legalHold = false ∧
    file.nextActionAt.any (· ≤ now) = true

/-- No file that is to be deleted is out of the worker's sight. -/
def Retryable (files : List FileObject) : Prop :=
  ∀ file ∈ files, ∀ now, file.Deletable now → file.Due now

/-- The deletions a batch asks the storage for, in order, all succeed. -/
def DeletesAll (app : AppState σ) : List FileObject → σ → Prop
  | [], _ => True
  | file :: rest, store =>
    if file.legalHold = false ∧ file.lifecycleAction = .delete then
      (app.storage.deleteObject file.bucket file.objectKey store).1 = .ok () ∧
        DeletesAll app rest (app.storage.deleteObject file.bucket file.objectKey store).2
    else DeletesAll app rest store

/-- A batch of the worker whose deletions succeed, if it gets to them. -/
def StorageWorks (app : AppState σ) (world : World Database σ) (timed : Timed) : Prop :=
  match timed.1 with
  | .processBatch batchSize =>
    (dueFiles world.db batchSize timed.2).all (·.loadable) = true →
      DeletesAll app (dueFiles world.db batchSize timed.2) world.store
  | _ => True

theorem turn_rows {files : List FileObject} (unique : (files.map (·.id)).Nodup) {file : FileObject}
    (present : file ∈ files) {change : FileObject → FileObject} {row : FileObject} :
    row ∈ (files.map fun row => if row.id = file.id then change row else row) ↔
      row = change file ∨ (row ∈ files ∧ row.id ≠ file.id) := by
  rw [List.mem_map]
  constructor
  · rintro ⟨old, member, rfl⟩
    by_cases same : old.id = file.id
    · rw [if_pos same, List.inj_on_of_nodup_map unique member present same]
      exact .inl rfl
    · rw [if_neg same]
      exact .inr ⟨member, same⟩
  · rintro (rfl | ⟨member, different⟩)
    · exact ⟨file, present, if_pos rfl⟩
    · exact ⟨row, member, if_neg different⟩

theorem turn_ids {file : FileObject} {now : Timestamp} {store store' : σ}
    {change : FileObject → FileObject} (turn : Turn app file now store change store')
    (row : FileObject) : (change row).id = row.id := by
  cases turn <;> rfl

theorem turned_unique {files : List FileObject} (unique : (files.map (·.id)).Nodup)
    {file : FileObject} {now : Timestamp} {store store' : σ} {change : FileObject → FileObject}
    (turn : Turn app file now store change store') :
    ((files.map fun row => if row.id = file.id then change row else row).map (·.id)).Nodup := by
  have same : (files.map fun row => if row.id = file.id then change row else row).map (·.id) =
      files.map (·.id) := by
    rw [List.map_map]
    apply List.map_congr_left
    intro row _
    simp only [Function.comp]
    split
    · exact turn_ids turn row
    · rfl
  rw [same]
  exact unique

/-- The files of the later turns are still in the table. -/
theorem turned_rest {files rest : List FileObject} (unique : (files.map (·.id)).Nodup)
    {file : FileObject} (present : file ∈ files) (aside : file.id ∉ rest.map (·.id))
    {change : FileObject → FileObject} {other : FileObject} (inFiles : other ∈ files)
    (inRest : other ∈ rest) :
    other ∈ files.map fun row => if row.id = file.id then change row else row := by
  refine (turn_rows unique present).mpr (.inr ⟨inFiles, fun same => aside ?_⟩)
  rw [← same]
  exact List.mem_map_of_mem inRest

/-- A turn that asks for no deletion leaves the store and the status. -/
theorem turn_spared {file : FileObject} {now : Timestamp} {store store' : σ}
    {change : FileObject → FileObject} (turn : Turn app file now store change store')
    (spared : ¬ (file.legalHold = false ∧ file.lifecycleAction = .delete)) :
    store' = store ∧ ∀ row, (change row).status = row.status := by
  cases turn with
  | deleted free action removed => exact absurd ⟨free, action⟩ spared
  | refused free action refusal => exact absurd ⟨free, action⟩ spared
  | blocked held => exact ⟨rfl, fun _ => rfl⟩
  | notified free action => exact ⟨rfl, fun _ => rfl⟩
  | settled free undeleted silent => exact ⟨rfl, fun _ => rfl⟩

theorem turns_kept {now : Timestamp} {due files files' : List FileObject} {store store' : σ}
    (turns : Turns app now due files store files' store') {row : FileObject} (member : row ∈ files)
    (aside : row.id ∉ due.map (·.id)) : row ∈ files' := by
  induction turns with
  | nil => exact member
  | @cons file rest files files' store store₁ store' change turn later ih =>
    rw [List.map_cons, List.mem_cons, not_or] at aside
    apply ih _ aside.2
    exact List.mem_map.mpr ⟨row, member, if_neg aside.1⟩

theorem turns_unique {now : Timestamp} {due files files' : List FileObject} {store store' : σ}
    (turns : Turns app now due files store files' store') (unique : (files.map (·.id)).Nodup) :
    (files'.map (·.id)).Nodup := by
  induction turns with
  | nil => exact unique
  | cons turn later ih => exact ih (turned_unique unique turn)

theorem dueFiles_unique {db : Database} (unique : (db.fileObjects.map (·.id)).Nodup)
    (batchSize : Nat) (now : Timestamp) :
    ((dueFiles db batchSize now).map (·.id)).Nodup := by
  unfold dueFiles
  refine List.Nodup.sublist ((List.take_sublist _ _).map _) ?_
  rw [((List.perm_insertionSort _ _).map _).nodup_iff]
  exact unique.sublist (List.filter_sublist.map _)

/-- The files of a batch that are deleted, as the storage accepts it. -/
def deletions (app : AppState σ) : List FileObject → σ → List FileObject
  | [], _ => []
  | file :: rest, store =>
    if file.legalHold = false ∧ file.lifecycleAction = .delete then
      match app.storage.deleteObject file.bucket file.objectKey store with
      | (.ok (), store') => file :: deletions app rest store'
      | (.error _, store') => deletions app rest store'
    else deletions app rest store

theorem deletions_mem {due : List FileObject} {store : σ} {file : FileObject}
    (member : file ∈ deletions app due store) :
    file ∈ due ∧ file.legalHold = false ∧ file.lifecycleAction = .delete := by
  induction due generalizing store with
  | nil => cases member
  | cons head rest ih =>
    have later : ∀ {store : σ}, file ∈ deletions app rest store →
        file ∈ head :: rest ∧ file.legalHold = false ∧ file.lifecycleAction = .delete := by
      intro store inRest
      obtain ⟨present, conditions⟩ := ih inRest
      exact ⟨List.mem_cons_of_mem head present, conditions⟩
    unfold deletions at member
    split at member
    · rename_i deleting
      split at member
      · rcases List.mem_cons.mp member with rfl | inRest
        · exact ⟨List.mem_cons_self, deleting⟩
        · exact later inRest
      · exact later member
    · exact later member

/-- A turn adds its file to the deletions exactly when it leaves its row deleted. -/
theorem deletions_cons {file : FileObject} {rest : List FileObject} {now : Timestamp}
    {store store₁ : σ} {change : FileObject → FileObject}
    (turn : Turn app file now store change store₁) (kept : file.status ≠ .deleted) :
    deletions app (file :: rest) store =
      if (change file).status = .deleted then file :: deletions app rest store₁
      else deletions app rest store₁ := by
  rw [deletions]
  by_cases deleting : file.legalHold = false ∧ file.lifecycleAction = .delete
  · rw [if_pos deleting]
    cases turn with
    | blocked held => exact absurd (held.symm.trans deleting.1) (by decide)
    | deleted free action removed =>
      rw [removed]
      exact (if_pos rfl).symm
    | refused free action refusal =>
      rw [refusal]
      exact (if_neg kept).symm
    | notified free action => exact absurd (action.symm.trans deleting.2) (by decide)
    | settled free undeleted silent => exact absurd deleting.2 undeleted
  · obtain ⟨rfl, status⟩ := turn_spared turn deleting
    rw [if_neg deleting, if_neg (by rw [status]; exact kept)]

/-- A batch leaves the rows deleted whose deletions the storage accepts. -/
theorem turns_deleted_iff {now : Timestamp} {due files files' : List FileObject} {store store' : σ}
    (turns : Turns app now due files store files' store') (unique : (files.map (·.id)).Nodup)
    (dueUnique : (due.map (·.id)).Nodup)
    (present : ∀ file ∈ due, file ∈ files ∧ file.status ≠ .deleted)
    {file : FileObject} (member : file ∈ files) (kept : file.status ≠ .deleted) :
    (∃ row ∈ files', row.id = file.id ∧ row.status = .deleted) ↔ file ∈ deletions app due store := by
  induction turns with
  | nil files store =>
    refine iff_of_false ?_ List.not_mem_nil
    rintro ⟨row, inFiles, same, gone⟩
    rw [List.inj_on_of_nodup_map unique inFiles member same] at gone
    exact kept gone
  | @cons head rest files files' store store₁ store' change turn later ih =>
    rw [List.map_cons, List.nodup_cons] at dueUnique
    obtain ⟨inTable, headKept⟩ := present head List.mem_cons_self
    have turned := turned_unique unique turn
    have presentRest : ∀ other ∈ rest,
        other ∈ (files.map fun row => if row.id = head.id then change row else row) ∧
          other.status ≠ .deleted := by
      intro other inRest
      obtain ⟨inFiles, otherKept⟩ := present other (List.mem_cons_of_mem head inRest)
      exact ⟨turned_rest unique inTable dueUnique.1 inFiles inRest, otherKept⟩
    by_cases own : file = head
    · -- the turn of the file itself; no later one is about it
      subst own
      have changed : change file ∈ files' :=
        turns_kept later ((turn_rows unique inTable).mpr (.inl rfl)) (by
          rw [turn_ids turn]
          exact dueUnique.1)
      have aside : file ∉ deletions app rest store₁ := fun deleted =>
        dueUnique.1 (List.mem_map_of_mem (deletions_mem deleted).1)
      rw [deletions_cons turn kept]
      constructor
      · rintro ⟨row, inFiles, same, gone⟩
        have one : row = change file := List.inj_on_of_nodup_map (turns_unique later turned) inFiles
          changed (same.trans (turn_ids turn file).symm)
        rw [if_pos (one ▸ gone)]
        exact List.mem_cons_self
      · intro deleted
        split at deleted
        · rename_i gone
          exact ⟨change file, changed, turn_ids turn file, gone⟩
        · exact absurd deleted aside
    · have different : file.id ≠ head.id := fun same =>
        own (List.inj_on_of_nodup_map unique member inTable same)
      have next := ih turned dueUnique.2 presentRest
        ((turn_rows unique inTable).mpr (.inr ⟨member, different⟩))
      rw [next, deletions_cons turn headKept]
      split
      · rw [List.mem_cons, or_iff_right own]
      · exact Iff.rfl

/-- A turn that the storage does not refuse keeps every deletable file in sight. -/
theorem turn_retryable {files : List FileObject} (unique : (files.map (·.id)).Nodup)
    {file : FileObject} (present : file ∈ files) {now : Timestamp} {store store' : σ}
    {change : FileObject → FileObject} (turn : Turn app file now store change store')
    (worked : file.legalHold = false ∧ file.lifecycleAction = .delete →
      (app.storage.deleteObject file.bucket file.objectKey store).1 = .ok ())
    (sound : Retryable files) :
    Retryable (files.map fun row => if row.id = file.id then change row else row) := by
  intro row member later deletable
  rcases (turn_rows unique present).mp member with changed | ⟨kept, _⟩
  · obtain ⟨active, action, free, past⟩ := deletable
    cases turn with
    | blocked held => exact sound row (changed ▸ present) later ⟨active, action, free, past⟩
    | deleted _ _ removed =>
      rw [changed] at active
      cases active
    | refused open_ toDelete kept =>
      have done := worked ⟨open_, toDelete⟩
      rw [kept] at done
      cases done
    | notified _ notify =>
      rw [changed] at action
      exact absurd (notify.symm.trans action) (by simp)
    | settled =>
      rw [changed] at past
      cases past
  · exact sound row kept later deletable

theorem refused_lost {files : List FileObject} {file : FileObject} (present : file ∈ files)
    {now : Timestamp} (active : file.status = .active) (past : file.nextActionAt.any (· ≤ now) = true)
    (free : file.legalHold = false) (action : file.lifecycleAction = .delete)
    {rest files' : List FileObject} {store store' : σ}
    (aside : file.id ∉ rest.map (·.id))
    (later : Turns app now rest (files.map fun row => if row.id = file.id then
      { row.setLifecycleStatus .deleting with deleteAttempts := file.deleteAttempts + 1 } else row)
        store files' store') : ¬ Retryable files' := by
  intro sound
  have changed : { file.setLifecycleStatus .deleting with
      deleteAttempts := file.deleteAttempts + 1 } ∈ files' := by
    apply turns_kept later
    · exact List.mem_map.mpr ⟨file, present, if_pos rfl⟩
    · exact aside
  have due := sound _ changed now ⟨active, action, free, past⟩
  exact absurd due.2.2 (by simp [FileObject.setLifecycleStatus])

/-- After the turns of a batch every deletable file is in sight exactly when the storage
refused none of the deletions. -/
theorem turns_retryable_iff {now : Timestamp} {due files files' : List FileObject}
    {store store' : σ} (turns : Turns app now due files store files' store')
    (unique : (files.map (·.id)).Nodup) (dueUnique : (due.map (·.id)).Nodup)
    (present : ∀ file ∈ due, file ∈ files ∧ file.status = .active ∧
      file.nextActionAt.any (· ≤ now) = true) (sound : Retryable files) :
    Retryable files' ↔ DeletesAll app due store := by
  induction turns with
  | nil => exact iff_of_true sound trivial
  | @cons file rest files files' store store₁ store' change turn later ih =>
    obtain ⟨member, active, past⟩ := present file (by simp)
    rw [List.map_cons, List.nodup_cons] at dueUnique
    have turned := turned_unique unique turn
    have presentRest : ∀ other ∈ rest,
        other ∈ (files.map fun row => if row.id = file.id then change row else row) ∧
          other.status = .active ∧ other.nextActionAt.any (· ≤ now) = true := by
      intro other inRest
      obtain ⟨inFiles, conditions⟩ := present other (List.mem_cons_of_mem file inRest)
      exact ⟨turned_rest unique member dueUnique.1 inFiles inRest, conditions⟩
    have next := ih turned dueUnique.2 presentRest
    by_cases deleting : file.legalHold = false ∧ file.lifecycleAction = .delete
    · rw [DeletesAll, if_pos deleting]
      have kept := fun worked => turn_retryable unique member turn (fun _ => worked) sound
      cases turn with
      | blocked held => rw [deleting.1] at held; cases held
      | deleted free action removed =>
        rw [removed] at kept ⊢
        exact (next (kept rfl)).trans (by simp)
      | refused free action refusal =>
        rw [refusal]
        refine iff_of_false ?_ fun both => by cases both.1
        exact refused_lost member active past free action dueUnique.1 later
      | notified free action => rw [deleting.2] at action; cases action
      | settled free undeleted silent => exact absurd deleting.2 undeleted
    · rw [DeletesAll, if_neg deleting]
      have kept := turn_retryable unique member turn (fun both => absurd both deleting) sound
      rw [← (turn_spared turn deleting).1]
      exact next kept

/-- With working storage every deletion that is asked for succeeds. -/
theorem DeletesAll.mem_deletions {due : List FileObject} {store : σ}
    (works : DeletesAll app due store) {file : FileObject} (reached : file ∈ due)
    (free : file.legalHold = false) (action : file.lifecycleAction = .delete) :
    file ∈ deletions app due store := by
  induction due generalizing store with
  | nil => cases reached
  | cons head rest ih =>
    rw [DeletesAll] at works
    rw [deletions]
    by_cases deleting : head.legalHold = false ∧ head.lifecycleAction = .delete
    · rw [if_pos deleting] at works ⊢
      obtain ⟨removed, later⟩ := works
      have outcome : app.storage.deleteObject head.bucket head.objectKey store =
          (.ok (), (app.storage.deleteObject head.bucket head.objectKey store).2) :=
        Prod.ext removed rfl
      rw [outcome]
      rcases List.mem_cons.mp reached with rfl | inRest
      · exact List.mem_cons_self
      · exact List.mem_cons_of_mem head (ih later inRest)
    · rw [if_neg deleting] at works ⊢
      rcases List.mem_cons.mp reached with rfl | inRest
      · exact absurd ⟨free, action⟩ deleting
      · exact ih works inRest

/-- A batch fails on a row that does not load, or takes its turns and commits. -/
theorem serve_processBatch (app : AppState σ) (world : World Database σ) (batchSize : Nat)
    (now : Timestamp) :
    (serve app world (.processBatch batchSize, now)).2 = world ∧
        (dueFiles world.db batchSize now).all (·.loadable) = false ∨
      (dueFiles world.db batchSize now).all (·.loadable) = true ∧
        Turns app now (dueFiles world.db batchSize now) world.db.fileObjects world.store
          (serve app world (.processBatch batchSize, now)).2.db.fileObjects
          (serve app world (.processBatch batchSize, now)).2.store := by
  rcases processBatch_cases app batchSize now world.db world.store with
    failed | ⟨processed, db', store', done, _, loads, turns⟩
  · left
    have served := World.execute_wrap_error failed Reply.count
    rw [serve, handle, served]
    refine ⟨rfl, ?_⟩
    cases loads : (dueFiles world.db batchSize now).all (·.loadable) with
    | false => rfl
    | true =>
      rcases processAll_run app (dueFiles world.db batchSize now) now world.db world.store with
        ⟨processed, db', store', done, _⟩
      unfold processBatch selectDue at failed
      rw [Program.run_bind] at failed
      simp only [Program.run, loads, if_true] at failed
      rw [done] at failed
      cases failed
  · right
    have served := World.execute_wrap_ok done Reply.count
    rw [serve, handle, served]
    exact ⟨List.all_eq_true.mpr loads, turns⟩

/-- Batches of the worker, each with its limit and its reading of the clock. -/
def workerRun (batches : List (Nat × Timestamp)) : List Timed :=
  batches.map fun batch => (.processBatch batch.1, batch.2)

/-- Every deletable file is in sight, and goes with the next batch that reaches it while the
storage works. -/
structure InSight (app : AppState σ) (world : World Database σ) : Prop where
  retryable : Retryable world.db.fileObjects
  deleted : ∀ batchSize now, ∀ file ∈ dueFiles world.db batchSize now, file.Deletable now →
    (dueFiles world.db batchSize now).all (·.loadable) = true →
    DeletesAll app (dueFiles world.db batchSize now) world.store →
    ∃ row ∈ (serve app world (.processBatch batchSize, now)).2.db.fileObjects,
      row.id = file.id ∧ row.status = .deleted

theorem dueFiles_present {db : Database} {batchSize : Nat} {now : Timestamp} {file : FileObject}
    (due : file ∈ dueFiles db batchSize now) :
    file ∈ db.fileObjects ∧ file.status = .active ∧
      file.nextActionAt.any (· ≤ now) = true := by
  obtain ⟨member, active, _, ends, next, past⟩ := dueFiles_mem due
  refine ⟨member, active, ?_⟩
  rw [next]
  simpa using past

theorem dueFiles_undeleted {db : Database} {batchSize : Nat} {now : Timestamp} {file : FileObject}
    (due : file ∈ dueFiles db batchSize now) : file ∈ db.fileObjects ∧ file.status ≠ .deleted := by
  obtain ⟨member, active, _⟩ := dueFiles_present due
  rw [active]
  exact ⟨member, by decide⟩

private theorem Retryable.inSight {world : World Database σ}
    (unique : (world.db.fileObjects.map (·.id)).Nodup)
    (sound : Retryable world.db.fileObjects) : InSight app world := by
  refine ⟨sound, fun batchSize now file reached deletable loads works => ?_⟩
  rcases serve_processBatch app world batchSize now with ⟨_, unloaded⟩ | ⟨_, turns⟩
  · rw [loads] at unloaded
    cases unloaded
  · obtain ⟨member, kept⟩ := dueFiles_undeleted reached
    refine (turns_deleted_iff turns unique (dueFiles_unique unique batchSize now)
      (fun other due => dueFiles_undeleted due) member kept).mpr ?_
    exact works.mem_deletions reached deletable.2.2.1 deletable.2.1

private theorem serve_batch_retryable_iff (app : AppState σ) (world : World Database σ) (batchSize : Nat)
    (now : Timestamp) (unique : (world.db.fileObjects.map (·.id)).Nodup)
    (sound : Retryable world.db.fileObjects) :
    ((serve app world (.processBatch batchSize, now)).2.db.fileObjects.map (·.id)).Nodup ∧
      (Retryable (serve app world (.processBatch batchSize, now)).2.db.fileObjects ↔
        StorageWorks app world (.processBatch batchSize, now)) := by
  unfold StorageWorks
  rcases serve_processBatch app world batchSize now with ⟨same, unloaded⟩ | ⟨loads, turns⟩
  · rw [same]
    refine ⟨unique, iff_of_true sound fun loads => ?_⟩
    dsimp only at loads
    rw [unloaded] at loads
    cases loads
  · have iff := turns_retryable_iff turns unique (dueFiles_unique unique batchSize now)
      (fun file due => dueFiles_present due) sound
    exact ⟨turns_unique turns unique, iff.trans ⟨fun works _ => works, fun works => works loads⟩⟩

/-- After every batch of a run every deletable file is in sight exactly when the storage
refuses no deletion. -/
theorem batches_keep_in_sight_iff (app : AppState σ) (world : World Database σ)
    (unique : (world.db.fileObjects.map (·.id)).Nodup)
    (start : Retryable world.db.fileObjects) (batches : List (Nat × Timestamp)) :
    (∀ done rest, batches = done ++ rest → InSight app (after app world (workerRun done))) ↔
      EachMeets app (StorageWorks app) world (workerRun batches) := by
  induction batches generalizing world with
  | nil =>
    refine iff_of_true (fun done rest split => ?_) trivial
    obtain ⟨rfl, rfl⟩ := List.append_eq_nil_iff.mp split.symm
    exact start.inSight unique
  | cons batch others ih =>
    obtain ⟨batchSize, now⟩ := batch
    obtain ⟨later, step⟩ := serve_batch_retryable_iff app world batchSize now unique start
    constructor
    · intro inSight
      have next : Retryable (serve app world (.processBatch batchSize, now)).2.db.fileObjects :=
        (inSight [(batchSize, now)] others rfl).retryable
      refine ⟨step.mp next, (ih _ later next).mp fun done rest split => ?_⟩
      exact inSight ((batchSize, now) :: done) rest (by rw [split]; rfl)
    · rintro ⟨works, rest⟩
      have next := step.mpr works
      rintro (_ | ⟨first, done⟩) remaining split
      · exact start.inSight unique
      · obtain ⟨rfl, others⟩ := List.cons_eq_cons.mp split
        exact (ih _ later next).mpr rest done remaining others

/-- One file that is due for deletion. -/
def overdueWorld (faults : List (Option Nat)) : World Database LocalState :=
  let world := after smallLocalApp ⟨{}, {}⟩ [(.proxyUpload smallTenant smallUpload, 0)]
  ⟨world.db, { world.store with faults }⟩

theorem overdueWorld_in_sight_iff :
    (∀ done rest, [(10, seconds 2592000)] = done ++ rest →
      InSight smallLocalApp (after smallLocalApp (overdueWorld []) (workerRun done))) ↔
    EachMeets smallLocalApp (StorageWorks smallLocalApp) (overdueWorld [])
      (workerRun [(10, seconds 2592000)]) :=
  batches_keep_in_sight_iff smallLocalApp (overdueWorld []) (by decide)
    (by
      intro file member now deletable
      refine ⟨deletable.1, deletable.2.2.2, ?_⟩
      have all : ∀ file ∈ (overdueWorld []).db.fileObjects, file.lifecycleStatus = .active := by
        decide
      exact all file member)
    [(10, seconds 2592000)]

/-- One I/O error, and the file is never selected again. -/
theorem failed_delete_is_not_retried :
    let world := after smallLocalApp (overdueWorld [some 0]) (workerRun [(10, seconds 2592000)])
    (world.db.fileObjects.map fun file =>
      (file.status, file.lifecycleAction, file.legalHold, file.nextActionAt, file.lifecycleStatus)) =
      [(.active, .delete, false, some (seconds 2592000), .deleting)] ∧
    (dueFiles world.db 10 (seconds 2592000)).length = 0 := by
  decide

end PyUploadX
