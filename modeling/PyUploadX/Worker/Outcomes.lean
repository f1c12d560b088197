import PyUploadX.Services.Outcomes

/-! What a batch of the lifecycle worker does to the files it selects. -/
namespace PyUploadX

open Kit

namespace LifecycleWorker

variable {σ : Type} {app : AppState σ}

/-- One turn of the loop: the change of the file's row and the store afterwards. -/
inductive Turn (app : AppState σ) (file : FileObject) (now : Timestamp) (store : σ) :
    (FileObject → FileObject) → σ → Prop
  | blocked (held : file.legalHold = true) : Turn app file now store id store
  | deleted {store' : σ} (free : file.legalHold = false)
      (action : file.lifecycleAction = .delete)
      (removed : app.storage.deleteObject file.bucket file.objectKey store = (.ok (), store')) :
      Turn app file now store (FileService.markDeleted now) store'
  | refused {store' : σ} {failure : Failure} (free : file.legalHold = false)
      (action : file.lifecycleAction = .delete)
      (kept : app.storage.deleteObject file.bucket file.objectKey store =
        (.error failure, store')) :
      Turn app file now store
        (fun row => { row.setLifecycleStatus .deleting with
          deleteAttempts := file.deleteAttempts + 1 }) store'
  | notified (free : file.legalHold = false) (action : file.lifecycleAction = .notify) :
      Turn app file now store (·.setLifecycleStatus .expired) store
  | settled (free : file.legalHold = false) (undeleted : file.lifecycleAction ≠ .delete)
      (silent : file.lifecycleAction ≠ .notify) :
      Turn app file now store (fun row => { row with nextActionAt := none }) store

/-- Only the file table, the events and the outbox differ. -/
def SameUploads (db db' : Database) : Prop :=
  db'.uploadSessions = db.uploadSessions ∧ db'.uploadParts = db.uploadParts ∧
    db'.nextId = db.nextId ∧ db'.overrides = db.overrides ∧
    db'.directoryUploadJobs = db.directoryUploadJobs ∧
    db'.directoryUploadEntries = db.directoryUploadEntries

theorem SameUploads.trans {db₁ db₂ db₃ : Database} (first : SameUploads db₁ db₂)
    (second : SameUploads db₂ db₃) : SameUploads db₁ db₃ := by
  obtain ⟨a, b, c, d, e, f⟩ := first
  obtain ⟨a', b', c', d', e', f'⟩ := second
  exact ⟨a'.trans a, b'.trans b, c'.trans c, d'.trans d, e'.trans e, f'.trans f⟩

private theorem updateFile_updateFile (db : Database) (fileId : Uuid)
    (first second : FileObject → FileObject) (kept : ∀ file, (first file).id = file.id) :
    ((db.updateFile fileId first).updateFile fileId second).fileObjects =
      (db.updateFile fileId fun file => second (first file)).fileObjects := by
  simp only [Database.updateFile, List.map_map]
  apply List.map_congr_left
  intro file _
  by_cases same : file.id = fileId
  · simp [same, kept]
  · simp [same]

private theorem updateFile_id (db : Database) (fileId : Uuid) :
    (db.updateFile fileId id).fileObjects = db.fileObjects := by
  simp [Database.updateFile]

/-- A turn never fails, and it is one of the five. -/
theorem processFile_run (app : AppState σ) (file : FileObject) (now : Timestamp) (db : Database) (store : σ) :
    ∃ processed db' change store',
      (processFile app file now).run db store = (.ok (processed, db'), store') ∧
      SameUploads db db' ∧ db'.fileObjects = (db.updateFile file.id change).fileObjects ∧
      Turn app file now store change store' := by
  unfold processFile
  split
  · rename_i held
    exact ⟨0, _, id, store, rfl, ⟨rfl, rfl, rfl, rfl, rfl, rfl⟩, (updateFile_id db file.id).symm,
      .blocked held⟩
  · rename_i free
    have free : file.legalHold = false := by simpa using free
    split
    · rename_i action
      simp only [FileRepository.flushFile, FileRepository.flushDeleting, Program.run_modify_bind,
        Program.run_tryStore_bind]
      rcases attempt : app.storage.deleteObject file.bucket file.objectKey store with
        ⟨failure | ⟨⟩, store'⟩
      · refine ⟨0, _, _, store', rfl, ⟨rfl, rfl, rfl, rfl, rfl, rfl⟩, ?_, .refused free action attempt⟩
        exact updateFile_updateFile db file.id (·.setLifecycleStatus .deleting)
          (fun row => { row with deleteAttempts := file.deleteAttempts + 1 }) fun _ => rfl
      · refine ⟨1, _, _, store', rfl, ⟨rfl, rfl, rfl, rfl, rfl, rfl⟩, ?_, .deleted free action attempt⟩
        exact updateFile_updateFile db file.id (·.setLifecycleStatus .deleting)
          (FileService.markDeleted now) fun _ => rfl
    · rename_i action
      exact ⟨1, _, _, store, rfl, ⟨rfl, rfl, rfl, rfl, rfl, rfl⟩, rfl, .notified free action⟩
    · rename_i undeleted silent
      exact ⟨1, _, _, store, rfl, ⟨rfl, rfl, rfl, rfl, rfl, rfl⟩, rfl, .settled free undeleted silent⟩

/-- A change of one row that keeps what all rows have. -/
theorem forall_update {holds : FileObject → Prop} {files : List FileObject} {fileId : Uuid}
    {change : FileObject → FileObject} (sound : ∀ file ∈ files, holds file)
    (kept : ∀ file ∈ files, file.id = fileId → holds (change file)) :
    ∀ file ∈ files.map (fun row => if row.id = fileId then change row else row), holds file := by
  intro file member
  obtain ⟨row, present, rfl⟩ := List.mem_map.mp member
  split
  · rename_i own
    exact kept row present own
  · exact sound row present

/-- The turns of a batch, in order. -/
inductive Turns (app : AppState σ) (now : Timestamp) :
    List FileObject → List FileObject → σ → List FileObject → σ → Prop
  | nil (files : List FileObject) (store : σ) : Turns app now [] files store files store
  | cons {file : FileObject} {rest files files' : List FileObject} {store store₁ store' : σ}
      {change : FileObject → FileObject} (turn : Turn app file now store change store₁)
      (later : Turns app now rest
        (files.map fun row => if row.id = file.id then change row else row) store₁ files' store') :
      Turns app now (file :: rest) files store files' store'

/-- What a turn leaves of the rows, a batch leaves of them. -/
theorem turns_forall {holds : FileObject → Prop} {now : Timestamp}
    {due files files' : List FileObject} {store store' : σ}
    (turns : Turns app now due files store files' store')
    (kept : ∀ file ∈ due, ∀ {change : FileObject → FileObject} {store store' : σ},
      Turn app file now store change store' → ∀ row, holds row → holds (change row))
    (sound : ∀ file ∈ files, holds file) : ∀ file ∈ files', holds file := by
  induction turns with
  | nil => exact sound
  | @cons file rest files files' store store₁ store' change turn later ih =>
    refine ih (fun other inRest => kept other (List.mem_cons_of_mem file inRest)) ?_
    exact forall_update sound fun row member _ =>
      kept file List.mem_cons_self turn row (sound row member)

/-- What a deletion leaves of the store, a batch leaves of it. -/
theorem turns_store {holds : σ → Prop} {now : Timestamp} {due files files' : List FileObject}
    {store store' : σ} (turns : Turns app now due files store files' store')
    (kept : ∀ (file : FileObject) {store store' : σ} {outcome : Except Failure Unit},
      app.storage.deleteObject file.bucket file.objectKey store = (outcome, store') →
        holds store → holds store')
    (there : holds store) : holds store' := by
  induction turns with
  | nil => exact there
  | @cons file rest files files' store store₁ store' change turn later ih =>
    apply ih
    cases turn with
    | blocked _ => exact there
    | deleted _ _ removed => exact kept file removed there
    | refused _ _ refusal => exact kept file refusal there
    | notified _ _ => exact there
    | settled _ _ _ => exact there

/-- A row that no action is taken on stays as it is. -/
theorem turns_passed {file : FileObject} {now : Timestamp} {due files files' : List FileObject} {store store' : σ}
    (turns : Turns app now due files store files' store') (member : file ∈ files)
    (passed : ∀ other ∈ due, other.id = file.id → other.legalHold = true) : file ∈ files' := by
  induction turns with
  | nil => exact member
  | @cons other rest files files' store store₁ store' change turn later ih =>
    refine ih (List.mem_map.mpr ⟨file, member, ?_⟩) fun next inRest =>
      passed next (List.mem_cons_of_mem other inRest)
    split
    · rename_i same
      have held := passed other List.mem_cons_self same.symm
      cases turn with
      | blocked _ => rfl
      | deleted free => rw [held] at free; cases free
      | refused free => rw [held] at free; cases free
      | notified free => rw [held] at free; cases free
      | settled free => rw [held] at free; cases free
    · rfl

theorem processAll_run (app : AppState σ) (files : List FileObject) (now : Timestamp) (db : Database) (store : σ) :
    ∃ processed db' store',
      (processAll app files now).run db store = (.ok (processed, db'), store') ∧
      SameUploads db db' ∧
      Turns app now files db.fileObjects store db'.fileObjects store' := by
  induction files generalizing db store with
  | nil => exact ⟨0, db, store, rfl, ⟨rfl, rfl, rfl, rfl, rfl, rfl⟩, .nil _ _⟩
  | cons file rest ih =>
    obtain ⟨one, db₁, change, store₁, turned, same, rows, turn⟩ :=
      processFile_run app file now db store
    obtain ⟨others, db', store', finished, sameRest, later⟩ := ih db₁ store₁
    rw [rows] at later
    refine ⟨one + others, db', store', ?_, same.trans sameRest, .cons turn later⟩
    unfold processAll
    rw [Program.run_bind_ok turned, Program.run_bind_ok finished]
    rfl

theorem dueFiles_mem {db : Database} {batchSize : Nat} {now : Timestamp} {file : FileObject}
    (selected : file ∈ dueFiles db batchSize now) :
    file ∈ db.fileObjects ∧ file.status = .active ∧ file.lifecycleStatus = .active ∧
      ∃ due, file.nextActionAt = some due ∧ due ≤ now := by
  have sorted := List.mem_of_mem_take selected
  rw [List.mem_insertionSort, List.mem_filter] at sorted
  obtain ⟨member, conditions⟩ := sorted
  simp only [decide_eq_true_eq, Option.any_eq_true] at conditions
  obtain ⟨active, ⟨due, scheduled, past⟩, idle⟩ := conditions
  exact ⟨member, active, idle, due, scheduled, past⟩

/-- A batch either fails when it loads the due files, or takes a turn for each of them. -/
theorem processBatch_cases (app : AppState σ) (batchSize : Nat) (now : Timestamp) (db : Database) (store : σ) :
    (processBatch app batchSize now).run db store = (.error .lookup, store) ∨
    ∃ processed db' store',
      (processBatch app batchSize now).run db store = (.ok (processed, db'), store') ∧
      SameUploads db db' ∧ (∀ file ∈ dueFiles db batchSize now, file.loadable = true) ∧
      Turns app now (dueFiles db batchSize now) db.fileObjects store db'.fileObjects store' := by
  unfold processBatch selectDue
  rw [Program.run_bind]
  simp only [Program.run]
  by_cases loads : (dueFiles db batchSize now).all (·.loadable)
  · obtain ⟨processed, db', store', done, same, turns⟩ :=
      processAll_run app (dueFiles db batchSize now) now db store
    refine .inr ⟨processed, db', store', ?_, same, by simpa using loads, turns⟩
    simp only [loads, if_true]
    exact done
  · exact .inl (by simp only [loads]; rfl)

end LifecycleWorker

end PyUploadX
