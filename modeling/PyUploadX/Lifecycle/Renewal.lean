import PyUploadX.Lifecycle.LegalHold
import PyUploadX.Sdk.UploadDirectory
import PyUploadX.System.FileEffects

/-! Renewals: when the worker acts again on a file whose lifecycle was updated or extended. -/
namespace PyUploadX

open Kit LifecycleService LifecycleWorker

variable {σ : Type}

/-- `update_lifecycle` or `extend` of the file. -/
def Request.renews (fileId : Uuid) : Request → Prop
  | .updateLifecycle _ renewed _ => renewed = fileId
  | .extend _ renewed _ => renewed = fileId
  | _ => False

section Steps

variable (app : AppState σ) (fileId : Uuid) (world : World Database σ) (timed : Timed)

/-- A batch that takes an action on the file. -/
def Processes : Prop :=
  match timed.1 with
  | .processBatch batchSize => Accepted app world timed ∧
      ∃ file ∈ dueFiles world.db batchSize timed.2, file.id = fileId ∧ file.legalHold = false
  | _ => False

/-- The file is made permanent. -/
def MakesPermanent : Prop :=
  ∃ identity, timed.1 = .makePermanent identity fileId ∧ Accepted app world timed

/-- The file is neither renewed nor processed. -/
def Quiet : Prop :=
  ¬ (timed.1.renews fileId ∧ Accepted app world timed) ∧ ¬ Processes app fileId world timed

end Steps

variable {app : AppState σ} {world : World Database σ} {timed : Timed} {file : FileObject}

private theorem not_accepted (refused : ¬ Accepted app world timed) :
    (serve app world timed).2.db = world.db := by
  cases answer : (serve app world timed).1 with
  | ok reply => exact absurd ⟨reply, answer⟩ refused
  | error failure => exact (World.execute_eq_error.mp (Prod.ext answer rfl)).2

theorem updateFile_row {db : Database} (member : file ∈ db.fileObjects) (fileId : Uuid)
    (change : FileObject → FileObject) :
    (if file.id = fileId then change file else file) ∈ (db.updateFile fileId change).fileObjects :=
  List.mem_map.mpr ⟨file, member, rfl⟩

/-- What a quiet step leaves of the row: an active one keeps its status in the lifecycle, and its
next action unless it is made permanent. -/
structure Rested (app : AppState σ) (world : World Database σ) (timed : Timed)
    (file row : FileObject) : Prop where
  same : row.id = file.id
  active : row.status = .active → file.status = .active
  lifecycleStatus : row.status = .active → row.lifecycleStatus = file.lifecycleStatus
  kept : ¬ MakesPermanent app file.id world timed → row.nextActionAt = file.nextActionAt
  cleared : MakesPermanent app file.id world timed → row.nextActionAt = none

theorem Rested.refl (unmoved : ¬ MakesPermanent app file.id world timed) :
    Rested app world timed file file :=
  ⟨rfl, id, fun _ => rfl, fun _ => rfl, fun moved => absurd moved unmoved⟩

/-- The row after `make_permanent`. -/
theorem makesPermanent_row (member : file ∈ world.db.fileObjects)
    (permanent : MakesPermanent app file.id world timed) :
    permanently file ∈ (serve app world timed).2.db.fileObjects := by
  obtain ⟨identity, asked, reply, answer⟩ := permanent
  obtain ⟨request, now⟩ := timed
  cases asked
  have done := World.execute_committed answer
  obtain ⟨_, done, _⟩ := Program.bind_pure_eq_ok.mp done
  obtain ⟨_, event, _, _, written, _⟩ := makePermanent_ok done
  have served : (serve app world (.makePermanent identity file.id, now)).2.db =
      (world.db.updateFile file.id permanently).addEvent event := written
  have row := updateFile_row member file.id permanently
  rw [if_pos rfl] at row
  rw [served]
  exact row

private theorem quiet_step (member : file ∈ world.db.fileObjects) (quiet : Quiet app file.id world timed) :
    ∃ row ∈ (serve app world timed).2.db.fileObjects, Rested app world timed file row := by
  by_cases accepted : Accepted app world timed
  swap
  · rw [not_accepted accepted]
    exact ⟨file, member, .refl fun permanent => accepted permanent.choose_spec.2⟩
  by_cases permanent : MakesPermanent app file.id world timed
  · exact ⟨permanently file, makesPermanent_row member permanent, rfl, id, fun _ => rfl,
      fun other => absurd permanent other, fun _ => rfl⟩
  obtain ⟨unrenewed, unprocessed⟩ := quiet
  have effect := serve_fileEffect app world timed
  generalize (serve app world timed).2.db.fileObjects = files at effect
  obtain ⟨request, now⟩ := timed
  cases effect with
  | kept => exact ⟨file, member, .refl permanent⟩
  | completed => exact ⟨file, List.mem_append_left _ member, .refl permanent⟩
  | uploaded => exact ⟨file, List.mem_append_left _ member, .refl permanent⟩
  | @deleted identity fileId _ other found free =>
    refine ⟨_, updateFile_row member fileId (FileService.markDeleted now), ?_⟩
    split
    · refine ⟨rfl, fun active => ?_, fun active => ?_, fun _ => rfl, fun moved => absurd moved permanent⟩
      · cases active
      · cases active
    · exact .refl permanent
  | @updated identity fileId requested _ other policy found free granted =>
    refine ⟨_, updateFile_row member fileId _, ?_⟩
    rw [if_neg fun same => unrenewed ⟨same.symm, accepted⟩]
    exact .refl permanent
  | @extended identity fileId extendSeconds _ other policy found granted =>
    refine ⟨_, updateFile_row member fileId _, ?_⟩
    rw [if_neg fun same => unrenewed ⟨same.symm, accepted⟩]
    exact .refl permanent
  | @permanent identity fileId _ other found free =>
    refine ⟨_, updateFile_row member fileId _, ?_⟩
    split
    · rename_i same
      subst same
      exact absurd ⟨identity, rfl, accepted⟩ permanent
    · exact .refl permanent
  | @held identity fileId hold _ other found =>
    refine ⟨_, updateFile_row member fileId _, ?_⟩
    split
    · exact ⟨rfl, id, fun _ => rfl, fun _ => rfl, fun moved => absurd moved permanent⟩
    · exact .refl permanent
  | batch loads turns =>
    refine ⟨file, turns_passed turns member fun other selected same => ?_, .refl permanent⟩
    by_contra free
    exact unprocessed ⟨accepted, other, selected, same, Bool.eq_false_iff.mpr free⟩

/-- What quiet steps leave of a row. -/
structure RestedAfter (app : AppState σ) (world : World Database σ) (later : List Timed)
    (file row : FileObject) : Prop where
  same : row.id = file.id
  lifecycleStatus : row.status = .active → row.lifecycleStatus = file.lifecycleStatus
  kept : EachMeets app (fun world timed => ¬ MakesPermanent app file.id world timed) world later →
    row.nextActionAt = file.nextActionAt
  cleared : ¬ EachMeets app (fun world timed => ¬ MakesPermanent app file.id world timed) world later →
    row.nextActionAt = none

private theorem quiet_run {later : List Timed} (member : file ∈ world.db.fileObjects)
    (quiet : EachMeets app (Quiet app file.id) world later) :
    ∃ row ∈ (after app world later).db.fileObjects, (row.status = .active → file.status = .active) ∧
      RestedAfter app world later file row := by
  induction later generalizing world file with
  | nil =>
    exact ⟨file, member, id, rfl, fun _ => rfl, fun _ => rfl, fun moved => absurd trivial moved⟩
  | cons timed rest ih =>
    obtain ⟨middle, present, rested⟩ := quiet_step member quiet.1
    have others := quiet.2
    rw [← rested.same] at others
    obtain ⟨row, found, active, follows⟩ := ih present others
    rw [after_cons]
    refine ⟨row, found, fun live => rested.active (active live), follows.same.trans rested.same,
      fun live => (follows.lifecycleStatus live).trans (rested.lifecycleStatus (active live)), ?_, ?_⟩
    · rintro ⟨unmoved, later⟩
      rw [← rested.same] at later
      exact (follows.kept later).trans (rested.kept unmoved)
    · intro moved
      by_cases later : EachMeets app (fun world timed => ¬ MakesPermanent app middle.id world timed)
          (serve app world timed).2 rest
      · have first : MakesPermanent app file.id world timed := by
          by_contra unmoved
          rw [rested.same] at later
          exact moved ⟨unmoved, later⟩
        exact (follows.kept later).trans (rested.cleared first)
      · exact follows.cleared later

theorem renewal_keeps {fileId : Uuid} (renews : timed.1.renews fileId)
    (accepted : Accepted app world timed) {row : FileObject}
    (member : row ∈ (serve app world timed).2.db.fileObjects) :
    ∃ file ∈ world.db.fileObjects, file.id = row.id ∧ file.lifecycleStatus = row.lifecycleStatus := by
  have effect := serve_fileEffect app world timed
  generalize (serve app world timed).2.db.fileObjects = files at effect member
  obtain ⟨request, now⟩ := timed
  cases effect with
  | kept => exact ⟨row, member, rfl, rfl⟩
  | updated _ _ _ _ =>
    obtain ⟨file, present, rfl⟩ := List.mem_map.mp member
    refine ⟨file, present, ?_, ?_⟩ <;> split <;> rfl
  | extended _ _ =>
    obtain ⟨file, present, rfl⟩ := List.mem_map.mp member
    refine ⟨file, present, ?_, ?_⟩ <;> split <;> rfl
  | _ => exact renews.elim

/-- A renewed file is selected again at its time exactly when it was active in its lifecycle when
it was renewed, and is not made permanent afterwards: a renewal sets the time and leaves the status
that a notification has moved on. -/
theorem renewed_due_iff (app : AppState σ) (world : World Database σ) (initial : world.db.Initial)
    (before : List Timed) (timed : Timed) (fileId : Uuid) (renews : timed.1.renews fileId)
    (accepted : Accepted app (after app world before) timed) (time : Timestamp)
    (scheduled : ∃ file ∈ (serve app (after app world before) timed).2.db.fileObjects,
      file.id = fileId ∧ file.nextActionAt = some time)
    (later : List Timed)
    (quiet : EachMeets app (Quiet app fileId) (serve app (after app world before) timed).2 later)
    (row : FileObject)
    (member : row ∈ (after app (serve app (after app world before) timed).2 later).db.fileObjects)
    (named : row.id = fileId) (active : row.status = .active) :
    (∀ now, time ≤ now → row.Due now) ↔
      (∀ file ∈ (after app world before).db.fileObjects, file.id = fileId →
        file.lifecycleStatus = .active) ∧
      EachMeets app (fun world timed => ¬ MakesPermanent app fileId world timed)
        (serve app (after app world before) timed).2 later := by
  obtain ⟨renewed, present, same, next⟩ := scheduled
  subst same
  have ids := (after_integrity app initial before).ids
  have lastIds : Identified
      (after app (serve app (after app world before) timed).2 later).db := by
    have whole := (after_integrity app initial (before ++ timed :: later)).ids
    rw [after_append, after_cons] at whole
    exact whole
  obtain ⟨old, found, sameId, sameStatus⟩ := renewal_keeps renews accepted present
  obtain ⟨last, inTable, _, follows⟩ := quiet_run present quiet
  have one := lastIds.file_unique member inTable (named.trans follows.same.symm)
  subst one
  have status := follows.lifecycleStatus active
  have active_iff : row.lifecycleStatus = .active ↔
      ∀ file ∈ (after app world before).db.fileObjects, file.id = renewed.id →
        file.lifecycleStatus = .active := by
    rw [status, ← sameStatus]
    constructor
    · intro running file other otherId
      rw [ids.file_unique other found (otherId.trans sameId.symm)]
      exact running
    · exact fun all => all old found sameId
  by_cases moved : EachMeets app (fun world timed => ¬ MakesPermanent app renewed.id world timed)
      (serve app (after app world before) timed).2 later
  · have column := (follows.kept moved).trans next
    constructor
    · exact fun due => ⟨active_iff.mp (due time (Int.le_refl time)).2.2, moved⟩
    · rintro ⟨running, _⟩ now past
      refine ⟨active, ?_, active_iff.mpr running⟩
      rw [column]
      exact decide_eq_true past
  · have column := follows.cleared moved
    refine iff_of_false (fun due => ?_) fun both => moved both.2
    obtain ⟨_, reached, _⟩ := due time (Int.le_refl time)
    rw [column] at reached
    cases reached

def announcedFile : List Timed :=
  [(.proxyUpload smallTenant { smallUpload with
      lifecycle := some { action := some "notify", ttlSeconds := some 3600 } }, 0)]

def twoHours : Request :=
  .updateLifecycle smallTenant 0 { action := some "notify", ttlSeconds := some 7200 }

def renewedWorld : World Database LocalState :=
  (serve smallLocalApp (after smallLocalApp ⟨{}, {}⟩ announcedFile) (twoHours, 1)).2

private theorem renewedRow_found : (renewedWorld.db.findFile 0 smallTenant.tenantId).isSome = true := by
  decide +kernel

def renewedRow : FileObject := (renewedWorld.db.findFile 0 smallTenant.tenantId).get renewedRow_found

theorem renewed_due_small :
    (∀ now, seconds 7200 ≤ now → renewedRow.Due now) ↔
      (∀ file ∈ (after smallLocalApp ⟨{}, {}⟩ announcedFile).db.fileObjects, file.id = 0 →
        file.lifecycleStatus = .active) ∧
      EachMeets smallLocalApp (fun world timed => ¬ MakesPermanent smallLocalApp 0 world timed)
        renewedWorld [] :=
  renewed_due_iff smallLocalApp ⟨{}, {}⟩ (by decide) announcedFile (twoHours, 1) 0 rfl
    (accepted_of_isSome (by decide +kernel)) (seconds 7200) (by decide +kernel) [] trivial renewedRow
    (Database.findFile_some (Option.some_get renewedRow_found).symm).1 (by decide +kernel)
    (by decide +kernel)

/-- After the notification the update is accepted and sets the time, and no batch selects the file
again. -/
theorem renewal_after_notification :
    let notified := after smallLocalApp ⟨{}, {}⟩
      (announcedFile ++ [(.processBatch 10, seconds 3600)])
    let renewed := serve smallLocalApp notified (twoHours, seconds 3601)
    renewed.1.toOption.isSome = true ∧
    (renewed.2.db.fileObjects.map fun file =>
      (file.id, file.status, file.legalHold, file.nextActionAt, file.lifecycleStatus)) =
        [(0, .active, false, some (seconds 7200), .expired)] ∧
    LifecycleWorker.dueFiles renewed.2.db 10 (seconds 7200) = [] := by
  decide +kernel

end PyUploadX
