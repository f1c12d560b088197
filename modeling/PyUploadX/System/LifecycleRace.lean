import PyUploadX.Kit.Guarded
import PyUploadX.Storage.LocalBackend
import PyUploadX.System.SessionLock

/-! A batch of the lifecycle worker beside requests that change the lifecycle of its files.
The batch selects its files without a lock and takes each row when it first writes it. -/
namespace PyUploadX

open Kit LifecycleWorker

variable {σ : Type} {app : AppState σ}

def Database.rowsOf (db : Database) (fileId : Uuid) : List FileObject :=
  db.fileObjects.filter (·.id = fileId)

theorem rowsOf_updateFile (db : Database) (fileId : Uuid) {change : FileObject → FileObject}
    (kept : ∀ row, (change row).id = row.id) :
    (db.updateFile fileId change).rowsOf fileId = (db.rowsOf fileId).map change := by
  have named : ((fun row : FileObject => decide (row.id = fileId)) ∘ fun row =>
      if row.id = fileId then change row else row) = fun row => decide (row.id = fileId) := by
    funext row
    by_cases same : row.id = fileId
    · simp [same, kept]
    · simp [same]
  rw [Database.rowsOf, Database.updateFile, List.filter_map, named, Database.rowsOf]
  apply List.map_congr_left
  intro row member
  have same := (List.mem_filter.mp member).2
  rw [decide_eq_true_eq] at same
  exact if_pos same

theorem rowsOf_updateFile_of_ne (db : Database) {fileId other : Uuid}
    {change : FileObject → FileObject} (kept : ∀ row, (change row).id = row.id)
    (different : other ≠ fileId) : (db.updateFile fileId change).rowsOf other = db.rowsOf other := by
  have named : ((fun row : FileObject => decide (row.id = other)) ∘ fun row =>
      if row.id = fileId then change row else row) = fun row => decide (row.id = other) := by
    funext row
    by_cases same : row.id = fileId
    · simp [same, kept]
    · simp [same]
  rw [Database.rowsOf, Database.updateFile, List.filter_map, named, Database.rowsOf]
  apply (List.map_congr_left fun row member => ?_).trans (List.map_id _)
  have same := (List.mem_filter.mp member).2
  rw [decide_eq_true_eq] at same
  exact if_neg (same ▸ different)

/-- What the holder of a row sees of it. -/
def shownRows (db : Database) : Row → List FileObject
  | .file fileId => db.rowsOf fileId
  | .upload _ | .job _ | .entry _ => []

/-- Under legal hold, or without an action that is due. -/
def FileObject.shielded (file : FileObject) (now : Timestamp) : Bool :=
  file.legalHold || !file.nextActionAt.any (· ≤ now)

def Database.shielded (db : Database) (now : Timestamp) (fileId : Uuid) : Bool :=
  (db.rowsOf fileId).any (·.shielded now)

def Database.statuses (db : Database) (fileId : Uuid) : List FileStatus :=
  (db.rowsOf fileId).map (·.status)

/-- Rows of files are left to who locked them, and no object is deleted while the committed
row of its file is shielded. -/
def shielding (now : Timestamp) : Protocol Row Operation Database σ :=
  guarding (fun _ => ()) shownRows fun name world =>
    ∀ fileId, name = .deleteObject fileId → world.db.shielded now fileId = false

/-- The committed row is not shielded when the worker takes it for deletion. -/
def DeletesUnshielded (now : Timestamp) (_ : Nat) (name : Operation) (lock : Option Row)
    (world : World Database σ) : Prop :=
  match name, lock with
  | .flushDeleting, some (.file fileId) => world.db.shielded now fileId = false
  | _, _ => True

instance (now : Timestamp) (i : Nat) (name : Operation) (lock : Option Row)
    (world : World Database σ) : Decidable (DeletesUnshielded now i name lock world) := by
  unfold DeletesUnshielded
  split <;> infer_instance

theorem unshielded_later {now : Timestamp} {held : Row → Prop} {world after : World Database σ}
    {fileId : Uuid} (relied : (shielding now).rely held world after) (mine : held (.file fileId))
    (free : world.db.shielded now fileId = false) : after.db.shielded now fileId = false := by
  have same : after.db.rowsOf fileId = world.db.rowsOf fileId := relied.2 (.file fileId) mine
  rw [Database.shielded, same]
  exact free

/-- The writes so far show in locked rows, and change the status of unshielded files only. -/
structure MarksUnshielded (now : Timestamp) (held : Row → Prop) (world : World Database σ)
    (pending : Database → Database) : Prop where
  within : Within (fun _ => ()) shownRows held pending
  marks : ∀ fileId, (∀ db, (pending db).statuses fileId = db.statuses fileId) ∨
    (held (.file fileId) ∧ world.db.shielded now fileId = false)

namespace MarksUnshielded

variable {now : Timestamp} {held : Row → Prop} {world after : World Database σ}
  {pending : Database → Database}

theorem later (marked : MarksUnshielded now held world pending)
    (relied : (shielding now).rely held world after) : MarksUnshielded now held after pending := by
  refine ⟨marked.within, fun fileId => (marked.marks fileId).imp_right ?_⟩
  exact fun ⟨mine, free⟩ => ⟨mine, unshielded_later relied mine free⟩

theorem lock (marked : MarksUnshielded now held world pending) (lock : Option Row) :
    MarksUnshielded now (Protocol.hold held lock) world pending :=
  ⟨marked.within.lock lock, fun fileId => (marked.marks fileId).imp_right fun ⟨mine, free⟩ =>
    ⟨.inl mine, free⟩⟩

/-- A write outside the file table. -/
theorem beside (marked : MarksUnshielded now held world pending) {change : Database → Database}
    (kept : ∀ db, (change db).fileObjects = db.fileObjects) :
    MarksUnshielded now (Protocol.hold held none) world (change ∘ pending) := by
  have same : ∀ db fileId, (change db).rowsOf fileId = db.rowsOf fileId := by
    intro db fileId
    rw [Database.rowsOf, kept, Database.rowsOf]
  have written : MarksUnshielded now held world (change ∘ pending) := by
    refine ⟨marked.within.write (fun _ => rfl) fun key _ db => ?_, fun fileId => ?_⟩
    · cases key with
      | file fileId => exact same db fileId
      | upload | job | entry => rfl
    · refine (marked.marks fileId).imp_left fun kept db => ?_
      rw [← kept db]
      exact congrArg (List.map (·.status)) (same _ fileId)
  exact written.lock none

/-- A write to one row, which keeps its status unless the row is locked and not shielded. -/
theorem update (marked : MarksUnshielded now held world pending) (fileId : Uuid)
    (change : FileObject → FileObject) (kept : ∀ row, (change row).id = row.id)
    (allowed : (∀ row, (change row).status = row.status) ∨
      (held (.file fileId) ∧ world.db.shielded now fileId = false)) :
    MarksUnshielded now (Protocol.hold held (some (.file fileId))) world
      ((·.updateFile fileId change) ∘ pending) := by
  have locked := marked.lock (some (.file fileId))
  refine ⟨locked.within.write (fun _ => rfl) fun key free db => ?_, fun other => ?_⟩
  · cases key with
    | file other =>
      have different : other ≠ fileId := fun same => free (.inr (by rw [same]))
      exact rowsOf_updateFile_of_ne db kept different
    | upload | job | entry => rfl
  · by_cases same : other = fileId
    · subst same
      rcases allowed with silent | ⟨mine, free⟩
      · refine (locked.marks other).imp_left fun kept' db => ?_
        rw [← kept' db, Database.statuses, Function.comp_apply, rowsOf_updateFile _ _ kept,
          List.map_map]
        exact List.map_congr_left fun row _ => silent row
      · exact .inr ⟨.inl mine, free⟩
    · refine (locked.marks other).imp_left fun kept' db => ?_
      rw [← kept' db, Database.statuses, Function.comp_apply,
        rowsOf_updateFile_of_ne _ kept same, Database.statuses]

end MarksUnshielded

section Worker

variable {now : Timestamp} {held : Row → Prop} {world : World Database σ}
  {pending : Database → Database}

private theorem announce_safe (i : Nat) (file : FileObject) (toStatus : LifecycleStatus)
    (marked : MarksUnshielded now held world pending) :
    (shielding now).Safe (DeletesUnshielded now i)
      (fun held world pending _ => MarksUnshielded now held world pending)
      (announce file toStatus now) held world pending := by
  unfold announce addEvent enqueue
  refine .modify fun first relied _ => .modify_done fun second relied' _ last relied'' => ?_
  refine .later (.beside (.later (.beside (marked.later relied) ?_) relied') ?_) relied''
  · exact fun db => rfl
  · exact fun db => rfl

theorem processFile_safe (i : Nat) (file : FileObject)
    (marked : MarksUnshielded now held world pending) :
    (shielding now).Safe (DeletesUnshielded now i)
      (fun held world pending _ => MarksUnshielded now held world pending)
      (processFile app file now) held world pending := by
  unfold processFile
  split
  · unfold addEvent
    refine .modify fun first relied _ last relied' => ?_
    refine .later (.beside (marked.later relied) ?_) relied'
    exact fun db => rfl
  · split
    · unfold FileRepository.flushDeleting FileRepository.flushFile
      refine .modify fun first relied free => .tryStore fun second relied' => ?_
      have marked := ((marked.later relied).update file.id (·.setLifecycleStatus .deleting)
        (fun _ => rfl) (.inl fun _ => rfl)).later relied'
      have mine : Protocol.hold held (some (Row.file file.id)) (.file file.id) := .inr rfl
      have free : second.db.shielded now file.id = false := unshielded_later relied' mine free
      refine ⟨fun fileId named => ?_, Within.call _ _ _, ?_⟩
      · cases named
        exact free
      · split
        · refine .modify fun third relied'' _ => .bind ((announce_safe i file _ ?_).weaken ?_)
          · refine .update (marked.later relied'') _ _ (fun _ => rfl) ?_
            exact .inr ⟨mine, unshielded_later relied'' mine free⟩
          · exact fun held world pending _ marked last relied => marked.later relied
        · refine .modify fun third relied'' _ last relied''' => ?_
          refine .later (.update (marked.later relied'') _ _ (fun _ => rfl) ?_) relied'''
          exact .inl fun _ => rfl
    · refine .modify fun first relied _ => .bind ((announce_safe i file _ ?_).weaken ?_)
      · refine .update (marked.later relied) _ _ (fun _ => rfl) ?_
        exact .inl fun _ => rfl
      · exact fun held world pending _ marked last relied => marked.later relied
    · refine .modify fun first relied _ => .bind ((announce_safe i file _ ?_).weaken ?_)
      · refine .update (marked.later relied) _ _ (fun _ => rfl) ?_
        exact .inl fun _ => rfl
      · exact fun held world pending _ marked last relied => marked.later relied

private theorem processAll_safe (i : Nat) (files : List FileObject)
    (marked : MarksUnshielded now held world pending) :
    (shielding now).Safe (DeletesUnshielded now i)
      (fun held world pending _ => MarksUnshielded now held world pending)
      (processAll app files now) held world pending := by
  induction files generalizing held world pending with
  | nil => exact fun last relied => marked.later relied
  | cons file rest ih =>
    refine .bind ((processFile_safe i file marked).weaken fun held world pending _ turned => ?_)
    exact .map (ih turned)

private theorem processBatch_safe (i batchSize : Nat) (marked : MarksUnshielded now held world pending) :
    (shielding now).Safe (DeletesUnshielded now i)
      (fun held world pending _ => MarksUnshielded now held world pending)
      (processBatch app batchSize now) held world pending := by
  unfold processBatch selectDue
  refine .select fun after relied files _ => processAll_safe i files ?_
  exact (marked.later relied).lock none

end Worker

section Requests

open LifecycleService

variable {now : Timestamp} {held : Row → Prop} {world : World Database σ}
  {pending : Database → Database}

/-- The request has locked the row it read, and written nothing yet. -/
structure HasRow (now : Timestamp) (fileId : Uuid) (file : FileObject) (held : Row → Prop)
    (world : World Database σ) (pending : Database → Database) : Prop where
  marked : MarksUnshielded now held world pending
  mine : held (.file fileId)
  found : file ∈ world.db.rowsOf fileId
  unwritten : pending = id

theorem HasRow.later {fileId : Uuid} {file : FileObject} {after : World Database σ}
    (has : HasRow now fileId file held world pending)
    (relied : (shielding now).rely held world after) :
    HasRow now fileId file held after pending := by
  have same : after.db.rowsOf fileId = world.db.rowsOf fileId := relied.2 _ has.mine
  exact ⟨has.marked.later relied, has.mine, same ▸ has.found, has.unwritten⟩

theorem HasRow.lock {fileId : Uuid} {file : FileObject}
    (has : HasRow now fileId file held world pending) (lock : Option Row) :
    HasRow now fileId file (Protocol.hold held lock) world pending :=
  ⟨has.marked.lock lock, .inl has.mine, has.found, has.unwritten⟩

private theorem lockFile_safe (i : Nat) (identity : Identity) (fileId : Uuid) :
    (shielding now).Safe (DeletesUnshielded now i)
      (fun held world pending file => HasRow now fileId file held world pending)
      (lockFile identity fileId : Handler σ FileObject) (fun _ => False) world id := by
  unfold lockFile FileRepository.getFile
  refine .select fun after relied found read => ?_
  have start : MarksUnshielded now (fun _ => False) after id :=
    ⟨.start, fun fileId => .inl fun db => rfl⟩
  cases found with
  | none => trivial
  | some file =>
    have row : after.db.findFile fileId identity.tenantId = some file :=
      (FileRepository.loadFile_ok read).1
    obtain ⟨member, named, _⟩ := Database.findFile_some row
    have has : HasRow now fileId file (Protocol.hold (fun _ => False) (some (Row.file fileId)))
        after id := by
      refine ⟨start.lock _, .inr rfl, List.mem_filter.mpr ⟨member, ?_⟩, rfl⟩
      rw [named]
      exact decide_eq_true rfl
    exact fun last relied => has.later relied

/-- The row that is committed is the one the request answers with. -/
def AnswersRow (now : Timestamp) (held : Row → Prop) (world : World Database σ)
    (pending : Database → Database) (file : FileObject) : Prop :=
  MarksUnshielded now held world pending ∧ file ∈ (pending world.db).rowsOf file.id

private theorem flush_safe (i : Nat) {fileId : Uuid} {file : FileObject} (event : LifecycleEvent)
    (change : FileObject → FileObject) (kept : ∀ row, (change row).id = row.id)
    (silent : ∀ row, (change row).status = row.status)
    (has : HasRow now fileId file held world pending) :
    (shielding now).Safe (DeletesUnshielded now i) (AnswersRow now)
      (do
        FileRepository.flushFile fileId change
        addEvent event
        return change file : Handler σ FileObject) held world pending := by
  unfold FileRepository.flushFile addEvent
  refine .modify fun first relied _ => .modify fun second relied' _ last relied'' => ?_
  have row := (((has.later relied).lock (some (.file fileId))).later relied').lock none
  have row := row.later relied''
  refine ⟨.later (.beside (.later (.update (has.marked.later relied) _ _ kept ?_) relied') ?_)
    relied'', ?_⟩
  · exact .inl silent
  · exact fun db => rfl
  · obtain ⟨_, named⟩ := List.mem_filter.mp row.found
    rw [decide_eq_true_eq] at named
    rw [kept, named, row.unwritten]
    change change file ∈ (last.db.updateFile fileId change).rowsOf fileId
    rw [rowsOf_updateFile last.db fileId kept]
    exact List.mem_map_of_mem row.found

/-- The requests that change the lifecycle of one file. -/
inductive AltersLifecycle : Request → Prop
  | updateLifecycle (identity : Identity) (fileId : Uuid) (requested : LifecycleRequest) :
      AltersLifecycle (.updateLifecycle identity fileId requested)
  | extend (identity : Identity) (fileId : Uuid) (extendSeconds : Int) :
      AltersLifecycle (.extend identity fileId extendSeconds)
  | makePermanent (identity : Identity) (fileId : Uuid) :
      AltersLifecycle (.makePermanent identity fileId)
  | setLegalHold (identity : Identity) (fileId : Uuid) (hold : Bool) :
      AltersLifecycle (.setLegalHold identity fileId hold)

/-- A commit that marks no shielded file, and an answer that is the committed row. -/
def KeepsShielded (now : Timestamp) (_ : Nat) (db : Database) (reply : Reply) (db' : Database) :
    Prop :=
  (∀ fileId, db.shielded now fileId = true → db'.statuses fileId = db.statuses fileId) ∧
    ∀ file, reply = .file file → file ∈ db'.rowsOf file.id

theorem MarksUnshielded.ends (marked : MarksUnshielded now held world pending) (i : Nat)
    {reply : Reply}
    (answers : ∀ file, reply = .file file → file ∈ (pending world.db).rowsOf file.id) :
    Machine.Ends (shielding now) (KeepsShielded now i) held world pending reply := by
  refine ⟨marked.within.compatible world world.store, fun fileId shielded => ?_, answers⟩
  rcases marked.marks fileId with kept | ⟨_, free⟩
  · exact kept world.db
  · rw [free] at shielded
    cases shielded

theorem AltersLifecycle.safe {request : Request} (alters : AltersLifecycle request) (i : Nat)
    (clock : Timestamp) :
    (shielding now).Safe (DeletesUnshielded now i)
      (Machine.Ends (shielding now) (KeepsShielded now i)) (handle app request clock)
      (fun _ => False) world id := by
  have answers : ∀ {program : Handler σ FileObject},
      (shielding now).Safe (DeletesUnshielded now i) (AnswersRow now) program (fun _ => False)
        world id →
      (shielding now).Safe (DeletesUnshielded now i)
        (Machine.Ends (shielding now) (KeepsShielded now i))
        (program >>= fun file => pure (.file file)) (fun _ => False) world id := by
    intro program safe
    refine .map (safe.weaken fun held world pending file ⟨marked, present⟩ => ?_)
    refine marked.ends i fun other same => ?_
    cases same
    exact present
  cases alters with
  | updateLifecycle identity fileId requested =>
    refine answers (.bind ((lockFile_safe i identity fileId).weaken ?_))
    intro held world pending file has
    exact .refuseIf fun _ => .liftExcept fun effective _ =>
      flush_safe i _ _ (fun _ => rfl) (fun _ => rfl) has
  | extend identity fileId extendSeconds =>
    refine answers (.bind ((lockFile_safe i identity fileId).weaken ?_))
    intro held world pending file has
    exact .refuseIf fun _ => .refuseIf fun _ => .liftExcept fun expiresAt _ =>
      .liftExcept fun effective _ => flush_safe i _ _ (fun _ => rfl) (fun _ => rfl) has
  | makePermanent identity fileId =>
    refine answers (.refuseIf fun _ => .bind ((lockFile_safe i identity fileId).weaken ?_))
    intro held world pending file has
    exact .refuseIf fun _ => flush_safe i _ _ (fun _ => rfl) (fun _ => rfl) has
  | setLegalHold identity fileId hold =>
    refine answers (.bind ((lockFile_safe i identity fileId).weaken ?_))
    intro held world pending file has
    exact flush_safe i _ _ (fun _ => rfl) (fun _ => rfl) has

end Requests

section Interleaving

variable {world : World Database σ} {requests : Nat → Timed} {worker batchSize : Nat}

private theorem shielding_sound (batch : (requests worker).1 = .processBatch batchSize)
    (others : ∀ i, i ≠ worker → AltersLifecycle (requests i).1) :
    (sideBySide app world requests).Sound (shielding (requests worker).2)
      (DeletesUnshielded (requests worker).2) (KeepsShielded (requests worker).2) := by
  apply Machine.sound_start
  intro i
  by_cases same : i = worker
  · subst same
    have start : MarksUnshielded (requests i).2 (fun _ => False) world id :=
      ⟨.start, fun fileId => .inl fun db => rfl⟩
    rw [batch]
    refine .map ((processBatch_safe i batchSize start).weaken ?_)
    exact fun held world pending count marked => marked.ends i fun _ => nofun
  · exact (others i same).safe i _

end Interleaving

/-- However a batch and requests that change the lifecycle of its files interleave, as long
as the batch takes no shielded row for deletion: no object is deleted and no file marked
while its committed row is shielded, as it is from the commit of a request that shields it. -/
theorem shielded_files_stay (app : AppState σ) (world : World Database σ)
    (requests : Nat → Timed) (worker batchSize : Nat)
    (batch : (requests worker).1 = .processBatch batchSize)
    (others : ∀ i, i ≠ worker → AltersLifecycle (requests i).1) (moves : List Move)
    (unshielded : (sideBySide app world requests).Obeys
      (DeletesUnshielded (requests worker).2) moves) :
    let clock := (requests worker).2
    let now := (sideBySide app world requests).run moves
    (∀ fileId, now.db.shielded clock fileId = true → ∀ i, ¬ now.Calls i (.deleteObject fileId)) ∧
    (∀ fileId, now.db.shielded clock fileId = true → ∀ i,
      (now.advance i).db.statuses fileId = now.db.statuses fileId) ∧
    (∀ i file, now.reply? i = none → (now.advance i).reply? i = some (.file file) →
      file.shielded clock = true → (now.advance i).db.shielded clock file.id = true) := by
  intro clock now
  have sound : now.Sound (shielding clock) (DeletesUnshielded clock) (KeepsShielded clock) :=
    (@shielding_sound σ app world requests worker batchSize batch others).run unshielded
  refine ⟨fun fileId shielded i called => ?_, fun fileId shielded i => ?_,
    fun i file before replied shielded => ?_⟩
  · have free : now.db.shielded clock fileId = false := sound.call called fileId rfl
    rw [shielded] at free
    cases free
  · rcases sound.commits i with ⟨same, _⟩ | ⟨value, keeps, _⟩
    · rw [same]
    · exact keeps.1 fileId shielded
  · rcases sound.commits i with ⟨_, same⟩ | ⟨value, keeps, updated⟩
    · rw [same, before] at replied
      cases replied
    · rw [updated, Function.update_self] at replied
      exact List.any_eq_true.mpr ⟨file, keeps.2 file (Option.some.inj replied), shielded⟩

/-- A batch over one due file, and a hold that is set on it. -/
def holdingRequests : Nat → Timed
  | 0 => (.processBatch 10, seconds 2592000)
  | _ => (.setLegalHold smallTenant 0 true, seconds 2592000)

private theorem holdingRequests_alter (i : Nat) (other : i ≠ 0) :
    AltersLifecycle (holdingRequests i).1 := by
  cases i with
  | zero => exact absurd rfl other
  | succ i => exact .setLegalHold ..

def dueWorld : World Database LocalState :=
  after smallLocalApp ⟨{}, {}⟩ [(.proxyUpload smallTenant smallUpload, 0)]

theorem shielded_files_stay_held :
    let now := (sideBySide smallLocalApp dueWorld holdingRequests).run
      (List.replicate 4 (.advance 1) ++ List.replicate 3 (.advance 0))
    now.db.shielded (seconds 2592000) 0 = true ∧
      (now.advance 0).db.statuses 0 = now.db.statuses 0 := by
  have held : ((sideBySide smallLocalApp dueWorld holdingRequests).run
      (List.replicate 4 (.advance 1) ++ List.replicate 3 (.advance 0))).db.shielded
        (seconds 2592000) 0 = true := by decide
  exact ⟨held, (shielded_files_stay smallLocalApp dueWorld holdingRequests 0 10 rfl
    holdingRequests_alter _ (by decide)).2.1 0 held 0⟩

/-- The hold is committed after the batch has selected the file and before it takes it. -/
theorem held_file_is_deleted :
    let now := (sideBySide smallLocalApp dueWorld holdingRequests).run
      (.advance 0 :: List.replicate 4 (.advance 1))
    let next := now.run (List.replicate 7 (.advance 0))
    (now.reply? 1).isSome = true ∧ now.db.shielded (seconds 2592000) 0 = true ∧
      next.db.statuses 0 = [.deleted] ∧
      (now.db.fileObjects.map fun file =>
        (LocalStorageAdapter.view.object? now.store file.bucket file.objectKey,
          LocalStorageAdapter.view.object? next.store file.bucket file.objectKey)) =
        [(some [1, 2, 3, 4], none)] := by
  decide

end PyUploadX
