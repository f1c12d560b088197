import PyUploadX.System.LifecycleRace
import PyUploadX.Worker.Retries

/-! Batches of several lifecycle workers over one table. Nothing but the first flush of a
row keeps a second batch from it, and that flush does not look at the row again. -/
namespace PyUploadX

open Kit LifecycleWorker

variable {σ : Type} {app : AppState σ}

def Database.fileIds (db : Database) : List Uuid := db.fileObjects.map (·.id)

/-- A batch selects the file as soon as its action is due. -/
def FileObject.awaits (file : FileObject) : Bool :=
  file.status = .active ∧ file.lifecycleStatus = .active ∧ file.nextActionAt.isSome

def Database.awaits (db : Database) (fileId : Uuid) : Bool :=
  (db.rowsOf fileId).any (·.awaits)

/-- The events of a file other than those of a hold that stopped a batch. -/
def Database.events (db : Database) (fileId : Uuid) : Nat :=
  (db.lifecycleEvents.filter fun event =>
    event.fileId = fileId ∧ event.eventType ≠ "lifecycle.blocked").length

def Database.messages (db : Database) (fileId : Uuid) : Nat :=
  (db.webhookOutbox.filter (·.fileId = fileId)).length

/-- What the holder of a row sees of the file, its events and its messages. -/
def shownFile (db : Database) : Row → List FileObject × Nat × Nat
  | .file fileId => (db.rowsOf fileId, db.events fileId, db.messages fileId)
  | .upload _ | .job _ | .entry _ => ([], 0, 0)

def announcing : Protocol Row Operation Database σ :=
  guarding Database.fileIds shownFile fun _ _ => True

/-- A flush finds that the file still awaits its action. -/
def FlushesAwaiting (_ : Nat) (name : Operation) (lock : Option Row)
    (world : World Database σ) : Prop :=
  match name, lock with
  | .flushDeleting, some (.file fileId) => world.db.awaits fileId = true
  | .flushFile, some (.file fileId) => world.db.awaits fileId = true
  | _, _ => True

instance (i : Nat) (name : Operation) (lock : Option Row) (world : World Database σ) :
    Decidable (FlushesAwaiting i name lock world) := by
  rcases lock with _ | ⟨_ | fileId | _ | _⟩
  all_goals cases name
  all_goals first | exact .isTrue trivial | exact instDecidableEqBool _ _

/-- The writes announce nothing about a file and do not bring it back. -/
def Silent (fileId : Uuid) (pending : Database → Database) : Prop :=
  ∀ db, (pending db).events fileId = db.events fileId ∧
    (pending db).messages fileId = db.messages fileId ∧
    ((pending db).awaits fileId = true → db.awaits fileId = true)

/-- The writes announce at most so many events and messages of a file, and settle it. -/
def Settles (fileId : Uuid) (events messages : Nat) (pending : Database → Database) : Prop :=
  ∀ db, (pending db).events fileId ≤ db.events fileId + events ∧
    (pending db).messages fileId ≤ db.messages fileId + messages ∧
    (pending db).awaits fileId = false

theorem Settles.le {fileId : Uuid} {events messages events' messages' : Nat}
    {pending : Database → Database} (settles : Settles fileId events messages pending)
    (fewer : events ≤ events') (less : messages ≤ messages') :
    Settles fileId events' messages' pending := by
  intro db
  obtain ⟨recorded, sent, settled⟩ := settles db
  exact ⟨recorded.trans (Nat.add_le_add_left fewer _), sent.trans (Nat.add_le_add_left less _),
    settled⟩

/-- A write that shows in one file only. -/
def SparesOthers (fileId : Uuid) (change : Database → Database) : Prop :=
  (∀ db, (change db).fileIds = db.fileIds) ∧
    ∀ key, key ≠ .file fileId → ∀ db, shownFile (change db) key = shownFile db key

private theorem awaits_congr {db db' : Database} {fileId : Uuid}
    (same : shownFile db' (.file fileId) = shownFile db (.file fileId)) :
    db'.awaits fileId = db.awaits fileId := by
  have rows : db'.rowsOf fileId = db.rowsOf fileId := congrArg Prod.fst same
  rw [Database.awaits, rows, Database.awaits]

/-- What the batch has written of the files behind it and not yet of those ahead of it. -/
structure Announces (ahead : List Uuid) (held : Row → Prop) (world : World Database σ)
    (pending : Database → Database) : Prop where
  within : Within Database.fileIds shownFile held pending
  once : ∀ fileId, Silent fileId pending ∨
    (held (.file fileId) ∧ world.db.awaits fileId = true ∧ Settles fileId 1 1 pending)
  ahead : ∀ fileId ∈ ahead, Silent fileId pending

namespace Announces

variable {ahead : List Uuid} {held : Row → Prop} {world after : World Database σ}
  {pending change : Database → Database}

theorem start : Announces ahead (fun _ => False) world id :=
  ⟨.start, fun _ => .inl fun _ => ⟨rfl, rfl, id⟩, fun _ _ _ => ⟨rfl, rfl, id⟩⟩

theorem later (announced : Announces ahead held world pending)
    (relied : announcing.rely held world after) : Announces ahead held after pending := by
  refine ⟨announced.within, fun fileId => (announced.once fileId).imp_right ?_, announced.ahead⟩
  rintro ⟨mine, awaited, settles⟩
  exact ⟨mine, (awaits_congr (relied.2 _ mine)).trans awaited, settles⟩

theorem lock (announced : Announces ahead held world pending) (lock : Option Row) :
    Announces ahead (Protocol.hold held lock) world pending :=
  ⟨announced.within.lock lock, fun fileId => (announced.once fileId).imp_right fun ⟨mine, rest⟩ =>
    ⟨.inl mine, rest⟩, announced.ahead⟩

theorem pass {fileId : Uuid} (announced : Announces (fileId :: ahead) held world pending) :
    Announces ahead held world pending :=
  ⟨announced.within, announced.once, fun id member =>
    announced.ahead id (List.mem_cons_of_mem _ member)⟩

/-- A write that shows nowhere. -/
theorem unseen (announced : Announces ahead held world pending)
    (still : ∀ db, (change db).fileIds = db.fileIds)
    (shown : ∀ key db, shownFile (change db) key = shownFile db key) :
    Announces ahead held world (change ∘ pending) := by
  have silent : ∀ id, Silent id pending → Silent id (change ∘ pending) := by
    intro id quiet db
    have same := shown (.file id) (pending db)
    obtain ⟨events, messages, awaits⟩ := quiet db
    exact ⟨(congrArg (·.2.1) same).trans events, (congrArg (·.2.2) same).trans messages,
      fun now => awaits (awaits_congr same ▸ now)⟩
  refine ⟨announced.within.write still fun key _ => shown key, fun id => ?_, fun id member =>
    silent id (announced.ahead id member)⟩
  refine (announced.once id).imp (silent id) ?_
  rintro ⟨mine, awaited, settles⟩
  refine ⟨mine, awaited, fun db => ?_⟩
  have same := shown (.file id) (pending db)
  obtain ⟨events, messages, settled⟩ := settles db
  exact ⟨(congrArg (·.2.1) same).trans_le events, (congrArg (·.2.2) same).trans_le messages,
    (awaits_congr same).trans settled⟩

/-- A write to one locked file that is not ahead of the batch. -/
theorem write {fileId : Uuid} (announced : Announces ahead held world pending)
    (mine : held (.file fileId)) (passed : fileId ∉ ahead) (spares : SparesOthers fileId change)
    (once : Silent fileId (change ∘ pending) ∨
      (world.db.awaits fileId = true ∧ Settles fileId 1 1 (change ∘ pending))) :
    Announces ahead held world (change ∘ pending) := by
  obtain ⟨still, shown⟩ := spares
  have other : ∀ other, other ≠ fileId → ∀ db,
      (change (pending db)).events other = (pending db).events other ∧
      (change (pending db)).messages other = (pending db).messages other ∧
      (change (pending db)).awaits other = (pending db).awaits other := by
    intro other different db
    have same := shown (.file other) (fun equal => different (Row.file.inj equal)) (pending db)
    exact ⟨congrArg (·.2.1) same, congrArg (·.2.2) same, awaits_congr same⟩
  have silent : ∀ id, id ≠ fileId → Silent id pending → Silent id (change ∘ pending) := by
    intro id different quiet db
    obtain ⟨events, messages, awaits⟩ := other id different db
    obtain ⟨events', messages', awaits'⟩ := quiet db
    exact ⟨events.trans events', messages.trans messages', fun now => awaits' (awaits ▸ now)⟩
  refine ⟨announced.within.write still fun key free => shown key fun same => free (same ▸ mine),
    fun id => ?_, fun id member => silent id (fun same => passed (same ▸ member))
      (announced.ahead id member)⟩
  by_cases same : id = fileId
  · subst same
    exact once.imp_right fun ⟨awaited, settles⟩ => ⟨mine, awaited, settles⟩
  · refine (announced.once id).imp (silent id same) ?_
    rintro ⟨mine, awaited, settles⟩
    refine ⟨mine, awaited, fun db => ?_⟩
    obtain ⟨events, messages, awaits⟩ := other id same db
    obtain ⟨events', messages', awaits'⟩ := settles db
    exact ⟨events.trans_le events', messages.trans_le messages', awaits.trans awaits'⟩

end Announces

/-! The writes of a turn. -/

section Writes

variable (fileId : Uuid)

private theorem events_addEvent_of_ne {event : LifecycleEvent} (db : Database)
    (other : event.fileId ≠ fileId ∨ event.eventType = "lifecycle.blocked") :
    (db.addEvent event).events fileId = db.events fileId := by
  have skipped : ¬ (event.fileId = fileId ∧ event.eventType ≠ "lifecycle.blocked") := by
    rintro ⟨same, type⟩
    rcases other with different | blocked
    · exact different same
    · exact type blocked
  rw [Database.events, Database.addEvent, List.filter_append, List.filter_singleton,
    decide_eq_false skipped, cond_false, List.append_nil, Database.events]

private theorem events_addEvent_le (event : LifecycleEvent) (db : Database) :
    (db.addEvent event).events fileId ≤ db.events fileId + 1 := by
  rw [Database.events, Database.addEvent, List.filter_append, List.length_append]
  apply Nat.add_le_add_left
  exact List.length_filter_le _ [event]

private theorem sparesOthers_updateFile {change : FileObject → FileObject}
    (kept : ∀ row, (change row).id = row.id) :
    SparesOthers fileId (·.updateFile fileId change) := by
  refine ⟨fun db => ?_, fun key different db => ?_⟩
  · simp only [Database.fileIds, Database.updateFile, List.map_map]
    apply List.map_congr_left
    intro row _
    by_cases same : row.id = fileId
    · simp [same, kept]
    · simp [same]
  · cases key with
    | file other =>
      have apart : other ≠ fileId := fun same => different (by rw [same])
      have rows := rowsOf_updateFile_of_ne db kept apart
      exact congrArg (·, db.events other, db.messages other) rows
    | upload | job | entry => rfl

private theorem sparesOthers_addEvent (event : LifecycleEvent) :
    SparesOthers event.fileId (·.addEvent event) := by
  refine ⟨fun db => rfl, fun key different db => ?_⟩
  cases key with
  | file other =>
    have apart : event.fileId ≠ other := fun same => different (by rw [same])
    have events := events_addEvent_of_ne other db (.inl apart)
    exact congrArg (db.rowsOf other, ·, db.messages other) events
  | upload | job | entry => rfl

def Database.send (db : Database) (message : WebhookOutboxMessage) : Database :=
  { db with webhookOutbox := db.webhookOutbox ++ [message] }

private theorem messages_send_of_ne {message : WebhookOutboxMessage} (db : Database)
    (different : message.fileId ≠ fileId) :
    (db.send message).messages fileId = db.messages fileId := by
  rw [Database.messages, Database.send, List.filter_append, List.filter_singleton,
    decide_eq_false different, cond_false, List.append_nil, Database.messages]

private theorem messages_send_le (message : WebhookOutboxMessage) (db : Database) :
    (db.send message).messages fileId ≤ db.messages fileId + 1 := by
  rw [Database.messages, Database.send, List.filter_append, List.length_append]
  apply Nat.add_le_add_left
  exact List.length_filter_le _ [message]

private theorem sparesOthers_send (message : WebhookOutboxMessage) :
    SparesOthers message.fileId (·.send message) := by
  refine ⟨fun db => rfl, fun key different db => ?_⟩
  cases key with
  | file other =>
    have apart : message.fileId ≠ other := fun same => different (by rw [same])
    have messages := messages_send_of_ne other db apart
    exact congrArg (db.rowsOf other, db.events other, ·) messages
  | upload | job | entry => rfl

end Writes

/-- The batch has taken a file, and announced so much of it. -/
structure TakesFile (fileId : Uuid) (events messages : Nat) (ahead : List Uuid)
    (held : Row → Prop) (world : World Database σ) (pending : Database → Database) : Prop where
  announces : Announces ahead held world pending
  mine : held (.file fileId)
  awaited : world.db.awaits fileId = true
  settles : Settles fileId events messages pending
  passed : fileId ∉ ahead

namespace TakesFile

variable {fileId : Uuid} {events messages : Nat} {ahead : List Uuid} {held : Row → Prop}
  {world after : World Database σ} {pending : Database → Database}

theorem later (takes : TakesFile fileId events messages ahead held world pending)
    (relied : announcing.rely held world after) :
    TakesFile fileId events messages ahead held after pending :=
  ⟨takes.announces.later relied, takes.mine, (awaits_congr (relied.2 _ takes.mine)).trans
    takes.awaited, takes.settles, takes.passed⟩

/-- The first flush of the row. -/
theorem start (announces : Announces (fileId :: ahead) held world pending)
    (passed : fileId ∉ ahead) (awaited : world.db.awaits fileId = true)
    (change : FileObject → FileObject) (kept : ∀ row, (change row).id = row.id)
    (settled : ∀ row, (change row).awaits = false) :
    TakesFile fileId 0 0 ahead (Protocol.hold held (some (.file fileId))) world
      ((·.updateFile fileId change) ∘ pending) := by
  have settles : Settles fileId 0 0 ((·.updateFile fileId change) ∘ pending) := by
    intro db
    obtain ⟨events, messages, _⟩ := announces.ahead fileId List.mem_cons_self db
    refine ⟨events.le, messages.le, ?_⟩
    rw [Function.comp_apply, Database.awaits, rowsOf_updateFile _ _ kept, List.any_map]
    exact List.any_eq_false.mpr fun row _ => by rw [Function.comp_apply, settled row]; nofun
  have behind := announces.pass.lock (some (.file fileId))
  have mine : Protocol.hold held (some (Row.file fileId)) (.file fileId) := .inr rfl
  refine ⟨behind.write mine passed (sparesOthers_updateFile fileId kept) (.inr ⟨awaited, ?_⟩), mine,
    awaited, settles, passed⟩
  exact settles.le (Nat.zero_le 1) (Nat.zero_le 1)

/-- What follows for the same file. -/
theorem write (takes : TakesFile fileId events messages ahead held world pending)
    {change : Database → Database} (spares : SparesOthers fileId change)
    {events' messages' : Nat} (settles : Settles fileId events' messages' (change ∘ pending))
    (fewer : events' ≤ 1) (less : messages' ≤ 1) (lock : Option Row) :
    TakesFile fileId events' messages' ahead (Protocol.hold held lock) world
      (change ∘ pending) := by
  have written := takes.announces.write takes.mine takes.passed spares
    (.inr ⟨takes.awaited, settles.le fewer less⟩)
  exact ⟨written.lock lock, .inl takes.mine, takes.awaited, settles, takes.passed⟩

theorem update (takes : TakesFile fileId 0 0 ahead held world pending)
    (change : FileObject → FileObject) (kept : ∀ row, (change row).id = row.id)
    (settled : ∀ row, row.awaits = false → (change row).awaits = false) :
    TakesFile fileId 0 0 ahead (Protocol.hold held (some (.file fileId))) world
      ((·.updateFile fileId change) ∘ pending) := by
  refine takes.write (sparesOthers_updateFile fileId kept) (fun db => ?_) (Nat.zero_le 1)
    (Nat.zero_le 1) _
  obtain ⟨events, messages, before⟩ := takes.settles db
  refine ⟨events, messages, ?_⟩
  rw [Function.comp_apply, Database.awaits, rowsOf_updateFile _ _ kept, List.any_map]
  refine List.any_eq_false.mpr fun row member => ?_
  have idle := List.any_eq_false.mp before row member
  rw [Function.comp_apply, settled row (Bool.eq_false_iff.mpr idle)]
  nofun

theorem record (takes : TakesFile fileId 0 0 ahead held world pending) (event : LifecycleEvent)
    (named : event.fileId = fileId) :
    TakesFile fileId 1 0 ahead (Protocol.hold held none) world ((·.addEvent event) ∘ pending) := by
  subst named
  refine takes.write (sparesOthers_addEvent event) (fun db => ?_) le_rfl (Nat.zero_le 1) _
  obtain ⟨events, messages, settled⟩ := takes.settles db
  exact ⟨(events_addEvent_le _ event _).trans (Nat.succ_le_succ events), messages, settled⟩

theorem send (takes : TakesFile fileId 1 0 ahead held world pending)
    (message : WebhookOutboxMessage) (named : message.fileId = fileId) :
    TakesFile fileId 1 1 ahead (Protocol.hold held none) world ((·.send message) ∘ pending) := by
  subst named
  refine takes.write (sparesOthers_send message) (fun db => ?_) le_rfl le_rfl _
  obtain ⟨events, messages, settled⟩ := takes.settles db
  exact ⟨events, (messages_send_le _ message _).trans (Nat.succ_le_succ messages), settled⟩

end TakesFile

section Worker

variable {held : Row → Prop} {world : World Database σ} {pending : Database → Database}
  {ahead : List Uuid} {now : Timestamp}

private theorem announce_once (i : Nat) {file : FileObject} (toStatus : LifecycleStatus)
    (takes : TakesFile file.id 0 0 ahead held world pending) :
    announcing.Safe (FlushesAwaiting i)
      (fun held world pending _ => Announces ahead held world pending)
      (announce file toStatus now) held world pending := by
  unfold announce addEvent enqueue
  refine .modify fun first relied _ => .modify_done fun second relied' _ last relied'' => ?_
  have recorded := ((takes.later relied).record {
    tenantId := file.tenantId, fileId := file.id
    eventType := "lifecycle." ++ file.lifecycleAction.formatted
    fromStatus := file.lifecycleStatus, toStatus } rfl).later relied'
  exact ((recorded.send _ rfl).later relied'').announces

private theorem processFile_once (i : Nat) {file : FileObject} (passed : file.id ∉ ahead)
    (announced : Announces (file.id :: ahead) held world pending) :
    announcing.Safe (FlushesAwaiting i)
      (fun held world pending _ => Announces ahead held world pending)
      (processFile app file now) held world pending := by
  have finish : ∀ {held : Row → Prop} {world : World Database σ} {pending : Database → Database}
      (toStatus : LifecycleStatus), TakesFile file.id 0 0 ahead held world pending →
      announcing.Safe (FlushesAwaiting i)
        (fun held world pending _ => Announces ahead held world pending)
        (do
          announce file toStatus now
          return 1 : Handler σ Nat) held world pending :=
    fun toStatus takes => .map (announce_once i toStatus takes)
  unfold processFile
  split
  · unfold addEvent
    refine .modify fun first relied _ last relied' => ?_
    refine .later (.lock (.unseen (announced.later relied).pass ?_ ?_) _) relied'
    · exact fun db => rfl
    · intro key db
      cases key with
      | file other =>
        refine congrArg (db.rowsOf other, ·, db.messages other) ?_
        exact events_addEvent_of_ne other db (.inr rfl)
      | upload | job | entry => rfl
  · split
    · unfold FileRepository.flushDeleting FileRepository.flushFile
      refine .modify fun first relied awaited => .tryStore fun second relied' =>
        ⟨trivial, Within.call _ _ _, ?_⟩
      have deleting : ∀ row : FileObject, (row.setLifecycleStatus .deleting).awaits = false :=
        fun row => by simp [FileObject.awaits, FileObject.setLifecycleStatus]
      have takes := (TakesFile.start (announced.later relied) passed awaited
        (·.setLifecycleStatus .deleting) (fun _ => rfl) deleting).later relied'
      split
      · refine .modify fun third relied'' _ => finish _ ?_
        exact (takes.later relied'').update _ (fun _ => rfl) fun row _ => by
          simp [FileObject.awaits, FileService.markDeleted]
      · refine .modify fun third relied'' _ last reliedLast => ?_
        have failed := (takes.later relied'').update
          (fun row => { row with deleteAttempts := file.deleteAttempts + 1 }) (fun _ => rfl)
          fun row idle => idle
        exact (failed.later reliedLast).announces
    · refine .modify fun first relied awaited => finish _ ?_
      exact .start (announced.later relied) passed awaited _ (fun _ => rfl) fun row => by
        simp [FileObject.awaits, FileObject.setLifecycleStatus]
    · refine .modify fun first relied awaited => finish _ ?_
      exact .start (announced.later relied) passed awaited _ (fun _ => rfl) fun row => by
        simp [FileObject.awaits]

private theorem processAll_once (i : Nat) {files : List FileObject}
    (unique : (files.map (·.id)).Nodup)
    (announced : Announces (files.map (·.id)) held world pending) :
    announcing.Safe (FlushesAwaiting i)
      (fun held world pending _ => Announces [] held world pending)
      (processAll app files now) held world pending := by
  induction files generalizing held world pending with
  | nil => exact fun last relied => announced.later relied
  | cons file rest ih =>
    rw [List.map_cons] at unique announced
    rw [List.nodup_cons] at unique
    refine .bind ((processFile_once i unique.1 announced).weaken fun held world pending _ turned => ?_)
    exact .map (ih unique.2 turned)

private theorem processBatch_once (i batchSize : Nat) (unique : world.db.fileIds.Nodup) :
    announcing.Safe (FlushesAwaiting i)
      (fun held world pending _ => Announces [] held world pending)
      (processBatch app batchSize now) (fun _ => False) world id := by
  unfold processBatch selectDue
  refine .select fun after relied files selected => ?_
  have unique : after.db.fileIds.Nodup := relied.1 ▸ unique
  have due : dueFiles after.db batchSize now = files := by
    dsimp only [id] at selected
    split at selected
    · exact Except.ok.inj selected
    · cases selected
  refine processAll_once i ?_ (Announces.start.lock none)
  exact due ▸ dueFiles_unique unique batchSize now

end Worker

/-- A commit announces a file only if it awaited its action, once, and settles it. -/
def AnnouncesOnce (_ : Nat) (db : Database) (_ : Reply) (db' : Database) : Prop :=
  ∀ fileId, (db'.events fileId = db.events fileId ∧ db'.messages fileId = db.messages fileId ∧
      (db'.awaits fileId = true → db.awaits fileId = true)) ∨
    (db.awaits fileId = true ∧ db'.events fileId ≤ db.events fileId + 1 ∧
      db'.messages fileId ≤ db.messages fileId + 1 ∧ db'.awaits fileId = false)

/-- Announced at most once since the start, and not at all while the file awaits its action. -/
def OnceSince (start : Database) (db : Database) : Prop :=
  ∀ fileId, (db.awaits fileId = true → db.events fileId = start.events fileId ∧
      db.messages fileId = start.messages fileId) ∧
    db.events fileId ≤ start.events fileId + 1 ∧ db.messages fileId ≤ start.messages fileId + 1

theorem OnceSince.commit {start db db' : Database} {i : Nat} {reply : Reply}
    (once : OnceSince start db) (announces : AnnouncesOnce i db reply db') :
    OnceSince start db' := by
  intro fileId
  obtain ⟨still, events, messages⟩ := once fileId
  rcases announces fileId with ⟨sameEvents, sameMessages, awaits⟩ |
    ⟨awaited, moreEvents, moreMessages, settled⟩
  · rw [sameEvents, sameMessages]
    exact ⟨fun now => still (awaits now), events, messages⟩
  · obtain ⟨sameEvents, sameMessages⟩ := still awaited
    refine ⟨fun now => ?_, sameEvents ▸ moreEvents, sameMessages ▸ moreMessages⟩
    rw [settled] at now
    cases now

section Interleaving

variable {world : World Database σ} {requests : Nat → Timed}

private theorem announcing_sound (batches : ∀ i, ∃ batchSize, (requests i).1 = .processBatch batchSize)
    (unique : world.db.fileIds.Nodup) :
    (sideBySide app world requests).Sound announcing FlushesAwaiting AnnouncesOnce := by
  apply Machine.sound_start
  intro i
  obtain ⟨batchSize, batch⟩ := batches i
  rw [batch]
  refine .map ((processBatch_once i batchSize unique).weaken ?_)
  intro held world pending count announced
  refine ⟨announced.within.compatible world world.store, fun fileId => ?_⟩
  exact (announced.once fileId).imp (· world.db) fun ⟨_, awaited, settles⟩ =>
    ⟨awaited, settles world.db⟩

end Interleaving

/-- However the batches of several workers interleave, as long as each flush of a row finds
the file awaiting its action: each file is announced at most once. -/
theorem batches_announce_once (app : AppState σ) (origin : World Database σ)
    (initial : origin.db.Initial) (earlier : List Timed) (requests : Nat → Timed)
    (batches : ∀ i, ∃ batchSize, (requests i).1 = .processBatch batchSize) (moves : List Move)
    (awaiting : (sideBySide app (after app origin earlier) requests).Obeys FlushesAwaiting moves) :
    let start := (after app origin earlier).db
    let now := ((sideBySide app (after app origin earlier) requests).run moves).db
    ∀ fileId, now.events fileId ≤ start.events fileId + 1 ∧
      now.messages fileId ≤ start.messages fileId + 1 := by
  intro start now fileId
  have unique : start.fileIds.Nodup := (after_integrity app initial earlier).ids.fileIds_nodup
  have sound := @announcing_sound σ app (after app origin earlier) requests batches unique
  have once := sound.run_commits (fun db _ => OnceSince start db)
    (fun _ => ⟨fun _ => ⟨rfl, rfl⟩, Nat.le_succ _, Nat.le_succ _⟩)
    (fun i db reply db' replies once announces => once.commit announces) awaiting
  exact (once fileId).2

def replicas : Nat → Timed := fun _ => (.processBatch 10, seconds 2592000)

private theorem replicas_batch (i : Nat) : ∃ batchSize, (replicas i).1 = .processBatch batchSize :=
  ⟨10, rfl⟩

theorem batches_announce_once_small :
    let start := after smallLocalApp ⟨{}, {}⟩ [(.proxyUpload smallTenant smallUpload, 0)]
    let now := ((sideBySide smallLocalApp start replicas).run
      (List.replicate 7 (.advance 0) ++ List.replicate 2 (.advance 1))).db
    now.events 0 = 1 ∧ now.events 0 ≤ start.db.events 0 + 1 := by
  refine ⟨by decide, ?_⟩
  exact (batches_announce_once smallLocalApp ⟨{}, {}⟩ (by decide) _ replicas replicas_batch _
    (by decide) 0).1

/-- Both batches select the file before either has taken it. -/
theorem overlapping_batches_announce_twice :
    let start := after smallLocalApp ⟨{}, {}⟩ [(.proxyUpload smallTenant smallUpload, 0)]
    let now := ((sideBySide smallLocalApp start replicas).run
      (.advance 0 :: .advance 1 :: List.replicate 6 (.advance 0) ++
        List.replicate 6 (.advance 1))).db
    (start.db.events 0, start.db.messages 0) = (0, 0) ∧
      (now.events 0, now.messages 0) = (2, 2) := by
  decide

end PyUploadX
