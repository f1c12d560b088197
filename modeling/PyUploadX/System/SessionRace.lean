import PyUploadX.Services.Statements
import PyUploadX.System.SessionLock

/-! Parts, completions, abortions and expiry of one session, running side by side: some of
them read the status in one statement and overwrite it in another. -/
namespace PyUploadX

open Kit UploadService

variable {σ : Type} {app : AppState σ}

def Database.sessionIds (db : Database) : List Uuid := db.uploadSessions.map (·.id)

/-- How far a session has come, and the file it names. -/
def Database.settlement? (db : Database) (uploadId : Uuid) :
    Option (UploadStatus × Option Uuid) :=
  (db.uploadSessions.find? (·.id = uploadId)).map fun row => (row.status, row.completedFileId)

def Database.finished (db : Database) (uploadId : Uuid) : Bool :=
  (db.settlement? uploadId).any (·.1.terminal)

section Updates

variable (db : Database) {uploadId other : Uuid} {change : UploadSession → UploadSession}

private theorem sessionIds_updateUpload (kept : ∀ row, (change row).id = row.id) :
    (db.updateUpload uploadId change).sessionIds = db.sessionIds := by
  simp only [Database.sessionIds, Database.updateUpload, List.map_map]
  apply List.map_congr_left
  intro row _
  simp only [Function.comp]
  split
  · exact kept row
  · rfl

private theorem settlement_updateUpload_of_ne (kept : ∀ row, (change row).id = row.id)
    (different : uploadId ≠ other) :
    (db.updateUpload uploadId change).settlement? other = db.settlement? other := by
  have named : ((fun row : UploadSession => decide (row.id = other)) ∘ fun row =>
      if row.id = uploadId then change row else row) = fun row => decide (row.id = other) := by
    funext row
    by_cases same : row.id = uploadId
    · simp [same, kept]
    · simp [same]
  unfold Database.settlement? Database.updateUpload
  rw [List.find?_map, named, Option.map_map]
  cases search : db.uploadSessions.find? (·.id = other) with
  | none => rfl
  | some row =>
    have found := List.find?_some search
    rw [decide_eq_true_eq] at found
    simp [found, Ne.symm different]

private theorem settlement_updateUpload (kept : ∀ row, (change row).id = row.id) :
    (db.updateUpload uploadId change).settlement? uploadId =
      (db.uploadSessions.find? (·.id = uploadId)).map fun row =>
        ((change row).status, (change row).completedFileId) := by
  rw [Database.settlement?, find_updateUpload db kept, Option.map_map]
  rfl

theorem settlement_updateUpload_same (kept : ∀ row, (change row).id = row.id)
    (same : ∀ row, (change row).status = row.status ∧
      (change row).completedFileId = row.completedFileId) :
    (db.updateUpload uploadId change).settlement? other = db.settlement? other := by
  by_cases at_row : uploadId = other
  · subst at_row
    rw [settlement_updateUpload db kept, Database.settlement?]
    congr 1
    funext row
    rw [(same row).1, (same row).2]
  · exact settlement_updateUpload_of_ne db kept at_row

end Updates

private theorem status_of_settlement (db : Database) (uploadId : Uuid) :
    db.status? uploadId = (db.settlement? uploadId).map (·.1) := by
  rw [Database.settlement?, Option.map_map]
  rfl

private theorem finished_congr {db db' : Database} {uploadId : Uuid}
    (same : db'.settlement? uploadId = db.settlement? uploadId) :
    db'.finished uploadId = db.finished uploadId := by
  rw [Database.finished, same, Database.finished]

/-- A transaction relies on it that the row it has locked, and a finished session anyway,
is settled as before. -/
def racing (uploadId : Uuid) : Protocol Row Operation Database σ where
  rely held before after := after.db.sessionIds = before.db.sessionIds ∧
    (held (.upload uploadId) ∨ before.db.finished uploadId = true →
      after.db.settlement? uploadId = before.db.settlement? uploadId)
  refl _ _ := ⟨rfl, fun _ => rfl⟩
  trans := by
    rintro held first second third ⟨ids, kept⟩ ⟨ids', kept'⟩
    refine ⟨ids'.trans ids, fun fixed => ?_⟩
    have same := kept fixed
    rw [kept' (fixed.imp_right fun finished => (finished_congr same).trans finished), same]
  calls _ _ := True

/-- Where `update_status` or the expiry overwrites the status without another look at it, the
session is unfinished, or it has expired anyway. -/
def OverwritesUnfinished (uploadId : Uuid) (_ : Nat) (name : Operation) (lock : Option Row)
    (world : World Database σ) : Prop :=
  lock = some (.upload uploadId) → world.db.finished uploadId = true →
    name ≠ .updateStatus ∧ (name = .expireSession → world.db.status? uploadId = some .expired)

instance (uploadId : Uuid) (i : Nat) (name : Operation) (lock : Option Row)
    (world : World Database σ) : Decidable (OverwritesUnfinished uploadId i name lock world) := by
  unfold OverwritesUnfinished
  infer_instance

/-- The writes so far leave the settlement alone; or the session is locked, and they leave
alone a final settlement that it has now. -/
structure Standing (uploadId : Uuid) (held : Row → Prop) (world : World Database σ)
    (pending : Database → Database) : Prop where
  ids : ∀ db, (pending db).sessionIds = db.sessionIds
  distinct : world.db.sessionIds.Nodup
  settled : (∀ db, (pending db).settlement? uploadId = db.settlement? uploadId) ∨
    (held (.upload uploadId) ∧ ∀ db, db.settlement? uploadId = world.db.settlement? uploadId →
      db.finished uploadId = true → (pending db).settlement? uploadId = db.settlement? uploadId)

theorem Standing.later {uploadId : Uuid} {held : Row → Prop} {world after : World Database σ}
    {pending : Database → Database} (standing : Standing uploadId held world pending)
    (relied : (racing uploadId).rely held world after) : Standing uploadId held after pending := by
  obtain ⟨ids, kept⟩ := relied
  refine ⟨standing.ids, ids ▸ standing.distinct, standing.settled.imp_right ?_⟩
  rintro ⟨holding, settled⟩
  exact ⟨holding, fun db same => settled db (same.trans (kept (.inl holding)))⟩

theorem Standing.finished {uploadId : Uuid} {held : Row → Prop} {world : World Database σ}
    {pending : Database → Database} (standing : Standing uploadId held world pending)
    (finished : world.db.finished uploadId = true) :
    (pending world.db).settlement? uploadId = world.db.settlement? uploadId := by
  rcases standing.settled with same | ⟨_, settled⟩
  · exact same world.db
  · exact settled world.db rfl finished

/-- A commit from there disturbs nobody and leaves a finished session as it is. -/
theorem Standing.compatible {uploadId : Uuid} {held : Row → Prop} {world : World Database σ}
    {pending : Database → Database} (standing : Standing uploadId held world pending) (store : σ) :
    (racing uploadId).Compatible held world ⟨pending world.db, store⟩ := by
  refine fun other disjoint => ⟨standing.ids _, fun fixed => ?_⟩
  rcases fixed with theirs | finished
  · rcases standing.settled with same | ⟨holding, _⟩
    · exact same _
    · exact absurd theirs (disjoint _ holding)
  · exact standing.finished finished

/-- The statement leaves the settlement alone, or it is one of the two that overwrite the
status. -/
def OverwritesOrKeeps (uploadId : Uuid) (name : Operation) (lock : Option Row)
    (change : Database → Database) : Prop :=
  (∀ db, (change db).sessionIds = db.sessionIds) ∧
    ((∀ db, (change db).settlement? uploadId = db.settlement? uploadId) ∨
      (lock = some (.upload uploadId) ∧ (name = .updateStatus ∨ name = .expireSession ∧
        ∀ db, db.status? uploadId = some .expired →
          (change db).settlement? uploadId = db.settlement? uploadId)))

private theorem standing_invariant (uploadId : Uuid) (i : Nat) :
    (racing uploadId : Protocol Row Operation Database σ).Invariant
      (OverwritesUnfinished uploadId i) (OverwritesOrKeeps uploadId) (Standing uploadId) where
  later standing relied := standing.later relied
  lock lock standing :=
    ⟨standing.ids, standing.distinct, standing.settled.imp_right fun open_ =>
      ⟨.inl open_.1, open_.2⟩⟩
  write := by
    rintro held world pending name lock change ⟨ids, kind⟩ standing assumed
    refine ⟨fun db => (ids _).trans (standing.ids db), standing.distinct, ?_⟩
    rcases kind with kept | ⟨locks, kind⟩
    · refine standing.settled.imp (fun same db => (kept _).trans (same db)) ?_
      exact fun ⟨holding, settled⟩ =>
        ⟨.inl holding, fun db same finished => (kept _).trans (settled db same finished)⟩
    · refine .inr ⟨.inr locks, fun db same finished => ?_⟩
      obtain ⟨reads, expires⟩ := assumed locks ((finished_congr same).symm.trans finished)
      rcases kind with updates | ⟨expiry, idempotent⟩
      · exact absurd updates reads
      · have before : (pending db).settlement? uploadId = db.settlement? uploadId :=
          standing.settled.elim (· db) fun open_ => open_.2 db same finished
        have expired := expires expiry
        rw [status_of_settlement, ← same, ← before, ← status_of_settlement] at expired
        exact (idempotent _ expired).trans before
  call _ _ standing :=
    ⟨trivial, fun _ _ => ⟨rfl, fun _ => rfl⟩, standing.ids, standing.distinct, standing.settled⟩

/-! The requests without a lock at their first statement. -/

theorem OverwritesOrKeeps.part (uploadId : Uuid) (part : UploadPart) (name : Operation)
    (lock : Option Row) : OverwritesOrKeeps uploadId name lock (·.upsertPart part) := by
  refine ⟨fun db => ?_, .inl fun db => ?_⟩
  · rw [Database.sessionIds, Database.upsertPart_uploadSessions, Database.sessionIds]
  · rw [Database.settlement?, Database.upsertPart_uploadSessions, Database.settlement?]

theorem OverwritesOrKeeps.touch (uploadId other : Uuid) (now : Timestamp) (name : Operation)
    (lock : Option Row) :
    OverwritesOrKeeps uploadId name lock (·.updateUpload other (·.touch now)) :=
  ⟨fun db => sessionIds_updateUpload db fun _ => rfl,
    .inl fun db => settlement_updateUpload_same db (fun _ => rfl) fun _ => ⟨rfl, rfl⟩⟩

theorem OverwritesOrKeeps.status (uploadId other : Uuid) :
    OverwritesOrKeeps uploadId .updateStatus (some (.upload other))
      (·.updateUpload other (·.setStatus .uploading)) := by
  refine ⟨fun db => sessionIds_updateUpload db fun _ => rfl, ?_⟩
  by_cases same : other = uploadId
  · exact .inr ⟨by rw [same], .inl rfl⟩
  · exact .inl fun db => settlement_updateUpload_of_ne db (fun _ => rfl) same

theorem OverwritesOrKeeps.expiry (uploadId other : Uuid) :
    OverwritesOrKeeps uploadId .expireSession (some (.upload other))
      (·.updateUpload other (·.setStatus .expired)) := by
  refine ⟨fun db => sessionIds_updateUpload db fun _ => rfl, ?_⟩
  by_cases same : other = uploadId
  · refine .inr ⟨by rw [same], .inr ⟨rfl, fun db expired => ?_⟩⟩
    subst same
    obtain ⟨row, search, status⟩ := Option.map_eq_some_iff.mp expired
    have settled := @settlement_updateUpload db other (·.setStatus .expired) fun _ => rfl
    rw [settled, Database.settlement?, search, Option.map_some, Option.map_some, status]
    rfl
  · exact .inl fun db => settlement_updateUpload_of_ne db (fun _ => rfl) same

private theorem proxyUploadPart_writes (uploadId : Uuid) (identity : Identity) (other : Uuid)
    (partNumber : Int) (stream : Bytes) (sizeBytes : Nat) (checksumSha256 : Option String)
    (now : Timestamp) :
    (proxyUploadPart app identity other partNumber stream sizeBytes checksumSha256 now).EachWrite
      (OverwritesOrKeeps uploadId) := by
  refine .bind (getSession_writesNone _ _) fun upload => .bind (.liftExcept _) fun _ =>
    .bind (.liftExcept _) fun number => .bind (.liftExcept _) fun _ => ?_
  have rest : (do
      let stored ← Program.onStore .uploadPart
        (app.storage.uploadPart upload.bucket upload.objectKey upload.storageKey number stream
          sizeBytes checksumSha256)
      let part := storedRow upload number stored checksumSha256
      PartRepository.upsertPart part
      UploadRepository.touchActivity upload.id now
      return part : Handler σ UploadPart).EachWrite (OverwritesOrKeeps uploadId) :=
    .bind (.onStore _ _) fun _ => .bind (.modify (.part _ _ _ _)) fun _ =>
      .bind (.modify (.touch _ _ _ _ _)) fun _ => .pure _
  dsimp only
  split
  · exact .bind (.modify (.status _ _)) fun _ => rest
  · exact rest

private theorem commitPart_writes (uploadId : Uuid) (identity : Identity) (other : Uuid)
    (partNumber : Int) (etag : String) (sizeBytes : Int) (checksumSha256 : Option String)
    (now : Timestamp) :
    (commitPart identity other partNumber etag sizeBytes checksumSha256 now :
      Handler σ Unit).EachWrite (OverwritesOrKeeps uploadId) :=
  .bind (getSession_writesNone _ _) fun _ => .bind (.liftExcept _) fun _ =>
    .bind (.liftExcept _) fun _ => .bind (.modify (.part _ _ _ _)) fun _ =>
      .bind (.refuseIf _ _) fun _ => .modify (.touch _ _ _ _ _)

private theorem expireUploadSessions_writes (uploadId : Uuid) (batchSize : Nat) (now : Timestamp) :
    (CleanupService.expireUploadSessions batchSize now : Handler σ Nat).EachWrite
      (OverwritesOrKeeps uploadId) := by
  have all : ∀ ids, (CleanupService.expireAll ids : Handler σ Unit).EachWrite
      (OverwritesOrKeeps uploadId) := by
    intro ids
    induction ids with
    | nil => exact .pure ()
    | cons id rest ih => exact .bind (.modify (.expiry _ _)) fun _ => ih
  exact .bind (.ask _) fun ids => .bind (all ids) fun _ => .pure _

/-! The requests that lock the session first. -/

/-- The session is locked, and settled as it was found. -/
structure Holding (uploadId : Uuid) (upload : UploadSession) (held : Row → Prop)
    (world : World Database σ) (pending : Database → Database) : Prop where
  ids : ∀ db, (pending db).sessionIds = db.sessionIds
  distinct : world.db.sessionIds.Nodup
  holding : held (.upload uploadId)
  found : world.db.settlement? uploadId = some (upload.status, upload.completedFileId)

section Holding

variable {uploadId : Uuid} {upload : UploadSession} {held : Row → Prop}
  {world : World Database σ} {pending : Database → Database}

theorem Holding.later {after : World Database σ}
    (holding : Holding uploadId upload held world pending)
    (relied : (racing uploadId).rely held world after) :
    Holding uploadId upload held after pending := by
  obtain ⟨ids, kept⟩ := relied
  exact ⟨holding.ids, ids ▸ holding.distinct, holding.holding,
    (kept (.inl holding.holding)).trans holding.found⟩

theorem Holding.lock (holding : Holding uploadId upload held world pending) (lock : Option Row) :
    Holding uploadId upload (Protocol.hold held lock) world pending :=
  ⟨holding.ids, holding.distinct, .inl holding.holding, holding.found⟩

theorem Holding.write (holding : Holding uploadId upload held world pending)
    {change : Database → Database} (kept : ∀ db, (change db).sessionIds = db.sessionIds) :
    Holding uploadId upload held world (change ∘ pending) :=
  ⟨fun db => (kept _).trans (holding.ids db), holding.distinct, holding.holding, holding.found⟩

theorem Holding.update (holding : Holding uploadId upload held world pending) (other : Uuid)
    (change : UploadSession → UploadSession) (kept : ∀ row, (change row).id = row.id) :
    Holding uploadId upload (Protocol.hold held (some (Row.upload other))) world
      ((·.updateUpload other change) ∘ pending) :=
  (holding.write fun db => sessionIds_updateUpload db kept).lock _

/-- Under the lock the status may be overwritten as long as it is not final. -/
theorem Holding.standing (holding : Holding uploadId upload held world pending)
    (unfinished : upload.status.terminal = false) : Standing uploadId held world pending := by
  refine ⟨holding.ids, holding.distinct, .inr ⟨holding.holding, fun db same finished => ?_⟩⟩
  rw [Database.finished, same, holding.found, Option.any_some, unfinished] at finished
  cases finished

private theorem holding_invariant (uploadId : Uuid) (upload : UploadSession) (i : Nat) :
    (racing uploadId : Protocol Row Operation Database σ).Invariant
      (OverwritesUnfinished uploadId i)
      (fun _ _ change => ∀ db, (change db).sessionIds = db.sessionIds)
      (Holding uploadId upload) where
  later holding relied := holding.later relied
  lock lock holding := holding.lock lock
  write kept holding _ := (holding.write kept).lock _
  call _ _ holding := ⟨trivial, fun _ _ => ⟨rfl, fun _ => rfl⟩,
    holding.ids, holding.distinct, holding.holding, holding.found⟩

/-- Without a write the pending changes stay as they are, too. -/
theorem reading_invariant (uploadId : Uuid) (upload : UploadSession) (i : Nat) :
    (racing uploadId : Protocol Row Operation Database σ).Invariant
      (OverwritesUnfinished uploadId i) (fun _ _ _ => False)
      (fun held world pending => Holding uploadId upload held world pending ∧ pending = id) where
  later holding relied := ⟨holding.1.later relied, holding.2⟩
  lock lock holding := ⟨holding.1.lock lock, holding.2⟩
  write impossible _ _ := impossible.elim
  call name store holding := by
    have kept := (holding_invariant uploadId upload i).call name store holding.1
    exact ⟨kept.1, kept.2.1, kept.2.2, holding.2⟩

end Holding

/-- The row that `SELECT … FOR UPDATE` finds. -/
theorem Holding.select {uploadId : Uuid} {tenantId : String} {upload : UploadSession}
    {world : World Database σ} (distinct : world.db.sessionIds.Nodup)
    (found : world.db.findUpload uploadId tenantId = some upload) :
    Holding uploadId upload
      (Protocol.hold (fun _ => False) (some (Row.upload uploadId))) world id := by
  refine ⟨fun _ => rfl, distinct, .inr rfl, ?_⟩
  obtain ⟨member, named, _⟩ := Database.findUpload_some found
  have search : world.db.uploadSessions.find? (·.id = uploadId) = some upload := by
    cases search : world.db.uploadSessions.find? (·.id = uploadId) with
    | none =>
      have absent := List.find?_eq_none.mp search upload member
      simp [named] at absent
    | some row =>
      have same := List.find?_some search
      rw [decide_eq_true_eq] at same
      rw [List.inj_on_of_nodup_map distinct (List.mem_of_find?_eq_some search) member
        (same.trans named.symm)]
  rw [Database.settlement?, search]
  rfl

private theorem unfinished_of_transition {upload : UploadSession} {target next : UploadStatus}
    (unfinal : target = .aborting ∨ target = .completing)
    (moves : transitionUpload upload.status target = .ok next) :
    upload.status.terminal = false :=
  unfinished_of_status (open_of_transition unfinal moves)

private theorem abort_safe (uploadId : Uuid) (i : Nat) (identity : Identity) {world : World Database σ}
    (distinct : world.db.sessionIds.Nodup) :
    (racing uploadId).Safe (OverwritesUnfinished uploadId i)
      (fun held world pending _ => Standing uploadId held world pending)
      (abort app identity uploadId) (fun _ => False) world id := by
  unfold abort UploadRepository.getUpload
  refine .select fun after relied found read => ?_
  have distinct : after.db.sessionIds.Nodup := relied.1 ▸ distinct
  cases found with
  | none => trivial
  | some upload =>
    have holding := Holding.select distinct (Except.ok.inj read)
    refine .refuseIf fun _ => ?_
    split
    · intro last relied
      have last := holding.later relied
      exact ⟨last.ids, last.distinct, .inl fun _ => rfl⟩
    · refine .liftExcept fun _ moves => ?_
      have unfinished := unfinished_of_transition (.inl rfl) moves
      have writes : ∀ status, ∀ db,
          (Database.updateUpload db upload.id (·.setStatus status)).sessionIds = db.sessionIds :=
        fun status db => sessionIds_updateUpload db fun _ => rfl
      refine ((holding_invariant uploadId upload i).safe ?_ holding).weaken
        fun held world pending _ kept => kept.standing unfinished
      refine .bind (.modify (writes _)) fun _ => ?_
      split
      · exact .bind (.tryStore _ _) fun _ => .bind (.liftExcept _) fun _ =>
          .bind (.modify (writes _)) fun _ => .pure _
      · exact .bind (.modify (writes _)) fun _ => .pure _

/-- The file of a completed session is the one its row names. -/
theorem completedFile_safe {uploadId : Uuid} {i : Nat} {identity : Identity}
    {upload : UploadSession} {held : Row → Prop} {world : World Database σ}
    (holding : Holding uploadId upload held world id) :
    (racing uploadId).Safe (OverwritesUnfinished uploadId i)
      (fun held world pending existing => Holding uploadId upload held world pending ∧
        pending = id ∧ ∀ file, existing = some file →
          upload.status = .completed ∧ upload.completedFileId = some file.id)
      (completedFile identity upload) held world id := by
  unfold completedFile
  split
  · rename_i completed
    split
    · rename_i fileId named
      intro after relied found read last relied'
      refine ⟨((holding.later relied).lock none).later relied', rfl, fun file same => ?_⟩
      subst same
      have row : after.db.findFile fileId identity.tenantId = some file :=
        (FileRepository.loadFile_ok read).1
      obtain ⟨_, same, _⟩ := Database.findFile_some row
      exact ⟨completed, by rw [named, same]⟩
    · exact fun last relied => ⟨holding.later relied, rfl, fun _ => nofun⟩
  · exact fun last relied => ⟨holding.later relied, rfl, fun _ => nofun⟩

/-- What `complete` hands to the storage belongs to a session without a final status. -/
theorem partsToComplete_safe {uploadId : Uuid} {i : Nat} {upload : UploadSession}
    {held : Row → Prop} {world : World Database σ}
    (holding : Holding uploadId upload held world id) :
    (racing uploadId).Safe (OverwritesUnfinished uploadId i)
      (fun held world pending _ => Holding uploadId upload held world pending ∧
        pending = id ∧ upload.status.terminal = false)
      (partsToComplete app upload) held world id := by
  unfold partsToComplete
  refine .ask fun after relied => .refuseIf fun _ => .bind ?_
  refine ((reading_invariant uploadId upload i).safe (storedParts_writesNone upload _)
    ⟨holding.later relied, rfl⟩).weaken fun held world pending parts kept => ?_
  split
  · exact .liftExcept fun _ moves last relied =>
      ⟨kept.1.later relied, kept.2, unfinished_of_transition (.inr rfl) moves⟩
  · rename_i status
    refine fun last relied => ⟨kept.1.later relied, kept.2, ?_⟩
    by_cases uploading : upload.status = .uploading
    · rw [uploading]
      rfl
    · rw [not_not.mp fun initiated => status ⟨uploading, initiated⟩]
      rfl

private theorem settlement_completed {db : Database} {uploadId fileId : Uuid}
    (present : uploadId ∈ db.sessionIds) :
    (db.updateUpload uploadId (·.setCompleted fileId)).settlement? uploadId =
      some (.completed, some fileId) := by
  have settled := @settlement_updateUpload db uploadId (·.setCompleted fileId) fun _ => rfl
  rw [settled]
  obtain ⟨row, member, named⟩ := List.mem_map.mp present
  cases search : db.uploadSessions.find? (·.id = uploadId) with
  | none =>
    have absent := List.find?_eq_none.mp search row member
    simp [named] at absent
  | some found => rfl

theorem Holding.present {uploadId : Uuid} {upload : UploadSession} {held : Row → Prop}
    {world : World Database σ} {pending : Database → Database}
    (holding : Holding uploadId upload held world pending) :
    uploadId ∈ (pending world.db).sessionIds := by
  rw [holding.ids]
  obtain ⟨row, search, _⟩ := Option.map_eq_some_iff.mp holding.found
  have named := List.find?_some search
  rw [decide_eq_true_eq] at named
  exact List.mem_map.mpr ⟨row, List.mem_of_find?_eq_some search, named⟩

/-- The request answers with the file that its session names when it commits. -/
def AnswersCompleted (uploadId : Uuid) (held : Row → Prop) (world : World Database σ)
    (pending : Database → Database) (file : FileObject) : Prop :=
  Standing uploadId held world pending ∧
    (pending world.db).settlement? uploadId = some (.completed, some file.id)

private theorem assemble_safe {uploadId : Uuid} {i : Nat} {identity : Identity} {upload : UploadSession}
    {parts : List UploadedPart} {now : Timestamp} {held : Row → Prop} {world : World Database σ}
    (named : upload.id = uploadId) (unfinished : upload.status.terminal = false)
    (holding : Holding uploadId upload held world id) :
    (racing uploadId).Safe (OverwritesUnfinished uploadId i) (AnswersCompleted uploadId)
      (assemble app identity upload parts now) held world id := by
  subst named
  unfold assemble
  refine .modify fun first relied _ => ?_
  have holding := (holding.later relied).update upload.id (·.setStatus .completing) fun _ => rfl
  refine .onStore fun second relied => ?_
  have holding := holding.later relied
  refine ⟨trivial, fun _ _ => ⟨rfl, fun _ => rfl⟩, fun stored _ => ?_⟩
  have holding : Holding upload.id upload _ ⟨second.db, _⟩ _ :=
    ⟨holding.ids, holding.distinct, holding.holding, holding.found⟩
  refine .ask fun third relied => ?_
  generalize Database.nextId _ = fileId
  have holding := holding.later relied
  refine .write fun fourth relied _ change inserted => ?_
  have kept : ∀ db, (change db).sessionIds = db.sessionIds := by
    intro db
    split at inserted
    · cases inserted
    split at inserted
    · cases inserted
    · cases inserted
      rfl
  have holding := ((holding.later relied).write kept).lock none
  refine .modify fun fifth relied _ last relied' => ?_
  have present := (((holding.later relied).lock _).later relied').present
  have holding := (holding.later relied).update upload.id (·.setCompleted fileId) fun _ => rfl
  exact ⟨(holding.later relied').standing unfinished, settlement_completed present⟩

private theorem complete_safe (uploadId : Uuid) (i : Nat) (identity : Identity) (now : Timestamp)
    {world : World Database σ} (distinct : world.db.sessionIds.Nodup) :
    (racing uploadId).Safe (OverwritesUnfinished uploadId i) (AnswersCompleted uploadId)
      (complete app identity uploadId now) (fun _ => False) world id := by
  unfold complete UploadRepository.getUpload
  refine .select fun after relied found read => ?_
  have distinct : after.db.sessionIds.Nodup := relied.1 ▸ distinct
  cases found with
  | none => trivial
  | some upload =>
    have found := Except.ok.inj read
    have holding := Holding.select distinct found
    refine .bind ((completedFile_safe holding).weaken ?_)
    rintro held world pending existing ⟨holding, rfl, reference⟩
    cases existing with
    | some file =>
      intro last relied
      have last := holding.later relied
      obtain ⟨completed, named⟩ := reference file rfl
      refine ⟨⟨last.ids, last.distinct, .inl fun _ => rfl⟩, ?_⟩
      rw [id, last.found, completed, named]
    | none =>
      refine .refuseIf fun _ => .refuseIf fun _ => .bind ((partsToComplete_safe holding).weaken ?_)
      rintro held world pending parts ⟨holding, rfl, unfinished⟩
      exact assemble_safe (Database.findUpload_some found).2.1 unfinished holding

/-! Runs. -/

/-- The requests that work on one session, and the cleanup of all of them. -/
inductive WorksOn (uploadId : Uuid) : Request → Prop
  | proxyUploadPart (identity : Identity) (partNumber : Int) (body : Bytes)
      (checksumSha256 : Option String) :
      WorksOn uploadId (.proxyUploadPart identity uploadId partNumber body checksumSha256)
  | commitPart (identity : Identity) (partNumber : Int) (etag : String) (sizeBytes : Int)
      (checksumSha256 : Option String) :
      WorksOn uploadId (.commitPart identity uploadId partNumber etag sizeBytes checksumSha256)
  | complete (identity : Identity) : WorksOn uploadId (.complete identity uploadId)
  | abort (identity : Identity) : WorksOn uploadId (.abort identity uploadId)
  | expireUploadSessions (batchSize : Nat) : WorksOn uploadId (.expireUploadSessions batchSize)

/-- A commit that leaves a final settlement as it is, and a completion that answers with the
file of the session. -/
def KeepsFinal (uploadId : Uuid) (_ : Nat) (db : Database) (reply : Reply) (db' : Database) :
    Prop :=
  (db.finished uploadId = true → db'.settlement? uploadId = db.settlement? uploadId) ∧
    ∀ file, reply = .file file → db'.settlement? uploadId = some (.completed, some file.id)

theorem Standing.ends {uploadId : Uuid} {held : Row → Prop} {world : World Database σ}
    {pending : Database → Database} (standing : Standing uploadId held world pending) (i : Nat)
    {reply : Reply} (answers : ∀ file, reply = .file file →
      (pending world.db).settlement? uploadId = some (.completed, some file.id)) :
    Machine.Ends (racing uploadId) (KeepsFinal uploadId i) held world pending reply :=
  ⟨standing.compatible world.store, standing.finished, answers⟩

theorem WorksOn.safe {uploadId : Uuid} {request : Request} (works : WorksOn uploadId request)
    (i : Nat) (now : Timestamp) {world : World Database σ} (distinct : world.db.sessionIds.Nodup) :
    (racing uploadId).Safe (OverwritesUnfinished uploadId i)
      (Machine.Ends (racing uploadId) (KeepsFinal uploadId i)) (handle app request now)
      (fun _ => False) world id := by
  have start : Standing uploadId (fun _ => False) world id :=
    ⟨fun _ => rfl, distinct, .inl fun _ => rfl⟩
  have writing : ∀ {α : Type} {program : Handler σ α} {reply : α → Reply},
      program.EachWrite (OverwritesOrKeeps uploadId) → (∀ value file, reply value ≠ .file file) →
      (racing uploadId).Safe (OverwritesUnfinished uploadId i)
        (Machine.Ends (racing uploadId) (KeepsFinal uploadId i))
        (program >>= fun value => pure (reply value)) (fun _ => False) world id := by
    intro α program reply writes answers
    refine .map (((standing_invariant uploadId i).safe writes start).weaken ?_)
    exact fun held world pending value standing =>
      standing.ends i fun file same => absurd same (answers value file)
  cases works with
  | proxyUploadPart identity partNumber body checksumSha256 =>
    have writes := @proxyUploadPart_writes σ app uploadId identity uploadId partNumber body
      body.length checksumSha256 now
    exact writing writes fun _ _ => nofun
  | commitPart identity partNumber etag sizeBytes checksumSha256 =>
    have writes := @commitPart_writes σ uploadId identity uploadId partNumber etag sizeBytes
      checksumSha256 now
    exact @writing _ _ (fun _ => .done) writes fun _ _ => nofun
  | expireUploadSessions batchSize =>
    have writes := @expireUploadSessions_writes σ uploadId batchSize now
    exact writing writes fun _ _ => nofun
  | abort identity =>
    refine .map ((abort_safe uploadId i identity distinct).weaken ?_)
    exact fun held world pending value standing => standing.ends i fun _ => nofun
  | complete identity =>
    refine .map ((complete_safe uploadId i identity now distinct).weaken ?_)
    rintro held world pending file ⟨standing, answers⟩
    refine standing.ends i fun file' same => ?_
    cases same
    exact answers

section Interleaving

variable {world : World Database σ} {uploadId : Uuid} {requests : Nat → Timed}

private theorem racing_sound (works : ∀ i, WorksOn uploadId (requests i).1)
    (distinct : world.db.sessionIds.Nodup) :
    (sideBySide app world requests).Sound (racing uploadId) (OverwritesUnfinished uploadId)
      (KeepsFinal uploadId) := by
  apply Machine.sound_start
  intro i
  exact (works i).safe i _ distinct

/-- Every file a request answered with is the file of the completed session. -/
def Answered (uploadId : Uuid) (db : Database) (replies : Nat → Option Reply) : Prop :=
  ∀ i file, replies i = some (.file file) →
    db.settlement? uploadId = some (.completed, some file.id)

theorem Answered.commit {i : Nat} {db db' : Database} {reply : Reply}
    {replies : Nat → Option Reply} (answered : Answered uploadId db replies)
    (keeps : KeepsFinal uploadId i db reply db') :
    Answered uploadId db' (Function.update replies i (some reply)) := by
  intro j file replied
  by_cases same : j = i
  · subst same
    rw [Function.update_self] at replied
    exact keeps.2 file (Option.some.inj replied)
  · rw [Function.update_of_ne same] at replied
    have before := answered j file replied
    have finished : db.finished uploadId = true := by
      rw [Database.finished, before]
      rfl
    rw [keeps.1 finished, before]

theorem racing_run (works : ∀ i, WorksOn uploadId (requests i).1)
    (distinct : world.db.sessionIds.Nodup) {moves later : List Move}
    (unfinished : (sideBySide app world requests).Obeys (OverwritesUnfinished uploadId)
      (moves ++ later)) :
    let now := (sideBySide app world requests).run moves
    let next := now.run later
    (now.db.finished uploadId = true →
        next.db.settlement? uploadId = now.db.settlement? uploadId) ∧
      Answered uploadId next.db next.reply? := by
  obtain ⟨before, later_⟩ := Machine.obeys_append.mp unfinished
  have sound := @racing_sound σ app world uploadId requests works distinct
  have answered := sound.run_commits (Answered uploadId) (fun _ _ => nofun)
    (fun i db reply db' replies answered keeps => answered.commit keeps) before
  have settled := (sound.run before).run_commits
    (fun db replies => Answered uploadId db replies ∧
      (((sideBySide app world requests).run moves).db.finished uploadId = true →
        db.settlement? uploadId =
          ((sideBySide app world requests).run moves).db.settlement? uploadId))
    ⟨answered, fun _ => rfl⟩ ?_ later_
  · exact ⟨settled.2, settled.1⟩
  · rintro i db reply db' replies ⟨answered, same⟩ keeps
    refine ⟨answered.commit keeps, fun finished => ?_⟩
    have still := (finished_congr (same finished)).trans finished
    rw [keeps.1 still, same finished]

end Interleaving

/-- However parts, completions, abortions and the expiry of one session interleave, as long
as the two unchecked updates find it unfinished: a final status stays, and every completion
answers with the one file of the session. -/
theorem final_status_stays (app : AppState σ) (origin : World Database σ)
    (initial : origin.db.Initial) (earlier : List Timed) (uploadId : Uuid)
    (requests : Nat → Timed) (works : ∀ i, WorksOn uploadId (requests i).1)
    (moves later : List Move)
    (unfinished : (sideBySide app (after app origin earlier) requests).Obeys
      (OverwritesUnfinished uploadId) (moves ++ later)) :
    let now := (sideBySide app (after app origin earlier) requests).run moves
    let next := now.run later
    (∀ status, status.terminal = true → now.db.status? uploadId = some status →
      next.db.status? uploadId = some status) ∧
    (∀ i file, next.reply? i = some (.file file) → next.db.status? uploadId = some .completed ∧
      next.db.completedFileId? uploadId = some file.id) := by
  intro now next
  have distinct : (after app origin earlier).db.sessionIds.Nodup :=
    (after_integrity app initial earlier).ids.sessionIds_nodup
  obtain ⟨kept, answered⟩ := @racing_run σ app _ uploadId requests works distinct _ _ unfinished
  refine ⟨fun status final now_ => ?_, fun i file replied => ?_⟩
  · have finished : now.db.finished uploadId = true := by
      rw [status_of_settlement] at now_
      obtain ⟨settled, same, rfl⟩ := Option.map_eq_some_iff.mp now_
      rw [Database.finished, same]
      exact final
    rw [status_of_settlement, kept finished, ← status_of_settlement, now_]
  · have settled := answered i file replied
    obtain ⟨row, search, same⟩ := Option.map_eq_some_iff.mp settled
    rw [Prod.mk.injEq] at same
    rw [Database.status?, Database.completedFileId?, search]
    exact ⟨congrArg some same.1, same.2⟩

/-- A part that is stored again while the session is completed. -/
def racingRequests : Nat → Timed
  | 0 => (.proxyUploadPart smallTenant 0 1 [1, 2] none, 0)
  | 1 => (.proxyUploadPart smallTenant 0 1 [1, 2] none, 0)
  | 2 => (.proxyUploadPart smallTenant 0 2 [3, 4] none, 0)
  | _ => (.complete smallTenant 0, 0)

private theorem racingRequests_work (i : Nat) : WorksOn 0 (racingRequests i).1 := by
  unfold racingRequests
  split
  · exact .proxyUploadPart ..
  · exact .proxyUploadPart ..
  · exact .proxyUploadPart ..
  · exact .complete _

def partsThenCompletion : List Move :=
  List.replicate 6 (.advance 1) ++ List.replicate 5 (.advance 2) ++ List.replicate 9 (.advance 3)

theorem final_status_stays_small :
    let now := (sideBySide smallLocalApp (after smallLocalApp ⟨{}, {}⟩
      [(.createSession smallTenant smallSession, 0)]) racingRequests).run partsThenCompletion
    now.db.status? 0 = some .completed ∧
      (now.run (List.replicate 5 (.advance 0))).db.status? 0 = some .completed := by
  refine ⟨by decide, ?_⟩
  exact (final_status_stays smallLocalApp ⟨{}, {}⟩ (by decide) _ 0 racingRequests
    racingRequests_work _ _ (by decide)).1 .completed rfl (by decide)

/-- The first part request read `initiated` before the session was completed. -/
theorem late_part_reopens :
    let now := (sideBySide smallLocalApp (after smallLocalApp ⟨{}, {}⟩
      [(.createSession smallTenant smallSession, 0)]) racingRequests).run
        (.advance 0 :: partsThenCompletion)
    now.db.status? 0 = some .completed ∧
      (now.run (List.replicate 5 (.advance 0))).db.status? 0 = some .uploading := by
  decide

end PyUploadX
