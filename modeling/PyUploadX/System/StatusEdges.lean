import PyUploadX.Services.Completion
import PyUploadX.Services.Statements
import PyUploadX.Worker.Retries

/-! Every assignment of a status beside the tables of the two state machines. -/
namespace PyUploadX

open Kit Kit.Program

/-- Every row that the write finds keeps its status, or moves along an edge of its table. -/
structure FollowsTables (db db' : Database) : Prop where
  uploads : ∀ uploadId, ∀ status ∈ db.uploadStatus? uploadId,
    ∀ status' ∈ db'.uploadStatus? uploadId,
      status' = status ∨ status' ∈ uploadTransitions status
  files : ∀ fileId, ∀ status ∈ db.lifecycleStatus? fileId,
    ∀ status' ∈ db'.lifecycleStatus? fileId,
      status' = status ∨ status' ∈ lifecycleTransitions status

namespace FollowsTables

private theorem of_keeps {change : Database → Database} (keeps : KeepsStatuses change) (db : Database) :
    FollowsTables db (change db) := by
  constructor
  · intro uploadId status known status' known'
    exact .inl (Option.mem_unique known' (keeps.uploads db uploadId status known))
  · intro fileId status known status' known'
    exact .inl (Option.mem_unique known' (keeps.files db fileId status known))

theorem assignUpload {db : Database} {uploadId : Uuid} {change : UploadSession → UploadSession}
    {assigned : UploadStatus} (kept : ∀ upload, (change upload).id = upload.id)
    (assigns : ∀ upload, (change upload).status = assigned)
    (edge : ∀ status ∈ db.uploadStatus? uploadId,
      assigned = status ∨ assigned ∈ uploadTransitions status) :
    FollowsTables db (db.updateUpload uploadId change) := by
  refine ⟨fun other status known status' known' => ?_, fun fileId status known status' known' =>
    .inl (Option.mem_unique known' known)⟩
  rw [db.uploadStatus?_updateUpload uploadId other kept] at known'
  obtain ⟨upload, found, rfl⟩ := Option.map_eq_some_iff.mp known
  rw [found, Option.map_some, Option.mem_some_iff] at known'
  rw [← known']
  split
  · rename_i same
    rw [assigns]
    apply edge
    have named := List.find?_some found
    rw [← same, of_decide_eq_true named]
    exact known
  · exact .inl rfl

private theorem assignFile {db : Database} {fileId : Uuid} {change : FileObject → FileObject}
    {assigned : LifecycleStatus} (kept : ∀ file, (change file).id = file.id)
    (assigns : ∀ file, (change file).lifecycleStatus = assigned)
    (edge : ∀ status ∈ db.lifecycleStatus? fileId,
      assigned = status ∨ assigned ∈ lifecycleTransitions status) :
    FollowsTables db (db.updateFile fileId change) := by
  refine ⟨fun uploadId status known status' known' => .inl (Option.mem_unique known' known),
    fun other status known status' known' => ?_⟩
  rw [db.lifecycleStatus?_updateFile fileId other kept] at known'
  obtain ⟨file, found, rfl⟩ := Option.map_eq_some_iff.mp known
  rw [found, Option.map_some, Option.mem_some_iff] at known'
  rw [← known']
  split
  · rename_i same
    rw [assigns]
    apply edge
    have named := List.find?_some found
    rw [← same, of_decide_eq_true named]
    exact known
  · exact .inl rfl

end FollowsTables

theorem Database.uploadStatus?_assign {db : Database} {uploadId : Uuid}
    {change : UploadSession → UploadSession} {assigned : UploadStatus}
    (kept : ∀ upload, (change upload).id = upload.id)
    (assigns : ∀ upload, (change upload).status = assigned) :
    (db.updateUpload uploadId change).uploadStatus? uploadId =
      (db.uploadStatus? uploadId).map fun _ => assigned := by
  rw [db.uploadStatus?_updateUpload uploadId uploadId kept, Database.uploadStatus?, Option.map_map]
  apply Option.map_congr
  intro upload found
  have named := List.find?_some found
  rw [if_pos (of_decide_eq_true named), assigns]
  rfl

private theorem Database.lifecycleStatus?_assign {db : Database} {fileId : Uuid}
    {change : FileObject → FileObject} {assigned : LifecycleStatus}
    (kept : ∀ file, (change file).id = file.id)
    (assigns : ∀ file, (change file).lifecycleStatus = assigned) :
    (db.updateFile fileId change).lifecycleStatus? fileId =
      (db.lifecycleStatus? fileId).map fun _ => assigned := by
  rw [db.lifecycleStatus?_updateFile fileId fileId kept, Database.lifecycleStatus?, Option.map_map]
  apply Option.map_congr
  intro file found
  have named := List.find?_some found
  rw [if_pos (of_decide_eq_true named), assigns]
  rfl

private theorem Database.lifecycleStatus?_updateFile_of_ne (db : Database) {fileId other : Uuid}
    {change : FileObject → FileObject} (kept : ∀ file, (change file).id = file.id)
    (different : other ≠ fileId) :
    (db.updateFile fileId change).lifecycleStatus? other = db.lifecycleStatus? other := by
  rw [db.lifecycleStatus?_updateFile fileId other kept, Database.lifecycleStatus?]
  apply Option.map_congr
  intro file found
  have named := List.find?_some found
  rw [if_neg (of_decide_eq_true named ▸ different)]

variable {σ : Type} {app : AppState σ}

/-- A file in one of the statuses that the code ever assigns. -/
def FileObject.Ordinary (file : FileObject) : Prop :=
  file.lifecycleStatus = .active ∨ file.lifecycleStatus = .deleting ∨
    file.lifecycleStatus = .expired ∨ file.lifecycleStatus = .deleted

/-- All files are in such a status. -/
def Ordinary (db : Database) : Prop :=
  ∀ file ∈ db.fileObjects, file.Ordinary

theorem Identified.uploadStatus?_of_mem {db : Database} (ids : Identified db)
    {upload : UploadSession} (member : upload ∈ db.uploadSessions) :
    db.uploadStatus? upload.id = some upload.status := by
  have present : (db.uploadSessions.find? (·.id = upload.id)).isSome :=
    List.find?_isSome.mpr ⟨upload, member, decide_eq_true rfl⟩
  obtain ⟨row, selected⟩ := Option.isSome_iff_exists.mp present
  have named := List.find?_some selected
  rw [Database.uploadStatus?, selected,
    ids.upload_unique (List.mem_of_find?_eq_some selected) member (of_decide_eq_true named)]
  rfl

private theorem Identified.uploadStatus?_eq {db : Database} (ids : Identified db) {uploadId : Uuid}
    {tenantId : String} {upload : UploadSession}
    (found : db.findUpload uploadId tenantId = some upload) :
    db.uploadStatus? upload.id = some upload.status :=
  ids.uploadStatus?_of_mem (Database.findUpload_some found).1

private theorem Identified.lifecycleStatus?_of_mem {db : Database} (ids : Identified db)
    {file : FileObject} (member : file ∈ db.fileObjects) :
    db.lifecycleStatus? file.id = some file.lifecycleStatus := by
  have present : (db.fileObjects.find? (·.id = file.id)).isSome :=
    List.find?_isSome.mpr ⟨file, member, decide_eq_true rfl⟩
  obtain ⟨row, selected⟩ := Option.isSome_iff_exists.mp present
  have named := List.find?_some selected
  rw [Database.lifecycleStatus?, selected,
    ids.file_unique (List.mem_of_find?_eq_some selected) member (of_decide_eq_true named)]
  rfl

/-! The requests that assign statuses. -/

section Uploads

open UploadService

variable {identity : Identity} {uploadId : Uuid} {now : Timestamp} {db : Database} {store : σ}

private theorem still_along {α : Type} {program : Handler σ α} (still : program.EachWrite Still) :
    program.WritesAlong FollowsTables db store :=
  (still.mono fun _ _ _ keeps db => .of_keeps keeps db).along

private theorem proxyUploadPart_follows (ids : Identified db) (partNumber : Int) (stream : Bytes)
    (sizeBytes : Nat) (checksumSha256 : Option String) :
    (proxyUploadPart app identity uploadId partNumber stream sizeBytes checksumSha256
      now).WritesAlong FollowsTables db store := by
  unfold proxyUploadPart
  rw [writesAlong_reads_bind (getSession_writesNone _ _) (getSession_readOnly _ _)]
  intro upload session
  have found := getSession_ok session
  rw [writesAlong_liftExcept_bind]
  intro _ _
  rw [writesAlong_liftExcept_bind]
  intro number _
  rw [writesAlong_liftExcept_bind]
  intro _ _
  have rest : (do
      let stored ← Program.onStore .uploadPart
        (app.storage.uploadPart upload.bucket upload.objectKey upload.storageKey number stream
          sizeBytes checksumSha256)
      let part := storedRow upload number stored checksumSha256
      PartRepository.upsertPart part
      UploadRepository.touchActivity upload.id now
      return part : Handler σ UploadPart).EachWrite Still :=
    .bind (.onStore _ _) fun _ => .bind (.modify (upsertPart_still _)) fun _ =>
      .bind (.modify (touch_still _ _)) fun _ => .pure _
  dsimp only
  split
  · rename_i initiated
    unfold UploadRepository.updateStatus
    rw [writesAlong_modify_bind]
    refine ⟨.assignUpload (fun _ => rfl) (fun _ => rfl) fun status known => .inr ?_, still_along rest⟩
    rw [Option.mem_unique known (ids.uploadStatus?_eq found), initiated]
    exact List.mem_cons_self
  · exact still_along rest

/-- `complete` finds the parts of a session that never got one by proxy. -/
def CompletesUnstarted (app : AppState σ) (db : Database) (store : σ) (identity : Identity)
    (uploadId : Uuid) : Prop :=
  ∃ upload ∈ db.findUpload uploadId identity.tenantId, upload.status = .initiated ∧
    ∃ parts, (partsToComplete app upload).run db store = (.ok (parts, db), store)

/-- `completing` is assigned first, and then the rest follows the table. -/
theorem assemble_follows_iff {upload : UploadSession} {parts : List UploadedPart}
    (known : db.uploadStatus? upload.id = some upload.status)
    (unfinished : upload.status = .uploading ∨ upload.status = .initiated) :
    (assemble app identity upload parts now).WritesAlong FollowsTables db store ↔
      upload.status ≠ .initiated := by
  have assigned : (db.updateUpload upload.id (·.setStatus .completing)).uploadStatus? upload.id =
      some .completing := by
    refine (@Database.uploadStatus?_assign db upload.id (·.setStatus .completing) .completing
      (fun _ => rfl) fun _ => rfl).trans ?_
    rw [known]
    rfl
  unfold assemble UploadRepository.flushUpload
  rw [writesAlong_modify_bind]
  constructor
  · intro each initiated
    have status : db.uploadStatus? upload.id = some .initiated := known.trans (by rw [initiated])
    have edge := each.1.uploads upload.id _ status _ assigned
    simp [uploadTransitions] at edge
  · intro started
    have uploading := unfinished.resolve_right started
    refine ⟨.assignUpload (fun _ => rfl) (fun _ => rfl) fun status found => .inr ?_, ?_⟩
    · rw [Option.mem_unique found known, uploading]
      exact List.mem_cons_self
    · rw [writesAlong_onStore_bind]
      intro stored _
      unfold newId FileRepository.insertFile
      rw [writesAlong_ask_bind, writesAlong_write_bind]
      intro change stated
      split at stated
      · cases stated
      split at stated
      · cases stated
      · cases stated
        refine ⟨.of_keeps (.addFile _) _, ?_⟩
        rw [writesAlong_modify_bind]
        refine ⟨.assignUpload (fun _ => rfl) (fun _ => rfl) fun status found => .inr ?_,
          writesAlong_pure _⟩
        rw [Option.mem_unique found assigned]
        exact List.mem_cons_self

private theorem completedFile_writesNone {upload : UploadSession} :
    (completedFile identity upload : Handler σ (Option FileObject)).EachWrite
      fun _ _ _ => False := by
  unfold completedFile
  split
  · split
    · exact .select _ _
    · exact .pure _
  · exact .pure _

private theorem complete_follows_iff (ids : Identified db) :
    (UploadService.complete app identity uploadId now).WritesAlong FollowsTables db store ↔
      ¬ CompletesUnstarted app db store identity uploadId := by
  unfold UploadService.complete UploadRepository.getUpload
  rw [writesAlong_reads_bind (.select _ _) (.select _ _)]
  constructor
  · rintro each ⟨upload, found, initiated, parts, handed⟩
    have follows := each (some upload) (by rw [← found]; rfl)
    have new : (completedFile identity upload : Handler σ (Option FileObject)) = pure none :=
      if_neg (by rw [initiated]; simp)
    dsimp only at follows
    rw [new, writesAlong_reads_bind (.pure _) (.pure _)] at follows
    have follows := follows none rfl
    dsimp only at follows
    rw [writesAlong_refuseIf_bind] at follows
    have follows := follows (by rw [initiated]; simp)
    rw [writesAlong_refuseIf_bind] at follows
    have follows := follows (by rw [initiated]; simp)
    rw [writesAlong_reads_bind (partsToComplete_writesNone _) (partsToComplete_readOnly _ _)]
      at follows
    have assembles := follows parts handed
    exact (assemble_follows_iff (ids.uploadStatus?_eq found) (.inr initiated)).mp assembles initiated
  · intro started found selected
    have same : db.findUpload uploadId identity.tenantId = found := by
      cases selected
      rfl
    cases found with
    | none => exact (EachWrite.fail _).along
    | some upload =>
      dsimp only
      rw [writesAlong_reads_bind completedFile_writesNone (completedFile_readOnly _ _)]
      intro existing _
      cases existing with
      | some file => exact writesAlong_pure _
      | none =>
        dsimp only
        rw [writesAlong_refuseIf_bind]
        intro _
        rw [writesAlong_refuseIf_bind]
        intro _
        rw [writesAlong_reads_bind (partsToComplete_writesNone _) (partsToComplete_readOnly _ _)]
        intro parts handed
        obtain ⟨_, _, unfinished⟩ := partsToComplete_ok handed
        exact (assemble_follows_iff (ids.uploadStatus?_eq same) unfinished).mpr fun initiated =>
          started ⟨upload, same, initiated, parts, handed⟩

private theorem abort_follows (ids : Identified db) :
    (abort app identity uploadId).WritesAlong FollowsTables db store := by
  unfold abort UploadRepository.getUpload
  rw [writesAlong_reads_bind (.select _ _) (.select _ _)]
  intro found selected
  have same : db.findUpload uploadId identity.tenantId = found := by
    cases selected
    rfl
  cases found with
  | none => exact (EachWrite.fail _).along
  | some upload =>
    have known := ids.uploadStatus?_eq same
    dsimp only
    rw [writesAlong_refuseIf_bind]
    intro _
    split
    · exact writesAlong_pure _
    · rw [writesAlong_liftExcept_bind]
      intro target moved
      have assigned : (db.updateUpload upload.id (·.setStatus .aborting)).uploadStatus? upload.id =
          some .aborting := by
        refine (@Database.uploadStatus?_assign db upload.id (·.setStatus .aborting) .aborting
          (fun _ => rfl) fun _ => rfl).trans ?_
        rw [known]
        rfl
      have last : ∀ store, (do
          UploadRepository.flushUpload upload.id (·.setStatus .aborted)
          return upload.setStatus .aborted : Handler σ UploadSession).WritesAlong FollowsTables
            (db.updateUpload upload.id (·.setStatus .aborting)) store := by
        intro store
        unfold UploadRepository.flushUpload
        rw [writesAlong_modify_bind]
        refine ⟨.assignUpload (fun _ => rfl) (fun _ => rfl) fun status found => .inr ?_,
          writesAlong_pure _⟩
        rw [Option.mem_unique found assigned]
        exact List.mem_cons_self
      unfold UploadRepository.flushUpload at last ⊢
      rw [writesAlong_modify_bind]
      refine ⟨.assignUpload (fun _ => rfl) (fun _ => rfl) fun status found => .inr ?_, ?_⟩
      · rw [Option.mem_unique found known]
        exact transitionUpload_ok moved
      · split
        · rw [writesAlong_tryStore_bind, writesAlong_liftExcept_bind]
          exact fun _ _ => last _
        · exact last _

private theorem expireAll_follows {ids : List Uuid}
    (expirable : ∀ id ∈ ids, ∀ status ∈ db.uploadStatus? id,
      .expired = status ∨ .expired ∈ uploadTransitions status) :
    (CleanupService.expireAll ids : Handler σ Unit).WritesAlong FollowsTables db store := by
  induction ids generalizing db with
  | nil => exact writesAlong_pure ()
  | cons id rest ih =>
    unfold CleanupService.expireAll
    rw [writesAlong_modify_bind]
    refine ⟨.assignUpload (fun _ => rfl) (fun _ => rfl) (expirable id List.mem_cons_self), ih ?_⟩
    intro other member status known
    rw [@Database.uploadStatus?_updateUpload db id other (·.setStatus .expired) fun _ => rfl] at known
    obtain ⟨upload, found, rfl⟩ := Option.map_eq_some_iff.mp known
    split
    · exact .inl rfl
    · refine expirable other (List.mem_cons_of_mem _ member) _ ?_
      rw [Database.uploadStatus?, found]
      rfl

private theorem expireUploadSessions_follows (ids : Identified db) (batchSize : Nat) :
    (CleanupService.expireUploadSessions batchSize now : Handler σ Nat).WritesAlong FollowsTables
      db store := by
  unfold CleanupService.expireUploadSessions
  rw [writesAlong_ask_bind, writesAlong_bind_pure]
  refine expireAll_follows fun id selected status known => .inr ?_
  obtain ⟨upload, member, rfl⟩ := List.mem_map.mp (List.mem_of_mem_take selected)
  obtain ⟨present, conditions⟩ := List.mem_filter.mp member
  rw [Option.mem_unique known (ids.uploadStatus?_of_mem present)]
  rcases (of_decide_eq_true conditions).1 with initiated | uploading
  · rw [initiated]
    simp [uploadTransitions]
  · rw [uploading]
    simp [uploadTransitions]

end Uploads

section Files

open LifecycleWorker

variable {db : Database} {store : σ} {now : Timestamp}

private theorem delete_follows (sound : Ordinary db) (identity : Identity)
    (fileId : Uuid) :
    (FileService.delete app identity fileId now).WritesAlong FollowsTables db store := by
  unfold FileService.delete FileRepository.getFile
  rw [writesAlong_reads_bind (.select _ _) (.select _ _)]
  intro found selected
  cases found with
  | none => exact (EachWrite.fail _).along
  | some file =>
    dsimp only
    rw [writesAlong_refuseIf_bind]
    intro _
    rw [writesAlong_refuseIf_bind]
    intro _
    rw [writesAlong_onStore_bind]
    intro _ _
    unfold FileRepository.flushFile
    refine List.forall_mem_singleton.mpr ?_
    refine .assignFile (fun _ => rfl) (fun _ => rfl) fun status known => ?_
    obtain ⟨row, row_found, rfl⟩ := Option.map_eq_some_iff.mp known
    rcases sound row (List.mem_of_find?_eq_some row_found) with active | deleting | expired | deleted
    · rw [active]
      exact .inr (by simp [lifecycleTransitions])
    · rw [deleting]
      exact .inr (by simp [lifecycleTransitions])
    · rw [expired]
      exact .inr (by simp [lifecycleTransitions])
    · exact .inl deleted.symm

private theorem announce_still (file : FileObject) (toStatus : LifecycleStatus) :
    (announce file toStatus now : Handler σ Unit).EachWrite Still :=
  .bind (addEvent_still _) fun _ => .modify (.of_same (fun _ => rfl) fun _ => rfl)

/-- The worker announces a file it has expired without passing through `expiring`. -/
theorem processFile_follows_iff {file : FileObject}
    (known : db.lifecycleStatus? file.id = some .active) :
    (processFile app file now).WritesAlong FollowsTables db store ↔
      (file.legalHold = true ∨ file.lifecycleAction ≠ .notify) := by
  unfold processFile
  split
  · rename_i held
    exact iff_of_true (still_along (.bind (addEvent_still _) fun _ => .pure _)) (.inl held)
  · rename_i free
    split
    · rename_i action
      refine iff_of_true ?_ (.inr (by rw [action]; simp))
      have deleting : (db.updateFile file.id (·.setLifecycleStatus .deleting)).lifecycleStatus?
          file.id = some .deleting := by
        refine (@Database.lifecycleStatus?_assign db file.id (·.setLifecycleStatus .deleting)
          .deleting (fun _ => rfl) fun _ => rfl).trans ?_
        rw [known]
        rfl
      unfold FileRepository.flushDeleting
      rw [writesAlong_modify_bind]
      refine ⟨.assignFile (fun _ => rfl) (fun _ => rfl) fun status found => .inr ?_, ?_⟩
      · rw [Option.mem_unique found known]
        simp [lifecycleTransitions]
      · rw [writesAlong_tryStore_bind]
        split
        · unfold FileRepository.flushFile
          rw [writesAlong_modify_bind]
          refine ⟨.assignFile (fun _ => rfl) (fun _ => rfl) fun status found => .inr ?_,
            still_along (.bind (announce_still _ _) fun _ => .pure _)⟩
          rw [Option.mem_unique found deleting]
          exact List.mem_cons_self
        · exact still_along (.bind (.modify (.updateFile (fun _ => rfl) fun _ => rfl)) fun _ =>
            .pure _)
    · rename_i action
      have expired : (db.updateFile file.id (·.setLifecycleStatus .expired)).lifecycleStatus?
          file.id = some .expired := by
        refine (@Database.lifecycleStatus?_assign db file.id (·.setLifecycleStatus .expired)
          .expired (fun _ => rfl) fun _ => rfl).trans ?_
        rw [known]
        rfl
      refine iff_of_false (fun follows => ?_) fun passes => ?_
      · unfold FileRepository.flushFile at follows
        rw [writesAlong_modify_bind] at follows
        have edge := follows.1.files file.id _ known _ expired
        simp [lifecycleTransitions] at edge
      · exact passes.elim free fun silent => silent action
    · rename_i undeleted silent
      refine iff_of_true (still_along ?_) (.inr silent)
      exact .bind (.modify (.updateFile (fun _ => rfl) fun _ => rfl)) fun _ =>
        .bind (announce_still _ _) fun _ => .pure _

private theorem processAll_follows_iff {files : List FileObject} (distinct : (files.map (·.id)).Nodup)
    (known : ∀ file ∈ files, db.lifecycleStatus? file.id = some .active) :
    (processAll app files now).WritesAlong FollowsTables db store ↔
      ∀ file ∈ files, file.legalHold = true ∨ file.lifecycleAction ≠ .notify := by
  induction files generalizing db store with
  | nil => exact iff_of_true (writesAlong_pure _) (List.forall_mem_nil _)
  | cons file rest ih =>
    obtain ⟨processed, db', change, store', turned, _, rows, turn⟩ :=
      processFile_run app file now db store
    rw [List.map_cons, List.nodup_cons] at distinct
    -- the turn of one file leaves the others as they were selected
    have later : ∀ other ∈ rest, db'.lifecycleStatus? other.id = some .active := by
      intro other member
      have different : other.id ≠ file.id := by
        intro same
        exact distinct.1 (same ▸ List.mem_map_of_mem member)
      have before := known other (List.mem_cons_of_mem file member)
      have after : db'.lifecycleStatus? other.id =
          (db.updateFile file.id change).lifecycleStatus? other.id := by
        unfold Database.lifecycleStatus?
        rw [rows]
      rw [after, db.lifecycleStatus?_updateFile_of_ne (turn_ids turn) different, before]
    unfold processAll
    rw [writesAlong_bind, List.forall_mem_cons,
      processFile_follows_iff (known file List.mem_cons_self)]
    refine and_congr_right fun _ => ?_
    constructor
    · intro each
      have continued := each processed db' store' turned
      rw [writesAlong_bind_pure] at continued
      exact (ih distinct.2 later).mp continued
    · intro passes value db₁ store₁ ran
      cases turned.symm.trans ran
      rw [writesAlong_bind_pure]
      exact (ih distinct.2 later).mpr passes

/-- The worker is to notify about a file that is due. -/
def Notifies (db : Database) (batchSize : Nat) (now : Timestamp) : Prop :=
  (∀ file ∈ dueFiles db batchSize now, file.loadable = true) ∧
    ∃ file ∈ dueFiles db batchSize now, file.legalHold = false ∧ file.lifecycleAction = .notify

private theorem processBatch_follows_iff (ids : Identified db) (batchSize : Nat) :
    (processBatch app batchSize now).WritesAlong FollowsTables db store ↔
      ¬ Notifies db batchSize now := by
  have unique := ids.fileIds_nodup
  have known : ∀ file ∈ dueFiles db batchSize now, db.lifecycleStatus? file.id = some .active := by
    intro file due
    obtain ⟨member, _, active, _⟩ := dueFiles_mem due
    rw [ids.lifecycleStatus?_of_mem member, active]
  have each := @processAll_follows_iff σ app db store now _ (dueFiles_unique unique batchSize now)
    known
  unfold processBatch selectDue Notifies
  rw [writesAlong_reads_bind (.select _ _) (.select _ _)]
  simp only [Program.run]
  by_cases loads : (dueFiles db batchSize now).all (·.loadable)
  · rw [if_pos loads]
    have every := List.all_eq_true.mp loads
    constructor
    · rintro follows ⟨_, file, due, free, notify⟩
      rcases each.mp (follows _ rfl) file due with held | silent
      · rw [held] at free
        cases free
      · exact silent notify
    · intro quiet files selected
      cases selected
      refine each.mpr fun file due => ?_
      by_contra loud
      rw [not_or, not_not] at loud
      exact quiet ⟨every, file, due, Bool.eq_false_iff.mpr loud.1, loud.2⟩
  · rw [if_neg loads]
    refine iff_of_true (fun files selected => ?_) fun notifies =>
      loads (List.all_eq_true.mpr notifies.1)
    cases selected

end Files

/-! Runs of requests. -/

theorem FileChange.ordinary {change : FileObject → FileObject} (kind : FileChange app change)
    {file : FileObject} (sound : file.Ordinary) : (change file).Ordinary := by
  cases kind with
  | deleted now => exact .inr (.inr (.inr rfl))
  | updated adjudicated => exact sound
  | extended adjudicated => exact sound
  | permanent => exact sound
  | held hold => exact sound

private theorem turns_ordinary {now : Timestamp} {due files files' : List FileObject} {store store' : σ}
    (turns : LifecycleWorker.Turns app now due files store files' store')
    (sound : ∀ file ∈ files, file.Ordinary) : ∀ file ∈ files', file.Ordinary := by
  refine LifecycleWorker.turns_forall turns (fun file _ _ _ _ turn row ordinary => ?_) sound
  cases turn with
  | blocked held => exact ordinary
  | deleted free action removed => exact .inr (.inr (.inr rfl))
  | refused free action kept => exact .inr (.inl rfl)
  | notified free action => exact .inr (.inr (.inl rfl))
  | settled free undeleted silent => exact ordinary

theorem Ordinary.addFile {db : Database} (sound : Ordinary db) {file : FileObject}
    (ordinary : file.Ordinary) : Ordinary (db.addFile file) := by
  intro row membership
  rcases List.mem_append.mp membership with old | added
  · exact sound row old
  · rw [List.mem_singleton.mp added]
    exact ordinary

theorem Change.ordinary {asked : Request} {db db' : Database} (change : Change app asked db db')
    (sound : Ordinary db) : Ordinary db' := by
  cases change with
  | none => exact sound
  | buckets files sessions parts ids =>
    unfold Ordinary
    rwa [files]
  | directories asks changes =>
    unfold Ordinary
    rwa [changes.besides.fileObjects]
  | created asks new owner => exact sound
  | @part upload part now starts found unfinished starting owner first last committed asks tenant =>
    have kept : (if starts then db.updateUpload upload.id (·.setStatus .uploading)
        else db).fileObjects = db.fileObjects := by
      split <;> rfl
    intro file member
    apply sound
    rw [← kept]
    exact (Database.upsertPart_fileObjects _ _) ▸ member
  | touched uploadId now => exact sound
  | prolonged uploadId expiresAt now => exact sound
  | aborted found unfinished tenant => exact sound
  | expired unfinished nobody =>
    unfold Ordinary
    rwa [expired_fileObjects]
  | completed asks found owner unfinished vacant => exact sound.addFile (.inl rfl)
  | uploaded asks policy vacant => exact sound.addFile (.inl rfl)
  | file kind same files owned =>
    unfold Ordinary
    rw [files]
    exact LifecycleWorker.forall_update sound fun row member _ => kind.ordinary (sound row member)
  | batch same loads turns nobody => exact turns_ordinary turns sound

/-- Every assignment that the request makes, committed or not, follows the tables. -/
def FollowsEvery (app : AppState σ) (world : World Database σ) (timed : Timed) : Prop :=
  (handle app timed.1 timed.2).WritesAlong FollowsTables world.db world.store

/-- The request neither completes a session that was never `uploading` nor lets the worker
notify. -/
def TakesEdges (app : AppState σ) (world : World Database σ) (timed : Timed) : Prop :=
  match timed.1 with
  | .complete identity uploadId =>
    ¬ CompletesUnstarted app world.db world.store identity uploadId
  | .processBatch batchSize => ¬ Notifies world.db batchSize timed.2
  | _ => True

private theorem followsEvery_iff {world : World Database σ} (ids : Identified world.db)
    (sound : Ordinary world.db) (timed : Timed) :
    FollowsEvery app world timed ↔ TakesEdges app world timed := by
  obtain ⟨request, now⟩ := timed
  unfold FollowsEvery
  cases request with
  | complete identity uploadId => exact writesAlong_bind_pure.trans (complete_follows_iff ids)
  | processBatch batchSize =>
    exact writesAlong_bind_pure.trans (processBatch_follows_iff ids batchSize)
  | proxyUploadPart identity uploadId partNumber body checksumSha256 =>
    exact iff_of_true (writesAlong_bind_pure.mpr (proxyUploadPart_follows ids _ _ _ _)) trivial
  | lostPart identity uploadId partNumber body checksumSha256 =>
    exact iff_of_true (writesAlong_bind.mpr ⟨proxyUploadPart_follows ids _ _ _ _,
      fun _ _ _ _ => (EachWrite.fail _).along⟩) trivial
  | abort identity uploadId =>
    exact iff_of_true (writesAlong_bind_pure.mpr (abort_follows ids)) trivial
  | expireUploadSessions batchSize =>
    exact iff_of_true (writesAlong_bind_pure.mpr (expireUploadSessions_follows ids _)) trivial
  | delete identity fileId =>
    exact iff_of_true (writesAlong_bind_pure.mpr (delete_follows sound identity fileId)) trivial
  | createBucket identity name =>
    exact iff_of_true (still_along (.bind (createBucket_still _ _) fun _ => .pure _)) trivial
  | deleteBucket identity name =>
    exact iff_of_true (still_along (.bind (deleteBucket_still _ _) fun _ => .pure _)) trivial
  | createSession identity request =>
    exact iff_of_true (still_along (.bind (createSession_still _ _ _) fun _ => .pure _)) trivial
  | directPart uploadId partNumber body =>
    exact iff_of_true (still_along (.bind (putPresigned_still _ _ _) fun _ => .pure _)) trivial
  | commitPart identity uploadId partNumber etag sizeBytes checksumSha256 =>
    exact iff_of_true (still_along (.bind (commitPart_still _ _ _ _ _ _ _) fun _ => .pure _))
      trivial
  | resume identity uploadId =>
    exact iff_of_true (still_along (.bind (resume_still _ _ _) fun _ => .pure _)) trivial
  | refresh identity uploadId =>
    exact iff_of_true (still_along (.bind (refresh_still _ _ _) fun _ => .pure _)) trivial
  | proxyUpload identity request =>
    exact iff_of_true (still_along (.bind (proxyUpload_still _ _ _) fun _ => .pure _)) trivial
  | updateLifecycle identity fileId requested =>
    exact iff_of_true (still_along (.bind (updateLifecycle_still _ _ _) fun _ => .pure _)) trivial
  | extend identity fileId extendSeconds =>
    exact iff_of_true (still_along (.bind (extend_still _ _ _ _) fun _ => .pure _)) trivial
  | makePermanent identity fileId =>
    exact iff_of_true (still_along (.bind (makePermanent_still _ _) fun _ => .pure _)) trivial
  | setLegalHold identity fileId hold =>
    exact iff_of_true (still_along (.bind (setLegalHold_still _ _ _) fun _ => .pure _)) trivial
  | read identity request =>
    exact iff_of_true (still_along (.bind (read_writesNone _ _) fun _ => .pure _)) trivial
  | directoryUpload identity request =>
    exact iff_of_true (still_along (.bind (directoryUpload_still _ _) fun _ => .pure _)) trivial

/-- The statuses of a run follow the two tables exactly when no request completes a session
that was never `uploading`, and the worker has nothing to notify about. -/
theorem statuses_follow_tables_iff (app : AppState σ) (world : World Database σ)
    (initial : world.db.Initial) (requests : List Timed) :
    EachMeets app (FollowsEvery app) world requests ↔
      EachMeets app (TakesEdges app) world requests := by
  refine eachMeets_congr _ _ (fun world => Integrity app world.db ∧ Ordinary world.db) ?_ ?_ ?_
    requests
  · exact fun world timed state => ⟨serve_integrity world timed state.1,
      (serve_change app world timed).ordinary state.2⟩
  · exact fun world timed state => followsEvery_iff state.1.ids state.2 timed
  · refine ⟨initial.integrity, ?_⟩
    unfold Ordinary
    rw [initial.1]
    exact List.forall_mem_nil _

theorem statuses_follow_tables_stored :
    EachMeets smallLocalApp (FollowsEvery smallLocalApp) ⟨{}, {}⟩ storedRun ↔
      EachMeets smallLocalApp (TakesEdges smallLocalApp) ⟨{}, {}⟩ storedRun :=
  statuses_follow_tables_iff smallLocalApp ⟨{}, {}⟩ (by decide) storedRun

/-- Both parts go to presigned URLs and are committed, and the session is completed. -/
def presignedRun : List Timed :=
  [(.createSession smallTenant { smallSession with uploadMode := "presigned" }, 0),
    (.directPart 0 1 [1, 2], 0), (.directPart 0 2 [3, 4], 0),
    (.commitPart smallTenant 0 1 "2" 2 none, 0), (.commitPart smallTenant 0 2 "2" 2 none, 0),
    (.complete smallTenant 0, 1)]

def notifiedRun : List Timed :=
  [(.proxyUpload smallTenant { smallUpload with
      lifecycle := some { mode := "ttl", action := some "notify", ttlSeconds := some 3600 } }, 0),
    (.processBatch 10, seconds 3600)]

/-- The presigned session goes from `initiated` to `completing`, and the file from `active` to
`expired`. -/
theorem presigned_and_notified_skip_edges :
    ¬ EachMeets smallS3App (FollowsEvery smallS3App) ⟨{}, smallS3⟩ presignedRun ∧
      ¬ EachMeets smallLocalApp (FollowsEvery smallLocalApp) ⟨{}, {}⟩ notifiedRun := by
  constructor
  · intro each
    obtain ⟨_, _, _, _, _, follows, _⟩ := each
    have edge := (follows _ (List.head_mem (by decide +kernel))).uploads 0 .initiated
      (by decide +kernel) .completing (by decide +kernel)
    simp [uploadTransitions] at edge
  · intro each
    obtain ⟨_, follows, _⟩ := each
    have edge := (follows _ (List.head_mem (by decide +kernel))).files 0 .active
      (by decide +kernel) .expired (by decide +kernel)
    simp [lifecycleTransitions] at edge

end PyUploadX
