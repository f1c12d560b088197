import PyUploadX.Services.Outcomes

/-! The calls the requests make to the storage. -/
namespace PyUploadX

open Kit UploadService

variable {σ : Type} {app : AppState σ}

/-- The calls that put an object in place. -/
def Operation.WritesObject (operation : Operation) : Prop :=
  operation = .putObject ∨ operation = .completeMultipartUpload

private theorem isBucketAllowed_silent (tenantId bucket : String) :
    (BucketService.isBucketAllowed app tenantId bucket).Calls (fun _ => False) := by
  unfold BucketService.isBucketAllowed
  split
  · exact .pure _
  · exact .bind (.ask _) fun _ => .pure _

/-- A check may ask the storage whether an object exists, and which parts it has. -/
def Operation.Asks (operation : Operation) : Prop :=
  operation = .objectExists ∨ operation = .listParts

private theorem Operation.Asks.not_writes {operation : Operation} (writes : operation.WritesObject) :
    ¬ operation.Asks := by
  rcases writes with rfl | rfl <;> simp [Operation.Asks]

private theorem validateUpload_asks (identity : Identity) (request : ProxyUpload) (now : Timestamp) :
    (FileService.validateUpload app identity request now).Calls Operation.Asks := by
  have allowed : (BucketService.isBucketAllowed app identity.tenantId request.bucket).Calls
      Operation.Asks := fun db store call made => (isBucketAllowed_silent _ _ db store call made).elim
  refine .bind (.bind allowed fun _ => .refuseIf _ _) fun _ => .bind (.liftExcept _) fun safeKey =>
    .bind (.ask _) fun _ => .bind (.refuseIf _ _) fun _ => .bind ?_ fun _ => .bind ?_ fun _ =>
      .pure _
  · unfold refuseExisting
    split
    · exact .bind (.askStore (.inl rfl) _) fun _ => .refuseIf _ _
    · exact .pure _
  · unfold effectiveLifecycle
    split
    · exact .bind (.ask _) fun _ => .bind (.liftExcept _) fun _ => .pure _
    · exact .pure _

private theorem completedFile_asks (identity : Identity) (upload : UploadSession) :
    (completedFile identity upload : Handler σ (Option FileObject)).Calls Operation.Asks := by
  unfold completedFile
  split
  · split
    · exact .select _ _
    · exact .pure _
  · exact .pure _

private theorem partsToComplete_asks (upload : UploadSession) :
    (partsToComplete app upload).Calls Operation.Asks := by
  refine .bind (.ask _) fun rows => .bind (.refuseIf _ _) fun _ => .bind ?_ fun parts => ?_
  · unfold storedParts
    split
    · split
      · refine .bind (.askStore (.inr rfl) _) fun listed => ?_
        dsimp only
        split
        · exact .fail _
        · exact .pure _
      · exact .pure _
    · exact .pure _
  · dsimp only
    split
    · exact .bind (.liftExcept _) fun _ => .pure _
    · exact .pure _

/-- A write of `proxy_upload` has just been validated. -/
theorem proxyUpload_writes {identity : Identity} {request : ProxyUpload} {now : Timestamp}
    {db : Database} {store : σ} {call : Call Operation Database σ}
    (made : call ∈ (FileService.proxyUpload app identity request now).calls db store)
    (writes : call.name.WritesObject) :
    call.db = db ∧ (validateBucket app identity request.bucket).run db store =
      (.ok ((), db), store) := by
  unfold FileService.proxyUpload at made
  obtain ⟨⟨safeKey, effective⟩, db₁, store₁, valid, putting⟩ :=
    (validateUpload_asks identity request now).later (Operation.Asks.not_writes writes) made
  obtain ⟨rfl, rfl⟩ := (validateUpload_readOnly _ _ _ _).ok valid
  have checked := valid
  unfold FileService.validateUpload at checked
  rw [(validateBucket_readOnly _ _).bind_eq_ok] at checked
  obtain ⟨_, passed, _⟩ := checked
  refine ⟨?_, passed⟩
  rcases Program.mem_calls_onStore putting with rfl | ⟨stored, store', _, late⟩
  · rfl
  · have silent : ∀ stored, (do
        let id ← newId
        let file := FileService.uploadedFileObject app identity request safeKey effective id stored
          now
        FileRepository.insertFile app.settings.database.dialect file
        return file : Handler σ FileObject).Calls (fun _ => False) := fun _ =>
      .bind (.ask _) fun _ => .bind .write fun _ => .pure _
    exact (silent stored _ _ call late).elim

/-- A write of `complete` is for the unfinished session it found, whose bucket it does not
look at. -/
theorem complete_writes {identity : Identity} {uploadId : Uuid} {now : Timestamp}
    {db : Database} {store : σ} {call : Call Operation Database σ}
    (made : call ∈ (complete app identity uploadId now).calls db store)
    (writes : call.name.WritesObject) :
    call.db.storageBuckets = db.storageBuckets ∧
      ∃ upload, db.findUpload uploadId identity.tenantId = some upload ∧
        (upload.status = .uploading ∨ upload.status = .initiated) := by
  have asks := Operation.Asks.not_writes writes
  unfold complete UploadRepository.getUpload at made
  have locks : (Program.select (some (.upload uploadId))
      (fun db => .ok (Database.findUpload db uploadId identity.tenantId)) .done :
      Handler σ (Option UploadSession)).Calls Operation.Asks := .select _ _
  obtain ⟨found, db₁, store₁, read, checking⟩ := locks.later asks made
  cases read
  split at checking
  · rename_i upload found
    obtain ⟨existing, _, _, read, going⟩ := (completedFile_asks _ _).later asks checking
    obtain ⟨rfl, rfl⟩ := (completedFile_readOnly _ _).ok read
    split at going
    · cases going
    · obtain ⟨_, _, _, passed, unaborted⟩ := (Program.Calls.refuseIf _ _).later asks going
      obtain ⟨rfl, rfl⟩ := (Program.ReadOnly.refuseIf _ _).ok passed
      obtain ⟨_, _, _, passed, unexpired⟩ := (Program.Calls.refuseIf _ _).later asks unaborted
      obtain ⟨rfl, rfl⟩ := (Program.ReadOnly.refuseIf _ _).ok passed
      obtain ⟨parts, _, _, prepared, assembling⟩ := (partsToComplete_asks _).later asks unexpired
      obtain ⟨rfl, rfl⟩ := (partsToComplete_readOnly _ _).ok prepared
      unfold assemble at assembling
      obtain ⟨_, _, _, flushed, writing⟩ := (Program.Calls.modify _ _ _).later asks assembling
      cases flushed
      refine ⟨?_, upload, found, (partsToComplete_ok prepared).2.2⟩
      rcases Program.mem_calls_onStore writing with rfl | ⟨stored, store', _, late⟩
      · rfl
      · have silent : ∀ stored, (do
            let id ← newId
            let file := completedFileObject app identity upload id stored now
            FileRepository.insertFile app.settings.database.dialect file
            UploadRepository.flushUpload upload.id (·.setCompleted id)
            return file : Handler σ FileObject).Calls (fun _ => False) := fun _ =>
          .bind (.ask _) fun _ => .bind .write fun _ => .bind (.modify _ _ _) fun _ => .pure _
        exact (silent stored _ _ call late).elim
  · cases checking

theorem abort_calls (identity : Identity) (uploadId : Uuid) :
    (abort app identity uploadId).Calls (· = .abortMultipartUpload) := by
  refine .bind (.select _ _) fun found => ?_
  cases found with
  | none => exact .fail _
  | some upload =>
    refine .bind (.refuseIf _ _) fun _ => ?_
    dsimp only
    split
    · exact .pure _
    · refine .bind (.liftExcept _) fun _ => .bind (.modify _ _ _) fun _ => ?_
      split
      · refine .bind (.tryStore ?_ _) fun _ => .bind (.liftExcept _) fun _ =>
          .bind (.modify _ _ _) fun _ => .pure _
        rfl
      · exact .bind (.modify _ _ _) fun _ => .pure _

theorem refresh_silent (identity : Identity) (uploadId : Uuid) (now : Timestamp) :
    (refresh app identity uploadId now).Calls (fun _ => False) := by
  refine .bind (.refuseIf _ _) fun _ => .bind (.select _ _) fun found => ?_
  cases found with
  | none => exact .fail _
  | some upload =>
    exact .bind (.refuseIf _ _) fun _ => .bind (.ask _) fun _ => .bind (.refuseIf _ _) fun _ =>
      .bind (.modify _ _ _) fun _ => .pure _

end PyUploadX
