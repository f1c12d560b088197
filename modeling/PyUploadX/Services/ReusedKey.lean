import PyUploadX.Db.Integrity
import PyUploadX.Services.FailedUpload

/-! Whether a key can be used again. A deleted file keeps its row, and the row keeps the key. -/
namespace PyUploadX

open Kit FileService

variable {σ : Type} {app : AppState σ}

/-- The checks of an upload that do not ask whether the key is taken. -/
structure Admitted (app : AppState σ) (world : World Database σ) (identity : Identity)
    (request : ProxyUpload) (now : Timestamp) (safeKey : ObjectKey)
    (effective : Option EffectiveLifecycle) : Prop where
  bucket : (validateBucket app identity request.bucket).run world.db world.store =
    (.ok ((), world.db), world.store)
  path : validateObjectKey app request.objectKey = .ok safeKey
  size : (request.sizeBytes : Int) ≤
    world.db.overrides.maximumFileSizeBytes.getD app.settings.uploads.fileSize.maximumBytes
  lifecycle : (effectiveLifecycle app request.lifecycle now).run world.db world.store =
    (.ok (effective, world.db), world.store)

/-- With a vacant key, as far as the policy asks, the upload passes every check. -/
theorem Admitted.validated {world : World Database σ} {identity : Identity}
    {request : ProxyUpload} {now : Timestamp} {safeKey : ObjectKey}
    {effective : Option EffectiveLifecycle}
    (admitted : Admitted app world identity request now safeKey effective)
    (vacant : app.settings.uploads.objectConflictPolicy = "reject" →
      app.storage.objectExists request.bucket safeKey world.store = .ok false) :
    Validated app world identity request now safeKey effective := by
  have conflict : (refuseExisting app request.bucket safeKey).run world.db world.store =
      (.ok ((), world.db), world.store) := by
    unfold refuseExisting
    split
    · rename_i reject
      rw [Program.run_bind_ok (Program.askStore_ok (vacant reject) world.db)]
      exact Program.refuseIf_false (by simp) _ _
    · rfl
  unfold Validated validateUpload SettingService.getMaxFileSize
  rw [Program.run_bind_ok admitted.bucket,
    Program.run_bind_ok (Program.liftExcept_ok admitted.path _ _), Program.run_ask_bind,
    Program.run_bind_ok (Program.refuseIf_false (Int.not_lt.mpr admitted.size) _ _),
    Program.run_bind_ok conflict, Program.run_bind_ok admitted.lifecycle]
  rfl

theorem Admitted.vacant {world : World Database σ} {identity : Identity}
    {request : ProxyUpload} {now : Timestamp} {safeKey key : ObjectKey}
    {effective policy : Option EffectiveLifecycle}
    (admitted : Admitted app world identity request now safeKey effective)
    (valid : Validated app world identity request now key policy)
    (reject : app.settings.uploads.objectConflictPolicy = "reject") :
    app.storage.objectExists request.bucket safeKey world.store = .ok false := by
  obtain ⟨path, conflict, _⟩ := validateUpload_ok valid
  rw [admitted.path] at path
  cases path
  exact refuseExisting_ok conflict reject

/-- The key and the policy that `smallUpload` comes to. -/
theorem smallKey_nonempty : ["a.bin"] ≠ [] := List.cons_ne_nil _ _

private theorem smallKey_ordinary : ∀ segment ∈ ["a.bin"], OrdinarySegment segment := by
  intro segment member
  rw [List.mem_singleton.mp member]
  exact ⟨by decide, by decide, by decide, by decide⟩

def smallKey : ObjectKey := ⟨["a.bin"], smallKey_nonempty, smallKey_ordinary⟩

end PyUploadX
