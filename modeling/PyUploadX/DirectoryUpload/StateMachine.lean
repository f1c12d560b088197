import PyUploadX.Db.Models

/-! The states of a directory upload job. -/
namespace PyUploadX.DirectoryJobStatus

/-- `TRANSITIONS`. -/
def transitions : DirectoryJobStatus → List DirectoryJobStatus
  | created => [manifestUploading, cancelling]
  | manifestUploading => [ready, cancelling]
  | ready => [uploading, cancelling, completed]
  | uploading => [paused, finalizing, cancelling]
  | paused => [uploading]
  | finalizing => [completed, completedWithErrors]
  | cancelling => [cancelled]
  | completed | cancelled | completedWithErrors => []

def transition (current target : DirectoryJobStatus) : Except Failure DirectoryJobStatus :=
  if target ∈ current.transitions then .ok target
  else
    .error (.api (.uploadStateConflict
      s!"Cannot transition directory job from {current.value} to {target.value}."))

theorem transition_ok {current target status : DirectoryJobStatus}
    (moved : transition current target = .ok status) :
    status = target ∧ target ∈ current.transitions := by
  unfold transition at moved
  split at moved
  · rename_i allowed
    cases moved
    exact ⟨rfl, allowed⟩
  · cases moved

end PyUploadX.DirectoryJobStatus
