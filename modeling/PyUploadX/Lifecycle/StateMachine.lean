import PyUploadX.Db.Models

/-! The upload and lifecycle state machines. -/
namespace PyUploadX

def uploadTransitions : UploadStatus → List UploadStatus
  | .initiated => [.uploading, .aborting, .expired]
  | .uploading => [.completing, .aborting, .expired]
  | .completing => [.completed, .uploading]
  | .aborting => [.aborted]
  | _ => []

def UploadStatus.value : UploadStatus → String
  | .initiated => "initiated"
  | .uploading => "uploading"
  | .completing => "completing"
  | .completed => "completed"
  | .aborting => "aborting"
  | .aborted => "aborted"
  | .expired => "expired"

def transitionUpload (current target : UploadStatus) : Except Failure UploadStatus :=
  if target ∈ uploadTransitions current then .ok target
  else .error (.api (.uploadStateConflict
    s!"Cannot transition upload from {current.value} to {target.value}."))

theorem transitionUpload_ok {current target next : UploadStatus}
    (moved : transitionUpload current target = .ok next) : target ∈ uploadTransitions current := by
  unfold transitionUpload at moved
  split at moved
  · assumption
  · cases moved

/-- Only from an open session does the table lead to aborting and completing. -/
theorem open_of_transition {current target next : UploadStatus}
    (ends : target = .aborting ∨ target = .completing)
    (moved : transitionUpload current target = .ok next) :
    current = .uploading ∨ current = .initiated := by
  have listed := transitionUpload_ok moved
  rcases ends with rfl | rfl
  · cases current <;> simp_all [uploadTransitions]
  · cases current <;> simp_all [uploadTransitions]

/-- `LIFECYCLE_TRANSITIONS`. -/
def lifecycleTransitions : LifecycleStatus → List LifecycleStatus
  | .active => [.expiring, .archiving, .deleting, .deleted]
  | .expiring => [.expired, .deleting]
  | .expired => [.deleting, .deleted]
  | .deleting => [.deleted]
  | .archiving => [.archived]
  | .archived => [.restoring]
  | .restoring => [.active]
  | .deleted => []

/-- The statuses a session never leaves by the table. -/
def UploadStatus.terminal : UploadStatus → Bool
  | .completed | .aborted | .expired => true
  | _ => false

end PyUploadX
