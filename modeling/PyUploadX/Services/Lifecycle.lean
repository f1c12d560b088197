import PyUploadX.Lifecycle.Policy
import PyUploadX.Services.Setting

/-! Changes to the lifecycle of a stored file. -/
namespace PyUploadX

open Kit

namespace LifecycleService

variable {σ : Type} (app : AppState σ)

/-- `_effective`: the configured default, without the overrides. -/
def effective (requested : LifecycleRequest) (completedAt : Timestamp) :
    Except Failure EffectiveLifecycle :=
  computeEffectiveLifecycle (some requested) app.settings.lifecycle.defaultPolicy
    app.settings.lifecycle.policy completedAt

/-- `_apply`. -/
def apply (effective : EffectiveLifecycle) (file : FileObject) : FileObject :=
  { file with
    lifecycleMode := .ofText effective.mode
    lifecycleAction := .ofText effective.action
    ttlSeconds := effective.ttlSeconds
    expiresAt := effective.expiresAt
    nextActionAt := if effective.action ≠ "none" then effective.expiresAt else none }

def unchangedEvent (identity : Identity) (file : FileObject) (eventType : String) :
    LifecycleEvent where
  tenantId := identity.tenantId
  fileId := file.id
  eventType := eventType
  fromStatus := file.lifecycleStatus
  toStatus := file.lifecycleStatus

def lockFile (identity : Identity) (fileId : Uuid) : Handler σ FileObject := do
  let some file ← FileRepository.getFile fileId identity.tenantId true
    | Program.fail (.api (.fileNotFound fileId))
  return file

structure LifecycleView where
  mode : LifecycleMode
  action : LifecycleAction
  ttlSeconds : Option Int
  expiresAt : Option Timestamp
  status : LifecycleStatus
  deriving DecidableEq

def getLifecycle (identity : Identity) (fileId : Uuid) : Handler σ LifecycleView := do
  let some file ← FileRepository.getFile fileId identity.tenantId
    | Program.fail (.api (.fileNotFound fileId))
  return {
    mode := file.lifecycleMode
    action := file.lifecycleAction
    ttlSeconds := file.ttlSeconds
    expiresAt := file.expiresAt
    status := file.lifecycleStatus }

def updateLifecycle (identity : Identity) (fileId : Uuid) (requested : LifecycleRequest) :
    Handler σ FileObject := do
  let file ← lockFile identity fileId
  Program.refuseIf (file.legalHold = true) (.api .fileUnderLegalHold)
  let effective ← Program.liftExcept (effective app requested file.completedAt)
  let change := fun file : FileObject => { apply effective file with lifecycleSource := .client }
  FileRepository.flushFile fileId change
  addEvent (unchangedEvent identity file "lifecycle.updated")
  return change file

/-- A legal hold does not stop an extension. -/
def extend (identity : Identity) (fileId : Uuid) (extendSeconds : Int) (now : Timestamp) :
    Handler σ FileObject := do
  let file ← lockFile identity fileId
  Program.refuseIf (file.lifecycleMode = .permanent ∨ file.lifecycleMode = .expiresAt)
    (.api (.invalidLifecyclePolicy s!"cannot extend {file.lifecycleMode.formatted} lifecycle"))
  Program.refuseIf (extendSeconds ≤ 0)
    (.api (.invalidLifecyclePolicy "extend_seconds must be positive"))
  let expiresAt ← Program.liftExcept (addSeconds (file.expiresAt.getD now) extendSeconds)
  let requested : LifecycleRequest := {
    mode := some file.lifecycleMode.value
    action := some file.lifecycleAction.value
    ttlSeconds := file.ttlSeconds
    expiresAt := some (some expiresAt) }
  let effective ← Program.liftExcept (effective app requested file.completedAt)
  FileRepository.flushFile fileId (apply effective)
  addEvent (unchangedEvent identity file "lifecycle.extended")
  return apply effective file

/-- The columns of a file that is kept for good. -/
def permanently (file : FileObject) : FileObject :=
  { file with
    lifecycleMode := .permanent
    lifecycleAction := .none
    ttlSeconds := none
    expiresAt := none
    nextActionAt := none }

def makePermanent (identity : Identity) (fileId : Uuid) : Handler σ FileObject := do
  Program.refuseIf (app.settings.lifecycle.policy.permanentAllowed = false)
    (.api (.invalidLifecyclePolicy "permanent lifecycle is not allowed by server policy"))
  let file ← lockFile identity fileId
  Program.refuseIf (file.legalHold = true) (.api .fileUnderLegalHold)
  FileRepository.flushFile fileId permanently
  addEvent (unchangedEvent identity file "lifecycle.make_permanent")
  return permanently file

def setLegalHold (identity : Identity) (fileId : Uuid) (hold : Bool) : Handler σ FileObject := do
  let file ← lockFile identity fileId
  FileRepository.flushFile fileId fun file => { file with legalHold := hold }
  addEvent (unchangedEvent identity file
    (if hold then "legal_hold.set" else "legal_hold.released"))
  return { file with legalHold := hold }

end LifecycleService

end PyUploadX
