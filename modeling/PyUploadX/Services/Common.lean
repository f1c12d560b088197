import PyUploadX.Lifecycle.Policy
import PyUploadX.Services.Bucket

/-! Steps that both upload paths take. -/
namespace PyUploadX

open Kit

/-- The object a JSON value or a header stands for: the empty text counts as missing. -/
def firstText : Option String → Option String → Option String
  | some text, fallback => if text = "" then fallback else some text
  | none, fallback => fallback

/-- The values both upload paths derive from the effective lifecycle of a new file. -/
structure LifecycleColumns where
  mode : LifecycleMode := .permanent
  ttlSeconds : Option Int := none
  expiresAt : Option Timestamp := none
  nextActionAt : Option Timestamp := none

def lifecycleColumns : Option EffectiveLifecycle → LifecycleColumns
  | none => {}
  | some effective => {
      mode := .ofText effective.mode
      ttlSeconds := effective.ttlSeconds
      expiresAt := effective.expiresAt
      nextActionAt := if effective.action ≠ "none" then effective.expiresAt else none }

/-- `effective.get("action", "delete")`. -/
def lifecycleAction : Option EffectiveLifecycle → LifecycleAction
  | none => .delete
  | some effective => .ofText effective.action

def lifecycleSource (requested : Option LifecycleRequest) : LifecycleSource :=
  if requested.getD {} = {} then .server else .client

variable {σ : Type} (app : AppState σ)

/-- `Counter.inc`: a counter of the metrics does not go down. -/
def Metrics.inc (amount : Int) : Handler σ Unit :=
  Program.refuseIf (amount < 0)
    (.value "Counters can only be incremented by non-negative amounts.")

/-- `normalize_relative_path(object_key, maximum_bytes=1024)`. -/
def validateObjectKey (objectKey : String) : Except Failure ObjectKey :=
  normalizeRelativePath app.nfc 64 1024 objectKey

def validateBucket (identity : Identity) (bucket : String) : Handler σ Unit := do
  let allowed ← BucketService.isBucketAllowed app identity.tenantId bucket
  Program.refuseIf (allowed = false) (.api (.invalidBucket bucket))

/-- The conflict check; only the policy `reject` makes it. -/
def refuseExisting (bucket : String) (objectKey : ObjectKey) : Handler σ Unit := do
  if app.settings.uploads.objectConflictPolicy = "reject" then
    let stored ← Program.askStore .objectExists (app.storage.objectExists bucket objectKey)
    Program.refuseIf (stored = true) (.api (.objectAlreadyExists bucket objectKey.text))

def effectiveLifecycle (requested : Option LifecycleRequest) (base : Timestamp) :
    Handler σ (Option EffectiveLifecycle) := do
  if app.settings.lifecycle.enabled then
    let serverDefault ← SettingService.getLifecycleDefault app
    let effective ← Program.liftExcept
      (computeEffectiveLifecycle requested serverDefault app.settings.lifecycle.policy base)
    return some effective
  else return none

end PyUploadX
