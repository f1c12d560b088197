import PyUploadX.Core.Json
import PyUploadX.Kit.Runs
import PyUploadX.Lifecycle.Policy
import PyUploadX.Services.Setting

/-! `SettingService.update`: a body is checked group by group, stored as texts, and read
back by the getters. -/
namespace PyUploadX

open Kit

/-- The rows of `app_settings` by their keys. Of the JSON text of the default policy the row
keeps the policy that the text stands for. -/
structure AppSettings where
  defaultBucket : Option String := none
  presignDefault : Option String := none
  maxFileSize : Option String := none
  directThreshold : Option String := none
  defaultMode : Option String := none
  defaultPartSize : Option String := none
  sessionExpiry : Option String := none
  lifecycleDefault : Option LifecycleDefaultPolicy := none

/-- What the getters make of the rows; a text that is no number falls back to the
configuration (`_int_override`). -/
def AppSettings.overrides (rows : AppSettings) : Overrides where
  defaultBucket := rows.defaultBucket
  presignDefaultExpiresSeconds := rows.presignDefault.bind parseInt
  maximumFileSizeBytes := rows.maxFileSize.bind parseInt
  directUploadThresholdBytes := rows.directThreshold.bind parseInt
  defaultMode := rows.defaultMode
  defaultPartSizeBytes := rows.defaultPartSize.bind parseInt
  sessionExpiresAfterSeconds := rows.sessionExpiry.bind parseInt
  lifecycleDefault := rows.lifecycleDefault

/-- The values of the getters. -/
structure EffectiveSettings where
  defaultBucket : String
  presignDefaultSeconds : Int
  maxFileSize : Int
  directThreshold : Int
  defaultMode : String
  defaultPartSize : Int
  sessionExpiry : Int
  lifecycleDefault : LifecycleDefaultPolicy

/-- A body, and the buckets that its tenant may use. -/
structure SettingsUpdate where
  payload : Json
  allowedBuckets : List String

namespace SettingService

def minPresignSeconds : Int := 60

def minSessionSeconds : Int := 60

/-- The values of `get_effective` that overrides can change. -/
def getEffective (settings : Settings) (overrides : Overrides) : EffectiveSettings where
  defaultBucket := orText overrides.defaultBucket settings.storage.defaultBucket
  presignDefaultSeconds :=
    overrides.presignDefaultExpiresSeconds.getD settings.presign.defaultExpiresSeconds
  maxFileSize := overrides.maximumFileSizeBytes.getD settings.uploads.fileSize.maximumBytes
  directThreshold :=
    overrides.directUploadThresholdBytes.getD settings.uploads.directUploadThresholdBytes
  defaultMode := orText overrides.defaultMode settings.uploads.defaultMode
  defaultPartSize :=
    overrides.defaultPartSizeBytes.getD settings.uploads.multipart.defaultPartSizeBytes
  sessionExpiry :=
    overrides.sessionExpiresAfterSeconds.getD settings.uploads.session.expiresAfterSeconds
  lifecycleDefault := overrides.lifecycleDefault.getD settings.lifecycle.defaultPolicy

theorem getDefaultMode_eq {σ : Type} (app : AppState σ) :
    getDefaultMode app =
      Program.ask fun db => (getEffective app.settings db.overrides).defaultMode := by
  unfold getDefaultMode
  congr 1
  funext db
  unfold getEffective orText
  cases db.overrides.defaultMode <;> rfl

section Fields

def refuse {α : Type} (message : String) : Except Failure α :=
  .error (.api (.invalidSettings message))

/-- `_int_field`. -/
def intField (name : String) : Json → Except Failure Int
  | .bool value => .ok (if value then 1 else 0)
  | .int value => .ok value
  | .float (.finite truncated) => .ok truncated
  | .float .infinite => .error (.overflow "cannot convert float infinity to integer")
  | .string text =>
    match parseInt text with
    | some number => .ok number
    | none => refuse s!"{name} must be an integer."
  | .null | .float .nan | .array _ | .object _ => refuse s!"{name} must be an integer."

/-- A number that its check accepts. -/
def numberField (name : String) (accepts : Int → Bool) (message : String) (value : Json) :
    Except Failure Int := do
  let number ← intField name value
  if accepts number then .ok number else refuse message

/-- The number as the text of a row. -/
def numberText (name : String) (accepts : Int → Bool) (message : String) (value : Json) :
    Except Failure String := do
  let number ← numberField name accepts message value
  intText number

/-- One of some texts. -/
def textField (allowed : List String) (message : String) (value : Json) : Except Failure String :=
  match value.among allowed with
  | some text => .ok text
  | none => refuse message

/-- How Python prints a list of texts between its brackets. -/
def listing (texts : List String) : String :=
  ", ".intercalate (texts.map fun text => s!"'{text}'")

def bucketText (allowedBuckets : List String) : Json → Except Failure String
  | .string text =>
    let bucket := strip text
    if bucket = "" then refuse "default_bucket is required."
    else if bucket ∈ allowedBuckets then .ok bucket
    else refuse s!"Bucket '{bucket}' is not allowed."
  | _ => refuse "default_bucket is required."

variable (settings : Settings)

def presignText : Json → Except Failure String :=
  let maximum := settings.presign.maximumExpiresSeconds
  numberText "presign_default_expires_seconds"
    (fun seconds => minPresignSeconds ≤ seconds ∧ seconds ≤ maximum)
    s!"presign_default_expires_seconds must be within [{minPresignSeconds}, {maximum}]."

def maxFileSizeText : Json → Except Failure String :=
  numberText "maximum_file_size_bytes" (fun value => 0 < value)
    "maximum_file_size_bytes must be positive."

def directThresholdText : Json → Except Failure String :=
  numberText "direct_upload_threshold_bytes" (fun value => 0 ≤ value)
    "direct_upload_threshold_bytes must be non-negative."

def uploadModes : List String := ["automatic", "proxy", "presigned"]

def defaultModeText : Json → Except Failure String :=
  textField uploadModes s!"default_mode must be one of ({listing uploadModes})."

def partSizeText : Json → Except Failure String :=
  let minimum := settings.uploads.multipart.minimumPartSizeBytes
  let maximum := settings.uploads.multipart.maximumPartSizeBytes
  numberText "default_part_size_bytes" (fun value => minimum ≤ value ∧ value ≤ maximum)
    s!"default_part_size_bytes must be within [{minimum}, {maximum}]."

def sessionExpiryText : Json → Except Failure String :=
  let maximum := settings.uploads.session.maximumLifetimeSeconds
  numberText "expires_after_seconds"
    (fun value => minSessionSeconds ≤ value ∧ value ≤ maximum)
    s!"expires_after_seconds must be within [{minSessionSeconds}, {maximum}]."

def modeField : Json → Except Failure String :=
  let allowed := settings.lifecycle.policy.allowedModes
  textField allowed s!"default_policy.mode must be one of [{listing allowed}]."

def actionField : Json → Except Failure String :=
  let allowed := settings.lifecycle.policy.allowedActions
  textField allowed s!"default_policy.action must be one of [{listing allowed}]."

def ttlField : Json → Except Failure Int :=
  let rules := settings.lifecycle.policy
  numberField "ttl_seconds"
    (fun value => rules.minimumTtlSeconds ≤ value ∧ value ≤ rules.maximumTtlSeconds)
    s!"ttl_seconds must be within [{rules.minimumTtlSeconds}, {rules.maximumTtlSeconds}]."

end Fields

section Groups

variable (settings : Settings)

/-- A value that is given is checked. -/
def checked {α : Type} (check : Json → Except Failure α) :
    Option Json → Except Failure (Option α)
  | none => .ok none
  | some value => (check value).map some

/-- `set_value`, for a value that was given. -/
def stored (given row : Option String) : Option String := given <|> row

def updateStorage (allowedBuckets : List String) (storage : JsonObject) (rows : AppSettings) :
    Except Failure AppSettings := do
  let defaultBucket ← checked (bucketText allowedBuckets) (storage.given "default_bucket")
  let presign ← checked (presignText settings) (storage.given "presign_default_expires_seconds")
  return { rows with
    defaultBucket := stored defaultBucket rows.defaultBucket
    presignDefault := stored presign rows.presignDefault }

def updateUploads (uploads : JsonObject) (rows : AppSettings) : Except Failure AppSettings := do
  let multipart := uploads.group "multipart"
  let session := uploads.group "session"
  let maxSize ← checked maxFileSizeText (uploads.given "maximum_file_size_bytes")
  let threshold ← checked directThresholdText (uploads.given "direct_upload_threshold_bytes")
  let mode ← checked defaultModeText (uploads.given "default_mode")
  -- A part size or an expiry that is `null` is read as a number, and refused.
  let partSize ← checked (partSizeText settings)
    (multipart.bind (·.find? "default_part_size_bytes"))
  let expiry ← checked (sessionExpiryText settings)
    (session.bind (·.find? "expires_after_seconds"))
  return { rows with
    maxFileSize := stored maxSize rows.maxFileSize
    directThreshold := stored threshold rows.directThreshold
    defaultMode := stored mode rows.defaultMode
    defaultPartSize := stored partSize rows.defaultPartSize
    sessionExpiry := stored expiry rows.sessionExpiry }

/-- `json.dumps`: of the values only a long number can be refused. -/
def dumps (policy : LifecycleDefaultPolicy) : Except Failure LifecycleDefaultPolicy :=
  match policy.ttlSeconds with
  | none => .ok policy
  | some ttl => (intText ttl).map fun _ => policy

def updateLifecycle (lifecycle : JsonObject) (rows : AppSettings) : Except Failure AppSettings :=
  match lifecycle.group "default_policy" with
  | none => refuse "lifecycle.default_policy is required."
  | some policy => do
    let mode ← checked (modeField settings) (policy.given "mode")
    let action ← checked (actionField settings) (policy.given "action")
    let ttlSeconds ← checked (ttlField settings) (policy.given "ttl_seconds")
    let current := (getEffective settings rows.overrides).lifecycleDefault
    let document ← dumps {
      mode := mode.getD current.mode
      action := action.getD current.action
      ttlSeconds := ttlSeconds <|> current.ttlSeconds }
    return { rows with lifecycleDefault := some document }

/-- A group that is there. -/
def applyGroup (group : Option JsonObject)
    (apply : JsonObject → AppSettings → Except Failure AppSettings) (rows : AppSettings) :
    Except Failure AppSettings :=
  match group with
  | none => .ok rows
  | some fields => apply fields rows

def update (request : SettingsUpdate) (rows : AppSettings) : Except Failure AppSettings :=
  match request.payload with
  | .object payload => do
    let storage := JsonObject.group payload "storage"
    let uploads := JsonObject.group payload "uploads"
    let lifecycle := JsonObject.group payload "lifecycle"
    if storage.isNone ∧ uploads.isNone ∧ lifecycle.isNone then
      refuse ("At least one of settings.storage / settings.uploads / settings.lifecycle " ++
        "is required.")
    else do
      let rows ← applyGroup storage (updateStorage settings request.allowedBuckets) rows
      let rows ← applyGroup uploads (updateUploads settings) rows
      applyGroup lifecycle (updateLifecycle settings) rows
  | _ => refuse "settings body must be an object."

/-- Committed on success and rolled back on error. -/
def commit (rows : AppSettings) (request : SettingsUpdate) : AppSettings :=
  match update settings request rows with
  | .ok rows => rows
  | .error _ => rows

/-- The table after a sequence of updates, from an empty one. -/
def afterUpdates (updates : List SettingsUpdate) : AppSettings :=
  updates.foldl (commit settings) {}

end Groups

section Checks

variable {settings : Settings} {rows rows' : AppSettings}

private theorem numberField_ok {name message : String} {accepts : Int → Bool} {value : Json} {number : Int}
    (done : numberField name accepts message value = .ok number) : accepts number = true := by
  obtain ⟨read, _, done⟩ := except_bind_eq_ok.mp done
  split at done
  · rename_i accepted
    cases done
    exact accepted
  · cases done

/-- A stored text is read back as a number that was accepted. -/
theorem numberText_ok {name message : String} {accepts : Int → Bool} {value : Json} {text : String}
    (done : numberText name accepts message value = .ok text) :
    ∃ number, parseInt text = some number ∧ accepts number = true := by
  obtain ⟨number, accepted, written⟩ := except_bind_eq_ok.mp done
  exact ⟨number, parseInt_intText written, numberField_ok accepted⟩

theorem textField_among {allowed : List String} {message : String} {value : Json} {text : String}
    (done : textField allowed message value = .ok text) : value.among allowed = some text := by
  unfold textField at done
  split at done
  · rename_i found
    cases done
    exact found
  · cases done

theorem textField_ok {allowed : List String} {message : String} {value : Json} {text : String}
    (done : textField allowed message value = .ok text) : text ∈ allowed :=
  (Json.among_eq_some (textField_among done)).2

theorem checked_some {α : Type} {check : Json → Except Failure α} {value : Json}
    {result : Option α} (done : checked check (some value) = .ok result) :
    ∃ passed, check value = .ok passed ∧ result = some passed := by
  change (check value).map some = .ok result at done
  cases passed : check value with
  | error failure =>
    rw [passed] at done
    cases done
  | ok other =>
    rw [passed] at done
    cases done
    exact ⟨other, rfl, rfl⟩

theorem checked_ok {α : Type} {check : Json → Except Failure α} {given : Option Json}
    {result : Option α} (done : checked check given = .ok result) :
    ∀ value ∈ result, ∃ raw ∈ given, check raw = .ok value := by
  cases given with
  | none =>
    cases done
    exact fun _ => nofun
  | some raw =>
    obtain ⟨value, passed, rfl⟩ := checked_some done
    intro other same
    cases same
    exact ⟨raw, rfl, passed⟩

/-- What holds of the given text and of the one in the row holds of the stored one. -/
theorem stored_all {given row : Option String} {holds : String → Prop}
    (first : ∀ text ∈ given, holds text) (second : ∀ text ∈ row, holds text) :
    ∀ text ∈ stored given row, holds text := by
  unfold stored
  cases given with
  | none => exact second
  | some text => exact first

end Checks

end SettingService

/-- An allowed mode and action, and a time to live that is missing or allowed. -/
structure LifecycleDefaultPolicy.InRange (rules : LifecyclePolicyRules)
    (policy : LifecycleDefaultPolicy) : Prop where
  mode : policy.mode ∈ rules.allowedModes
  action : policy.action ∈ rules.allowedActions
  ttlSeconds : ∀ ttl ∈ policy.ttlSeconds,
    rules.minimumTtlSeconds ≤ ttl ∧ ttl ≤ rules.maximumTtlSeconds

open SettingService

/-- Every value lies within the bounds of the configuration. -/
structure EffectiveSettings.InRange (settings : Settings) (effective : EffectiveSettings) :
    Prop where
  presign : minPresignSeconds ≤ effective.presignDefaultSeconds ∧
    effective.presignDefaultSeconds ≤ settings.presign.maximumExpiresSeconds
  maxFileSize : 0 < effective.maxFileSize
  directThreshold : 0 ≤ effective.directThreshold
  defaultMode : effective.defaultMode ∈ uploadModes
  defaultPartSize :
    settings.uploads.multipart.minimumPartSizeBytes ≤ effective.defaultPartSize ∧
      effective.defaultPartSize ≤ settings.uploads.multipart.maximumPartSizeBytes
  sessionExpiry : minSessionSeconds ≤ effective.sessionExpiry ∧
    effective.sessionExpiry ≤ settings.uploads.session.maximumLifetimeSeconds
  lifecycleDefault : effective.lifecycleDefault.InRange settings.lifecycle.policy

/-- The text in the row, if there is one, is of a number with the property. -/
def Reads (row : Option String) (holds : Int → Prop) : Prop :=
  ∀ text ∈ row, ∃ number, parseInt text = some number ∧ holds number

/-- Every row is read back as a value within its bounds. -/
structure AppSettings.Valid (settings : Settings) (rows : AppSettings) : Prop where
  presign : Reads rows.presignDefault fun number => minPresignSeconds ≤ number ∧
    number ≤ settings.presign.maximumExpiresSeconds
  maxFileSize : Reads rows.maxFileSize fun number => 0 < number
  directThreshold : Reads rows.directThreshold fun number => 0 ≤ number
  defaultMode : ∀ text ∈ rows.defaultMode, text ∈ uploadModes
  defaultPartSize : Reads rows.defaultPartSize fun number =>
    settings.uploads.multipart.minimumPartSizeBytes ≤ number ∧
      number ≤ settings.uploads.multipart.maximumPartSizeBytes
  sessionExpiry : Reads rows.sessionExpiry fun number => minSessionSeconds ≤ number ∧
    number ≤ settings.uploads.session.maximumLifetimeSeconds
  lifecycleDefault : ∀ policy ∈ rows.lifecycleDefault, policy.InRange settings.lifecycle.policy

section Ranges

variable {settings : Settings} {rows rows' : AppSettings}

theorem Reads.getD {row : Option String} {holds : Int → Prop} {fallback : Int}
    (reads : Reads row holds) (configured : holds fallback) :
    holds ((row.bind parseInt).getD fallback) := by
  cases row with
  | none => exact configured
  | some text =>
    obtain ⟨number, parsed, holding⟩ := reads text rfl
    rw [Option.bind_some, parsed]
    exact holding

/-- The configuration is in range when nothing overrides it. -/
def Settings.InRange (settings : Settings) : Prop := (getEffective settings {}).InRange settings

private theorem orText_all {text : Option String} {fallback : String} {holds : String → Prop}
    (given : ∀ value ∈ text, holds value) (configured : holds fallback) :
    holds (orText text fallback) := by
  cases text with
  | none => exact configured
  | some value =>
    change holds (if value = "" then fallback else value)
    by_cases empty : value = ""
    · rw [if_pos empty]
      exact configured
    · rw [if_neg empty]
      exact given value rfl

theorem AppSettings.Valid.policy (valid : rows.Valid settings) (config : settings.InRange) :
    (getEffective settings rows.overrides).lifecycleDefault.InRange settings.lifecycle.policy := by
  cases row : rows.lifecycleDefault with
  | none =>
    have same : (getEffective settings rows.overrides).lifecycleDefault =
        settings.lifecycle.defaultPolicy := by
      rw [getEffective, AppSettings.overrides, row]
      rfl
    rw [same]
    exact config.lifecycleDefault
  | some policy =>
    have same : (getEffective settings rows.overrides).lifecycleDefault = policy := by
      rw [getEffective, AppSettings.overrides, row]
      rfl
    rw [same]
    exact valid.lifecycleDefault policy row

theorem AppSettings.Valid.inRange (valid : rows.Valid settings) (config : settings.InRange) :
    (getEffective settings rows.overrides).InRange settings where
  presign := valid.presign.getD config.presign
  maxFileSize := valid.maxFileSize.getD config.maxFileSize
  directThreshold := valid.directThreshold.getD config.directThreshold
  defaultMode := orText_all valid.defaultMode config.defaultMode
  defaultPartSize := valid.defaultPartSize.getD config.defaultPartSize
  sessionExpiry := valid.sessionExpiry.getD config.sessionExpiry
  lifecycleDefault := valid.policy config

theorem AppSettings.Valid.empty : ({} : AppSettings).Valid settings := by
  constructor <;> exact fun _ => nofun

/-- A number that is given and accepted takes the place of the row. -/
theorem Reads.stored {row given : Option String} {holds : Int → Prop} [DecidablePred holds]
    {name message : String} {raw : Option Json} (reads : Reads row holds)
    (done : checked (numberText name (fun number => decide (holds number)) message) raw =
      .ok given) : Reads (SettingService.stored given row) holds := by
  refine stored_all (fun text member => ?_) reads
  obtain ⟨value, _, passed⟩ := checked_ok done text member
  obtain ⟨number, parsed, accepted⟩ := numberText_ok passed
  exact ⟨number, parsed, of_decide_eq_true accepted⟩

private theorem updateStorage_valid {allowedBuckets : List String} {storage : JsonObject}
    (valid : rows.Valid settings)
    (done : updateStorage settings allowedBuckets storage rows = .ok rows') :
    rows'.Valid settings := by
  obtain ⟨bucket, _, done⟩ := except_bind_eq_ok.mp done
  obtain ⟨presign, checked, done⟩ := except_bind_eq_ok.mp done
  cases done
  exact { valid with presign := valid.presign.stored checked }

private theorem updateUploads_valid {uploads : JsonObject} (valid : rows.Valid settings)
    (done : updateUploads settings uploads rows = .ok rows') : rows'.Valid settings := by
  obtain ⟨maxSize, checkedSize, done⟩ := except_bind_eq_ok.mp done
  obtain ⟨threshold, checkedThreshold, done⟩ := except_bind_eq_ok.mp done
  obtain ⟨mode, checkedMode, done⟩ := except_bind_eq_ok.mp done
  obtain ⟨partSize, checkedPart, done⟩ := except_bind_eq_ok.mp done
  obtain ⟨expiry, checkedExpiry, done⟩ := except_bind_eq_ok.mp done
  cases done
  exact { valid with
    maxFileSize := valid.maxFileSize.stored checkedSize
    directThreshold := valid.directThreshold.stored checkedThreshold
    defaultMode := by
      refine stored_all (fun text member => ?_) valid.defaultMode
      obtain ⟨raw, _, passed⟩ := checked_ok checkedMode text member
      exact textField_ok passed
    defaultPartSize := valid.defaultPartSize.stored checkedPart
    sessionExpiry := valid.sessionExpiry.stored checkedExpiry }

private theorem dumps_ok {policy document : LifecycleDefaultPolicy} (done : dumps policy = .ok document) :
    document = policy := by
  unfold dumps at done
  split at done
  · cases done
    rfl
  · rename_i ttl _
    cases written : intText ttl with
    | error failure =>
      rw [written] at done
      cases done
    | ok text =>
      rw [written] at done
      cases done
      rfl

/-- What a lifecycle group stores: the values it gives, over the default as it was. -/
theorem lifecycleGroup_ok {lifecycle : JsonObject}
    (done : updateLifecycle settings lifecycle rows = .ok rows') :
    ∃ policy mode action ttlSeconds, lifecycle.group "default_policy" = some policy ∧
      checked (modeField settings) (policy.given "mode") = .ok mode ∧
      checked (actionField settings) (policy.given "action") = .ok action ∧
      checked (ttlField settings) (policy.given "ttl_seconds") = .ok ttlSeconds ∧
      rows' = { rows with lifecycleDefault := some {
        mode := mode.getD (getEffective settings rows.overrides).lifecycleDefault.mode
        action := action.getD (getEffective settings rows.overrides).lifecycleDefault.action
        ttlSeconds := ttlSeconds <|>
          (getEffective settings rows.overrides).lifecycleDefault.ttlSeconds } } := by
  unfold updateLifecycle at done
  split at done
  · cases done
  · rename_i policy group
    obtain ⟨mode, checkedMode, done⟩ := except_bind_eq_ok.mp done
    obtain ⟨action, checkedAction, done⟩ := except_bind_eq_ok.mp done
    obtain ⟨ttlSeconds, checkedTtl, done⟩ := except_bind_eq_ok.mp done
    obtain ⟨document, dumped, done⟩ := except_bind_eq_ok.mp done
    cases done
    rw [dumps_ok dumped]
    exact ⟨policy, mode, action, ttlSeconds, group, checkedMode, checkedAction, checkedTtl, rfl⟩

private theorem getD_all {α : Type} {value : Option α} {fallback : α} {holds : α → Prop}
    (given : ∀ other ∈ value, holds other) (configured : holds fallback) :
    holds (value.getD fallback) := by
  cases value with
  | none => exact configured
  | some other => exact given other rfl

private theorem updateLifecycle_valid {lifecycle : JsonObject} (config : settings.InRange)
    (valid : rows.Valid settings) (done : updateLifecycle settings lifecycle rows = .ok rows') :
    rows'.Valid settings := by
  obtain ⟨policy, mode, action, ttlSeconds, _, checkedMode, checkedAction, checkedTtl, rfl⟩ :=
    lifecycleGroup_ok done
  have current := valid.policy config
  refine { valid with lifecycleDefault := fun document same => ?_ }
  cases same
  constructor
  · refine getD_all (fun text member => ?_) current.mode
    obtain ⟨raw, _, passed⟩ := checked_ok checkedMode text member
    exact textField_ok passed
  · refine getD_all (fun text member => ?_) current.action
    obtain ⟨raw, _, passed⟩ := checked_ok checkedAction text member
    exact textField_ok passed
  · intro ttl member
    cases ttlSeconds with
    | none => exact current.ttlSeconds ttl member
    | some value =>
      cases member
      obtain ⟨raw, _, passed⟩ := checked_ok checkedTtl ttl rfl
      exact of_decide_eq_true (numberField_ok passed)

theorem applyGroup_preserves {group : Option JsonObject}
    {apply : JsonObject → AppSettings → Except Failure AppSettings} {holds : AppSettings → Prop}
    (start : holds rows)
    (kept : ∀ fields ∈ group, ∀ rows', apply fields rows = .ok rows' → holds rows')
    (done : applyGroup group apply rows = .ok rows') : holds rows' := by
  unfold applyGroup at done
  split at done
  · cases done
    exact start
  · rename_i fields
    exact kept fields rfl rows' done

/-- The groups of an accepted update, applied one after the other. -/
theorem update_ok {request : SettingsUpdate} (done : update settings request rows = .ok rows') :
    ∃ payload first second, request.payload = .object payload ∧
      applyGroup (JsonObject.group payload "storage")
        (updateStorage settings request.allowedBuckets) rows = .ok first ∧
      applyGroup (JsonObject.group payload "uploads") (updateUploads settings) first = .ok second ∧
      applyGroup (JsonObject.group payload "lifecycle") (updateLifecycle settings) second =
        .ok rows' := by
  unfold update at done
  split at done
  · rename_i payload same
    dsimp only at done
    split at done
    · cases done
    · obtain ⟨first, storage, done⟩ := except_bind_eq_ok.mp done
      obtain ⟨second, uploads, done⟩ := except_bind_eq_ok.mp done
      exact ⟨payload, first, second, same, storage, uploads, done⟩
  · cases done

private theorem update_valid {request : SettingsUpdate} (config : settings.InRange)
    (valid : rows.Valid settings) (done : update settings request rows = .ok rows') :
    rows'.Valid settings := by
  obtain ⟨payload, first, second, _, storage, uploads, lifecycle⟩ := update_ok done
  have validFirst : first.Valid settings :=
    applyGroup_preserves valid (fun fields _ rows' => updateStorage_valid valid) storage
  have validSecond : second.Valid settings :=
    applyGroup_preserves validFirst (fun fields _ rows' => updateUploads_valid validFirst) uploads
  exact applyGroup_preserves validSecond
    (fun fields _ rows' => updateLifecycle_valid config validSecond) lifecycle

private theorem commit_valid (config : settings.InRange) (valid : rows.Valid settings)
    (request : SettingsUpdate) : (commit settings rows request).Valid settings := by
  unfold commit
  split
  · rename_i done
    exact update_valid config valid done
  · exact valid

end Ranges

/-- After any sequence of updates every value lies within the bounds of the configuration,
if its own defaults do; and an update that fails changes none of them. -/
theorem settings_stay_in_range (settings : Settings) (config : settings.InRange)
    (updates : List SettingsUpdate) :
    let rows := afterUpdates settings updates
    (getEffective settings rows.overrides).InRange settings ∧
      ∀ request failure, update settings request rows = .error failure →
        getEffective settings (commit settings rows request).overrides =
          getEffective settings rows.overrides := by
  have valid : (afterUpdates settings updates).Valid settings :=
    run_preserves updates .empty fun rows request valid => commit_valid config valid request
  refine ⟨valid.inRange config, fun request failure refused => ?_⟩
  unfold commit
  rw [refused]

def smallSettingsUpdate : SettingsUpdate where
  payload := .object [
    ("uploads", .object [("multipart", .object [("default_part_size_bytes", .string " 6_000_000 ")])]),
    ("lifecycle", .object [("default_policy", .object [("ttl_seconds", .int 7200)])])]
  allowedBuckets := ["app-default"]

private theorem defaultSettings_inRange : ({} : Settings).InRange := by
  constructor
  case lifecycleDefault => constructor <;> decide
  all_goals decide

theorem settings_stay_in_range_small :
    let rows := afterUpdates {} [smallSettingsUpdate]
    (getEffective {} rows.overrides).InRange {} ∧
      ∀ request failure, update {} request rows = .error failure →
        getEffective {} (commit {} rows request).overrides = getEffective {} rows.overrides :=
  settings_stay_in_range {} defaultSettings_inRange [smallSettingsUpdate]

end PyUploadX
