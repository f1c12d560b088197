import PyUploadX.Lifecycle.Retention
import PyUploadX.Services.SettingUpdate

/-! The default policy that updates leave, and the adjudication of uploads that ask for no
policy of their own. -/
namespace PyUploadX

open Kit SettingService

/-- What the adjudication of an upload at a time asks of a mode beyond being allowed. -/
def Grantable (rules : LifecyclePolicyRules) (base : Timestamp) (mode : String)
    (ttlSeconds : Option Int) : Prop :=
  mode ≠ "expires_at" ∧ (mode = "permanent" → rules.permanentAllowed = true) ∧
    (mode = "ttl" ∨ mode = "temporary" ∨ mode = "sliding_ttl" →
      ∃ ttl ∈ ttlSeconds, rules.Allows ttl ∧ inCalendar (base + seconds ttl) = true)

instance (rules : LifecyclePolicyRules) (base : Timestamp) (mode : String)
    (ttlSeconds : Option Int) : Decidable (Grantable rules base mode ttlSeconds) :=
  inferInstanceAs (Decidable (_ ∧ _))

section Adjudication

variable {rules : LifecyclePolicyRules} {base : Timestamp}

private theorem error_ne_ok {α : Type} {failure : Failure} :
    ¬ ∃ value : α, Except.error failure = Except.ok value := by
  rintro ⟨_, same⟩
  cases same

theorem computeEffectiveLifecycle_none_iff {policy : LifecycleDefaultPolicy} :
    (∃ effective, computeEffectiveLifecycle none policy rules base = .ok effective) ↔
      policy.mode ∈ rules.allowedModes ∧ policy.action ∈ rules.allowedActions ∧
        Grantable rules base policy.mode policy.ttlSeconds := by
  have unheard : heard none rules = {} := ite_self _
  have mode : modeAsked none policy rules = policy.mode := by rw [modeAsked, unheard]; rfl
  have action : actionAsked none policy rules = policy.action := by rw [actionAsked, unheard]; rfl
  have ttl : ttlAsked none policy rules = policy.ttlSeconds := by rw [ttlAsked, unheard]; rfl
  have running : ∀ text, text ∈ runningModes ↔ text = "ttl" ∨ text = "temporary" ∨
      text = "sliding_ttl" := fun text => by simp [runningModes]
  have verdict := @computeEffectiveLifecycle_verdict none policy rules base
  generalize computeEffectiveLifecycle none policy rules base = outcome at verdict ⊢
  cases verdict with
  | refused disallowed =>
    rw [mode, action] at disallowed
    exact iff_of_false error_ne_ok fun granted =>
      disallowed ⟨granted.1, granted.2.1, granted.2.2.2.1⟩
  | adjudicated listed acts permanent branch =>
    rw [mode] at listed permanent branch
    rw [action] at acts branch
    rw [ttl, unheard] at branch
    cases branch with
    | running named given allowed dated =>
      refine iff_of_true ⟨_, rfl⟩ ⟨listed, acts, fun same => ?_, permanent, fun _ => ?_⟩
      · rw [same] at named
        exact absurd named (by decide)
      · exact ⟨_, given, allowed, dated⟩
    | beyond named given allowed undated =>
      refine iff_of_false error_ne_ok fun granted => ?_
      obtain ⟨ttl, stated, _, dated⟩ := granted.2.2.2.2 ((running _).mp named)
      cases given.symm.trans stated
      exact absurd dated (Bool.eq_false_iff.mp undated)
    | outOfRange named given refused =>
      refine iff_of_false error_ne_ok fun granted => ?_
      obtain ⟨ttl, stated, within, _⟩ := granted.2.2.2.2 ((running _).mp named)
      cases given.symm.trans stated
      exact refused within
    | unlimited named missing =>
      refine iff_of_false error_ne_ok fun granted => ?_
      obtain ⟨ttl, stated, _⟩ := granted.2.2.2.2 ((running _).mp named)
      cases missing.symm.trans stated
    | fixed named given late => cases given
    | unfixed named => exact iff_of_false error_ne_ok fun granted => granted.2.2.1 named
    | endless other unfixed =>
      exact iff_of_true ⟨_, rfl⟩ ⟨listed, acts, unfixed, permanent, fun named =>
        absurd ((running _).mpr named) other⟩

end Adjudication

/-- The fields of `default_policy` in the body. -/
def SettingsUpdate.policy? (request : SettingsUpdate) : Option JsonObject :=
  match request.payload with
  | .object payload => (JsonObject.group payload "lifecycle").bind (·.group "default_policy")
  | _ => none

namespace JsonObject

def text? (fields : JsonObject) (key : String) : Option String :=
  match fields.given key with
  | some (.string text) => some text
  | _ => none

def number? (fields : JsonObject) (key : String) : Option Int :=
  (fields.given key).bind fun value => (intField key value).toOption

end JsonObject

/-- What the body gives, merged over the default in force, can be granted at a time. -/
def MergesGrantable (settings : Settings) (base : Timestamp) (rows : AppSettings)
    (request : SettingsUpdate) : Prop :=
  let current := (getEffective settings rows.overrides).lifecycleDefault
  ∀ fields ∈ request.policy?, Grantable settings.lifecycle.policy base
    ((fields.text? "mode").getD current.mode)
    (fields.number? "ttl_seconds" <|> current.ttlSeconds)

instance (settings : Settings) (base : Timestamp) (rows : AppSettings)
    (request : SettingsUpdate) : Decidable (MergesGrantable settings base rows request) :=
  inferInstanceAs (Decidable (∀ fields ∈ request.policy?, _))

/-- An upload at a time, without a policy of its own, is granted one. -/
def GrantsDefault (settings : Settings) (base : Timestamp) (rows : AppSettings) : Prop :=
  ∃ effective, computeEffectiveLifecycle none
    (getEffective settings rows.overrides).lifecycleDefault settings.lifecycle.policy base =
      .ok effective

section Merging

variable {settings : Settings} {base : Timestamp} {rows rows' : AppSettings}
  {request : SettingsUpdate}

private theorem grantsDefault_iff :
    GrantsDefault settings base rows ↔
      let current := (getEffective settings rows.overrides).lifecycleDefault
      current.mode ∈ settings.lifecycle.policy.allowedModes ∧
        current.action ∈ settings.lifecycle.policy.allowedActions ∧
        Grantable settings.lifecycle.policy base current.mode current.ttlSeconds :=
  computeEffectiveLifecycle_none_iff

private theorem textField_given {fields : JsonObject} {key message : String} {allowed : List String}
    {result : Option String}
    (done : checked (textField allowed message) (fields.given key) = .ok result) :
    result = fields.text? key := by
  unfold JsonObject.text?
  cases given : fields.given key with
  | none =>
    rw [given] at done
    cases done
    rfl
  | some value =>
    rw [given] at done
    obtain ⟨text, passed, rfl⟩ := checked_some done
    rw [(Json.among_eq_some (textField_among passed)).1]

private theorem numberField_given {fields : JsonObject} {key message : String} {accepts : Int → Bool}
    {result : Option Int}
    (done : checked (numberField key accepts message) (fields.given key) = .ok result) :
    result = fields.number? key := by
  unfold JsonObject.number?
  cases given : fields.given key with
  | none =>
    rw [given] at done
    cases done
    rfl
  | some value =>
    rw [given] at done
    obtain ⟨number, passed, rfl⟩ := checked_some done
    obtain ⟨read, parsed, accepted⟩ := except_bind_eq_ok.mp passed
    split at accepted
    · cases accepted
      rw [Option.bind_some, parsed]
      rfl
    · cases accepted

/-- The other groups leave the row of the default policy as it is. -/
theorem update_lifecycleRow (done : update settings request rows = .ok rows') :
    ∃ payload before, request.payload = .object payload ∧
      before.lifecycleDefault = rows.lifecycleDefault ∧
      applyGroup (JsonObject.group payload "lifecycle") (updateLifecycle settings) before =
        .ok rows' := by
  obtain ⟨payload, first, second, same, storage, uploads, lifecycle⟩ := update_ok done
  refine ⟨payload, second, same, ?_, lifecycle⟩
  have kept : first.lifecycleDefault = rows.lifecycleDefault := by
    refine @applyGroup_preserves _ _ _ _ (fun after => after.lifecycleDefault =
      rows.lifecycleDefault) rfl (fun fields _ after done => ?_) storage
    obtain ⟨bucket, _, done⟩ := except_bind_eq_ok.mp done
    obtain ⟨presign, _, done⟩ := except_bind_eq_ok.mp done
    cases done
    rfl
  refine @applyGroup_preserves _ _ _ _ (fun after => after.lifecycleDefault =
    rows.lifecycleDefault) kept (fun fields _ after done => ?_) uploads
  obtain ⟨maxSize, _, done⟩ := except_bind_eq_ok.mp done
  obtain ⟨threshold, _, done⟩ := except_bind_eq_ok.mp done
  obtain ⟨mode, _, done⟩ := except_bind_eq_ok.mp done
  obtain ⟨partSize, _, done⟩ := except_bind_eq_ok.mp done
  obtain ⟨expiry, _, done⟩ := except_bind_eq_ok.mp done
  cases done
  exact kept

/-- The default after an accepted update: what the body gives, if it gives a policy, each
field allowed and over the default as it was. -/
theorem update_lifecycleDefault (done : update settings request rows = .ok rows') :
    let current := (getEffective settings rows.overrides).lifecycleDefault
    let changed := (getEffective settings rows'.overrides).lifecycleDefault
    (request.policy? = none ∧ changed = current) ∨
      ∃ fields, request.policy? = some fields ∧
        changed.mode = (fields.text? "mode").getD current.mode ∧
        changed.ttlSeconds = (fields.number? "ttl_seconds" <|> current.ttlSeconds) ∧
        (changed.mode = current.mode ∨ changed.mode ∈ settings.lifecycle.policy.allowedModes) ∧
        (changed.action = current.action ∨
          changed.action ∈ settings.lifecycle.policy.allowedActions) := by
  obtain ⟨payload, before, same, kept, lifecycle⟩ := update_lifecycleRow done
  have default : (getEffective settings before.overrides).lifecycleDefault =
      (getEffective settings rows.overrides).lifecycleDefault := by
    unfold getEffective AppSettings.overrides
    rw [kept]
  have asked : request.policy? =
      (JsonObject.group payload "lifecycle").bind (·.group "default_policy") := by
    unfold SettingsUpdate.policy?
    rw [same]
  rw [asked]
  cases group : JsonObject.group payload "lifecycle" with
  | none =>
    rw [group] at lifecycle
    cases lifecycle
    exact .inl ⟨rfl, default⟩
  | some fields =>
    rw [group] at lifecycle
    obtain ⟨policy, mode, action, ttlSeconds, found, modes, actions, ttls, rfl⟩ :=
      lifecycleGroup_ok lifecycle
    rw [default]
    refine .inr ⟨policy, found, ?_, ?_, ?_, ?_⟩
    · rw [← textField_given modes]
      rfl
    · rw [← numberField_given ttls]
      rfl
    · cases mode with
      | none => exact .inl rfl
      | some text =>
        obtain ⟨raw, _, passed⟩ := checked_ok modes text rfl
        exact .inr (textField_ok passed)
    · cases action with
      | none => exact .inl rfl
      | some text =>
        obtain ⟨raw, _, passed⟩ := checked_ok actions text rfl
        exact .inr (textField_ok passed)

/-- An accepted update keeps the default grantable exactly when what it merges is. -/
theorem update_grantsDefault (grants : GrantsDefault settings base rows)
    (done : update settings request rows = .ok rows') :
    GrantsDefault settings base rows' ↔ MergesGrantable settings base rows request := by
  obtain ⟨mode, action, grantable⟩ := grantsDefault_iff.mp grants
  rw [grantsDefault_iff]
  unfold MergesGrantable
  rcases update_lifecycleDefault done with ⟨absent, same⟩ |
    ⟨fields, given, sameMode, sameTtl, modes, actions⟩
  · rw [absent]
    refine iff_of_true ?_ fun _ => nofun
    dsimp only
    rw [same]
    exact ⟨mode, action, grantable⟩
  · have allowedMode : (getEffective settings rows'.overrides).lifecycleDefault.mode ∈
        settings.lifecycle.policy.allowedModes :=
      modes.elim (fun same => same ▸ mode) id
    have allowedAction : (getEffective settings rows'.overrides).lifecycleDefault.action ∈
        settings.lifecycle.policy.allowedActions :=
      actions.elim (fun same => same ▸ action) id
    rw [given]
    constructor
    · rintro ⟨_, _, granted⟩ current other same
      cases same
      rw [← sameMode, ← sameTtl]
      exact granted
    · intro merges
      refine ⟨allowedMode, allowedAction, ?_⟩
      rw [sameMode, sameTtl]
      exact merges fields rfl

end Merging

/-- In a sequence of accepted updates over a default that an upload at a time is granted,
every default is granted to it exactly when every update merges into one that can be. -/
theorem updates_keep_default_grantable (settings : Settings) (base : Timestamp)
    (config : GrantsDefault settings base {}) (updates : List SettingsUpdate)
    (accepted : EachStep (commit settings)
      (fun rows request => (update settings request rows).isOk = true) {} updates) :
    (∀ count, GrantsDefault settings base (afterUpdates settings (updates.take count))) ↔
      EachStep (commit settings) (MergesGrantable settings base) {} updates := by
  refine always_iff_eachStep accepted config fun rows request passed grants => ?_
  cases done : update settings request rows with
  | error failure =>
    rw [done] at passed
    cases passed
  | ok rows' =>
    have same : commit settings rows request = rows' := by
      unfold commit
      rw [done]
    rw [same]
    exact update_grantsDefault grants done

private theorem defaultSettings_grant : GrantsDefault {} 0 {} :=
  grantsDefault_iff.mpr ⟨by decide, by decide, by decide⟩

theorem updates_keep_default_grantable_small :
    (∀ count, GrantsDefault {} 0 (afterUpdates {} ([smallSettingsUpdate].take count))) ↔
      EachStep (commit {}) (MergesGrantable {} 0) {} [smallSettingsUpdate] :=
  updates_keep_default_grantable {} 0 defaultSettings_grant [smallSettingsUpdate] (by decide +kernel)

/-- `{"lifecycle": {"default_policy": {"mode": "expires_at"}}}`. -/
def expiringDefault : SettingsUpdate where
  payload := .object [("lifecycle", .object [("default_policy",
    .object [("mode", .string "expires_at")])])]
  allowedBuckets := []

/-- A default that names no end is accepted, and refuses every upload that has none. -/
theorem expiring_default_is_accepted :
    GrantsDefault {} 0 {} ∧ (update {} expiringDefault {}).isOk = true ∧
      ¬ GrantsDefault {} 0 (afterUpdates {} [expiringDefault]) := by
  refine ⟨defaultSettings_grant, by decide +kernel, ?_⟩
  rw [grantsDefault_iff]
  decide +kernel

end PyUploadX
