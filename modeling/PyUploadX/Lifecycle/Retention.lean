import PyUploadX.Lifecycle.Policy

/-! What the retention policy grants a client. -/
namespace PyUploadX

/-- What is left of a request that may override the default. -/
def heard (requested : Option LifecycleRequest) (rules : LifecyclePolicyRules) : LifecycleRequest :=
  if rules.allowClientOverride then requested.getD {} else {}

/-- The mode, the action and the number of seconds that are adjudicated. -/
def modeAsked (requested : Option LifecycleRequest) (serverDefault : LifecycleDefaultPolicy)
    (rules : LifecyclePolicyRules) : String :=
  orText (heard requested rules).mode serverDefault.mode

def actionAsked (requested : Option LifecycleRequest) (serverDefault : LifecycleDefaultPolicy)
    (rules : LifecyclePolicyRules) : String :=
  orText (heard requested rules).action serverDefault.action

def ttlAsked (requested : Option LifecycleRequest) (serverDefault : LifecycleDefaultPolicy)
    (rules : LifecyclePolicyRules) : Option Int :=
  orNumber (heard requested rules).ttlSeconds serverDefault.ttlSeconds

/-- The modes that run for a number of seconds. -/
def runningModes : List String := ["ttl", "temporary", "sliding_ttl"]

/-- A number of seconds the policy allows. -/
def LifecyclePolicyRules.Allows (rules : LifecyclePolicyRules) (ttl : Int) : Prop :=
  rules.minimumTtlSeconds ≤ ttl ∧ ttl ≤ rules.maximumTtlSeconds

instance (rules : LifecyclePolicyRules) (ttl : Int) : Decidable (rules.Allows ttl) :=
  inferInstanceAs (Decidable (_ ∧ _))

/-- The branch that is taken for each mode, once mode and action are allowed. -/
inductive Adjudication (rules : LifecyclePolicyRules) (base : Timestamp) (mode action : String)
    (ttlSeconds : Option Int) (expiresAt : Option (Option Timestamp)) :
    Except Failure EffectiveLifecycle → Prop
  | running {ttl : Int} (named : mode ∈ runningModes) (given : ttlSeconds = some ttl)
      (allowed : rules.Allows ttl) (dated : inCalendar (base + seconds ttl) = true) :
      Adjudication rules base mode action ttlSeconds expiresAt
        (.ok ⟨mode, action, some ttl, some (base + seconds ttl)⟩)
  | beyond {ttl : Int} (named : mode ∈ runningModes) (given : ttlSeconds = some ttl)
      (allowed : rules.Allows ttl) (undated : inCalendar (base + seconds ttl) = false) :
      Adjudication rules base mode action ttlSeconds expiresAt
        (.error (.overflow "date value out of range"))
  | outOfRange {ttl : Int} (named : mode ∈ runningModes) (given : ttlSeconds = some ttl)
      (refused : ¬ rules.Allows ttl) :
      Adjudication rules base mode action ttlSeconds expiresAt
        (.error (.api (.ttlOutOfRange ttl rules.minimumTtlSeconds rules.maximumTtlSeconds)))
  | unlimited {message : String} (named : mode ∈ runningModes) (missing : ttlSeconds = none) :
      Adjudication rules base mode action ttlSeconds expiresAt
        (.error (.api (.invalidLifecyclePolicy message)))
  | fixed {parsed : Timestamp} (named : mode = "expires_at") (given : expiresAt = some (some parsed))
      (late : rules.minimumTtlSeconds ≤ (parsed - base).tdiv 1000000) :
      Adjudication rules base mode action ttlSeconds expiresAt
        (.ok ⟨mode, action, some ((parsed - base).tdiv 1000000), some parsed⟩)
  | unfixed {failure : Failure} (named : mode = "expires_at") :
      Adjudication rules base mode action ttlSeconds expiresAt (.error failure)
  | endless (other : mode ∉ runningModes) (unfixed : mode ≠ "expires_at") :
      Adjudication rules base mode action ttlSeconds expiresAt (.ok ⟨mode, action, none, none⟩)

section Adjudicating

variable {requested : Option LifecycleRequest} {serverDefault : LifecycleDefaultPolicy}
  {rules : LifecyclePolicyRules} {base : Timestamp}

private theorem computeEffectiveLifecycle_eq :
    computeEffectiveLifecycle requested serverDefault rules base =
      let mode := modeAsked requested serverDefault rules
      let action := actionAsked requested serverDefault rules
      let ttlSeconds := ttlAsked requested serverDefault rules
      if mode ∉ rules.allowedModes then
        .error (.api (.invalidLifecyclePolicy s!"mode '{mode}' is not allowed"))
      else if action ∉ rules.allowedActions then
        .error (.api (.invalidLifecyclePolicy s!"action '{action}' is not allowed"))
      else if mode = "permanent" ∧ rules.permanentAllowed = false then
        .error (.api (.invalidLifecyclePolicy "permanent lifecycle is not allowed by server policy"))
      else if mode = "ttl" ∨ mode = "temporary" then
        runningPolicy rules base "ttl" mode action ttlSeconds
      else if mode = "expires_at" then
        fixedPolicy rules base mode action (heard requested rules).expiresAt
      else if mode = "sliding_ttl" then
        runningPolicy rules base "sliding_ttl" mode action ttlSeconds
      else .ok { mode, action, ttlSeconds := none, expiresAt := none } := rfl

private theorem runningPolicy_adjudication {label mode action : String} {ttlSeconds : Option Int}
    {expiresAt : Option (Option Timestamp)} (named : mode ∈ runningModes) :
    Adjudication rules base mode action ttlSeconds expiresAt
      (runningPolicy rules base label mode action ttlSeconds) := by
  unfold runningPolicy
  cases ttlSeconds with
  | none => exact .unlimited named rfl
  | some ttl =>
    dsimp only
    split
    · rename_i allowed
      unfold addSeconds
      split
      · rename_i dated
        exact .running named rfl allowed dated
      · rename_i undated
        exact .beyond named rfl allowed (Bool.not_eq_true _ ▸ undated)
    · rename_i refused
      exact .outOfRange named rfl refused

private theorem fixedPolicy_adjudication {mode action : String} {ttlSeconds : Option Int}
    {expiresAt : Option (Option Timestamp)} (named : mode = "expires_at") :
    Adjudication rules base mode action ttlSeconds expiresAt
      (fixedPolicy rules base mode action expiresAt) := by
  rcases expiresAt with _ | _ | parsed
  · exact .unfixed named
  · exact .unfixed named
  · unfold fixedPolicy
    dsimp only
    split
    · exact .unfixed named
    · rename_i late
      exact .fixed named rfl (Int.not_lt.mp late)

/-- Nothing is granted unless mode and action are allowed. -/
inductive Verdict (requested : Option LifecycleRequest) (serverDefault : LifecycleDefaultPolicy)
    (rules : LifecyclePolicyRules) (base : Timestamp) : Except Failure EffectiveLifecycle → Prop
  | refused {message : String}
      (disallowed : ¬ (modeAsked requested serverDefault rules ∈ rules.allowedModes ∧
        actionAsked requested serverDefault rules ∈ rules.allowedActions ∧
        (modeAsked requested serverDefault rules = "permanent" → rules.permanentAllowed = true))) :
      Verdict requested serverDefault rules base (.error (.api (.invalidLifecyclePolicy message)))
  | adjudicated {outcome : Except Failure EffectiveLifecycle}
      (mode : modeAsked requested serverDefault rules ∈ rules.allowedModes)
      (action : actionAsked requested serverDefault rules ∈ rules.allowedActions)
      (permanent : modeAsked requested serverDefault rules = "permanent" →
        rules.permanentAllowed = true)
      (branch : Adjudication rules base (modeAsked requested serverDefault rules)
        (actionAsked requested serverDefault rules) (ttlAsked requested serverDefault rules)
        (heard requested rules).expiresAt outcome) :
      Verdict requested serverDefault rules base outcome

/-- Everything `compute_effective_lifecycle` can answer. -/
theorem computeEffectiveLifecycle_verdict :
    Verdict requested serverDefault rules base
      (computeEffectiveLifecycle requested serverDefault rules base) := by
  rw [computeEffectiveLifecycle_eq]
  dsimp only
  split
  · rename_i mode
    exact .refused fun allowed => mode allowed.1
  · rename_i mode
    split
    · rename_i action
      exact .refused fun allowed => action allowed.2.1
    · rename_i action
      split
      · rename_i permanent
        refine .refused fun allowed => ?_
        have permitted := allowed.2.2 permanent.1
        rw [permanent.2] at permitted
        cases permitted
      · rename_i permanent
        refine .adjudicated (not_not.mp mode) (not_not.mp action) (fun same => ?_) ?_
        · exact Bool.not_eq_false _ ▸ fun forbidden => permanent ⟨same, forbidden⟩
        · split
          · rename_i named
            apply runningPolicy_adjudication
            rcases named with same | same <;> rw [same] <;> decide
          · rename_i unnamed
            split
            · rename_i named
              exact fixedPolicy_adjudication named
            · rename_i unfixed
              split
              · rename_i named
                apply runningPolicy_adjudication
                rw [named]
                decide
              · rename_i unsliding
                refine .endless (fun named => ?_) unfixed
                simp only [runningModes, List.mem_cons, List.not_mem_nil, or_false] at named
                rcases named with same | same | same
                · exact unnamed (.inl same)
                · exact unnamed (.inr same)
                · exact unsliding same

/-- With only the five known modes allowed, the policy that comes out has an end
exactly when it is not permanent. -/
theorem computeEffectiveLifecycle_scheduled {policy : EffectiveLifecycle}
    (known : ∀ mode ∈ rules.allowedModes, mode ∈ LifecycleMode.texts)
    (accepted : computeEffectiveLifecycle requested serverDefault rules base = .ok policy) :
    policy.Scheduled := by
  have verdict := @computeEffectiveLifecycle_verdict requested serverDefault rules base
  rw [accepted] at verdict
  cases verdict with
  | adjudicated mode action permanent branch =>
    cases branch with
    | running named given allowed dated =>
      refine iff_of_false (Option.some_ne_none _) fun same => ?_
      dsimp only at same
      rw [same] at named
      exact absurd named (by decide)
    | fixed named given late =>
      refine iff_of_false (Option.some_ne_none _) fun same => ?_
      exact absurd (named.symm.trans same) (by decide)
    | endless other unfixed =>
      refine iff_of_true rfl ?_
      have listed := known _ mode
      simp only [LifecycleMode.texts, runningModes, List.mem_cons, List.not_mem_nil, or_false]
        at listed other
      tauto

end Adjudicating

/-- What the policy promises about a lifecycle it grants. -/
structure Retained (rules : LifecyclePolicyRules) (base : Timestamp)
    (effective : EffectiveLifecycle) : Prop where
  mode : effective.mode ∈ rules.allowedModes
  action : effective.action ∈ rules.allowedActions
  permitted : effective.mode = "permanent" → rules.permanentAllowed = true
  ends : effective.expiresAt = none ↔ effective.mode = "permanent"
  bounded : effective.mode ≠ "permanent" → ∃ expiresAt ttl,
    effective.expiresAt = some expiresAt ∧ effective.ttlSeconds = some ttl ∧
    base + seconds rules.minimumTtlSeconds ≤ expiresAt ∧
    expiresAt ≤ base + seconds rules.maximumTtlSeconds ∧ rules.Allows ttl

/-- An end that would be granted is no later than the policy allows. -/
def EndsInTime (requested : Option LifecycleRequest) (serverDefault : LifecycleDefaultPolicy)
    (rules : LifecyclePolicyRules) (base : Timestamp) : Prop :=
  modeAsked requested serverDefault rules = "expires_at" → "expires_at" ∈ rules.allowedModes →
    actionAsked requested serverDefault rules ∈ rules.allowedActions →
    ∀ parsed, (heard requested rules).expiresAt = some (some parsed) →
      parsed ≤ base + seconds rules.maximumTtlSeconds

section Arithmetic

variable {base parsed ttl : Int}

/-- A positive number of seconds that is left lies within what is left. -/
theorem seconds_left (positive : 0 < ttl) (left : ttl ≤ (parsed - base).tdiv 1000000) :
    base + seconds ttl ≤ parsed ∧ 0 ≤ parsed - base := by
  have ahead : 0 ≤ parsed - base := by
    by_contra past
    have flipped : (parsed - base).tdiv 1000000 = -((base - parsed).tdiv 1000000) := by
      rw [← Int.neg_tdiv, Int.neg_sub]
    have nonneg : 0 ≤ (base - parsed).tdiv 1000000 := Int.tdiv_nonneg (by omega) (by decide)
    omega
  rw [Int.tdiv_eq_ediv_of_nonneg ahead] at left
  unfold seconds
  omega

private theorem seconds_most (ahead : 0 ≤ parsed - base) (most : parsed ≤ base + seconds ttl) :
    (parsed - base).tdiv 1000000 ≤ ttl := by
  rw [Int.tdiv_eq_ediv_of_nonneg ahead]
  unfold seconds at most
  omega

private theorem seconds_beyond (positive : 0 < ttl) (beyond : ¬ parsed ≤ base + seconds ttl) :
    ttl ≤ (parsed - base).tdiv 1000000 := by
  unfold seconds at beyond
  rw [Int.tdiv_eq_ediv_of_nonneg (by omega)]
  omega

end Arithmetic

section Retention

variable {rules : LifecyclePolicyRules} {base : Timestamp} {mode action : String}

private theorem retained_running {ttl : Int} (known : mode ∈ rules.allowedModes)
    (acts : action ∈ rules.allowedActions) (named : mode ∈ runningModes)
    (allowed : rules.Allows ttl) :
    Retained rules base ⟨mode, action, some ttl, some (base + seconds ttl)⟩ := by
  have timed : mode ≠ "permanent" := by
    rintro rfl
    exact absurd named (by decide)
  refine ⟨known, acts, fun same => absurd same timed, ?_, fun _ => ?_⟩
  · exact iff_of_false (Option.some_ne_none _) timed
  · refine ⟨base + seconds ttl, ttl, rfl, rfl, ?_, ?_, allowed⟩
    · exact Int.add_le_add_left (Int.mul_le_mul_of_nonneg_right allowed.1 (by decide)) base
    · exact Int.add_le_add_left (Int.mul_le_mul_of_nonneg_right allowed.2 (by decide)) base

private theorem retained_fixed {parsed : Timestamp} (known : mode ∈ rules.allowedModes)
    (acts : action ∈ rules.allowedActions) (named : mode = "expires_at")
    (positive : 0 < rules.minimumTtlSeconds)
    (late : rules.minimumTtlSeconds ≤ (parsed - base).tdiv 1000000)
    (most : parsed ≤ base + seconds rules.maximumTtlSeconds) :
    Retained rules base ⟨mode, action, some ((parsed - base).tdiv 1000000), some parsed⟩ := by
  have timed : mode ≠ "permanent" := by
    rw [named]
    decide
  obtain ⟨least, ahead⟩ := seconds_left positive late
  refine ⟨known, acts, fun same => absurd same timed, ?_, fun _ => ?_⟩
  · exact iff_of_false (Option.some_ne_none _) timed
  · exact ⟨parsed, _, rfl, rfl, least, most, late, seconds_most ahead most⟩

private theorem retained_endless (known : mode ∈ rules.allowedModes) (acts : action ∈ rules.allowedActions)
    (permitted : mode = "permanent" → rules.permanentAllowed = true)
    (listed : mode ∈ LifecycleMode.texts) (other : mode ∉ runningModes)
    (unfixed : mode ≠ "expires_at") : Retained rules base ⟨mode, action, none, none⟩ := by
  have permanent : mode = "permanent" := by
    simp only [runningModes, List.mem_cons, List.not_mem_nil, or_false, not_or] at other
    simpa [LifecycleMode.texts, other, unfixed] using listed
  exact ⟨known, acts, permitted, iff_of_true rfl permanent, fun timed => absurd permanent timed⟩

end Retention

/-- A client keeps to the retention policy exactly as long as it names no end beyond the
maximum: the mode `expires_at` has no upper check. -/
theorem retention_kept_iff (requested : Option LifecycleRequest)
    (serverDefault : LifecycleDefaultPolicy) (rules : LifecyclePolicyRules) (base : Timestamp)
    (positive : 0 < rules.minimumTtlSeconds)
    (ordered : rules.minimumTtlSeconds ≤ rules.maximumTtlSeconds)
    (known : ∀ mode ∈ rules.allowedModes, mode ∈ LifecycleMode.texts) :
    ((∀ effective, computeEffectiveLifecycle requested serverDefault rules base = .ok effective →
        Retained rules base effective) ∧
      (rules.allowClientOverride = false → ∀ other,
        computeEffectiveLifecycle other serverDefault rules base =
          computeEffectiveLifecycle requested serverDefault rules base)) ↔
      EndsInTime requested serverDefault rules base := by
  constructor
  · rintro ⟨retained, _⟩ named listed acts parsed given
    by_contra beyond
    have late := seconds_beyond (Int.lt_of_lt_of_le positive ordered) beyond
    have granted : computeEffectiveLifecycle requested serverDefault rules base =
        .ok ⟨"expires_at", actionAsked requested serverDefault rules,
          some ((parsed - base).tdiv 1000000), some parsed⟩ := by
      rw [computeEffectiveLifecycle_eq]
      dsimp only
      rw [named, if_neg (not_not_intro listed), if_neg (not_not_intro acts),
        if_neg (fun permanent => absurd permanent.1 (by decide)), if_neg (by decide), if_pos rfl, given]
      exact if_neg (Int.not_lt.mpr (Int.le_trans ordered late))
    have timed : "expires_at" ≠ "permanent" := by decide
    obtain ⟨expiresAt, ttl, same, _, _, most, _⟩ := (retained _ granted).bounded timed
    cases same
    exact beyond most
  · refine fun inTime => ⟨fun effective granted => ?_, fun closed other => ?_⟩
    · have verdict := @computeEffectiveLifecycle_verdict requested serverDefault rules base
      rw [granted] at verdict
      cases verdict with
      | adjudicated mode action permanent branch =>
        cases branch with
        | running named given allowed dated => exact retained_running mode action named allowed
        | fixed named given late =>
          exact retained_fixed mode action named positive late
            (inTime named (named ▸ mode) action _ given)
        | endless other unfixed =>
          exact retained_endless mode action permanent (known _ mode) other unfixed
    · have unheard : ∀ request, heard request rules = {} := fun _ => if_neg (by rw [closed]; decide)
      rw [computeEffectiveLifecycle_eq, computeEffectiveLifecycle_eq]
      simp only [modeAsked, actionAsked, ttlAsked, unheard]

def centuryRequest : LifecycleRequest where
  mode := some "expires_at"
  expiresAt := some (some (seconds 3155760000))

theorem retention_kept_of_ttl :
    ((∀ effective, computeEffectiveLifecycle (some { ttlSeconds := some 7200 }) {} {} 0 =
        .ok effective → Retained {} 0 effective) ∧
      (({} : LifecyclePolicyRules).allowClientOverride = false → ∀ other,
        computeEffectiveLifecycle other {} {} 0 =
          computeEffectiveLifecycle (some { ttlSeconds := some 7200 }) {} {} 0)) ↔
      EndsInTime (some { ttlSeconds := some 7200 }) {} {} 0 :=
  retention_kept_iff (some { ttlSeconds := some 7200 }) {} {} 0 (by decide) (by decide) (by decide)

theorem century_is_granted :
    computeEffectiveLifecycle (some centuryRequest) {} {} 0 =
      .ok ⟨"expires_at", "delete", some 3155760000, some (seconds 3155760000)⟩ ∧
    ¬ Retained {} 0 ⟨"expires_at", "delete", some 3155760000, some (seconds 3155760000)⟩ := by
  refine ⟨rfl, fun retained => ?_⟩
  obtain ⟨expiresAt, ttl, same, _, _, most, _⟩ := retained.bounded (by decide)
  cases same
  exact absurd most (by decide)

/-- A number of seconds that the client states is the number it gets, or it is told that
the number is out of range. -/
structure TtlHonoured (requested : LifecycleRequest) (serverDefault : LifecycleDefaultPolicy)
    (rules : LifecyclePolicyRules) (base : Datetime) (ttl : Int) : Prop where
  granted : rules.Allows ttl → ∃ effective,
    computeEffectiveLifecycle (some requested) serverDefault rules base = .ok effective ∧
    effective.ttlSeconds = some ttl ∧ effective.expiresAt = some (base.val + seconds ttl)
  refused : ¬ rules.Allows ttl → ∃ number minimum maximum,
    computeEffectiveLifecycle (some requested) serverDefault rules base =
      .error (.api (.ttlOutOfRange number minimum maximum))

/-- Zero is read as a missing number, so that the default must come to the same; any other
number must only keep within the calendar. -/
def ReadAsStated (serverDefault : LifecycleDefaultPolicy) (rules : LifecyclePolicyRules)
    (base : Datetime) (ttl : Int) : Prop :=
  if ttl = 0 then ∃ number ∈ serverDefault.ttlSeconds,
    number = 0 ∨ ¬ rules.Allows number ∧ ¬ rules.Allows 0
  else rules.Allows ttl → inCalendar (base.val + seconds ttl) = true

section Stated

variable {requested : LifecycleRequest} {serverDefault : LifecycleDefaultPolicy}
  {rules : LifecyclePolicyRules} {base : Datetime}

/-- The answer to a request for one of the running modes. -/
theorem computeEffectiveLifecycle_running
    (named : modeAsked (some requested) serverDefault rules ∈ runningModes)
    (mode : modeAsked (some requested) serverDefault rules ∈ rules.allowedModes)
    (action : actionAsked (some requested) serverDefault rules ∈ rules.allowedActions) :
    match ttlAsked (some requested) serverDefault rules with
    | none => ∃ message, computeEffectiveLifecycle (some requested) serverDefault rules base =
        .error (.api (.invalidLifecyclePolicy message))
    | some ttl =>
      computeEffectiveLifecycle (some requested) serverDefault rules base =
        if rules.Allows ttl then
          if inCalendar (base.val + seconds ttl) then
            .ok ⟨modeAsked (some requested) serverDefault rules,
              actionAsked (some requested) serverDefault rules, some ttl,
              some (base.val + seconds ttl)⟩
          else .error (.overflow "date value out of range")
        else .error (.api (.ttlOutOfRange ttl rules.minimumTtlSeconds rules.maximumTtlSeconds)) := by
  have verdict := @computeEffectiveLifecycle_verdict (some requested) serverDefault rules base
  have timed : modeAsked (some requested) serverDefault rules ≠ "permanent" := by
    intro same
    rw [same] at named
    exact absurd named (by decide)
  have moving : modeAsked (some requested) serverDefault rules ≠ "expires_at" := by
    intro same
    rw [same] at named
    exact absurd named (by decide)
  generalize computeEffectiveLifecycle (some requested) serverDefault rules base = outcome
    at verdict ⊢
  cases verdict with
  | refused disallowed =>
    exact absurd ⟨mode, action, fun permanent => absurd permanent timed⟩ disallowed
  | adjudicated _ _ _ branch =>
    cases branch with
    | running _ given allowed dated =>
      rw [given]
      dsimp only
      rw [if_pos allowed, if_pos dated]
    | beyond _ given allowed undated =>
      rw [given]
      dsimp only
      rw [if_pos allowed, undated, if_neg Bool.false_ne_true]
    | outOfRange _ given refused =>
      rw [given]
      dsimp only
      rw [if_neg refused]
    | unlimited _ missing =>
      rw [missing]
      exact ⟨_, rfl⟩
    | fixed fixed => exact absurd fixed moving
    | unfixed fixed => exact absurd fixed moving
    | endless other => exact absurd named other

/-- When the number that is read gives the answer that the stated one should have. -/
theorem ttlHonoured_iff_of_read {ttl number : Int} {mode action : String}
    (answer : computeEffectiveLifecycle (some requested) serverDefault rules base =
      if rules.Allows number then
        if inCalendar (base.val + seconds number) then
          .ok ⟨mode, action, some number, some (base.val + seconds number)⟩
        else .error (.overflow "date value out of range")
      else .error (.api (.ttlOutOfRange number rules.minimumTtlSeconds rules.maximumTtlSeconds))) :
    TtlHonoured requested serverDefault rules base ttl ↔
      (rules.Allows ttl → number = ttl ∧ inCalendar (base.val + seconds ttl) = true) ∧
        (¬ rules.Allows ttl → ¬ rules.Allows number) := by
  constructor
  · refine fun honoured => ⟨fun allowed => ?_, fun disallowed allowed => ?_⟩
    · obtain ⟨effective, granted, same, _⟩ := honoured.granted allowed
      rw [answer] at granted
      split at granted
      · split at granted
        · rename_i dated
          cases granted
          cases same
          exact ⟨rfl, dated⟩
        · cases granted
      · cases granted
    · obtain ⟨_, _, _, refused⟩ := honoured.refused disallowed
      rw [answer, if_pos allowed] at refused
      split at refused <;> cases refused
  · rintro ⟨granted, refused⟩
    constructor
    · intro allowed
      obtain ⟨rfl, dated⟩ := granted allowed
      rw [answer, if_pos allowed, if_pos dated]
      exact ⟨_, rfl, rfl, rfl⟩
    · intro disallowed
      rw [answer, if_neg (refused disallowed)]
      exact ⟨_, _, _, rfl⟩

end Stated

/-- A client that states a number of seconds for a running mode gets that number, or the
refusal of it, exactly when the number is read as stated. -/
theorem ttl_honoured_iff (requested : LifecycleRequest) (serverDefault : LifecycleDefaultPolicy)
    (rules : LifecyclePolicyRules) (base : Datetime) (ttl : Int)
    (stated : requested.ttlSeconds = some ttl) (override : rules.allowClientOverride = true)
    (named : modeAsked (some requested) serverDefault rules ∈ runningModes)
    (mode : modeAsked (some requested) serverDefault rules ∈ rules.allowedModes)
    (action : actionAsked (some requested) serverDefault rules ∈ rules.allowedActions) :
    TtlHonoured requested serverDefault rules base ttl ↔
      ReadAsStated serverDefault rules base ttl := by
  have answer := @computeEffectiveLifecycle_running requested serverDefault rules base named mode action
  have asked : ttlAsked (some requested) serverDefault rules =
      orNumber (some ttl) serverDefault.ttlSeconds := by
    unfold ttlAsked heard
    rw [if_pos override, Option.getD_some, stated]
  rw [asked] at answer
  unfold ReadAsStated
  by_cases zero : ttl = 0
  · subst zero
    rw [if_pos rfl]
    change match serverDefault.ttlSeconds with | none => _ | some _ => _ at answer
    cases given : serverDefault.ttlSeconds with
    | none =>
      rw [given] at answer
      obtain ⟨message, answer⟩ := answer
      refine iff_of_false (fun honoured => ?_) fun read => ?_
      · by_cases allowed : rules.Allows 0
        · obtain ⟨_, same, _⟩ := honoured.granted allowed
          rw [answer] at same
          cases same
        · obtain ⟨_, _, _, same⟩ := honoured.refused allowed
          rw [answer] at same
          cases same
      · obtain ⟨_, member, _⟩ := read
        cases member
    | some number =>
      rw [given] at answer
      rw [ttlHonoured_iff_of_read answer]
      have today : inCalendar (base.val + seconds 0) = true := by
        rw [seconds, Int.zero_mul, Int.add_zero]
        exact base.property
      constructor
      · rintro ⟨granted, refused⟩
        refine ⟨number, rfl, ?_⟩
        by_cases allowed : rules.Allows 0
        · exact .inl (granted allowed).1
        · exact .inr ⟨refused allowed, allowed⟩
      · rintro ⟨_, ⟨⟩, rfl | ⟨refused, disallowed⟩⟩
        · exact ⟨fun _ => ⟨rfl, today⟩, id⟩
        · exact ⟨fun allowed => absurd allowed disallowed, fun _ => refused⟩
  · rw [if_neg zero]
    have read : orNumber (some ttl) serverDefault.ttlSeconds = some ttl := if_neg zero
    rw [read] at answer
    rw [ttlHonoured_iff_of_read answer]
    exact ⟨fun honoured allowed => (honoured.1 allowed).2,
      fun dated => ⟨fun allowed => ⟨rfl, dated allowed⟩, id⟩⟩

theorem hour_is_honoured :
    TtlHonoured { ttlSeconds := some 3600 } {} {} ⟨0, by decide⟩ 3600 ↔
      ReadAsStated {} {} ⟨0, by decide⟩ 3600 :=
  ttl_honoured_iff { ttlSeconds := some 3600 } {} {} ⟨0, by decide⟩ 3600 rfl rfl (by decide)
    (by decide) (by decide)

/-- A client that asks for no time at all gets the thirty days of the default. -/
theorem zero_is_defaulted :
    computeEffectiveLifecycle (some { ttlSeconds := some 0 }) {} {} 0 =
      .ok ⟨"ttl", "delete", some 2592000, some (seconds 2592000)⟩ ∧
    ¬ TtlHonoured { ttlSeconds := some 0 } {} {} ⟨0, by decide⟩ 0 := by
  have answer : computeEffectiveLifecycle (some { ttlSeconds := some 0 }) {} {} 0 =
      .ok ⟨"ttl", "delete", some 2592000, some (seconds 2592000)⟩ := rfl
  refine ⟨answer, fun honoured => ?_⟩
  obtain ⟨_, _, _, refused⟩ := honoured.refused (by decide)
  rw [answer] at refused
  cases refused

end PyUploadX
