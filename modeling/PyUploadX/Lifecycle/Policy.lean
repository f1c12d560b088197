import PyUploadX.Db.Models

/-! Adjudication of lifecycle policies. -/
namespace PyUploadX

/-- `first or second` for texts: the empty text counts as missing. -/
def orText : Option String → String → String
  | some text, fallback => if text = "" then fallback else text
  | none, fallback => fallback

/-- `first or second` for numbers: zero counts as missing. -/
def orNumber : Option Int → Option Int → Option Int
  | some number, fallback => if number = 0 then fallback else some number
  | none, fallback => fallback

/-- The years 1 to 9999, which a `datetime` can hold. -/
def inCalendar (time : Timestamp) : Bool :=
  -62135596800000000 ≤ time && time ≤ 253402300799999999

/-- A `datetime` in UTC. -/
abbrev Datetime := { time : Timestamp // inCalendar time = true }

/-- `base + timedelta(seconds=…)`. -/
def addSeconds (base : Timestamp) (count : Int) : Except Failure Timestamp :=
  if inCalendar (base + seconds count) then .ok (base + seconds count)
  else .error (.overflow "date value out of range")

theorem addSeconds_ok {base time : Timestamp} {count : Int} :
    addSeconds base count = .ok time ↔
      inCalendar (base + seconds count) = true ∧ base + seconds count = time := by
  unfold addSeconds
  split <;> simp [*]

/-- The branches of the three modes that run for a number of seconds. -/
def runningPolicy (rules : LifecyclePolicyRules) (base : Timestamp) (label mode action : String)
    (ttlSeconds : Option Int) : Except Failure EffectiveLifecycle :=
  match ttlSeconds with
  | none => .error (.api (.invalidLifecyclePolicy s!"ttl_seconds is required for {label} lifecycle"))
  | some ttl =>
    if rules.minimumTtlSeconds ≤ ttl ∧ ttl ≤ rules.maximumTtlSeconds then
      (addSeconds base ttl).map fun expiresAt =>
        { mode, action, ttlSeconds := some ttl, expiresAt := some expiresAt }
    else
      .error (.api (.ttlOutOfRange ttl rules.minimumTtlSeconds rules.maximumTtlSeconds))

/-- The branch of the mode that names its own end. -/
def fixedPolicy (rules : LifecyclePolicyRules) (base : Timestamp) (mode action : String) :
    Option (Option Timestamp) → Except Failure EffectiveLifecycle
  | none =>
    .error (.api (.invalidLifecyclePolicy "expires_at is required for expires_at lifecycle"))
  | some none => .error (.value "Invalid isoformat string")
  | some (some parsed) =>
    -- `int(…)` truncates towards zero.
    let remaining := (parsed - base).tdiv 1000000
    if remaining < rules.minimumTtlSeconds then
      .error (.api (.ttlOutOfRange remaining rules.minimumTtlSeconds rules.maximumTtlSeconds))
    else .ok { mode, action, ttlSeconds := some remaining, expiresAt := some parsed }

/-- `base` is `completed_at or _now()`. -/
def computeEffectiveLifecycle (requested : Option LifecycleRequest)
    (serverDefault : LifecycleDefaultPolicy) (rules : LifecyclePolicyRules) (base : Timestamp) :
    Except Failure EffectiveLifecycle :=
  let requested : LifecycleRequest :=
    if rules.allowClientOverride then requested.getD {} else {}
  let mode := orText requested.mode serverDefault.mode
  let action := orText requested.action serverDefault.action
  let ttlSeconds := orNumber requested.ttlSeconds serverDefault.ttlSeconds
  if mode ∉ rules.allowedModes then
    .error (.api (.invalidLifecyclePolicy s!"mode '{mode}' is not allowed"))
  else if action ∉ rules.allowedActions then
    .error (.api (.invalidLifecyclePolicy s!"action '{action}' is not allowed"))
  else if mode = "permanent" ∧ rules.permanentAllowed = false then
    .error (.api (.invalidLifecyclePolicy "permanent lifecycle is not allowed by server policy"))
  else if mode = "ttl" ∨ mode = "temporary" then
    runningPolicy rules base "ttl" mode action ttlSeconds
  else if mode = "expires_at" then fixedPolicy rules base mode action requested.expiresAt
  else if mode = "sliding_ttl" then
    runningPolicy rules base "sliding_ttl" mode action ttlSeconds
  else .ok { mode, action, ttlSeconds := none, expiresAt := none }

/-- The refusals: two kinds of the service's own, the reader of a time and the calendar. -/
theorem computeEffectiveLifecycle_error {requested : Option LifecycleRequest}
    {serverDefault : LifecycleDefaultPolicy} {rules : LifecyclePolicyRules} {base : Timestamp}
    {failure : Failure}
    (failed : computeEffectiveLifecycle requested serverDefault rules base = .error failure) :
    (∃ message, failure = .api (.invalidLifecyclePolicy message)) ∨
      (∃ ttl least most, failure = .api (.ttlOutOfRange ttl least most)) ∨
      (∃ message, failure = .value message) ∨ ∃ message, failure = .overflow message := by
  simp only [computeEffectiveLifecycle, runningPolicy, fixedPolicy, addSeconds, Except.map] at failed
  grind

/-- An effective policy ends at some time unless it is permanent. -/
def EffectiveLifecycle.Scheduled (effective : EffectiveLifecycle) : Prop :=
  effective.expiresAt = none ↔ effective.mode = "permanent"

end PyUploadX
