import PyUploadX.Kit.Task
import PyUploadX.Sdk.LargeFile

/-! `retry`, and the requests of the SDK through a network that may lose them or their answers. -/
namespace PyUploadX

open Kit

variable {σ : Type}

namespace Sdk

/-- The classes of the SDK's errors. -/
inductive ErrorClass
  | uploadClient
  | authentication
  | authorization
  | validation
  | rateLimit
  | server
  | storageUnavailable
  | multipart
  | resume
  | directoryUpload
  | lifecycle
  | checksumMismatch
  deriving DecidableEq, Repr

/-- What a call of the SDK raises. -/
inductive Raised
  | client (errorClass : ErrorClass) (message : String) (statusCode : Option Nat)
  /-- The built-in `ConnectionError` or `TimeoutError`. -/
  | connection
  /-- Any other exception; those of `httpx` derive from neither of the two. -/
  | other
  deriving DecidableEq, Repr

/-- What comes back over the network. -/
inductive Response
  | service (answer : Except Failure Reply)
  /-- The answer of a proxy in between. -/
  | gateway (status : Nat)

def Response.statusCode : Response → Nat
  | service (.ok _) => 200
  | service (.error failure) => failure.statusCode
  | gateway status => status

/-- What the network does with a request. -/
inductive Fate
  | lost
  | answered (now : Timestamp)
  /-- The service has handled it, and the connection broke. -/
  | unanswered (now : Timestamp)
  /-- A proxy answers in the place of the service, which may have handled it. -/
  | gateway (status : Nat) (handled : Option Timestamp)

structure Exchange where
  caller : Nat
  request : Request
  /-- The service's answer, if it has handled the request. -/
  served : Option (Except Failure Reply)
  received : Option Response

/-- `time.sleep`, without the jitter of up to one second. -/
structure Pause where
  caller : Nat
  seconds : Nat
  deriving DecidableEq, Repr

structure UploadedPart where
  partNumber : Nat
  etag : Option String
  sizeBytes : Int
  checksumSha256 : Option String
  deriving DecidableEq

/-- A service, and the calls of the SDK that talk to it. -/
structure Wire (σ : Type) where
  world : World Database σ
  exchanges : List Exchange := []
  pauses : List Pause := []
  /-- What `upload_all_parts` has collected. -/
  uploaded : List UploadedPart := []
  /-- The calls of `progress`. -/
  progress : List (Nat × Nat) := []

/-- `exponential_delay`, without the jitter. -/
def exponentialDelay (attempt baseDelay maxDelay : Nat) : Nat :=
  min maxDelay (baseDelay * 2 ^ attempt)

/-- `retry` has another attempt for it. -/
def Raised.again (statuses : List Nat) : Raised → Bool
  | client _ _ (some status) => decide (status ∈ statuses)
  | client _ _ none => false
  | connection => true
  | other => false

/-- `retry`. -/
def retry {α : Type} (caller : Nat) (call : Task (Wire σ) (Except Raised α))
    (maxAttempts : Nat := 5) (baseDelay : Nat := 1) (maxDelay : Nat := 30) :
    Task (Wire σ) (Except Raised α) :=
  call.retry (·.again retryableStatusCodes)
    (fun attempt wire =>
      { wire with
        pauses := wire.pauses ++ [⟨caller, exponentialDelay attempt baseDelay maxDelay⟩] })
    (maxAttempts - 1) 0

section Requests

variable (app : AppState σ) (net : Nat → Fate)

/-- The service as it is when it has handled a request, and its answer. -/
def handled (world : World Database σ) (request : Request) :
    Option Timestamp → Option (Except Failure Reply) × World Database σ
  | none => (none, world)
  | some now =>
    let served := serve app world (request, now)
    (some served.1, served.2)

/-- `httpx` sends a request; `net` says what becomes of the `n`th. -/
def exchange (caller : Nat) (request : Request) (wire : Wire σ) :
    Except Raised Response × Wire σ :=
  let fate := net wire.exchanges.length
  let now : Option Timestamp := match fate with
    | .lost => none
    | .answered now => some now
    | .unanswered now => some now
    | .gateway _ handled => handled
  let served := handled app wire.world request now
  let received : Option Response := match fate with
    | .lost => none
    | .answered _ => served.1.map .service
    | .unanswered _ => none
    | .gateway status _ => some (.gateway status)
  ((match received with
    | some response => .ok response
    | none => .error .other),
    { wire with
      world := served.2
      exchanges := wire.exchanges ++ [⟨caller, request, served.1, received⟩] })

/-- `guarded` in `_request`. -/
def guarded (caller : Nat) (request : Request) : Task (Wire σ) (Except Raised Response) :=
  (Task.act (exchange app net caller request)).bind fun
    | .ok response =>
      if response.statusCode ∈ retryableStatusCodes then
        .done (.error (.client .server s!"server returned {response.statusCode}"
          (some response.statusCode)))
      else .done (.ok response)
    | .error raised => .done (.error raised)

/-- `_request`. -/
def request (caller : Nat) (request : Request) : Task (Wire σ) (Except Raised Response) :=
  retry caller (guarded app net caller request)

/-- Another request that the service handles. -/
def served (timed : Timed) (wire : Wire σ) : Wire σ :=
  { wire with world := (serve app wire.world timed).2 }

end Requests

/-! What one caller has sent is its own affair. -/

namespace Wire

def sentBy (wire : Wire σ) (caller : Nat) : List Exchange :=
  wire.exchanges.filter (·.caller = caller)

def pausesOf (wire : Wire σ) (caller : Nat) : List Pause :=
  wire.pauses.filter (·.caller = caller)

/-- The parts collected under its number. -/
def collected (wire : Wire σ) (caller : Nat) : List UploadedPart :=
  wire.uploaded.filter (·.partNumber = caller)

/-- Nothing of what the caller has done is changed, or added to. -/
def Untouched (caller : Nat) (wire later : Wire σ) : Prop :=
  later.sentBy caller = wire.sentBy caller ∧ later.pausesOf caller = wire.pausesOf caller ∧
    later.collected caller = wire.collected caller

/-- Only what the caller has done is added to. -/
def OthersUntouched (caller : Nat) (wire later : Wire σ) : Prop :=
  ∀ other, other ≠ caller → Untouched other wire later

instance (caller : Nat) : Std.Refl (Untouched caller : Wire σ → Wire σ → Prop) :=
  ⟨fun _ => ⟨rfl, rfl, rfl⟩⟩

instance (caller : Nat) : IsTrans (Wire σ) (Untouched caller) where
  trans _ _ _ first second := ⟨second.1.trans first.1, second.2.1.trans first.2.1,
    second.2.2.trans first.2.2⟩

theorem served_untouched (app : AppState σ) (caller : Nat) (timed : Timed)
    (wire : Wire σ) :
    Untouched caller wire (served app timed wire) := ⟨rfl, rfl, rfl⟩

end Wire

/-- The answer was a status that is worth another attempt. -/
def Exchange.Retried (exchange : Exchange) : Prop :=
  ∃ response, exchange.received = some response ∧ response.statusCode ∈ retryableStatusCodes

/-- It sent this request, and what came back from the service is the service's answer to it. -/
def Exchange.Asks (app : AppState σ) (asked : Request) (exchange : Exchange) : Prop :=
  exchange.request = asked ∧ ∀ answer, exchange.received = some (.service answer) →
    ∃ world now, (serve app world (asked, now)).1 = answer

/-- How a call of at most `most` requests ends: with the answer to the last, which follows
answers that were worth another attempt; after as many of these as there may be; or with the
first request that got no answer. -/
inductive Ended (most : Nat) : Except Raised Response → List Exchange → Prop
  | answered {failed : List Exchange} {last : Exchange} {response : Response}
      (retried : ∀ exchange ∈ failed, exchange.Retried) (few : failed.length < most)
      (received : last.received = some response)
      (final : response.statusCode ∉ retryableStatusCodes) :
      Ended most (.ok response) (failed ++ [last])
  | gaveUp {sent : List Exchange} {message : String} {status : Nat}
      (retried : ∀ exchange ∈ sent, exchange.Retried) (all : sent.length = most)
      (worth : status ∈ retryableStatusCodes) :
      Ended most (.error (.client .server message (some status))) sent
  | broken {failed : List Exchange} {last : Exchange}
      (retried : ∀ exchange ∈ failed, exchange.Retried) (few : failed.length < most)
      (lost : last.received = none) : Ended most (.error .other) (failed ++ [last])

/-- What a call of at most `most` requests and `waited` seconds of pauses has done since `before`:
it has sent one request over and over. -/
structure Called (app : AppState σ) (caller : Nat) (asked : Request) (most waited : Nat)
    (before : Wire σ) (result : Except Raised Response) (wire : Wire σ) : Prop where
  sent : ∃ sent, wire.sentBy caller = before.sentBy caller ++ sent ∧ Ended most result sent ∧
    ∀ exchange ∈ sent, exchange.Asks app asked
  paused : ∃ pauses, wire.pausesOf caller = before.pausesOf caller ++ pauses ∧
    (pauses.map (·.seconds)).sum ≤ waited
  collected : wire.collected caller = before.collected caller

section Calls

variable {app : AppState σ} {net : Nat → Fate} {caller : Nat} {asked : Request}

theorem Called.later {most waited : Nat} {before wire later : Wire σ}
    {result : Except Raised Response} (called : Called app caller asked most waited before result wire)
    (untouched : Wire.Untouched caller wire later) :
    Called app caller asked most waited before result later where
  sent := untouched.1 ▸ called.sent
  paused := untouched.2.1 ▸ called.paused
  collected := untouched.2.2.trans called.collected

private theorem sentBy_own (wire : Wire σ) (world : World Database σ) (own : Exchange) :
    ({ wire with world := world, exchanges := wire.exchanges ++ [own] } : Wire σ).sentBy
      own.caller = wire.sentBy own.caller ++ [own] := by
  unfold Wire.sentBy
  rw [List.filter_append, List.filter_singleton, decide_eq_true rfl]
  rfl

theorem sentBy_other (wire : Wire σ) (world : World Database σ) {own : Exchange} {other : Nat}
    (differs : other ≠ own.caller) :
    ({ wire with world := world, exchanges := wire.exchanges ++ [own] } : Wire σ).sentBy other =
      wire.sentBy other := by
  unfold Wire.sentBy
  rw [List.filter_append, List.filter_singleton, decide_eq_false (Ne.symm differs)]
  exact List.append_nil _

theorem exchange_spec (wire : Wire σ) :
    ∃ world own, own.caller = caller ∧ own.Asks app asked ∧
      (exchange app net caller asked wire).2 =
        { wire with world := world, exchanges := wire.exchanges ++ [own] } ∧
      (exchange app net caller asked wire).1 = match own.received with
        | some response => .ok response
        | none => .error .other := by
  refine ⟨_, ⟨caller, asked, _, _⟩, rfl, ⟨rfl, fun answer received => ?_⟩, rfl, rfl⟩
  dsimp only at received
  split at received
  · cases received
  · rename_i now _
    cases received
    exact ⟨wire.world, now, rfl⟩
  · cases received
  · cases received

theorem exchange_safe (wire : Wire σ) :
    (Task.act (exchange app net caller asked)).Safe (Wire.Untouched caller)
      (Wire.OthersUntouched caller)
      (fun result later => ∃ own : Exchange, own.Asks app asked ∧
        later.sentBy caller = wire.sentBy caller ++ [own] ∧
        later.pausesOf caller = wire.pausesOf caller ∧
        later.collected caller = wire.collected caller ∧
        result = match own.received with
          | some response => .ok response
          | none => .error .other) wire := by
  refine Task.Safe.act fun later relied => ?_
  obtain ⟨world, own, rfl, asked, moved, answer⟩ := @exchange_spec _ app net caller asked later
  rw [moved]
  refine ⟨fun other differs => ⟨sentBy_other later world differs, rfl, rfl⟩, ?_⟩
  intro last after
  have sent := (sentBy_own later world own).trans (congrArg (· ++ [own]) relied.1)
  exact ⟨own, asked, after.1.trans sent, after.2.1.trans relied.2.1,
    after.2.2.trans relied.2.2, answer⟩

private theorem guarded_safe (wire : Wire σ) :
    (guarded app net caller asked).Safe (Wire.Untouched caller) (Wire.OthersUntouched caller)
      (Called app caller asked 1 0 wire) wire := by
  refine (exchange_safe wire).bind fun result world exchanged => ?_
  obtain ⟨own, request, sent, paused, collected, rfl⟩ := exchanged
  have called : ∀ result, Ended 1 result [own] → ∀ later, Wire.Untouched caller world later →
      Called app caller asked 1 0 wire result later := by
    intro result ended later untouched
    have now : Called app caller asked 1 0 wire result world :=
      ⟨⟨[own], sent, ended, List.forall_mem_singleton.mpr request⟩,
        ⟨[], paused.trans (List.append_nil _).symm, Nat.le_refl 0⟩, collected⟩
    exact now.later untouched
  have first : ∀ exchange ∈ ([] : List Exchange), exchange.Retried := List.forall_mem_nil _
  cases received : own.received with
  | none => exact called _ (.broken first Nat.zero_lt_one received)
  | some response =>
    dsimp only
    split
    · rename_i worth
      refine called _ (.gaveUp (List.forall_mem_singleton.mpr ⟨response, received, worth⟩) rfl worth)
    · rename_i final
      exact called _ (.answered first Nat.zero_lt_one received final)

/-- A call that follows requests that were worth another attempt. -/
theorem Ended.after {most : Nat} {result : Except Raised Response} {sent failed : List Exchange}
    (ended : Ended most result sent) (retried : ∀ exchange ∈ failed, exchange.Retried) :
    Ended (failed.length + most) result (failed ++ sent) := by
  have together : ∀ {others : List Exchange}, (∀ exchange ∈ others, exchange.Retried) →
      ∀ exchange ∈ failed ++ others, exchange.Retried := by
    intro others also exchange member
    exact (List.mem_append.mp member).elim (retried exchange) (also exchange)
  cases ended with
  | answered also few received final =>
    rw [← List.append_assoc]
    refine .answered (together also) ?_ received final
    rw [List.length_append]
    exact Nat.add_lt_add_left few _
  | gaveUp also all worth =>
    refine .gaveUp (together also) ?_ worth
    rw [List.length_append, all]
  | broken also few lost =>
    rw [← List.append_assoc]
    refine .broken (together also) ?_ lost
    rw [List.length_append]
    exact Nat.add_lt_add_left few _

/-- A call that has not given up may as well have had more attempts. -/
theorem Ended.widen {most more : Nat} {result : Except Raised Response} {sent : List Exchange}
    (ended : Ended most result sent) (least : most ≤ more)
    (final : ∀ raised, result = .error raised → raised.again retryableStatusCodes = false) :
    Ended more result sent := by
  cases ended with
  | answered retried few received last => exact .answered retried (few.trans_le least) received last
  | gaveUp retried all worth =>
    have again := final _ rfl
    rw [Raised.again, decide_eq_true worth] at again
    cases again
  | broken retried few lost => exact .broken retried (few.trans_le least) lost

/-- `count` requests so far, all worth another attempt. -/
structure Trying (app : AppState σ) (caller : Nat) (asked : Request) (count waited : Nat)
    (before wire : Wire σ) : Prop where
  sent : ∃ failed, wire.sentBy caller = before.sentBy caller ++ failed ∧ failed.length = count ∧
    (∀ exchange ∈ failed, exchange.Retried) ∧ ∀ exchange ∈ failed, exchange.Asks app asked
  paused : ∃ pauses, wire.pausesOf caller = before.pausesOf caller ++ pauses ∧
    (pauses.map (·.seconds)).sum ≤ waited
  collected : wire.collected caller = before.collected caller

theorem Trying.called {count paused most waited : Nat} {before wire later : Wire σ}
    {result : Except Raised Response} (trying : Trying app caller asked count paused before wire)
    (called : Called app caller asked most waited wire result later) :
    Called app caller asked (count + most) (paused + waited) before result later := by
  obtain ⟨failed, sent, rfl, retried, same⟩ := trying.sent
  obtain ⟨others, after, ended, also⟩ := called.sent
  obtain ⟨pauses, slept, short⟩ := trying.paused
  obtain ⟨more, then_, short'⟩ := called.paused
  refine ⟨⟨failed ++ others, ?_, ended.after retried, ?_⟩, ⟨pauses ++ more, ?_, ?_⟩,
    called.collected.trans trying.collected⟩
  · rw [after, sent, List.append_assoc]
  · intro exchange member
    exact (List.mem_append.mp member).elim (same exchange) (also exchange)
  · rw [then_, slept, List.append_assoc]
  · rw [List.map_append, List.sum_append]
    exact Nat.add_le_add short short'

theorem Called.widen {most more waited longer : Nat} {before wire : Wire σ}
    {result : Except Raised Response} (called : Called app caller asked most waited before result wire)
    (least : most ≤ more) (slower : waited ≤ longer)
    (final : ∀ raised, result = .error raised → raised.again retryableStatusCodes = false) :
    Called app caller asked more longer before result wire := by
  obtain ⟨sent, after, ended, same⟩ := called.sent
  obtain ⟨pauses, slept, short⟩ := called.paused
  exact ⟨⟨sent, after, ended.widen least final, same⟩, ⟨pauses, slept, short.trans slower⟩,
    called.collected⟩

theorem Trying.later {count waited : Nat} {before wire later : Wire σ}
    (trying : Trying app caller asked count waited before wire)
    (untouched : Wire.Untouched caller wire later) :
    Trying app caller asked count waited before later where
  sent := untouched.1 ▸ trying.sent
  paused := untouched.2.1 ▸ trying.paused
  collected := untouched.2.2.trans trying.collected

/-- A call that has given up is one that may be tried again. -/
theorem Called.trying {most waited : Nat} {before wire : Wire σ} {raised : Raised}
    (called : Called app caller asked most waited before (.error raised) wire)
    (again : raised.again retryableStatusCodes = true) :
    Trying app caller asked most waited before wire := by
  obtain ⟨sent, after, ended, same⟩ := called.sent
  refine ⟨⟨sent, after, ?_⟩, called.paused, called.collected⟩
  cases ended with
  | gaveUp retried all worth => exact ⟨all, retried, same⟩
  | broken => cases again

/-- The seconds that a retried call may pause before its attempt with so many made before. -/
def pausesBefore (waited baseDelay maxDelay : Nat) : (made : Nat) → Nat
  | 0 => 0
  | made + 1 => pausesBefore waited baseDelay maxDelay made + waited +
    exponentialDelay (made + 1) baseDelay maxDelay

private theorem pause_own (wire : Wire σ) (own : Pause) :
    ({ wire with pauses := wire.pauses ++ [own] } : Wire σ).pausesOf own.caller =
      wire.pausesOf own.caller ++ [own] := by
  unfold Wire.pausesOf
  rw [List.filter_append, List.filter_singleton, decide_eq_true rfl]
  rfl

theorem pause_others (wire : Wire σ) (own : Pause) :
    Wire.OthersUntouched own.caller wire { wire with pauses := wire.pauses ++ [own] } := by
  intro differing differs
  refine ⟨rfl, ?_, rfl⟩
  unfold Wire.pausesOf
  rw [List.filter_append, List.filter_singleton, decide_eq_false (Ne.symm differs)]
  exact List.append_nil _

private theorem pausesBefore_mono (waited baseDelay maxDelay : Nat) :
    Monotone (pausesBefore waited baseDelay maxDelay) := by
  refine monotone_nat_of_le_succ fun made => ?_
  rw [pausesBefore, Nat.add_assoc]
  exact Nat.le_add_right _ _

/-- A call that is retried ends like the call, with as many times the requests. -/
theorem retry_safe {call : Task (Wire σ) (Except Raised Response)} {most waited : Nat}
    (each : ∀ wire, call.Safe (Wire.Untouched caller) (Wire.OthersUntouched caller)
      (Called app caller asked most waited wire) wire)
    (retries baseDelay maxDelay : Nat) (wire : Wire σ) :
    (retry caller call (retries + 1) baseDelay maxDelay).Safe (Wire.Untouched caller)
      (Wire.OthersUntouched caller)
      (Called app caller asked ((retries + 1) * most)
        (pausesBefore waited baseDelay maxDelay retries + waited) wire) wire := by
  refine @Task.Safe.retry _ _ _ _ _ _ _ _ _ _
    (fun more made later => more + made = retries ∧ Trying app caller asked (made * most)
      (pausesBefore waited baseDelay maxDelay made) wire later)
    (fun more made raised later => more + made = retries ∧
      (raised.again retryableStatusCodes = true → Trying app caller asked ((made + 1) * most)
        (pausesBefore waited baseDelay maxDelay made + waited) wire later))
    _ ?_ ?_ (fun _ _ _ called untouched => called.later untouched) retries 0 ?_
  · rintro more made start ⟨whole, trying⟩
    have last : made * most + most = (made + 1) * most := (Nat.succ_mul made most).symm
    have fewer : made * most + most ≤ (retries + 1) * most := by
      rw [last]
      exact Nat.mul_le_mul_right most (by omega)
    have slower : pausesBefore waited baseDelay maxDelay made ≤
        pausesBefore waited baseDelay maxDelay retries :=
      pausesBefore_mono waited baseDelay maxDelay (by omega)
    have waits := Nat.add_le_add_right slower waited
    refine (each start).mono fun result later called => ?_
    have so := trying.called called
    cases result with
    | ok response => exact so.widen fewer waits fun _ same => by cases same
    | error raised =>
      refine ⟨⟨whole, fun again => last ▸ so.trying again⟩, fun final => ?_⟩
      rcases Bool.eq_false_or_eq_true (raised.again retryableStatusCodes) with again | never
      · rcases final with never | none
        · rw [again] at never
          cases never
        · obtain rfl : made = retries := by omega
          exact last ▸ so
      · exact so.widen fewer waits fun _ same => Except.error.inj same ▸ never
  · rintro more made raised later ⟨whole, trying⟩ again now untouched
    obtain ⟨sent, paused, collected⟩ := (trying again).later untouched
    obtain ⟨pauses, slept, short⟩ := paused
    refine ⟨pause_others now ⟨caller, _⟩, by omega, sent, ?_, collected⟩
    refine ⟨pauses ++ [⟨caller, exponentialDelay (made + 1) baseDelay maxDelay⟩], ?_, ?_⟩
    · rw [pause_own, slept, List.append_assoc]
    · rw [List.map_append, List.sum_append]
      exact Nat.add_le_add_right short _
  · exact ⟨Nat.add_zero _, ⟨[], (List.append_nil _).symm, (Nat.zero_mul _).symm, List.forall_mem_nil _,
      List.forall_mem_nil _⟩, ⟨[], (List.append_nil _).symm, Nat.le_refl 0⟩, rfl⟩

/-- The request that `_request` makes, up to five times. -/
theorem request_safe (wire : Wire σ) :
    (request app net caller asked).Safe (Wire.Untouched caller) (Wire.OthersUntouched caller)
      (Called app caller asked 5 30 wire) wire :=
  retry_safe guarded_safe 4 1 30 wire

/-- `retry(lambda: _request(…))`. -/
theorem retry_request_safe (wire : Wire σ) :
    (retry caller (request app net caller asked)).Safe (Wire.Untouched caller)
      (Wire.OthersUntouched caller) (Called app caller asked 25 180 wire) wire :=
  retry_safe request_safe 4 1 30 wire

theorem guarded_within : (guarded app net caller asked).Within 1 := by
  refine @Task.Within.bind _ _ _ _ _ 1 0 (Task.within_act _) fun result => ?_
  cases result with
  | ok response =>
    dsimp only
    split <;> trivial
  | error raised => trivial

/-- Requests and pauses. -/
theorem retry_within {α : Type} {call : Task (Wire σ) (Except Raised α)} {most : Nat}
    (within : call.Within most) (retries baseDelay maxDelay : Nat) :
    (retry caller call (retries + 1) baseDelay maxDelay).Within (most + retries * (most + 1)) :=
  within.retry retries 0

/-- `retry(lambda: _request(…))` comes to an end, whatever becomes of its requests and whatever
else is served in between: it has sent one request at most 25 times, as long as the answers were
statuses worth another attempt, and ends with the last answer. -/
theorem retry_request_ends (app : AppState σ) (net : Nat → Fate) (caller : Nat) (asked : Request)
    (wire : Wire σ) {turns : List (Option Timed)} (enough : 49 ≤ turns.countP (·.isNone)) :
    ∃ result, (turns.foldl (Task.turn (served app))
        (retry caller (request app net caller asked), wire)).1 = .done result ∧
      Called app caller asked 25 180 wire result (turns.foldl (Task.turn (served app))
        (retry caller (request app net caller asked), wire)).2 := by
  have within : (retry caller (request app net caller asked)).Within 49 :=
    retry_within (retry_within guarded_within 4 1 30) 4 1 30
  obtain ⟨result, done⟩ := @Task.Within.ends _ _ _ (served app) _ _ within turns enough wire
  have start : (retry caller (request app net caller asked)).Safe (Wire.Untouched caller)
    (Wire.OthersUntouched caller) (Called app caller asked 25 180 wire) wire := retry_request_safe wire
  have safe := start.turns (Wire.served_untouched app caller) turns
  rw [done] at safe
  exact ⟨result, done, safe.result⟩

/-- A proxy that answers 503 to every request, and a request of someone else in between. -/
theorem retry_request_ends_gateway :
    ∃ result, ((some (Request.createSession smallTenant smallSession, 0) ::
          List.replicate 49 none).foldl (Task.turn (served smallLocalApp))
        (retry 1 (request smallLocalApp (fun _ => .gateway 503 none) 1 (.complete smallTenant 0)),
          { world := ⟨{}, {}⟩ })).1 = .done result ∧
      Called smallLocalApp 1 (.complete smallTenant 0) 25 180 { world := ⟨{}, {}⟩ } result
        ((some (Request.createSession smallTenant smallSession, 0) ::
            List.replicate 49 none).foldl (Task.turn (served smallLocalApp))
          (retry 1 (request smallLocalApp (fun _ => .gateway 503 none) 1 (.complete smallTenant 0)),
            { world := ⟨{}, {}⟩ })).2 :=
  retry_request_ends _ _ _ _ _ (by decide)

end Calls

end Sdk

end PyUploadX
