import Mathlib.Algebra.Ring.Nat
import PyUploadX.Kit.Runs
import PyUploadX.Worker.Lifecycle

/-! The outbox of the lifecycle webhooks. A message is posted until the endpoint accepts it or
the attempts are used up. -/
namespace PyUploadX

open Kit

inductive WebhookStatus
  | pending
  | delivered
  | failed
  deriving DecidableEq, Repr

/-- A message with the columns that its delivery goes by. -/
structure OutboxRow extends WebhookOutboxMessage where
  id : Uuid
  status : WebhookStatus := .pending
  attempts : Nat := 0
  lastError : Option String := none
  createdAt : Timestamp
  deriving DecidableEq

/-- What comes of a post. -/
inductive PostOutcome
  | answered (statusCode : Nat)
  | raised (text : String)
  deriving DecidableEq, Repr

def PostOutcome.accepted : PostOutcome → Bool
  | .answered statusCode => statusCode < 300
  | .raised _ => false

/-- The table, and what the endpoint was sent so far. -/
structure Outbox where
  rows : List OutboxRow := []
  posts : List (Uuid × PostOutcome) := []
  nextId : Uuid := 0

/-- A call of `deliver_due`: the readings of the clock, what comes of each post, and in which
order the database puts rows of one age. -/
structure Delivery where
  webhookUrl : Option String
  batchSize : Nat := 100
  now : Timestamp
  outcome : Uuid → PostOutcome
  failedAt : Uuid → Timestamp
  rank : Uuid → Nat

namespace WebhookService

/-- `next_attempt_at` of the message is the reading of the clock. -/
def enqueue (message : WebhookOutboxMessage) (createdAt : Timestamp) (outbox : Outbox) : Outbox :=
  { outbox with
    rows := outbox.rows ++ [{ message with id := outbox.nextId, createdAt }]
    nextId := outbox.nextId + 1 }

/-- The oldest of the pending messages whose time has come. -/
def dueMessages (delivery : Delivery) (rows : List OutboxRow) : List OutboxRow :=
  ((rows.filter fun row => row.status = .pending ∧ row.nextAttemptAt ≤ delivery.now).insertionSort
    fun first second => first.createdAt < second.createdAt ∨
      (first.createdAt = second.createdAt ∧ delivery.rank first.id ≤ delivery.rank second.id)).take
        delivery.batchSize

/-- The exception handler. -/
def recordFailure (maxAttempts : Nat) (error : String) (now : Timestamp) (row : OutboxRow) :
    OutboxRow :=
  let row := { row with lastError := some error }
  if maxAttempts ≤ row.attempts then { row with status := .failed }
  else { row with nextAttemptAt := now + seconds (min (2 ^ row.attempts) 3600 : Nat) }

/-- The body of the loop, given what comes of the post. -/
def attempt (maxAttempts : Nat) (outcome : PostOutcome) (failedAt : Timestamp) (row : OutboxRow) :
    OutboxRow :=
  let row := { row with attempts := row.attempts + 1 }
  match outcome with
  | .answered statusCode =>
    if statusCode < 300 then { row with status := .delivered }
    else recordFailure maxAttempts ("webhook returned " ++ toString statusCode) failedAt row
  | .raised text => recordFailure maxAttempts text failedAt row

/-- The flush of one message. -/
def save (row : OutboxRow) (rows : List OutboxRow) : List OutboxRow :=
  rows.map fun other => if other.id = row.id then row else other

/-- One message of the batch; the second component counts what is delivered. -/
def deliverOne (maxAttempts : Nat) (delivery : Delivery) (reached : Outbox × Nat)
    (row : OutboxRow) : Outbox × Nat :=
  let outcome := delivery.outcome row.id
  ({ reached.1 with
      rows := save (attempt maxAttempts outcome (delivery.failedAt row.id) row) reached.1.rows
      posts := reached.1.posts ++ [(row.id, outcome)] },
    if outcome.accepted then reached.2 + 1 else reached.2)

def deliverDue (maxAttempts : Nat) (delivery : Delivery) (outbox : Outbox) : Outbox × Nat :=
  if delivery.webhookUrl.getD "" = "" then (outbox, 0)
  else
    (dueMessages delivery outbox.rows).foldl (deliverOne maxAttempts delivery) (outbox, 0)

end WebhookService

/-- The committed calls, in the order in which they run. -/
inductive OutboxCall
  | enqueue (message : WebhookOutboxMessage) (createdAt : Timestamp)
  | deliverDue (delivery : Delivery)

def OutboxCall.isEnqueue : OutboxCall → Bool
  | .enqueue _ _ => true
  | .deliverDue _ => false

namespace Outbox

def step (maxAttempts : Nat) (outbox : Outbox) : OutboxCall → Outbox
  | .enqueue message createdAt => WebhookService.enqueue message createdAt outbox
  | .deliverDue delivery => (WebhookService.deliverDue maxAttempts delivery outbox).1

/-- What came of the posts of one message, in order. -/
def postsOf (outbox : Outbox) (id : Uuid) : List PostOutcome :=
  (outbox.posts.filter (·.1 = id)).map (·.2)

end Outbox

/-- The columns of a message agree with what came of its posts. -/
structure Accounted (maxAttempts : Nat) (row : OutboxRow) (posts : List PostOutcome) : Prop where
  attempts : row.attempts = posts.length
  bounded : posts.length ≤ maxAttempts
  /-- After the first post that was accepted there is no other. -/
  once : ∀ outcome ∈ posts.dropLast, outcome.accepted = false
  delivered : row.status = .delivered ↔
    ∃ outcome, posts.getLast? = some outcome ∧ outcome.accepted = true
  failed : row.status = .failed ↔
    row.attempts = maxAttempts ∧ ∀ outcome ∈ posts, outcome.accepted = false
  pending : row.status = .pending ↔
    row.attempts < maxAttempts ∧ ∀ outcome ∈ posts, outcome.accepted = false

namespace WebhookService

theorem attempt_id (maxAttempts : Nat) (outcome : PostOutcome) (failedAt : Timestamp)
    (row : OutboxRow) : (attempt maxAttempts outcome failedAt row).id = row.id := by
  unfold attempt recordFailure
  cases outcome <;> dsimp only <;> split_ifs <;> rfl

theorem attempt_attempts (maxAttempts : Nat) (outcome : PostOutcome) (failedAt : Timestamp)
    (row : OutboxRow) :
    (attempt maxAttempts outcome failedAt row).attempts = row.attempts + 1 := by
  unfold attempt recordFailure
  cases outcome <;> dsimp only <;> split_ifs <;> rfl

theorem attempt_status (maxAttempts : Nat) (outcome : PostOutcome) (failedAt : Timestamp)
    {row : OutboxRow} (pending : row.status = .pending) :
    (attempt maxAttempts outcome failedAt row).status =
      if outcome.accepted then .delivered
      else if maxAttempts ≤ row.attempts + 1 then .failed else .pending := by
  have handled : ∀ error, (recordFailure maxAttempts error failedAt
      { row with attempts := row.attempts + 1 }).status =
        if maxAttempts ≤ row.attempts + 1 then .failed else .pending := by
    intro error
    unfold recordFailure
    dsimp only
    split
    · rfl
    · exact pending
  unfold attempt
  cases outcome with
  | answered statusCode =>
    dsimp only
    by_cases accepted : statusCode < 300
    · rw [if_pos accepted, PostOutcome.accepted, if_pos (decide_eq_true accepted)]
    · have refused : ¬ decide (statusCode < 300) = true := fun yes => accepted (of_decide_eq_true yes)
      rw [if_neg accepted, handled, PostOutcome.accepted, if_neg refused]
  | raised text => exact handled text

end WebhookService

theorem Accounted.fresh {maxAttempts : Nat} (positive : 1 ≤ maxAttempts) {row : OutboxRow}
    (pending : row.status = .pending) (none_ : row.attempts = 0) :
    Accounted maxAttempts row [] where
  attempts := none_
  bounded := Nat.zero_le _
  once := List.forall_mem_nil _
  delivered := by
    rw [pending]
    refine iff_of_false WebhookStatus.noConfusion ?_
    rintro ⟨_, last, _⟩
    cases last
  failed := by
    rw [pending, none_]
    exact iff_of_false WebhookStatus.noConfusion fun both => by omega
  pending := by
    rw [none_]
    exact iff_of_true pending ⟨positive, List.forall_mem_nil _⟩

/-- An attempt on a pending message adds its post to the account. -/
theorem Accounted.attempt {maxAttempts : Nat} {row : OutboxRow} {posts : List PostOutcome}
    (accounted : Accounted maxAttempts row posts) (pending : row.status = .pending)
    (outcome : PostOutcome) (failedAt : Timestamp) :
    Accounted maxAttempts (WebhookService.attempt maxAttempts outcome failedAt row)
      (posts ++ [outcome]) := by
  obtain ⟨more, refused⟩ := accounted.pending.mp pending
  have attempts := WebhookService.attempt_attempts maxAttempts outcome failedAt row
  have status := WebhookService.attempt_status maxAttempts outcome failedAt pending
  have length : (posts ++ [outcome]).length = row.attempts + 1 := by
    rw [List.length_append, List.length_singleton, accounted.attempts]
  have refusals : (∀ other ∈ posts ++ [outcome], other.accepted = false) ↔
      outcome.accepted = false := by
    rw [List.forall_mem_append, List.forall_mem_singleton]
    exact and_iff_right refused
  refine ⟨?_, ?_, ?_, ?_, ?_, ?_⟩
  · rw [attempts, length]
  · rw [length]
    exact more
  · rw [List.dropLast_concat]
    exact refused
  · rw [status, List.getLast?_concat]
    by_cases accepted : outcome.accepted = true
    · rw [if_pos accepted]
      exact iff_of_true rfl ⟨outcome, rfl, accepted⟩
    · rw [if_neg accepted]
      refine iff_of_false (by split <;> exact WebhookStatus.noConfusion) ?_
      rintro ⟨_, ⟨⟩, other⟩
      exact accepted other
  · rw [status, attempts, refusals]
    by_cases accepted : outcome.accepted = true
    · rw [if_pos accepted, accepted]
      exact iff_of_false WebhookStatus.noConfusion fun both => Bool.noConfusion both.2
    · rw [if_neg accepted, Bool.eq_false_iff.mpr accepted]
      split
      · exact iff_of_true rfl ⟨by omega, rfl⟩
      · exact iff_of_false WebhookStatus.noConfusion fun both => by omega
  · rw [status, attempts, refusals]
    by_cases accepted : outcome.accepted = true
    · rw [if_pos accepted, accepted]
      exact iff_of_false WebhookStatus.noConfusion fun both => Bool.noConfusion both.2
    · rw [if_neg accepted, Bool.eq_false_iff.mpr accepted]
      split
      · exact iff_of_false WebhookStatus.noConfusion fun both => by omega
      · exact iff_of_true rfl ⟨by omega, rfl⟩

namespace Outbox

/-- No message is lost, and each agrees with what came of its posts. -/
structure Sound (maxAttempts : Nat) (outbox : Outbox) : Prop where
  ids : outbox.rows.map (·.id) = List.range outbox.nextId
  posted : ∀ post ∈ outbox.posts, post.1 < outbox.nextId
  accounted : ∀ row ∈ outbox.rows, Accounted maxAttempts row (outbox.postsOf row.id)

variable {maxAttempts : Nat} {outbox : Outbox}

private theorem postsOf_post (outbox : Outbox) (rows : List OutboxRow) (id : Uuid)
    (outcome : PostOutcome) (other : Uuid) :
    postsOf { outbox with rows, posts := outbox.posts ++ [(id, outcome)] } other =
      outbox.postsOf other ++ if id = other then [outcome] else [] := by
  unfold postsOf
  dsimp only
  rw [List.filter_append, List.map_append]
  by_cases same : id = other <;> simp [same]

theorem Sound.unique (sound : outbox.Sound maxAttempts) {first second : OutboxRow}
    (one : first ∈ outbox.rows) (two : second ∈ outbox.rows) (same : first.id = second.id) :
    first = second :=
  List.inj_on_of_nodup_map (sound.ids ▸ List.nodup_range) one two same

private theorem Sound.id_lt (sound : outbox.Sound maxAttempts) {row : OutboxRow}
    (member : row ∈ outbox.rows) : row.id < outbox.nextId :=
  List.mem_range.mp (sound.ids ▸ List.mem_map_of_mem member)

theorem Sound.enqueue (sound : outbox.Sound maxAttempts) (positive : 1 ≤ maxAttempts)
    (message : WebhookOutboxMessage) (createdAt : Timestamp) :
    (WebhookService.enqueue message createdAt outbox).Sound maxAttempts where
  ids := by
    unfold WebhookService.enqueue
    dsimp only
    rw [List.map_append, sound.ids, List.range_succ]
    rfl
  posted post member := Nat.lt_succ_of_lt (sound.posted post member)
  accounted := by
    intro row member
    rcases List.mem_append.mp member with old | new
    · exact sound.accounted row old
    · rw [List.mem_singleton] at new
      subst new
      have unposted : outbox.postsOf outbox.nextId = [] := by
        unfold postsOf
        rw [List.map_eq_nil_iff, List.filter_eq_nil_iff]
        intro post member
        have before := sound.posted post member
        simpa using before.ne
      exact unposted ▸ Accounted.fresh positive rfl rfl

/-- The worker's announcements are messages of the outbox. -/
theorem enqueue_announces {σ : Type} (message : WebhookOutboxMessage) (createdAt : Timestamp)
    {db : Database} (same : db.webhookOutbox = outbox.rows.map (·.toWebhookOutboxMessage))
    (store : σ) : ∃ db', (LifecycleWorker.enqueue message).run db store = (.ok ((), db'), store) ∧
      db'.webhookOutbox = (WebhookService.enqueue message createdAt outbox).rows.map
        (·.toWebhookOutboxMessage) := by
  refine ⟨_, rfl, ?_⟩
  unfold WebhookService.enqueue
  dsimp only
  rw [List.map_append, ← same]
  rfl

/-- To save a message leaves the others as they are. -/
theorem mem_save {row other : OutboxRow} {rows : List OutboxRow} (aside : other.id ≠ row.id)
    (member : other ∈ rows) : other ∈ WebhookService.save row rows :=
  List.mem_map.mpr ⟨other, member, if_neg aside⟩

theorem Sound.deliverOne (sound : outbox.Sound maxAttempts) (delivery : Delivery) (count : Nat)
    {row : OutboxRow} (member : row ∈ outbox.rows) (pending : row.status = .pending) :
    (WebhookService.deliverOne maxAttempts delivery (outbox, count) row).1.Sound maxAttempts := by
  have attemptId := WebhookService.attempt_id maxAttempts (delivery.outcome row.id)
    (delivery.failedAt row.id) row
  constructor
  · refine Eq.trans ?_ sound.ids
    unfold WebhookService.deliverOne WebhookService.save
    dsimp only
    rw [List.map_map]
    refine List.map_congr_left fun other _ => ?_
    rw [Function.comp_apply]
    split
    · rename_i same
      rw [same, attemptId]
    · rfl
  · intro post posted
    rcases List.mem_append.mp posted with earlier | latest
    · exact sound.posted post earlier
    · rw [List.mem_singleton] at latest
      subst latest
      exact sound.id_lt member
  · intro saved inside
    obtain ⟨other, present, rfl⟩ := List.mem_map.mp inside
    unfold WebhookService.deliverOne
    dsimp only
    rw [postsOf_post, attemptId]
    by_cases same : other.id = row.id
    · cases sound.unique present member same
      rw [if_pos rfl, attemptId, if_pos rfl]
      exact (sound.accounted row member).attempt pending _ _
    · rw [if_neg same, if_neg (Ne.symm same), List.append_nil]
      exact sound.accounted other present

/-- A batch holds every message once, as it stands in the table. -/
theorem Sound.deliverAll (delivery : Delivery) (batch : List OutboxRow) (outbox : Outbox)
    (count : Nat) (sound : outbox.Sound maxAttempts)
    (pending : ∀ row ∈ batch, row ∈ outbox.rows ∧ row.status = .pending)
    (distinct : (batch.map (·.id)).Nodup) :
    (batch.foldl (WebhookService.deliverOne maxAttempts delivery) (outbox, count)).1.Sound
      maxAttempts := by
  induction batch generalizing outbox count with
  | nil => exact sound
  | cons row rest ih =>
    obtain ⟨present, waits⟩ := pending row List.mem_cons_self
    rw [List.map_cons, List.nodup_cons] at distinct
    refine ih _ _ (sound.deliverOne delivery count present waits) (fun other later => ?_) distinct.2
    obtain ⟨stands, otherWaits⟩ := pending other (List.mem_cons_of_mem row later)
    refine ⟨mem_save ?_ stands, otherWaits⟩
    rw [WebhookService.attempt_id]
    exact fun same => distinct.1 (same ▸ List.mem_map_of_mem later)

theorem mem_dueMessages {delivery : Delivery} {rows : List OutboxRow} {row : OutboxRow}
    (member : row ∈ WebhookService.dueMessages delivery rows) :
    row ∈ rows ∧ row.status = .pending ∧ row.nextAttemptAt ≤ delivery.now := by
  have sorted := List.mem_of_mem_take member
  rw [List.mem_insertionSort, List.mem_filter] at sorted
  exact ⟨sorted.1, of_decide_eq_true sorted.2⟩

theorem dueMessages_distinct {delivery : Delivery} {rows : List OutboxRow}
    (distinct : (rows.map (·.id)).Nodup) :
    ((WebhookService.dueMessages delivery rows).map (·.id)).Nodup := by
  have due : ((rows.filter fun row => row.status = .pending ∧
      row.nextAttemptAt ≤ delivery.now).map (·.id)).Nodup :=
    distinct.sublist (List.Sublist.map _ List.filter_sublist)
  have sorted := ((List.perm_insertionSort (fun first second : OutboxRow =>
    first.createdAt < second.createdAt ∨ (first.createdAt = second.createdAt ∧
      delivery.rank first.id ≤ delivery.rank second.id)) _).map (·.id)).nodup_iff.mpr due
  exact sorted.sublist (List.Sublist.map _ (List.take_sublist _ _))

theorem Sound.step (sound : outbox.Sound maxAttempts) (positive : 1 ≤ maxAttempts)
    (call : OutboxCall) : (outbox.step maxAttempts call).Sound maxAttempts := by
  cases call with
  | enqueue message createdAt => exact sound.enqueue positive message createdAt
  | deliverDue delivery =>
    unfold Outbox.step WebhookService.deliverDue
    dsimp only
    split
    · exact sound
    · refine Sound.deliverAll delivery _ outbox 0 sound (fun row member => ?_)
        (dueMessages_distinct (sound.ids ▸ List.nodup_range))
      exact ⟨(mem_dueMessages member).1, (mem_dueMessages member).2.1⟩

private theorem deliverAll_nextId (delivery : Delivery) (batch : List OutboxRow)
    (reached : Outbox × Nat) :
    (batch.foldl (WebhookService.deliverOne maxAttempts delivery) reached).1.nextId =
      reached.1.nextId := by
  induction batch generalizing reached with
  | nil => rfl
  | cons row rest ih => exact ih _

private theorem step_nextId (call : OutboxCall) : (outbox.step maxAttempts call).nextId =
    outbox.nextId + if call.isEnqueue then 1 else 0 := by
  cases call with
  | enqueue message createdAt => rfl
  | deliverDue delivery =>
    unfold Outbox.step WebhookService.deliverDue
    dsimp only
    split
    · rfl
    · exact deliverAll_nextId delivery _ _

private theorem run_nextId (calls : List OutboxCall) (outbox : Outbox) :
    (calls.foldl (Outbox.step maxAttempts) outbox).nextId =
      outbox.nextId + calls.countP (·.isEnqueue) := by
  induction calls generalizing outbox with
  | nil => rfl
  | cons call rest ih =>
    rw [List.foldl_cons, ih, step_nextId, List.countP_cons, Nat.add_assoc, Nat.add_comm (ite _ _ _)]

end Outbox

/-- After any calls, every message that was enqueued is in the table, no other was posted, and
its columns agree with what came of its posts: accepted ones are delivered and not posted again,
the others are posted until the attempts are used up, and no more. -/
theorem outbox_accounts_for_posts (maxAttempts : Nat) (positive : 1 ≤ maxAttempts)
    (calls : List OutboxCall) :
    let reached := calls.foldl (Outbox.step maxAttempts) {}
    reached.rows.map (·.id) = List.range (calls.countP (·.isEnqueue)) ∧
      (∀ post ∈ reached.posts, post.1 < calls.countP (·.isEnqueue)) ∧
      ∀ row ∈ reached.rows, Accounted maxAttempts row (reached.postsOf row.id) := by
  intro reached
  have sound : reached.Sound maxAttempts :=
    run_preserves calls ⟨rfl, List.forall_mem_nil _, List.forall_mem_nil _⟩
      fun outbox call now => now.step positive call
  have many : reached.nextId = calls.countP (·.isEnqueue) :=
    (Outbox.run_nextId calls {}).trans (Nat.zero_add _)
  exact ⟨many ▸ sound.ids, many ▸ sound.posted, sound.accounted⟩

def smallMessage : WebhookOutboxMessage where
  tenantId := "tenant"
  eventType := "lifecycle.LifecycleAction.delete"
  fileId := 0
  bucket := "files"
  objectKey := ⟨["old.bin"], by decide, by decide⟩
  action := .delete
  nextAttemptAt := 0

/-- A delivery in which the first message is refused and the second accepted. -/
def smallDelivery (now : Timestamp) : Delivery where
  webhookUrl := some "http://hooks"
  now
  outcome id := .answered (if id = 0 then 500 else 200)
  failedAt _ := now
  rank := id

/-- With two attempts, the second delivery gives the first message up. -/
theorem small_outbox_accounts :
    let reached := [OutboxCall.enqueue smallMessage 0, .enqueue smallMessage 0,
      .deliverDue (smallDelivery 0), .deliverDue (smallDelivery (seconds 2))].foldl
        (Outbox.step 2) {}
    reached.rows.map (fun row => (row.id, row.status, row.attempts)) =
        [(0, .failed, 2), (1, .delivered, 1)] ∧
      ∀ row ∈ reached.rows, Accounted 2 row (reached.postsOf row.id) :=
  ⟨by decide, (outbox_accounts_for_posts 2 (by decide) _).2.2⟩

end PyUploadX
