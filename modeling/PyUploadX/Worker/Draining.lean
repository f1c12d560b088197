import Mathlib.Data.List.Perm.Subperm
import PyUploadX.Worker.Webhooks

/-! How many calls of `deliver_due` leave nothing pending. -/
namespace Kit

section Rounds

variable {State Round : Type} {round : State → Round → State} {holds : State → List Round → Prop}
  {needs : State → Nat → Prop}

private theorem over_stays
    (keeps : ∀ {state turn rest}, holds state (turn :: rest) → holds (round state turn) rest)
    (spent : ∀ {state turn rest}, holds state (turn :: rest) → needs state 0 →
      needs (round state turn) 0)
    {rounds : List Round} {state : State} (start : holds state rounds) (none : needs state 0) :
    needs (rounds.foldl round state) 0 := by
  induction rounds generalizing state with
  | nil => exact none
  | cons turn rest ih => exact ih (keeps start) (spent start none)

/-- Rounds that take `width` from the work that is owed, or lower what each item still needs:
after as many of them as the work and the need of one item ask for, no item needs anything. -/
theorem drained {owed : State → Nat} {width : Nat} (positive : 0 < width)
    (keeps : ∀ {state turn rest}, holds state (turn :: rest) → holds (round state turn) rest)
    (progress : ∀ {state turn rest need}, holds state (turn :: rest) → needs state (need + 1) →
      (owed (round state turn) + width ≤ owed state ∧ needs (round state turn) (need + 1)) ∨
        (owed (round state turn) ≤ owed state ∧ needs (round state turn) need))
    (spent : ∀ {state turn rest}, holds state (turn :: rest) → needs state 0 →
      needs (round state turn) 0)
    {rounds : List Round} {state : State} {need : Nat} (start : holds state rounds)
    (most : needs state need) (enough : owed state / width + need ≤ rounds.length) :
    needs (rounds.foldl round state) 0 := by
  induction rounds generalizing state need with
  | nil =>
    rw [List.length_nil, Nat.le_zero, Nat.add_eq_zero_iff] at enough
    exact enough.2 ▸ most
  | cons turn rest ih =>
    have later := keeps start
    rw [List.length_cons] at enough
    cases need with
    | zero => exact over_stays keeps spent start most
    | succ need =>
      rcases progress start most with ⟨less, same⟩ | ⟨kept, fewer⟩
      · have quotient := Nat.div_le_div_right (c := width) less
        rw [Nat.add_div_right _ positive] at quotient
        exact ih later same (by omega)
      · have quotient := Nat.div_le_div_right (c := width) kept
        exact ih later fewer (by omega)

end Rounds

end Kit

namespace PyUploadX

open Kit

/-- The attempts that a message has left. -/
def OutboxRow.left (maxAttempts : Nat) (row : OutboxRow) : Nat :=
  if row.status = .pending then maxAttempts - row.attempts else 0

namespace Outbox

/-- The attempts that all messages have left. -/
def owed (maxAttempts : Nat) (outbox : Outbox) : Nat :=
  (outbox.rows.map (·.left maxAttempts)).sum

/-- No message has more attempts left. -/
def Needs (maxAttempts : Nat) (outbox : Outbox) (need : Nat) : Prop :=
  ∀ row ∈ outbox.rows, row.status = .pending → maxAttempts ≤ row.attempts + need

variable {maxAttempts : Nat} {outbox : Outbox}

/-- What a delivery makes of a message of its batch. -/
def attempted (maxAttempts : Nat) (delivery : Delivery) (row : OutboxRow) : OutboxRow :=
  WebhookService.attempt maxAttempts (delivery.outcome row.id) (delivery.failedAt row.id) row

/-- The messages of a batch are attempted, each on its own, and the others stay. -/
theorem deliverAll_rows (delivery : Delivery) {batch : List OutboxRow} {reached : Outbox × Nat}
    (unique : (reached.1.rows.map (·.id)).Nodup) (present : ∀ row ∈ batch, row ∈ reached.1.rows)
    (distinct : (batch.map (·.id)).Nodup) :
    (batch.foldl (WebhookService.deliverOne maxAttempts delivery) reached).1.rows =
      reached.1.rows.map fun row =>
        if row ∈ batch then attempted maxAttempts delivery row else row := by
  induction batch generalizing reached with
  | nil => simp
  | cons row rest ih =>
    rw [List.map_cons, List.nodup_cons] at distinct
    have member := present row List.mem_cons_self
    have saved : (WebhookService.deliverOne maxAttempts delivery reached row).1.rows =
        reached.1.rows.map fun other =>
          if other.id = row.id then attempted maxAttempts delivery row else other := by
      unfold WebhookService.deliverOne WebhookService.save attempted
      dsimp only
      simp only [WebhookService.attempt_id]
    have ids : (WebhookService.deliverOne maxAttempts delivery reached row).1.rows.map (·.id) =
        reached.1.rows.map (·.id) := by
      rw [saved, List.map_map]
      refine List.map_congr_left fun other _ => ?_
      rw [Function.comp_apply]
      split
      · rename_i same
        exact (WebhookService.attempt_id _ _ _ row).trans same.symm
      · rfl
    have apart : ∀ other ∈ rest, other.id ≠ row.id :=
      fun other later same => distinct.1 (same ▸ List.mem_map_of_mem later)
    have left : ∀ other ∈ rest,
        other ∈ (WebhookService.deliverOne maxAttempts delivery reached row).1.rows := by
      intro other later
      rw [saved]
      exact List.mem_map.mpr
        ⟨other, present other (List.mem_cons_of_mem row later), if_neg (apart other later)⟩
    rw [List.foldl_cons, ih (ids ▸ unique) left distinct.2, saved, List.map_map]
    refine List.map_congr_left fun other inside => ?_
    rw [Function.comp_apply]
    by_cases same : other.id = row.id
    · have own : other = row := List.inj_on_of_nodup_map unique inside member same
      have done : attempted maxAttempts delivery row ∉ rest :=
        fun later => apart _ later (WebhookService.attempt_id _ _ _ row)
      rw [own, if_pos rfl, if_neg done, if_pos List.mem_cons_self]
    · have other' : other ≠ row := fun equal => same (equal ▸ rfl)
      simp only [if_neg same, List.mem_cons, other', false_or]

private theorem deliverDue_rows (sound : outbox.Sound maxAttempts) {delivery : Delivery}
    (configured : delivery.webhookUrl.getD "" ≠ "") :
    (outbox.step maxAttempts (.deliverDue delivery)).rows = outbox.rows.map fun row =>
      if row ∈ WebhookService.dueMessages delivery outbox.rows then
        attempted maxAttempts delivery row
      else row := by
  have unique : (outbox.rows.map (·.id)).Nodup := sound.ids ▸ List.nodup_range
  unfold Outbox.step WebhookService.deliverDue
  dsimp only
  rw [if_neg configured]
  exact deliverAll_rows delivery unique (fun row member => (mem_dueMessages member).1)
    (dueMessages_distinct unique)

theorem attempted_left (delivery : Delivery) {row : OutboxRow} (pending : row.status = .pending)
    (more : row.attempts < maxAttempts) :
    (attempted maxAttempts delivery row).left maxAttempts + 1 ≤ row.left maxAttempts := by
  have used : (attempted maxAttempts delivery row).attempts = row.attempts + 1 :=
    WebhookService.attempt_attempts _ _ _ row
  unfold OutboxRow.left
  rw [if_pos pending, used]
  split <;> omega

/-- After a failure the next attempt is due within the hour. -/
theorem attempted_due (delivery : Delivery) {row : OutboxRow} (pending : row.status = .pending)
    (again : (attempted maxAttempts delivery row).status = .pending) :
    (attempted maxAttempts delivery row).nextAttemptAt ≤
      delivery.failedAt row.id + seconds 3600 := by
  have handled : ∀ error (other : OutboxRow),
      (WebhookService.recordFailure maxAttempts error (delivery.failedAt row.id) other).status =
        .pending → other.status = .pending →
      (WebhookService.recordFailure maxAttempts error (delivery.failedAt row.id) other).nextAttemptAt ≤
        delivery.failedAt row.id + seconds 3600 := by
    intro error other
    unfold WebhookService.recordFailure seconds
    dsimp only
    split
    · intro failed
      cases failed
    · intro _ _
      have capped : min (2 ^ other.attempts) 3600 ≤ 3600 := Nat.min_le_right _ _
      refine Int.add_le_add_left ?_ _
      generalize min (2 ^ other.attempts) 3600 = wait at capped ⊢
      omega
  unfold attempted WebhookService.attempt at again ⊢
  generalize delivery.outcome row.id = outcome at again ⊢
  cases outcome with
  | answered statusCode =>
    dsimp only at again ⊢
    by_cases accepted : statusCode < 300
    · rw [if_pos accepted] at again
      cases again
    · rw [if_neg accepted] at again ⊢
      exact handled _ _ again pending
  | raised text => exact handled _ _ again pending

/-- A batch takes as many attempts from what is owed as it has messages. -/
theorem owed_step (sound : outbox.Sound maxAttempts) {delivery : Delivery}
    (configured : delivery.webhookUrl.getD "" ≠ "") :
    owed maxAttempts (outbox.step maxAttempts (.deliverDue delivery)) +
        (WebhookService.dueMessages delivery outbox.rows).length ≤ owed maxAttempts outbox := by
  generalize due : WebhookService.dueMessages delivery outbox.rows = batch
  have waiting : ∀ row ∈ batch, row.status = .pending ∧ row.attempts < maxAttempts := by
    intro row member
    rw [← due] at member
    obtain ⟨present, pending, _⟩ := mem_dueMessages member
    exact ⟨pending, ((sound.accounted row present).pending.mp pending).1⟩
  have each : ∀ rows : List OutboxRow,
      ((rows.map fun row => if row ∈ batch then attempted maxAttempts delivery row else row).map
        (·.left maxAttempts)).sum + rows.countP (· ∈ batch) ≤
          (rows.map (·.left maxAttempts)).sum := by
    intro rows
    induction rows with
    | nil => exact Nat.le_refl _
    | cons row rest ih =>
      simp only [List.map_cons, List.sum_cons, List.countP_cons]
      by_cases member : row ∈ batch
      · have used := attempted_left delivery (waiting row member).1 (waiting row member).2
        simp only [member, decide_true, if_true]
        omega
      · simp only [member, decide_false, if_false, Bool.false_eq_true]
        omega
  have inside : batch.length ≤ outbox.rows.countP (· ∈ batch) := by
    have distinct : batch.Nodup := by
      rw [← due]
      exact (dueMessages_distinct (sound.ids ▸ List.nodup_range)).of_map
    have among : batch ⊆ outbox.rows.filter (· ∈ batch) := by
      intro row member
      refine List.mem_filter.mpr ⟨?_, decide_eq_true member⟩
      rw [← due] at member
      exact (mem_dueMessages member).1
    rw [List.countP_eq_length_filter]
    exact (distinct.subperm among).length_le
  have rows := deliverDue_rows sound configured
  rw [due] at rows
  unfold owed
  rw [rows]
  have total := each outbox.rows
  omega

/-- A batch that does not fill up holds every pending message whose time has come. -/
theorem mem_due_of_short {delivery : Delivery} {rows : List OutboxRow} {row : OutboxRow}
    (short : (WebhookService.dueMessages delivery rows).length < delivery.batchSize)
    (member : row ∈ rows) (pending : row.status = .pending)
    (due : row.nextAttemptAt ≤ delivery.now) : row ∈ WebhookService.dueMessages delivery rows := by
  unfold WebhookService.dueMessages at short ⊢
  rw [List.length_take] at short
  rw [List.take_of_length_le (by omega), List.mem_insertionSort, List.mem_filter]
  exact ⟨member, decide_eq_true ⟨pending, due⟩⟩

/-- The calls that are still to come, each with every pending message due. -/
structure Upcoming (maxAttempts width : Nat) (outbox : Outbox) (deliveries : List Delivery) :
    Prop where
  sound : outbox.Sound maxAttempts
  configured : ∀ delivery ∈ deliveries, delivery.webhookUrl.getD "" ≠ "" ∧ width ≤ delivery.batchSize
  due : ∀ delivery ∈ deliveries, ∀ row ∈ outbox.rows, row.status = .pending →
    row.nextAttemptAt ≤ delivery.now
  apart : deliveries.Pairwise fun earlier later =>
    ∀ id, earlier.failedAt id + seconds 3600 ≤ later.now

theorem Upcoming.step {width : Nat} {delivery : Delivery} {rest : List Delivery}
    (positive : 1 ≤ maxAttempts) (upcoming : Upcoming maxAttempts width outbox (delivery :: rest)) :
    Upcoming maxAttempts width (outbox.step maxAttempts (.deliverDue delivery)) rest where
  sound := upcoming.sound.step positive _
  configured := fun later member => upcoming.configured later (List.mem_cons_of_mem _ member)
  due := by
    intro later member row inside pending
    rw [deliverDue_rows upcoming.sound (upcoming.configured delivery List.mem_cons_self).1] at inside
    obtain ⟨old, present, rfl⟩ := List.mem_map.mp inside
    split at pending
    · rename_i batched
      rw [if_pos batched]
      obtain ⟨_, waited, _⟩ := mem_dueMessages batched
      exact (attempted_due delivery waited pending).trans
        ((List.pairwise_cons.mp upcoming.apart).1 later member old.id)
    · rename_i spared
      rw [if_neg spared]
      exact upcoming.due later (List.mem_cons_of_mem _ member) old present pending
  apart := (List.pairwise_cons.mp upcoming.apart).2

/-- A row that is pending after a call was so before, and is attempted if it is in the batch. -/
theorem pending_before (sound : outbox.Sound maxAttempts) {delivery : Delivery}
    (configured : delivery.webhookUrl.getD "" ≠ "") {row : OutboxRow}
    (member : row ∈ (outbox.step maxAttempts (.deliverDue delivery)).rows)
    (pending : row.status = .pending) :
    ∃ old ∈ outbox.rows, old.status = .pending ∧
      row.attempts = if old ∈ WebhookService.dueMessages delivery outbox.rows then
        old.attempts + 1 else old.attempts := by
  rw [deliverDue_rows sound configured] at member
  obtain ⟨old, present, rfl⟩ := List.mem_map.mp member
  by_cases batched : old ∈ WebhookService.dueMessages delivery outbox.rows
  · rw [if_pos batched]
    exact ⟨old, present, (mem_dueMessages batched).2.1,
      (WebhookService.attempt_attempts _ _ _ old).trans (if_pos batched).symm⟩
  · rw [if_neg batched] at pending ⊢
    exact ⟨old, present, pending, (if_neg batched).symm⟩

/-- A full batch takes its width from what is owed, and any other attempts every message. -/
theorem Upcoming.progress {width need : Nat} {delivery : Delivery} {rest : List Delivery}
    (upcoming : Upcoming maxAttempts width outbox (delivery :: rest))
    (most : outbox.Needs maxAttempts (need + 1)) :
    let reached := outbox.step maxAttempts (.deliverDue delivery)
    (owed maxAttempts reached + width ≤ owed maxAttempts outbox ∧
        reached.Needs maxAttempts (need + 1)) ∨
      (owed maxAttempts reached ≤ owed maxAttempts outbox ∧ reached.Needs maxAttempts need) := by
  intro reached
  obtain ⟨configured, wide⟩ := upcoming.configured delivery List.mem_cons_self
  have taken := owed_step upcoming.sound configured
  by_cases full : width ≤ (WebhookService.dueMessages delivery outbox.rows).length
  · refine .inl ⟨(Nat.add_le_add_left full _).trans taken, fun row member pending => ?_⟩
    obtain ⟨old, present, waited, attempts⟩ :=
      pending_before upcoming.sound configured member pending
    have before := most old present waited
    split at attempts <;> omega
  · refine .inr ⟨(Nat.le_add_right _ _).trans taken, fun row member pending => ?_⟩
    obtain ⟨old, present, waited, attempts⟩ :=
      pending_before upcoming.sound configured member pending
    have batched := mem_due_of_short ((Nat.lt_of_not_le full).trans_le wide) present waited
      (upcoming.due delivery List.mem_cons_self old present waited)
    rw [if_pos batched] at attempts
    have before := most old present waited
    omega

/-- With no attempt left, no message is pending. -/
theorem Needs.none (sound : outbox.Sound maxAttempts) (spent : outbox.Needs maxAttempts 0)
    {row : OutboxRow} (member : row ∈ outbox.rows) : row.status ≠ .pending := by
  intro pending
  have more := ((sound.accounted row member).pending.mp pending).1
  have used := spent row member pending
  omega

end Outbox

/-- However the posts end, calls that are an hour apart settle every message of the outbox: after
as many calls as full batches are owed, and the attempts of one message more, each is delivered,
or was posted as often as is allowed. -/
theorem outbox_drains (maxAttempts : Nat) (positive : 1 ≤ maxAttempts) (calls : List OutboxCall)
    (deliveries : List Delivery) {width : Nat} (filled : 0 < width)
    (configured : ∀ delivery ∈ deliveries,
      delivery.webhookUrl.getD "" ≠ "" ∧ width ≤ delivery.batchSize)
    (due : ∀ delivery ∈ deliveries, ∀ row ∈ (calls.foldl (Outbox.step maxAttempts) {}).rows,
      row.status = .pending → row.nextAttemptAt ≤ delivery.now)
    (apart : deliveries.Pairwise fun earlier later =>
      ∀ id, earlier.failedAt id + seconds 3600 ≤ later.now)
    (enough : (calls.foldl (Outbox.step maxAttempts) {}).owed maxAttempts / width + maxAttempts ≤
      deliveries.length) :
    let settled := (calls ++ deliveries.map OutboxCall.deliverDue).foldl (Outbox.step maxAttempts) {}
    ∀ row ∈ settled.rows, row.status = .delivered ∨
      (row.status = .failed ∧ (settled.postsOf row.id).length = maxAttempts) := by
  intro settled row member
  have sound : (calls.foldl (Outbox.step maxAttempts) {}).Sound maxAttempts :=
    run_preserves calls ⟨rfl, List.forall_mem_nil _, List.forall_mem_nil _⟩
      fun outbox call now => now.step positive call
  have whole : settled.Sound maxAttempts :=
    run_preserves _ ⟨rfl, List.forall_mem_nil _, List.forall_mem_nil _⟩
      fun outbox call now => now.step positive call
  have spent : settled.Needs maxAttempts 0 := by
    have drained := @Kit.drained Outbox Delivery
      (fun outbox delivery => outbox.step maxAttempts (.deliverDue delivery))
      (Outbox.Upcoming maxAttempts width) (Outbox.Needs maxAttempts) (Outbox.owed maxAttempts) width
      filled (fun upcoming => upcoming.step positive) (fun upcoming most => upcoming.progress most)
      (fun upcoming spent row member pending => ?_) deliveries _ maxAttempts
      ⟨sound, configured, due, apart⟩ (fun row _ _ => Nat.le_add_left _ _) enough
    · rw [show settled = _ from List.foldl_append, List.foldl_map]
      exact drained
    · obtain ⟨old, present, waited, _⟩ := Outbox.pending_before upcoming.sound
        (upcoming.configured _ List.mem_cons_self).1 member pending
      exact absurd waited (spent.none upcoming.sound present)
  have account := whole.accounted row member
  cases status : row.status with
  | pending => exact absurd status (spent.none whole member)
  | delivered => exact .inl rfl
  | failed =>
    refine .inr ⟨rfl, ?_⟩
    rw [← account.attempts]
    exact (account.failed.mp status).1

/-- One message is refused twice, the other accepted. -/
theorem outbox_drains_small :
    let settled := ([OutboxCall.enqueue smallMessage 0, .enqueue smallMessage 0] ++
      [smallDelivery 0, smallDelivery (seconds 3600)].map OutboxCall.deliverDue).foldl
        (Outbox.step 2) {}
    ∀ row ∈ settled.rows, row.status = .delivered ∨
      (row.status = .failed ∧ (settled.postsOf row.id).length = 2) :=
  outbox_drains 2 (by decide) _ [smallDelivery 0, smallDelivery (seconds 3600)]
    (by decide : 0 < 100) (by decide) (by decide)
    (List.pairwise_pair.mpr fun _ => Int.le_of_eq rfl) (by decide)

end PyUploadX
