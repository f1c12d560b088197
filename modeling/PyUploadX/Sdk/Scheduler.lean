import Mathlib.Data.Finset.Sort
import PyUploadX.Kit.Pool
import PyUploadX.Sdk.Retry
import PyUploadX.Services.ListedParts
import PyUploadX.Services.Outcomes

/-! `upload_all_parts`: the scheduler's threads send the parts, and the caller waits for them. -/
namespace PyUploadX

open Kit UploadService

variable {σ : Type}

namespace Sdk

/-- A call of `upload_all_parts` in `upload_large_file`. -/
structure PartsCall where
  identity : Identity
  session : UploadSession
  content : Bytes
  concurrency : Int := 4
  maxTotalConcurrent : Nat := 32
  reportsProgress : Bool := true
  missingParts : Option (Finset Nat) := none

namespace PartsCall

variable (call : PartsCall)

/-- `max_workers`. -/
def maxWorkers : Nat := (max 1 call.concurrency).toNat

/-- `sorted(pending)`. -/
def pending : List Nat :=
  (call.missingParts.getD (Finset.Icc 1 call.session.totalParts)).sort (· ≤ ·)

def uploadedPart (row : UploadPart) : UploadedPart where
  partNumber := row.partNumber
  etag := row.etag
  sizeBytes := row.sizeBytes
  checksumSha256 := row.checksumSha256

/-- `uploaded.append(…)` and `progress(…)`, under the lock. -/
def collect (part : Nat) (row : UploadPart) (wire : Wire σ) : Except Raised Unit × Wire σ :=
  (.ok (), { wire with
    uploaded := wire.uploaded ++ [uploadedPart row]
    progress :=
      if call.reportsProgress then wire.progress ++ [(part, call.session.totalParts)]
      else wire.progress })

/-- What `upload_part` makes of the response. -/
def read (part : Nat) : Response → Task (Wire σ) (Except Raised Unit)
  | .service (.ok (.part row)) => Task.act (call.collect part row)
  | .service (.error (.api error)) => .done (.error (.client .multipart error.message none))
  -- a body that is no JSON, or has no part number
  | _ => .done (.error .other)

variable (app : AppState σ) (net : Nat → Fate)

/-- `upload_part`; a file has no place before its start. -/
def uploadPart (part : Nat) : Task (Wire σ) (Except Raised Unit) :=
  if part = 0 then .done (.error .other)
  else
    (retry part (request app net part
      (Sdk.uploadPart app.sha256 call.identity call.session call.content part))).bind fun
      | .ok response => call.read part response
      | .error raised => .done (.error raised)

/-- Where the thread that called stands. -/
inductive Caller
  | submitting (parts : List Nat)
  /-- In `wait_all`, before it has looked at this future. -/
  | waiting (future : Nat)
  /-- In `shutdown`, on the way out with an exception or without. -/
  | leaving (raised : Option Raised)
  | returned (result : Except Raised (List UploadedPart))

structure State (σ : Type) where
  pool : Pool (Wire σ) (Except Raised Unit)
  caller : Caller

def start (world : World Database σ) : State σ where
  pool := Pool.start { world } call.maxWorkers call.maxTotalConcurrent
  caller := .submitting call.pending

inductive Move
  | caller
  | thread (i : Nat)
  /-- Another request that the service handles. -/
  | other (timed : Timed)

def comesFirst (first second : UploadedPart) : Prop := first.partNumber ≤ second.partNumber

instance : DecidableRel comesFirst := fun first second =>
  inferInstanceAs (Decidable (first.partNumber ≤ second.partNumber))

/-- The threads have ended. -/
def Idle (pool : Pool (Wire σ) (Except Raised Unit)) : Prop := pool.held = []

instance (pool : Pool (Wire σ) (Except Raised Unit)) : Decidable (Idle pool) :=
  decidable_of_iff (pool.held.isEmpty = true) List.isEmpty_iff

/-- The next step of the thread that called; where it waits, it stays. -/
def proceed (state : State σ) : State σ :=
  match state.caller with
  | .submitting [] => { state with caller := .waiting 0 }
  | .submitting (part :: rest) =>
    { pool := state.pool.submit (call.uploadPart app net part), caller := .submitting rest }
  | .waiting future =>
    match state.pool.futures[future]? with
    | none => { state with caller := .leaving none }
    | some none => state
    | some (some (.ok ())) => { state with caller := .waiting (future + 1) }
    | some (some (.error raised)) => { state with caller := .leaving (some raised) }
  | .leaving raised =>
    if Idle state.pool then
      { state with
        caller := .returned (match raised with
          | some raised => .error raised
          | none => .ok (state.pool.world.uploaded.insertionSort comesFirst)) }
    else state
  | .returned _ => state

def step (state : State σ) : Move → State σ
  | .caller => call.proceed app net state
  | .thread i => { state with pool := state.pool.turn i }
  | .other timed => { state with pool := { state.pool with
      world := served app timed state.pool.world } }

/-- The call after these moves. -/
def run (world : World Database σ) (moves : List Move) : State σ :=
  moves.foldl (call.step app net) (call.start world)

/-! What one part's task does. -/

variable {app : AppState σ} {net : Nat → Fate} {call} {part : Nat}

/-- The service answers with a row of the part it was sent. -/
theorem served_partNumber {identity : Identity} {uploadId : Uuid} {body : Bytes}
    {checksumSha256 : Option String} {world : World Database σ} {now : Timestamp}
    {row : UploadPart}
    (answer : (serve app world
      (.proxyUploadPart identity uploadId part body checksumSha256, now)).1 = .ok (.part row)) :
    row.partNumber = part := by
  obtain ⟨stored, done, same⟩ := Program.bind_pure_eq_ok.mp (World.execute_committed answer)
  cases same
  obtain ⟨upload, number, entry, _, _, checked, _, _, rfl, _⟩ := proxyUploadPart_ok done
  obtain ⟨_, _, same⟩ := checkPartNumber_ok checked
  exact (Int.ofNat.inj same).symm

/-- What has been sent for a part when its task has ended, and what was collected. -/
structure PartEnded (app : AppState σ) (call : PartsCall) (part : Nat)
    (result : Except Raised Unit) (wire : Wire σ) : Prop where
  asks : ∀ exchange ∈ wire.sentBy part, exchange.Asks app
    (Sdk.uploadPart app.sha256 call.identity call.session call.content part)
  few : (wire.sentBy part).length ≤ 25
  outcome : match result with
    | .ok () => ∃ row failed last, wire.sentBy part = failed ++ [last] ∧
      (∀ exchange ∈ failed, exchange.Retried) ∧
      last.received = some (.service (.ok (.part row))) ∧
      row.partNumber = part ∧ wire.collected part = [uploadedPart row]
    | .error _ => wire.collected part = []

theorem PartEnded.later {result : Except Raised Unit} {wire later : Wire σ}
    (ended : PartEnded app call part result wire) (untouched : Wire.Untouched part wire later) :
    PartEnded app call part result later := by
  obtain ⟨asks, few, outcome⟩ := ended
  obtain ⟨sent, _, collected⟩ := untouched
  refine ⟨sent ▸ asks, sent ▸ few, ?_⟩
  rw [sent, collected]
  exact outcome

theorem collect_safe {row : UploadPart} (same : row.partNumber = part) {wire : Wire σ}
    {failed : List Exchange} {last : Exchange}
    (asks : ∀ exchange ∈ wire.sentBy part, exchange.Asks app
      (Sdk.uploadPart app.sha256 call.identity call.session call.content part))
    (few : (wire.sentBy part).length ≤ 25) (sent : wire.sentBy part = failed ++ [last])
    (retried : ∀ exchange ∈ failed, exchange.Retried)
    (received : last.received = some (.service (.ok (.part row))))
    (none : wire.collected part = []) :
    (Task.act (call.collect part row)).Safe (Wire.Untouched part) (Wire.OthersUntouched part)
      (PartEnded app call part) wire := by
  refine Task.Safe.act fun later untouched => ⟨fun differing differs => ⟨rfl, rfl, ?_⟩, ?_⟩
  · change (later.uploaded ++ [uploadedPart row]).filter _ = _
    rw [List.filter_append, List.filter_singleton]
    have others : decide ((uploadedPart row).partNumber = differing) = false :=
      decide_eq_false fun own => differs (own.symm.trans same)
    rw [others]
    exact List.append_nil _
  · intro after unchanged
    have own : (call.collect part row later).2.collected part = [uploadedPart row] := by
      change (later.uploaded ++ [uploadedPart row]).filter _ = _
      have mine : decide ((uploadedPart row).partNumber = part) = true := decide_eq_true same
      rw [List.filter_append, List.filter_singleton, mine]
      have before : later.uploaded.filter (·.partNumber = part) = [] := untouched.2.2.trans none
      rw [before]
      rfl
    have whole := unchanged.1.trans untouched.1
    refine ⟨whole ▸ asks, whole ▸ few, ?_⟩
    exact ⟨row, failed, last, whole.trans sent, retried, received, same, unchanged.2.2.trans own⟩

theorem uploadPart_safe (wire : Wire σ) (unsent : wire.sentBy part = [])
    (uncollected : wire.collected part = []) :
    (call.uploadPart app net part).Safe (Wire.Untouched part) (Wire.OthersUntouched part)
      (PartEnded app call part) wire := by
  unfold uploadPart
  split
  · intro later untouched
    have sent := untouched.1.trans unsent
    refine ⟨?_, ?_, untouched.2.2.trans uncollected⟩
    · rw [sent]
      exact List.forall_mem_nil _
    · rw [sent]
      exact Nat.zero_le 25
  · refine (retry_request_safe wire).bind fun result later called => ?_
    obtain ⟨sent, whole, ended, asks⟩ := called.sent
    rw [unsent, List.nil_append] at whole
    have none := called.collected.trans uncollected
    have ends : ∀ raised, sent.length ≤ 25 → ∀ last, Wire.Untouched part later last →
        PartEnded app call part (.error raised) last := by
      intro raised few last untouched
      have ended : PartEnded app call part (.error raised) later :=
        ⟨whole ▸ asks, whole ▸ few, none⟩
      exact ended.later untouched
    cases ended with
    | gaveUp retried all worth => exact ends _ all.le
    | broken retried few lost =>
      refine ends _ ?_
      rw [List.length_append]
      exact few
    | @answered failed last response retried few received final =>
      have short : (failed ++ [last]).length ≤ 25 := by
        rw [List.length_append]
        exact few
      dsimp only
      unfold read
      split
      · rename_i row
        obtain ⟨world, now, answer⟩ := (asks last (List.mem_append_right _ List.mem_cons_self)).2
          _ received
        exact collect_safe (served_partNumber answer) (whole ▸ asks) (whole ▸ short) whole retried
          received none
      · exact ends _ short
      · exact ends _ short

/-! What holds of every state of a call. -/

section Runs

private theorem pending_sorted : call.pending.Pairwise (· ≤ ·) := Finset.pairwise_sort _ _

private theorem pending_nodup : call.pending.Nodup := Finset.sort_nodup _ _

/-- What one future's task counts on: that its part is its own. -/
def Relies (call : PartsCall) (future : Nat) (wire later : Wire σ) : Prop :=
  ∀ part, call.pending[future]? = some part → Wire.Untouched part wire later

def Guarantees (call : PartsCall) (future : Nat) (wire later : Wire σ) : Prop :=
  ∀ part, call.pending[future]? ≠ some part → Wire.Untouched part wire later

def Ends (app : AppState σ) (call : PartsCall) (future : Nat) (result : Except Raised Unit)
    (wire : Wire σ) : Prop :=
  ∀ part, call.pending[future]? = some part → PartEnded app call part result wire

instance (future : Nat) : Std.Refl (Relies call future : Wire σ → Wire σ → Prop) :=
  ⟨fun wire _ _ => refl_of (Wire.Untouched _) wire⟩

instance (future : Nat) : IsTrans (Wire σ) (Relies call future) where
  trans _ _ _ first second part mine :=
    trans_of (Wire.Untouched part) (first part mine) (second part mine)

theorem compatible :
    Pool.Compatible (Relies call : Nat → Wire σ → Wire σ → Prop) (Guarantees call) where
  refl _ := inferInstance
  trans _ := inferInstance
  others := by
    intro first second wire later differ guaranteed part theirs
    refine guaranteed part fun ours => differ ?_
    obtain ⟨bound, _⟩ := List.getElem?_eq_some_iff.mp ours
    exact (List.getElem?_inj bound pending_nodup).mp (ours.trans theirs.symm)

private theorem uploadPart_safe_at {future : Nat} (mine : call.pending[future]? = some part)
    (wire : Wire σ) (unsent : wire.sentBy part = []) (uncollected : wire.collected part = []) :
    (call.uploadPart app net part).Safe (Relies call future) (Guarantees call future)
      (Ends app call future) wire := by
  refine ((uploadPart_safe wire unsent uncollected).weaken (fun _ _ relied => relied part mine)
    fun _ _ guaranteed other differs => guaranteed other ?_).mono ?_
  · rintro rfl
    exact differs mine
  · intro result later ended other same
    cases mine.symm.trans same
    exact ended

/-- The first `count` tasks have succeeded. -/
def Passed (futures : List (Option (Except Raised Unit))) (count : Nat) : Prop :=
  ∀ future < count, futures[future]? = some (some (.ok ()))

/-- All tasks have succeeded, or this is the exception of the first that has not. -/
def Passing (futures : List (Option (Except Raised Unit))) : Option Raised → Prop
  | none => Passed futures futures.length
  | some raised => ∃ first, futures[first]? = some (some (.error raised)) ∧ Passed futures first

/-- How far the thread that called has come. -/
def Reached (call : PartsCall) (pool : Pool (Wire σ) (Except Raised Unit)) : Caller → Prop
  | .submitting rest => call.pending.drop pool.futures.length = rest ∧
    pool.futures.length ≤ call.pending.length
  | .waiting next => pool.futures.length = call.pending.length ∧ Passed pool.futures next
  | .leaving raised => pool.futures.length = call.pending.length ∧ Passing pool.futures raised
  | .returned result => pool.futures.length = call.pending.length ∧ Idle pool ∧ match result with
    | .ok parts => Passing pool.futures none ∧
      parts = pool.world.uploaded.insertionSort comesFirst
    | .error raised => Passing pool.futures (some raised)

structure Running (app : AppState σ) (call : PartsCall) (state : State σ) : Prop where
  sound : state.pool.Sound call.maxWorkers call.maxTotalConcurrent
  each : state.pool.Each (Relies call) (Guarantees call) (Ends app call)
  bounded : state.pool.Bounded
  unsent : ∀ part, part ∉ call.pending.take state.pool.futures.length →
    state.pool.world.sentBy part = [] ∧ state.pool.world.collected part = []
  caller : Reached call state.pool state.caller

private theorem start_running (world : World Database σ) : Running app call (call.start world) where
  sound := Pool.start_sound _
  each := Pool.start_each _
  bounded := Pool.start_bounded _
  unsent _ _ := ⟨rfl, rfl⟩
  caller := ⟨rfl, Nat.zero_le _⟩

private theorem uploadPart_within : (call.uploadPart app net part).Within 50 := by
  unfold uploadPart
  split
  · trivial
  · refine @Task.Within.bind _ _ _ _ _ 49 1
      (retry_within (retry_within guarded_within 4 1 30) 4 1 30) fun result => ?_
    cases result with
    | error raised => trivial
    | ok response =>
      dsimp only
      unfold read
      split
      · exact Task.within_act _
      · trivial
      · trivial

variable {state : State σ}

theorem Passed.turn {pool : Pool (Wire σ) (Except Raised Unit)} {workers permits next : Nat}
    (sound : pool.Sound workers permits) (passed : Passed pool.futures next) (i : Nat) :
    Passed (pool.turn i).futures next :=
  fun future before => (sound.turn_futures i).2 future _ (passed future before)

theorem Passing.turn {pool : Pool (Wire σ) (Except Raised Unit)} {workers permits : Nat}
    (sound : pool.Sound workers permits) {raised : Option Raised}
    (passing : Passing pool.futures raised) (i : Nat) :
    Passing (pool.turn i).futures raised := by
  cases raised with
  | none =>
    unfold Passing
    rw [(sound.turn_futures i).1]
    exact Passed.turn sound passing i
  | some raised =>
    obtain ⟨first, found, before⟩ := passing
    exact ⟨first, (sound.turn_futures i).2 first _ found, before.turn sound i⟩

theorem Reached.turn {pool : Pool (Wire σ) (Except Raised Unit)} {workers permits : Nat}
    (sound : pool.Sound workers permits) {caller : Caller} (reached : Reached call pool caller)
    (i : Nat) : Reached call (pool.turn i) caller := by
  have length := (sound.turn_futures i).1
  cases caller with
  | submitting rest =>
    unfold Reached at reached ⊢
    rw [length]
    exact reached
  | waiting next => exact ⟨length.trans reached.1, reached.2.turn sound i⟩
  | leaving raised => exact ⟨length.trans reached.1, reached.2.turn sound i⟩
  | returned result =>
    rw [Pool.turn_idle reached.2.1]
    exact reached

theorem Reached.served {pool : Pool (Wire σ) (Except Raised Unit)} {caller : Caller}
    (reached : Reached call pool caller) (timed : Timed) :
    Reached call { pool with world := Sdk.served app timed pool.world } caller := by
  cases caller with
  | submitting rest => exact reached
  | waiting next => exact reached
  | leaving raised => exact reached
  | returned result => exact reached

theorem Running.unsent_turn (running : Running app call state) (i : Nat) (part : Nat)
    (later : part ∉ call.pending.take state.pool.futures.length) :
    Wire.Untouched part state.pool.world (state.pool.turn i).world := by
  rcases (running.each.turn compatible running.sound i).2 with same | ⟨future, found, guaranteed⟩
  · rw [same]
    exact refl_of (Wire.Untouched part) _
  · refine guaranteed part fun mine => later ?_
    obtain ⟨bound, _⟩ := List.getElem?_eq_some_iff.mp found
    exact List.mem_of_getElem? ((List.getElem?_take_of_lt bound).trans mine)

theorem Running.thread (running : Running app call state) (i : Nat) :
    Running app call { state with pool := state.pool.turn i } := by
  obtain ⟨each, _⟩ := running.each.turn compatible running.sound i
  obtain ⟨length, _⟩ := running.sound.turn_futures i
  refine ⟨running.sound.turn i, each, running.bounded.turn i, ?_, running.caller.turn running.sound i⟩
  intro part later
  rw [length] at later
  have untouched := running.unsent_turn i part later
  obtain ⟨sent, collected⟩ := running.unsent part later
  exact ⟨untouched.1.trans sent, untouched.2.2.trans collected⟩

theorem Running.other (running : Running app call state) (timed : Timed) :
    Running app call { state with pool := { state.pool with
      world := served app timed state.pool.world } } :=
  ⟨running.sound.world _,
    running.each.relied compatible fun _ _ _ => Wire.served_untouched app _ timed _,
    running.bounded, running.unsent, running.caller.served timed⟩

/-- The next part is submitted to a task of its own. -/
theorem Running.submit (running : Running app call state) {rest : List Nat}
    (reached : Reached call state.pool (.submitting (part :: rest))) :
    Running app call
      { pool := state.pool.submit (call.uploadPart app net part), caller := .submitting rest } := by
  obtain ⟨left, within⟩ := reached
  have mine : call.pending[state.pool.futures.length]? = some part := by
    have head := congrArg List.head? left
    rw [List.head?_drop] at head
    exact head
  have split := List.take_append_drop state.pool.futures.length call.pending
  rw [left] at split
  have distinct : call.pending.Nodup := pending_nodup
  rw [← split, List.nodup_append] at distinct
  have fresh : part ∉ call.pending.take state.pool.futures.length := fun taken =>
    distinct.2.2 part taken part List.mem_cons_self rfl
  obtain ⟨unsent, uncollected⟩ := running.unsent part fresh
  have length : (state.pool.submit (call.uploadPart app net part)).futures.length =
      state.pool.futures.length + 1 := List.length_append
  refine ⟨running.sound.submit _,
    running.each.submit (uploadPart_safe_at mine _ unsent uncollected),
    running.bounded.submit uploadPart_within, fun other later => ?_, ?_, ?_⟩
  · refine running.unsent other fun taken => later ?_
    rw [length]
    exact (List.take_sublist_take_left (Nat.le_succ _)).subset taken
  · rw [length, ← List.drop_drop, left]
    rfl
  · rw [length]
    exact (List.getElem?_eq_some_iff.mp mine).1

private theorem Running.proceed (running : Running app call state) :
    Running app call (call.proceed app net state) := by
  obtain ⟨pool, caller⟩ := state
  have kept : ∀ {next : Caller}, Reached call pool next → Running app call ⟨pool, next⟩ :=
    fun reached => ⟨running.sound, running.each, running.bounded, running.unsent, reached⟩
  have reached := running.caller
  cases caller with
  | submitting parts =>
    cases parts with
    | nil =>
      obtain ⟨none, within⟩ := reached
      have all := List.drop_eq_nil_iff.mp none
      exact kept ⟨Nat.le_antisymm within all, fun _ before => (Nat.not_lt_zero _ before).elim⟩
    | cons part rest => exact running.submit reached
  | waiting next =>
    obtain ⟨length, passed⟩ := reached
    unfold PartsCall.proceed
    dsimp only
    split
    · rename_i beyond
      have all := List.getElem?_eq_none_iff.mp beyond
      exact kept ⟨length, fun future before => passed future (Nat.lt_of_lt_of_le before all)⟩
    · exact running
    · rename_i succeeded
      refine kept ⟨length, fun future before => ?_⟩
      rcases Nat.lt_succ_iff_lt_or_eq.mp before with earlier | rfl
      · exact passed future earlier
      · exact succeeded
    · rename_i raised failed
      exact kept ⟨length, next, failed, passed⟩
  | leaving raised =>
    obtain ⟨length, passing⟩ := reached
    unfold PartsCall.proceed
    dsimp only
    split
    · rename_i idle
      cases raised with
      | none => exact kept ⟨length, idle, passing, rfl⟩
      | some raised => exact kept ⟨length, idle, passing⟩
    · exact running
  | returned result => exact running

theorem Running.step (running : Running app call state) (net : Nat → Fate) (move : Move) :
    Running app call (call.step app net state move) := by
  cases move with
  | caller => exact running.proceed
  | thread i => exact running.thread i
  | other timed => exact running.other timed

private theorem run_running (world : World Database σ) (moves : List Move) :
    Running app call (call.run app net world moves) :=
  run_preserves moves (start_running world) fun _ move running => running.step net move

/-- Every task has ended, with what has been sent for its part. -/
theorem Running.outcomes (running : Running app call state) (idle : Idle state.pool)
    (length : state.pool.futures.length = call.pending.length) :
    ∃ outcomes : List (Except Raised Unit), state.pool.futures = outcomes.map some ∧
      List.Forall₂ (fun part outcome => PartEnded app call part outcome state.pool.world)
        call.pending outcomes := by
  have all : ∀ result ∈ state.pool.futures, ∃ outcome, some outcome = result := by
    intro result member
    obtain ⟨future, found⟩ := List.getElem?_of_mem member
    cases result with
    | some outcome => exact ⟨outcome, rfl⟩
    | none =>
      have held := (running.sound.pending future).mpr found
      rw [idle] at held
      cases held
  obtain ⟨outcomes, same⟩ : state.pool.futures ∈ Set.range (List.map some) := by
    rw [Set.range_list_map]
    exact all
  refine ⟨outcomes, same.symm, List.forall₂_iff_get.mpr ⟨?_, fun future bound bound' => ?_⟩⟩
  · rw [← length, ← same, List.length_map]
  · have found : state.pool.futures[future]? = some (some (outcomes.get ⟨future, bound'⟩)) := by
      rw [← same, List.getElem?_map, List.getElem?_eq_getElem bound']
      rfl
    exact (running.each future _ (.inr ⟨_, found, rfl⟩)).result _
      (List.getElem?_eq_getElem bound)

/-- The parts collected are those that were to be sent, each once. -/
theorem uploaded_perm {wire : Wire σ}
    (each : ∀ part ∈ call.pending, (wire.collected part).length = 1)
    (others : ∀ part, part ∉ call.pending → wire.collected part = []) :
    (wire.uploaded.map (·.partNumber)).Perm call.pending := by
  rw [List.perm_iff_count]
  intro part
  have counted : (wire.uploaded.map (·.partNumber)).count part = (wire.collected part).length := by
    unfold Wire.collected List.count
    rw [List.countP_map, List.countP_eq_length_filter]
    rfl
  rw [counted]
  by_cases pending : part ∈ call.pending
  · rw [each part pending, List.count_eq_one_of_mem pending_nodup pending]
  · rw [others part pending, List.count_eq_zero.mpr pending]
    rfl

theorem returned_numbers {uploaded : List UploadedPart}
    (perm : (uploaded.map (·.partNumber)).Perm call.pending) :
    (uploaded.insertionSort comesFirst).map (·.partNumber) = call.pending := by
  have total : Std.Total comesFirst := ⟨fun first second => Nat.le_total _ _⟩
  have trans : IsTrans UploadedPart comesFirst := ⟨fun _ _ _ => Nat.le_trans⟩
  have sorted : ((uploaded.insertionSort comesFirst).map (·.partNumber)).Pairwise (· ≤ ·) :=
    List.pairwise_map.mpr (List.pairwise_insertionSort comesFirst uploaded)
  refine List.Perm.eq_of_pairwise (fun _ _ _ _ => Nat.le_antisymm) sorted pending_sorted ?_
  exact ((List.perm_insertionSort comesFirst uploaded).map _).trans perm

/-- The exception after the tasks that have succeeded is the first. -/
theorem find_first_failed {outcomes : List (Except Raised Unit)} {raised : Raised} {first : Nat}
    (found : (outcomes.map some)[first]? = some (some (.error raised)))
    (passed : Passed (outcomes.map some) first) :
    outcomes.find? (fun outcome => ! outcome.isOk) = some (.error raised) := by
  induction outcomes generalizing first with
  | nil => cases found
  | cons outcome rest ih =>
    cases first with
    | zero =>
      cases found
      rfl
    | succ first =>
      cases passed 0 (Nat.succ_pos first)
      exact ih found fun future before => passed (future + 1) (Nat.succ_lt_succ before)

/-- What `upload_all_parts` has done when it returns or raises: every part was sent until it was
taken or failed; the parts taken are returned in order, each once and as the service answered; and
what is raised is the exception of the first part, in order, that failed. -/
structure Outcome (app : AppState σ) (call : PartsCall) (wire : Wire σ)
    (outcomes : List (Except Raised Unit)) (result : Except Raised (List UploadedPart)) : Prop where
  ended : List.Forall₂ (fun part outcome => PartEnded app call part outcome wire) call.pending
    outcomes
  returned : ∀ parts, result = .ok parts → (∀ outcome ∈ outcomes, outcome = .ok ()) ∧
    parts.map (·.partNumber) = call.pending ∧ parts.Perm wire.uploaded
  raised : ∀ raised, result = .error raised →
    outcomes.find? (fun outcome => ! outcome.isOk) = some (.error raised)

theorem upload_all_parts_outcome (call : PartsCall) (app : AppState σ) (net : Nat → Fate)
    (world : World Database σ) (moves : List Move) :
    (call.run app net world moves).pool.workers.countP (·.hasPermit) ≤
        min call.maxWorkers call.maxTotalConcurrent ∧
      ∀ result, (call.run app net world moves).caller = .returned result →
        ∃ outcomes, Outcome app call (call.run app net world moves).pool.world outcomes result := by
  have running : Running app call (call.run app net world moves) := run_running world moves
  refine ⟨running.sound.working, fun result returned => ?_⟩
  have reached := running.caller
  rw [returned] at reached
  obtain ⟨length, idle, so⟩ := reached
  obtain ⟨outcomes, same, ended⟩ := running.outcomes idle length
  refine ⟨outcomes, ended, ?_, ?_⟩
  · rintro parts rfl
    obtain ⟨passed, rfl⟩ := so
    have succeeded : ∀ outcome ∈ outcomes, outcome = .ok () := by
      intro outcome member
      obtain ⟨future, bound, found⟩ := List.getElem_of_mem member
      rw [same] at passed
      have result := passed future (by rw [List.length_map]; exact bound)
      rw [List.getElem?_map, List.getElem?_eq_getElem bound, found] at result
      exact Option.some.inj (Option.some.inj result)
    refine ⟨succeeded, returned_numbers (uploaded_perm (fun part pending => ?_) fun part other => ?_),
      List.perm_insertionSort _ _⟩
    · obtain ⟨future, bound, rfl⟩ := List.getElem_of_mem pending
      have bound' := ended.length_eq ▸ bound
      have sent := ended.get bound bound'
      rw [succeeded _ (List.get_mem outcomes ⟨future, bound'⟩)] at sent
      obtain ⟨row, _, _, _, _, _, _, collected⟩ := sent.outcome
      exact congrArg List.length collected
    · refine (running.unsent part ?_).2
      rw [length, List.take_length]
      exact other
  · rintro raised rfl
    obtain ⟨first, found, passed⟩ := so
    rw [same] at found passed
    exact find_first_failed found passed

/-! A call comes to an end. -/

/-- The steps that are left to the thread that called, and what it will submit, at most. -/
def left (call : PartsCall) : Caller → Nat
  | .submitting parts => 55 * parts.length + (call.pending.length + 3)
  | .waiting next => call.pending.length - next + 2
  | .leaving _ => 1
  | .returned _ => 0

/-- The steps that are left at most. -/
noncomputable def remaining (call : PartsCall) (state : State σ) : Nat :=
  state.pool.remaining + call.left state.caller

/-- Whose move it is has something to do. -/
def Can (state : State σ) : Move → Prop
  | .caller => match state.caller with
    | .submitting _ => True
    | .waiting next => state.pool.futures[next]? ≠ some none
    | .leaving _ => Idle state.pool
    | .returned _ => False
  | .thread i => state.pool.CanTurn i
  | .other _ => False

private theorem proceed_remaining (running : Running app call state) (can : Can state .caller) :
    call.remaining (call.proceed app net state) < call.remaining state := by
  obtain ⟨pool, caller⟩ := state
  have reached := running.caller
  have fewer : ∀ next, call.left next < call.left caller →
      call.remaining ⟨pool, next⟩ < call.remaining ⟨pool, caller⟩ :=
    fun _ less => Nat.add_lt_add_left less _
  cases caller with
  | submitting parts =>
    cases parts with
    | nil =>
      refine fewer (.waiting 0) ?_
      dsimp only [left, List.length_nil]
      omega
    | cons part rest =>
      have within : (call.uploadPart app net part).Within 50 := uploadPart_within
      have cost := within.cost_le
      change (pool.submit (call.uploadPart app net part)).remaining + call.left (.submitting rest) <
        pool.remaining + call.left (.submitting (part :: rest))
      rw [Pool.remaining_submit]
      dsimp only [left, List.length_cons]
      omega
  | waiting next =>
    obtain ⟨length, passed⟩ := reached
    unfold PartsCall.proceed
    dsimp only
    split
    · refine fewer (.leaving none) ?_
      dsimp only [left]
      omega
    · rename_i blocked
      exact absurd blocked can
    · rename_i succeeded
      obtain ⟨bound, _⟩ := List.getElem?_eq_some_iff.mp succeeded
      have last : next < call.pending.length := Nat.lt_of_lt_of_eq bound length
      refine fewer (.waiting (next + 1)) ?_
      dsimp only [left]
      omega
    · rename_i raised _
      refine fewer (.leaving (some raised)) ?_
      dsimp only [left]
      omega
  | leaving raised =>
    have idle : Idle pool := can
    unfold PartsCall.proceed
    dsimp only
    rw [if_pos idle]
    exact fewer (.returned _) Nat.zero_lt_one
  | returned result => exact can.elim

/-- Where the thread that called has nothing to do, it waits. -/
theorem proceed_blocked (blocked : ¬ Can state .caller) : call.proceed app net state = state := by
  obtain ⟨pool, caller⟩ := state
  cases caller with
  | submitting parts => exact absurd trivial blocked
  | waiting next =>
    have unset : pool.futures[next]? = some none := not_not.mp blocked
    unfold PartsCall.proceed
    dsimp only
    rw [unset]
  | leaving raised =>
    have busy : ¬ Idle pool := blocked
    unfold PartsCall.proceed
    dsimp only
    rw [if_neg busy]
  | returned result => rfl

theorem Can.world {move : Move} (can : Can state move) (later : Wire σ) :
    Can { state with pool := { state.pool with world := later } } move := by
  cases move with
  | caller => exact can
  | thread i => exact Pool.CanTurn.world can later
  | other timed => exact can.elim

/-- A move brings the end nearer, or it is one that has nothing to do and leaves all but the
service as it is. -/
theorem step_remaining (running : Running app call state) (net : Nat → Fate) (move : Move) :
    call.remaining (call.step app net state move) < call.remaining state ∨
      ¬ Can state move ∧ ∃ world, call.step app net state move =
        { state with pool := { state.pool with world := world } } := by
  cases move with
  | caller =>
    by_cases can : Can state .caller
    · exact .inl (proceed_remaining running can)
    · exact .inr ⟨can, state.pool.world, proceed_blocked can⟩
  | thread i =>
    by_cases can : state.pool.CanTurn i
    · exact .inl (Nat.add_lt_add_right (can.remaining_lt running.bounded) _)
    · rcases Pool.turn_remaining running.bounded i with same | less
      · refine .inr ⟨can, state.pool.world, ?_⟩
        unfold PartsCall.step
        dsimp only
        rw [same]
      · exact .inl (Nat.add_lt_add_right less _)
  | other timed => exact .inr ⟨fun can => can, _, rfl⟩

private theorem rest_remaining (running : Running app call state) (moves : List Move) :
    call.remaining (moves.foldl (call.step app net) state) ≤ call.remaining state := by
  induction moves generalizing state with
  | nil => exact Nat.le_refl _
  | cons move rest ih =>
    refine (ih (running.step net move)).trans ?_
    rcases step_remaining running net move with less | ⟨_, world, same⟩
    · exact less.le
    · rw [same]
      exact Nat.le_refl _

/-- A move that has something to do comes nearer the end sooner or later. -/
theorem round_remaining (running : Running app call state) {move : Move} (can : Can state move)
    {round : List Move} (member : move ∈ round) :
    call.remaining (round.foldl (call.step app net) state) < call.remaining state := by
  induction round generalizing state with
  | nil => cases member
  | cons first rest ih =>
    rcases step_remaining running net first with less | ⟨blocked, world, same⟩
    · exact (rest_remaining (running.step net first) rest).trans_lt less
    · rcases List.mem_cons.mp member with rfl | later
      · exact absurd can blocked
      · have next := running.step net first
        rw [List.foldl_cons]
        rw [same] at next ⊢
        exact ih next (can.world world) later

/-- Until a call has returned, somebody has something to do. -/
theorem Running.progress (running : Running app call state)
    (permits : 0 < call.maxTotalConcurrent)
    (unfinished : ∀ result, state.caller ≠ .returned result) :
    Can state .caller ∨ ∃ i < call.maxWorkers, Can state (.thread i) := by
  have threads : 0 < call.maxWorkers := by
    unfold maxWorkers
    omega
  have held : state.pool.held ≠ [] → ∃ i < call.maxWorkers, Can state (.thread i) :=
    running.sound.progress threads permits
  obtain ⟨pool, caller⟩ := state
  cases caller with
  | submitting parts => exact .inl trivial
  | waiting next =>
    by_cases unset : pool.futures[next]? = some none
    · refine .inr (held fun none => ?_)
      have pending := (running.sound.pending next).mpr unset
      rw [none] at pending
      cases pending
    · exact .inl unset
  | leaving raised =>
    by_cases idle : Idle pool
    · exact .inl idle
    · exact .inr (held idle)
  | returned result => exact absurd rfl (unfinished result)

private theorem returned_step {result : Except Raised (List UploadedPart)}
    (returned : state.caller = .returned result) (move : Move) :
    (call.step app net state move).caller = .returned result := by
  cases move with
  | caller =>
    obtain ⟨pool, caller⟩ := state
    cases returned
    rfl
  | thread i => exact returned
  | other timed => exact returned

private theorem returned_run {result : Except Raised (List UploadedPart)}
    (returned : state.caller = .returned result) (moves : List Move) :
    (moves.foldl (call.step app net) state).caller = .returned result := by
  induction moves generalizing state with
  | nil => exact returned
  | cons move rest ih => exact ih (returned_step returned move)

/-- As many rounds as there are steps left, in each of which everybody has a turn. -/
theorem rounds_return (running : Running app call state) (permits : 0 < call.maxTotalConcurrent)
    {rounds : List (List Move)} (each : ∀ round ∈ rounds,
      .caller ∈ round ∧ ∀ i < call.maxWorkers, .thread i ∈ round)
    (enough : call.remaining state ≤ rounds.length) :
    ∃ result, (rounds.flatten.foldl (call.step app net) state).caller = .returned result := by
  induction rounds generalizing state with
  | nil =>
    have none : call.left state.caller = 0 := by
      unfold remaining at enough
      rw [List.length_nil] at enough
      omega
    cases ended : state.caller with
    | returned result => exact ⟨result, ended⟩
    | submitting parts =>
      rw [ended] at none
      exact absurd none (Nat.succ_ne_zero _)
    | waiting next =>
      rw [ended] at none
      exact absurd none (Nat.succ_ne_zero _)
    | leaving raised =>
      rw [ended] at none
      exact absurd none (Nat.succ_ne_zero _)
  | cons round rest ih =>
    obtain ⟨⟨called, threads⟩, others⟩ := List.forall_mem_cons.mp each
    rw [List.flatten_cons, List.foldl_append]
    by_cases unfinished : ∀ result, state.caller ≠ .returned result
    · have after : Running app call (round.foldl (call.step app net) state) :=
        run_preserves round running fun _ move so => so.step net move
      have less : call.remaining (round.foldl (call.step app net) state) <
          call.remaining state := by
        rcases running.progress permits unfinished with can | ⟨i, bound, can⟩
        · exact round_remaining running can called
        · exact round_remaining running can (threads i bound)
      rw [List.length_cons] at enough
      exact ih after others (by omega)
    · obtain ⟨result, returned⟩ := not_forall_not.mp unfinished
      refine ⟨result, ?_⟩
      rw [← List.foldl_append]
      exact returned_run returned _

/-- `upload_all_parts` always comes to an end: no thread waits for ever for a permit, and the
thread that called for none of them. It takes at most so many rounds in which everybody has a
turn, whatever the network does and the service handles besides. -/
theorem upload_all_parts_ends (call : PartsCall) (app : AppState σ) (net : Nat → Fate)
    (world : World Database σ) (permits : 0 < call.maxTotalConcurrent)
    {rounds : List (List Move)} (each : ∀ round ∈ rounds,
      .caller ∈ round ∧ ∀ i < call.maxWorkers, .thread i ∈ round)
    (enough : 56 * call.pending.length + 3 ≤ rounds.length) :
    ∃ result, (call.run app net world rounds.flatten).caller = .returned result := by
  refine rounds_return (start_running world) permits each (le_trans (le_of_eq ?_) enough)
  change (Pool.start { world } call.maxWorkers call.maxTotalConcurrent).remaining +
    (55 * call.pending.length + (call.pending.length + 3)) = _
  rw [Pool.remaining_start]
  omega

def smallParts : PartsCall where
  identity := smallTenant
  session := threePartUpload
  content := [1, 2, 3, 4, 5]
  concurrency := 2
  missingParts := some {1, 3}

def smallRound : List Move := [.caller, .thread 1, .thread 0]

private theorem smallRound_whole :
    .caller ∈ smallRound ∧ ∀ i < smallParts.maxWorkers, .thread i ∈ smallRound := by
  refine ⟨List.mem_cons_self, fun i bound => ?_⟩
  have two : i < 2 := bound
  obtain rfl | rfl : i = 0 ∨ i = 1 := by omega
  · exact List.mem_cons_of_mem _ (List.mem_cons_of_mem _ List.mem_cons_self)
  · exact List.mem_cons_of_mem _ List.mem_cons_self

/-- A call that has returned. -/
theorem upload_all_parts_outcome_small :
    ∃ moves result outcomes, Outcome smallLocalApp smallParts
      (smallParts.run smallLocalApp (fun count => .answered count) ⟨{}, {}⟩ moves).pool.world
      outcomes result := by
  have started : Running smallLocalApp smallParts (smallParts.start ⟨{}, {}⟩) := start_running _
  obtain ⟨result, returned⟩ := rounds_return started (by decide)
    (fun _ member => List.eq_of_mem_replicate member ▸ smallRound_whole) List.length_replicate.ge
  exact ⟨_, result, (upload_all_parts_outcome smallParts smallLocalApp _ _ _).2 result returned⟩

theorem upload_all_parts_ends_small :
    ∃ result, (smallParts.run smallLocalApp (fun count => .answered count) ⟨{}, {}⟩
      (List.replicate (56 * smallParts.pending.length + 3) smallRound).flatten).caller =
        .returned result :=
  upload_all_parts_ends _ _ _ _ (by decide)
    (fun _ member => List.eq_of_mem_replicate member ▸ smallRound_whole) List.length_replicate.ge

end Runs

end PartsCall

end Sdk

end PyUploadX
