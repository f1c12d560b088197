import PyUploadX.Kit.Queue
import PyUploadX.Worker.Retries

/-! Batches of the worker one after the other: which of the due files they get to. -/
namespace PyUploadX

open Kit LifecycleWorker

variable {σ : Type}

/-- A due file that is not under legal hold. -/
def FileObject.Waiting (now : Timestamp) (file : FileObject) : Prop :=
  file.Due now ∧ file.legalHold = false

/-- The row once the worker has taken the action of the file. -/
def FileObject.acted (now : Timestamp) (file : FileObject) : FileObject :=
  match file.lifecycleAction with
  | .delete => FileService.markDeleted now file
  | .notify => file.setLifecycleStatus .expired
  | _ => { file with nextActionAt := none }

/-- The selection of a batch without its limit. -/
def overdue (db : Database) (now : Timestamp) : List FileObject :=
  (db.fileObjects.filter fun file =>
    file.status = .active ∧ file.nextActionAt.any (· ≤ now) ∧
      file.lifecycleStatus = .active).insertionSort
        fun first second => first.nextActionAt.getD 0 ≤ second.nextActionAt.getD 0

/-- All rows read back, and the storage deletes whatever they name. -/
structure Working (app : AppState σ) (files : List FileObject) (store : σ) : Prop where
  loads : ∀ file ∈ files, file.loadable = true
  deletes : ∀ due, due ⊆ files → DeletesAll app due store

/-- Batches with one limit. -/
def batchesOf (batchSize : Nat) (times : List Timestamp) : List Timed :=
  workerRun (times.map fun time => (batchSize, time))

/-- The batch takes the action of the file. -/
def Processed (app : AppState σ) (world : World Database σ) (batchSize : Nat) (now : Timestamp)
    (file : FileObject) : Prop :=
  file.acted now ∈ (serve app world (.processBatch batchSize, now)).2.db.fileObjects

/-- A batch processes one of the waiting files if there is one, and enough batches process each. -/
structure Progresses (app : AppState σ) (world : World Database σ) (batchSize : Nat)
    (now : Timestamp) : Prop where
  one : (∃ file ∈ world.db.fileObjects, file.Waiting now) →
    ∃ file ∈ world.db.fileObjects, file.Waiting now ∧ Processed app world batchSize now file
  each : ∀ file ∈ world.db.fileObjects, file.Waiting now →
    ∃ enough, ∀ times : List Timestamp, (now :: times).Pairwise (· ≤ ·) → enough ≤ times.length →
      ∃ done time rest, times = done ++ time :: rest ∧
        Processed app (after app world (batchesOf batchSize done)) batchSize time file

variable {app : AppState σ} {world : World Database σ} {batchSize : Nat} {now : Timestamp}
  {file : FileObject} {db : Database}

private theorem FileObject.acted_id (now : Timestamp) (file : FileObject) : (file.acted now).id = file.id := by
  unfold FileObject.acted
  split <;> rfl

private theorem FileObject.acted_not_due (now later : Timestamp) (file : FileObject) :
    ¬ (file.acted now).Due later := by
  unfold FileObject.acted
  split
  · rintro ⟨active, _⟩
    cases active
  · rintro ⟨_, _, idle⟩
    cases idle
  · rintro ⟨_, past, _⟩
    cases past

section Turns

variable {store store' : σ} {later : List FileObject} {change : FileObject → FileObject}

theorem DeletesAll.rest (works : DeletesAll app (file :: later) store)
    (turn : Turn app file now store change store') : DeletesAll app later store' := by
  rw [DeletesAll] at works
  cases turn with
  | blocked held => rwa [if_neg (by simp [held])] at works
  | deleted free action removed =>
    rw [if_pos ⟨free, action⟩, removed] at works
    exact works.2
  | refused free action refusal =>
    rw [if_pos ⟨free, action⟩, refusal] at works
    exact works.2
  | notified free action => rwa [if_neg (by simp [action])] at works
  | settled free undeleted => rwa [if_neg fun both => undeleted both.2] at works

/-- With working storage a turn takes the action of the file, unless the file is held. -/
theorem DeletesAll.change_eq (works : DeletesAll app (file :: later) store)
    (turn : Turn app file now store change store') :
    change file = if file.legalHold then file else file.acted now := by
  unfold FileObject.acted
  cases turn with
  | blocked held => rw [if_pos held]; rfl
  | deleted free action removed => rw [if_neg (Bool.not_eq_true _ ▸ free), action]
  | refused free action refusal =>
    rw [DeletesAll, if_pos ⟨free, action⟩, refusal] at works
    cases works.1
  | notified free action => rw [if_neg (Bool.not_eq_true _ ▸ free), action]
  | settled free undeleted silent =>
    rw [if_neg (Bool.not_eq_true _ ▸ free)]
    split
    · rename_i action
      exact absurd action undeleted
    · rename_i action
      exact absurd action silent
    · rfl

/-- The store after the turns still works for the deletions behind them. -/
theorem DeletesAll.behind {due behind files files' : List FileObject}
    (turns : Turns app now due files store files' store')
    (works : DeletesAll app (due ++ behind) store) : DeletesAll app behind store' := by
  induction turns with
  | nil => exact works
  | cons turn later ih => exact ih (works.rest turn)

theorem turns_acted {due files files' : List FileObject}
    (turns : Turns app now due files store files' store') (works : DeletesAll app due store)
    (unique : (files.map (·.id)).Nodup) (dueUnique : (due.map (·.id)).Nodup) (present : due ⊆ files) :
    files' = files.map fun row => if row ∈ due ∧ row.legalHold = false then row.acted now else row := by
  induction turns with
  | nil => simp
  | @cons head rest files files' store store₁ store' change turn later ih =>
    have changed := works.change_eq turn
    have inTable := present List.mem_cons_self
    rw [List.map_cons, List.nodup_cons] at dueUnique
    have aside : ∀ row, row.id = head.id → row ∉ rest := fun row same member =>
      dueUnique.1 (same ▸ List.mem_map_of_mem member)
    rw [ih (works.rest turn) (turned_unique unique turn) dueUnique.2, List.map_map]
    · refine List.map_congr_left fun row member => ?_
      rw [Function.comp_apply]
      by_cases same : row.id = head.id
      · obtain rfl := List.inj_on_of_nodup_map unique member inTable same
        rw [if_pos rfl, changed]
        cases held : row.legalHold with
        | true => simp [held]
        | false =>
          rw [if_neg Bool.false_ne_true, if_neg fun both => aside _ (row.acted_id now) both.1,
            if_pos ⟨List.mem_cons_self, rfl⟩]
      · have other : row ≠ head := fun equal => same (equal ▸ rfl)
        rw [if_neg same]
        simp only [List.mem_cons, other, false_or]
    · exact fun row inRest => turned_rest unique inTable dueUnique.1
        (present (List.mem_cons_of_mem head inRest)) inRest

end Turns

section Order

private theorem dueFiles_eq : dueFiles db batchSize now = (overdue db now).take batchSize := rfl

private theorem mem_overdue : file ∈ overdue db now ↔ file ∈ db.fileObjects ∧ file.Due now := by
  unfold overdue FileObject.Due
  rw [List.mem_insertionSort, List.mem_filter, decide_eq_true_eq]

instance : IsTrans FileObject
    fun first second => first.nextActionAt.getD 0 ≤ second.nextActionAt.getD 0 :=
  ⟨fun _ _ _ => Int.le_trans⟩

instance : Std.Total
    fun first second : FileObject => first.nextActionAt.getD 0 ≤ second.nextActionAt.getD 0 :=
  ⟨fun _ _ => Int.le_total _ _⟩

private theorem overdue_sorted (db : Database) (now : Timestamp) : (overdue db now).Pairwise
    fun first second => first.nextActionAt.getD 0 ≤ second.nextActionAt.getD 0 :=
  List.pairwise_insertionSort _ _

private theorem overdue_unique (unique : (db.fileObjects.map (·.id)).Nodup) (now : Timestamp) :
    (overdue db now).Nodup := by
  apply List.Nodup.of_map (·.id)
  unfold overdue
  rw [((List.perm_insertionSort _ _).map _).nodup_iff]
  exact unique.sublist (List.filter_sublist.map _)

/-- Files that fall due later stand behind those that are due. -/
theorem overdue_later {later : Timestamp} (order : now ≤ later) (db : Database) :
    ∃ arrived, overdue db later = overdue db now ++ arrived := by
  let due := fun file : FileObject => decide (file.status = .active ∧
    file.nextActionAt.any (· ≤ now) ∧ file.lifecycleStatus = .active)
  refine ⟨(overdue db later).filter (! due ·), ?_⟩
  have early : (overdue db later).filter due = overdue db now := by
    unfold overdue
    rw [filter_insertionSort, List.filter_filter]
    congr 2
    funext file
    refine Bool.eq_iff_iff.mpr ?_
    simp only [due, Bool.and_eq_true, decide_eq_true_eq, Option.any_eq_true]
    constructor
    · exact And.left
    · rintro ⟨active, ⟨next, scheduled, past⟩, idle⟩
      exact ⟨⟨active, ⟨next, scheduled, past⟩, idle⟩, active,
        ⟨next, scheduled, Int.le_trans past order⟩, idle⟩
  rw [← early]
  refine filter_append_of_pairwise _ due (overdue_sorted db later) ?_
  intro first inFirst second inSecond least held
  obtain ⟨_, active, scheduled, idle⟩ := mem_overdue.mp inFirst
  simp only [due, decide_eq_true_eq, Option.any_eq_true] at held scheduled ⊢
  obtain ⟨_, ⟨next, nextAt, past⟩, _⟩ := held
  obtain ⟨own, ownAt, _⟩ := scheduled
  rw [ownAt, nextAt] at least
  exact ⟨active, ⟨own, ownAt, Int.le_trans least past⟩, idle⟩

end Order

section Batches

/-- Between batches: what is still due was in the table from the start, and everything works. -/
structure Continues (app : AppState σ) (files : List FileObject) (world : World Database σ) : Prop where
  unique : (world.db.fileObjects.map (·.id)).Nodup
  known : ∀ file ∈ world.db.fileObjects, ∀ now, file.Due now → file ∈ files
  working : Working app files world.store

variable {files front back : List FileObject}

theorem Continues.start (unique : (world.db.fileObjects.map (·.id)).Nodup)
    (working : Working app world.db.fileObjects world.store) :
    Continues app world.db.fileObjects world :=
  ⟨unique, fun _ member _ _ => member, working⟩

theorem Continues.selected (continues : Continues app files world) (batchSize : Nat)
    (now : Timestamp) : dueFiles world.db batchSize now ⊆ files := by
  intro file due
  obtain ⟨member, selected⟩ := mem_overdue.mp (List.mem_of_mem_take due)
  exact continues.known file member now selected

theorem Continues.turns (continues : Continues app files world) (batchSize : Nat)
    (now : Timestamp) :
    Turns app now (dueFiles world.db batchSize now) world.db.fileObjects world.store
      (serve app world (.processBatch batchSize, now)).2.db.fileObjects
      (serve app world (.processBatch batchSize, now)).2.store := by
  rcases serve_processBatch app world batchSize now with ⟨_, unloaded⟩ | ⟨_, turns⟩
  · have loaded : (dueFiles world.db batchSize now).all (·.loadable) = true :=
      List.all_eq_true.mpr fun file due =>
        continues.working.loads file (continues.selected batchSize now due)
    rw [loaded] at unloaded
    cases unloaded
  · exact turns

theorem Continues.rows (continues : Continues app files world) (batchSize : Nat) (now : Timestamp) :
    (serve app world (.processBatch batchSize, now)).2.db.fileObjects =
      world.db.fileObjects.map fun row =>
        if row ∈ dueFiles world.db batchSize now ∧ row.legalHold = false then row.acted now
        else row :=
  turns_acted (continues.turns batchSize now)
    (continues.working.deletes _ (continues.selected batchSize now)) continues.unique
    (dueFiles_unique continues.unique batchSize now)
    fun _ due => (mem_overdue.mp (List.mem_of_mem_take due)).1

theorem Continues.step (continues : Continues app files world) (batchSize : Nat) (now : Timestamp) :
    Continues app files (serve app world (.processBatch batchSize, now)).2 where
  unique := turns_unique (continues.turns batchSize now) continues.unique
  known := by
    intro file member later due
    rw [continues.rows] at member
    obtain ⟨row, inTable, rfl⟩ := List.mem_map.mp member
    split at due
    · exact absurd due (row.acted_not_due now later)
    · rename_i passed
      rw [if_neg passed]
      exact continues.known row inTable later due
  working := by
    refine ⟨continues.working.loads, fun others within => ?_⟩
    refine DeletesAll.behind (continues.turns batchSize now) ?_
    exact continues.working.deletes _
      (List.append_subset.mpr ⟨continues.selected batchSize now, within⟩)

/-- A batch serves the due files as a round serves a queue. -/
theorem Continues.overdue_eq (continues : Continues app files world) (batchSize : Nat)
    (now : Timestamp) :
    overdue (serve app world (.processBatch batchSize, now)).2.db now =
      afterRound (·.legalHold) batchSize (overdue world.db now) := by
  have apart := List.disjoint_take_drop (overdue_unique continues.unique now) (Nat.le_refl batchSize)
  have served : overdue (serve app world (.processBatch batchSize, now)).2.db now =
      (overdue world.db now).filter fun row =>
        ! decide (row ∈ dueFiles world.db batchSize now ∧ row.legalHold = false) := by
    unfold overdue
    rw [continues.rows, filter_map_out, filter_insertionSort]
    intro row
    exact decide_eq_false (row.acted_not_due now now)
  rw [served, dueFiles_eq]
  unfold afterRound
  conv_lhs => rw [← List.take_append_drop batchSize (overdue world.db now), List.filter_append]
  rw [List.take_append_drop]
  congr 1
  · refine List.filter_congr fun row looked => ?_
    cases held : row.legalHold <;> simp [looked]
  · refine List.filter_eq_self.mpr fun row behind => ?_
    have aside : row ∉ (overdue world.db now).take batchSize := fun looked => apart looked behind
    simp [aside]

/-- The batch gets to the file. -/
theorem Continues.processed (continues : Continues app files world) (free : file.legalHold = false)
    (reached : file ∈ dueFiles world.db batchSize now) : Processed app world batchSize now file := by
  unfold Processed
  rw [continues.rows]
  have inTable := (mem_overdue.mp (List.mem_of_mem_take reached)).1
  exact List.mem_map.mpr ⟨file, inTable, if_pos ⟨reached, free⟩⟩

/-- A file that is still due has not been processed. -/
theorem Continues.unprocessed (continues : Continues app files world) {later : Timestamp}
    (due : file ∈ overdue (serve app world (.processBatch batchSize, now)).2.db later) :
    ¬ Processed app world batchSize now file := by
  intro processed
  obtain ⟨member, still⟩ := mem_overdue.mp due
  have same := List.inj_on_of_nodup_map (continues.step batchSize now).unique member processed
    (file.acted_id now).symm
  rw [same] at still
  exact file.acted_not_due now later still

/-- While a batch does not get to the file, the file keeps its place behind those in front. -/
theorem Continues.behind (continues : Continues app files world)
    (order : overdue world.db now = front ++ file :: back) {time : Timestamp} (later : now ≤ time)
    (short : batchSize ≤ front.length) :
    ∃ back', overdue (serve app world (.processBatch batchSize, time)).2.db time =
      afterRound (·.legalHold) batchSize front ++ file :: back' := by
  obtain ⟨arrived, queue⟩ := overdue_later later world.db
  refine ⟨back ++ arrived, ?_⟩
  rw [continues.overdue_eq, queue, order, List.append_assoc, afterRound_append short]
  rfl

theorem Continues.reached (order : overdue world.db now = front ++ file :: back)
    {time : Timestamp} (later : now ≤ time) (near : front.length < batchSize) :
    file ∈ dueFiles world.db batchSize time := by
  obtain ⟨arrived, queue⟩ := overdue_later later world.db
  obtain ⟨more, size⟩ : ∃ more, batchSize = front.length + (more + 1) :=
    ⟨batchSize - front.length - 1, by omega⟩
  rw [dueFiles_eq, queue, order, List.append_assoc, size, List.take_length_add_append]
  exact List.mem_append_right front List.mem_cons_self

theorem Continues.reaches (continues : Continues app files world)
    (order : overdue world.db now = front ++ file :: back) (free : file.legalHold = false)
    (few : front.countP (·.legalHold) < batchSize) {times : List Timestamp}
    (sorted : (now :: times).Pairwise (· ≤ ·)) (enough : front.length < times.length) :
    ∃ done time rest, times = done ++ time :: rest ∧
      Processed app (after app world (batchesOf batchSize done)) batchSize time file := by
  induction times generalizing world now front back with
  | nil => cases enough
  | cons time rest ih =>
    obtain ⟨least, sortedRest⟩ := List.pairwise_cons.mp sorted
    have later := least time List.mem_cons_self
    by_cases short : batchSize ≤ front.length
    · obtain ⟨back', next⟩ := continues.behind order later short
      have fewer := afterRound_length_lt few short
      have few' : (afterRound (·.legalHold) batchSize front).countP (·.legalHold) < batchSize := by
        rw [afterRound_countP]
        exact few
      have shorter := Nat.lt_of_lt_of_le fewer (Nat.le_of_lt_succ enough)
      obtain ⟨done, other, last, split, processed⟩ :=
        ih (continues.step batchSize time) next few' sortedRest shorter
      exact ⟨time :: done, other, last, congrArg (time :: ·) split, processed⟩
    · have reached := Continues.reached order later (Nat.lt_of_not_le short)
      exact ⟨[], time, rest, rfl, continues.processed free reached⟩

/-- As many held files in front as a batch looks at, and no batch gets to the file. -/
theorem Continues.starves (continues : Continues app files world)
    (order : overdue world.db now = front ++ file :: back)
    (many : batchSize ≤ front.countP (·.legalHold)) {done rest : List Timestamp} {time : Timestamp}
    (sorted : (now :: (done ++ time :: rest)).Pairwise (· ≤ ·)) :
    ¬ Processed app (after app world (batchesOf batchSize done)) batchSize time file := by
  have short := Nat.le_trans many List.countP_le_length
  induction done generalizing world now front back with
  | nil =>
    obtain ⟨back', next⟩ :=
      continues.behind order ((List.pairwise_cons.mp sorted).1 time List.mem_cons_self) short
    apply continues.unprocessed
    rw [next]
    exact List.mem_append_right _ List.mem_cons_self
  | cons first others ih =>
    obtain ⟨least, sortedRest⟩ := List.pairwise_cons.mp sorted
    obtain ⟨back', next⟩ := continues.behind order (least first List.mem_cons_self) short
    have many' : batchSize ≤ (afterRound (·.legalHold) batchSize front).countP (·.legalHold) := by
      rw [afterRound_countP]
      exact many
    exact ih (continues.step batchSize first) next many' sortedRest
      (Nat.le_trans many' List.countP_le_length)

/-- A batch that a waiting file is among the first for processes some waiting file. -/
theorem Continues.serves_one (continues : Continues app files world)
    (order : overdue world.db now = front ++ file :: back) (free : file.legalHold = false)
    (few : front.countP (·.legalHold) < batchSize) :
    ∃ file ∈ world.db.fileObjects, file.Waiting now ∧ Processed app world batchSize now file := by
  have reached : ∃ other ∈ dueFiles world.db batchSize now, other.legalHold = false := by
    by_cases short : batchSize ≤ front.length
    · obtain ⟨other, looked, served⟩ := exists_served few short
      refine ⟨other, ?_, served⟩
      rw [dueFiles_eq, order, List.take_append_of_le_length short]
      exact looked
    · exact ⟨file, Continues.reached order (Int.le_refl now) (Nat.lt_of_not_le short), free⟩
  obtain ⟨other, selected, released⟩ := reached
  obtain ⟨member, due⟩ := mem_overdue.mp (List.mem_of_mem_take selected)
  exact ⟨other, member, ⟨due, released⟩, continues.processed released selected⟩

end Batches

/-- The batches get to all the waiting files exactly when in front of each there are fewer files
under legal hold than a batch looks at. -/
theorem batches_progress_iff (app : AppState σ) (world : World Database σ) (batchSize : Nat)
    (now : Timestamp) (unique : (world.db.fileObjects.map (·.id)).Nodup)
    (working : Working app world.db.fileObjects world.store) :
    Progresses app world batchSize now ↔
      ∀ front file back, overdue world.db now = front ++ file :: back → file.legalHold = false →
        front.countP (·.legalHold) < batchSize := by
  have continues := Continues.start unique working
  constructor
  · intro progresses front file back order free
    obtain ⟨member, due⟩ := mem_overdue.mp
      (order ▸ List.mem_append_right front List.mem_cons_self : file ∈ overdue world.db now)
    obtain ⟨enough, reaches⟩ := progresses.each file member ⟨due, free⟩
    have sorted : (List.replicate (enough + 1) now).Pairwise (· ≤ ·) :=
      List.pairwise_replicate.mpr (.inr (Int.le_refl now))
    rw [List.replicate_succ] at sorted
    obtain ⟨done, time, rest, split, processed⟩ :=
      reaches (List.replicate enough now) sorted (Nat.le_of_eq List.length_replicate.symm)
    rw [split] at sorted
    exact Nat.lt_of_not_le fun many => continues.starves order many sorted processed
  · intro few
    have place : ∀ file ∈ world.db.fileObjects, file.Waiting now →
        ∃ front back, overdue world.db now = front ++ file :: back :=
      fun file member waiting => List.append_of_mem (mem_overdue.mpr ⟨member, waiting.1⟩)
    constructor
    · rintro ⟨file, member, waiting⟩
      obtain ⟨front, back, order⟩ := place file member waiting
      exact continues.serves_one order waiting.2 (few front file back order waiting.2)
    · intro file member waiting
      obtain ⟨front, back, order⟩ := place file member waiting
      exact ⟨front.length + 1, fun times sorted enough =>
        continues.reaches order waiting.2 (few front file back order waiting.2) sorted enough⟩

private theorem DeletesAll.of_always
    (always : ∀ bucket key store, (app.storage.deleteObject bucket key store).1 = .ok ())
    (due : List FileObject) (store : σ) : DeletesAll app due store := by
  induction due generalizing store with
  | nil => trivial
  | cons file rest ih =>
    rw [DeletesAll]
    split
    · exact ⟨always _ _ _, ih _⟩
    · exact ih store

/-- Two files that fall due one second after the other; the older one is under legal hold. -/
def oldHold : World Database MemoryS3 :=
  after smallS3App ⟨{}, smallS3⟩
    [(.proxyUpload smallTenant smallUpload, 0), (.setLegalHold smallTenant 0 true, 0),
      (.proxyUpload smallTenant { smallUpload with objectKey := "b.bin" }, seconds 1)]

private theorem oldHold_working : Working smallS3App oldHold.db.fileObjects oldHold.store :=
  ⟨by decide +kernel, fun due _ => .of_always (fun _ _ _ => rfl) due oldHold.store⟩

theorem two_files_progress :
    Progresses smallS3App oldHold 2 (seconds 2592001) ↔
      ∀ front file back, overdue oldHold.db (seconds 2592001) = front ++ file :: back →
        file.legalHold = false → front.countP (·.legalHold) < 2 :=
  batches_progress_iff smallS3App oldHold 2 (seconds 2592001) (by decide +kernel) oldHold_working

/-- Batches of one file look at the held one every time. -/
theorem held_file_starves_the_other :
    (oldHold.db.fileObjects.map fun file => (file.id, file.legalHold, file.nextActionAt)) =
        [(0, true, some (seconds 2592000)), (1, false, some (seconds 2592001))] ∧
      Working smallS3App oldHold.db.fileObjects oldHold.store ∧
      (∃ file ∈ oldHold.db.fileObjects, file.Waiting (seconds 2592001)) ∧
      ¬ ∃ file ∈ oldHold.db.fileObjects, file.Waiting (seconds 2592001) ∧
        Processed smallS3App oldHold 1 (seconds 2592001) file := by
  unfold FileObject.Waiting FileObject.Due Processed
  exact ⟨by decide +kernel, oldHold_working, by decide +kernel, by decide +kernel⟩

end PyUploadX
