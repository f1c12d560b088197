import Mathlib.Data.List.Chain
import PyUploadX.Kit.Runs
import PyUploadX.Sdk.Download

/-! The threads of a parallel download: each seeks in a handle of its own, writes chunk by
chunk, and counts each chunk when it is written. -/
namespace PyUploadX.Sdk

open Kit

/-- What a worker does next. -/
inductive WorkerTurn
  | seek
  | write
  /-- `written += len(chunk)`, and the call of `progress`, under the lock. -/
  | count (size : Nat)
  deriving DecidableEq, Repr

structure DownloadWorker where
  rangeStart : Nat
  /-- `handle.tell()`; a file is opened at its start. -/
  position : Nat := 0
  next : WorkerTurn := .seek
  /-- The chunks of the response that are still to come. -/
  chunks : List Bytes

structure ParallelDownload where
  dest : Bytes
  written : Nat := 0
  /-- The calls of `progress`. -/
  progress : List Nat := []
  workers : List DownloadWorker

/-- `_stream_parallel` when the threads start, with the responses they will read. -/
def startWorkers (get : Option String → HttpResponse) (chunking : Chunking) (total : Nat)
    (ranges : List (Nat × Nat)) : ParallelDownload where
  dest := List.replicate total 0
  workers := ranges.mapIdx fun index range =>
    { rangeStart := range.1
      chunks := chunking.cut (index + 1) (get (some (rangeHeader range.1 range.2))).body }

/-- The next step of one worker in the loop over its chunks. -/
def DownloadWorker.turn (worker : DownloadWorker) (i : Nat) (download : ParallelDownload) :
    ParallelDownload :=
  match worker.next, worker.chunks with
  | .seek, _ =>
    { download with
      workers := download.workers.set i
        { worker with position := worker.rangeStart, next := .write } }
  | .write, [] => download
  | .write, chunk :: rest =>
    { download with
      dest := writeAt 0 download.dest worker.position chunk
      workers := download.workers.set i
        { worker with
          position := worker.position + chunk.length
          next := .count chunk.length
          chunks := rest } }
  | .count size, _ =>
    { download with
      written := download.written + size
      progress := download.progress ++ [download.written + size]
      workers := download.workers.set i { worker with next := .write } }

/-- The `i`th worker takes a step. -/
def ParallelDownload.step (download : ParallelDownload) (i : Nat) : ParallelDownload :=
  match download.workers[i]? with
  | some worker => worker.turn i download
  | none => download

namespace DownloadWorker

/-- All its chunks are written and counted. -/
def Finished (worker : DownloadWorker) : Prop := worker.next = .write ∧ worker.chunks = []

/-- What the worker has written and not yet counted. -/
def uncounted (worker : DownloadWorker) : Nat :=
  match worker.next with
  | .count size => size
  | _ => 0

/-- The writer it is, once it has sought its place. -/
def writer (worker : DownloadWorker) : PieceWriter UInt8 where
  position := if worker.next = .seek then worker.rangeStart else worker.position
  pieces := worker.chunks

/-- How many steps it has before it. -/
def turns (worker : DownloadWorker) : Nat :=
  2 * worker.chunks.length + if worker.next = .write then 0 else 1

private theorem turns_write {worker : DownloadWorker} (writes : worker.next = .write) :
    worker.turns = 2 * worker.chunks.length := by
  rw [turns, if_pos writes, Nat.add_zero]

private theorem turns_other {worker : DownloadWorker} (other : worker.next ≠ .write) :
    worker.turns = 2 * worker.chunks.length + 1 := by
  rw [turns, if_neg other]

end DownloadWorker

namespace ParallelDownload

/-- `thread.join()` has returned for every thread. -/
def Joined (download : ParallelDownload) : Prop :=
  ∀ worker ∈ download.workers, worker.Finished

/-- The file with its writers, where a chunk counts as soon as it is written. -/
def patched (download : ParallelDownload) : PatchedFile UInt8 where
  content := download.dest
  written := download.written + (download.workers.map (·.uncounted)).sum
  writers := download.workers.map (·.writer)

/-- How many steps the workers have before them. -/
def turns (download : ParallelDownload) : Nat := (download.workers.map (·.turns)).sum

variable {download : ParallelDownload} {i : Nat}

/-- What a step does: nothing, or one of the three things in the loop of one worker. -/
theorem step_cases (download : ParallelDownload) (i : Nat) :
    ((∀ worker, download.workers[i]? = some worker → worker.Finished) ∧
        download.step i = download) ∨
      ∃ worker, download.workers[i]? = some worker ∧
        ((worker.next = .seek ∧ download.step i =
            { download with
              workers := download.workers.set i
                { worker with position := worker.rangeStart, next := .write } }) ∨
          (∃ chunk rest, worker.next = .write ∧ worker.chunks = chunk :: rest ∧ download.step i =
            { download with
              dest := writeAt 0 download.dest worker.position chunk
              workers := download.workers.set i
                { worker with
                  position := worker.position + chunk.length
                  next := .count chunk.length
                  chunks := rest } }) ∨
          ∃ size, worker.next = .count size ∧ download.step i =
            { download with
              written := download.written + size
              progress := download.progress ++ [download.written + size]
              workers := download.workers.set i { worker with next := .write } }) := by
  unfold step
  cases found : download.workers[i]? with
  | none => exact .inl ⟨fun _ present => (Option.some_ne_none _ present.symm).elim, rfl⟩
  | some worker =>
    dsimp only
    unfold DownloadWorker.turn
    split
    · rename_i seeks
      exact .inr ⟨worker, rfl, .inl ⟨seeks, rfl⟩⟩
    · rename_i writes none_
      refine .inl ⟨fun present same => ?_, rfl⟩
      cases same
      exact ⟨writes, none_⟩
    · rename_i chunk rest writes more
      exact .inr ⟨worker, rfl, .inr (.inl ⟨chunk, rest, writes, more, rfl⟩)⟩
    · rename_i size counts
      exact .inr ⟨worker, rfl, .inr (.inr ⟨size, counts, rfl⟩)⟩

theorem sum_moved {worker : DownloadWorker} (found : download.workers[i]? = some worker)
    (number : DownloadWorker → Nat) (moved : DownloadWorker) :
    ((download.workers.set i moved).map number).sum + number worker =
      (download.workers.map number).sum + number moved := by
  rw [List.map_set]
  refine sum_set ?_ _
  rw [List.getElem?_map, found]
  rfl

theorem writers_moved {worker moved : DownloadWorker} (found : download.workers[i]? = some worker)
    (same : moved.writer = worker.writer) :
    (download.workers.set i moved).map (·.writer) = download.workers.map (·.writer) := by
  rw [List.map_set, same]
  refine List.ext_getElem? fun index => ?_
  by_cases mine : i = index
  · subst mine
    rw [List.getElem?_set_self', List.getElem?_map, found]
    rfl
  · rw [List.getElem?_set_ne mine]

/-- To seek and to count changes nothing about the file and its writers; to write is a turn of
the writer. -/
theorem step_patched (download : ParallelDownload) (i : Nat) :
    (download.step i).patched = download.patched ∨
      (download.step i).patched = download.patched.step 0 i := by
  rcases download.step_cases i with ⟨_, same⟩ | ⟨worker, found, seek | write | count⟩
  · exact .inl (by rw [same])
  · obtain ⟨seeks, moved⟩ := seek
    left
    have uncounted := sum_moved found (·.uncounted)
      { worker with position := worker.rangeStart, next := .write }
    have writer := @writers_moved _ i worker
      { worker with position := worker.rangeStart, next := .write } found (by
        unfold DownloadWorker.writer
        rw [if_pos seeks, if_neg WorkerTurn.noConfusion])
    rw [moved]
    unfold patched
    rw [writer]
    simp only [DownloadWorker.uncounted, seeks] at uncounted ⊢
    rw [Nat.add_zero, Nat.add_zero] at uncounted
    rw [uncounted]
  · obtain ⟨chunk, rest, writes, more, moved⟩ := write
    right
    have uncounted := sum_moved found (·.uncounted)
      { worker with
        position := worker.position + chunk.length
        next := .count chunk.length
        chunks := rest }
    have writer : download.patched.writers[i]? =
        some ⟨worker.position, chunk :: rest⟩ := by
      unfold patched DownloadWorker.writer
      rw [List.getElem?_map, found, Option.map_some, more, writes, if_neg WorkerTurn.noConfusion]
    rw [moved]
    unfold PatchedFile.step
    rw [writer]
    unfold patched
    simp only [DownloadWorker.uncounted, writes] at uncounted ⊢
    rw [Nat.add_zero] at uncounted
    rw [uncounted, List.map_set, ← Nat.add_assoc]
    rfl
  · obtain ⟨size, counts, moved⟩ := count
    left
    have uncounted := sum_moved found (·.uncounted) { worker with next := .write }
    have writer := @writers_moved _ i worker { worker with next := .write } found (by
      unfold DownloadWorker.writer
      rw [counts, if_neg WorkerTurn.noConfusion, if_neg WorkerTurn.noConfusion])
    rw [moved]
    unfold patched
    rw [writer]
    simp only [DownloadWorker.uncounted, counts] at uncounted ⊢
    rw [Nat.add_zero] at uncounted
    rw [← uncounted, Nat.add_assoc, Nat.add_comm size]

/-- Every run of the workers is one of the writers, who write at once what they have. -/
theorem run_refines (schedule : List Nat) (download : ParallelDownload) :
    ∃ turns : List Nat, (schedule.foldl step download).patched =
      turns.foldl (PatchedFile.step 0) download.patched := by
  induction schedule generalizing download with
  | nil => exact ⟨[], rfl⟩
  | cons i rest ih =>
    obtain ⟨turns, refined⟩ := ih (download.step i)
    rcases download.step_patched i with same | turn
    · rw [same] at refined
      exact ⟨turns, refined⟩
    · rw [turn] at refined
      exact ⟨i :: turns, refined⟩

/-- A worker that is not finished comes one step closer to its end. -/
theorem step_turns {worker : DownloadWorker} (found : download.workers[i]? = some worker)
    (unfinished : ¬ worker.Finished) : (download.step i).turns + 1 = download.turns := by
  rcases download.step_cases i with ⟨finished, _⟩ | ⟨worker', found', seek | write | count⟩
  · exact absurd (finished worker found) unfinished
  · obtain ⟨seeks, moved⟩ := seek
    have counted := sum_moved found' (·.turns)
      { worker' with position := worker'.rangeStart, next := .write }
    rw [DownloadWorker.turns_other (by rw [seeks]; exact WorkerTurn.noConfusion),
      DownloadWorker.turns_write rfl] at counted
    rw [moved, turns, turns]
    dsimp only at counted ⊢
    omega
  · obtain ⟨chunk, rest, writes, more, moved⟩ := write
    have counted := sum_moved found' (·.turns)
      { worker' with
        position := worker'.position + chunk.length
        next := .count chunk.length
        chunks := rest }
    rw [DownloadWorker.turns_write writes, DownloadWorker.turns_other WorkerTurn.noConfusion,
      more, List.length_cons] at counted
    rw [moved, turns, turns]
    dsimp only at counted ⊢
    omega
  · obtain ⟨size, counts, moved⟩ := count
    have counted := sum_moved found' (·.turns) { worker' with next := .write }
    rw [DownloadWorker.turns_other (by rw [counts]; exact WorkerTurn.noConfusion),
      DownloadWorker.turns_write rfl] at counted
    rw [moved, turns, turns]
    dsimp only at counted ⊢
    omega

/-- From wherever they are, the workers can come to their ends. -/
theorem join_reachable (download : ParallelDownload) :
    ∃ rest : List Nat, (rest.foldl step download).Joined := by
  by_cases joined : download.Joined
  · exact ⟨[], joined⟩
  · simp only [Joined, not_forall] at joined
    obtain ⟨worker, member, unfinished⟩ := joined
    obtain ⟨i, found⟩ := List.getElem?_of_mem member
    have fewer := step_turns found unfinished
    obtain ⟨rest, ended⟩ := join_reachable (download.step i)
    exact ⟨i :: rest, ended⟩
termination_by download.turns
decreasing_by omega

/-- The calls of `progress` go up to what is counted. -/
structure Reported (download : ParallelDownload) : Prop where
  below : ∀ count ∈ download.progress, count ≤ download.written
  last : download.progress.getLast?.getD 0 = download.written

theorem Reported.step (reported : download.Reported) (i : Nat) : (download.step i).Reported := by
  rcases download.step_cases i with ⟨_, same⟩ | ⟨worker, _, seek | write | count⟩
  · rwa [same]
  · rw [seek.2]
    exact ⟨reported.below, reported.last⟩
  · obtain ⟨chunk, rest, _, _, moved⟩ := write
    rw [moved]
    exact ⟨reported.below, reported.last⟩
  · obtain ⟨size, _, moved⟩ := count
    rw [moved]
    constructor
    · intro count member
      dsimp only at member ⊢
      rcases List.mem_append.mp member with earlier | latest
      · exact (reported.below count earlier).trans (Nat.le_add_right _ _)
      · exact (List.mem_singleton.mp latest).le
    · dsimp only
      rw [List.getLast?_concat, Option.getD_some]

/-- When all threads are joined, every writer has ended and everything is counted. -/
theorem Joined.patched (joined : download.Joined) :
    (∀ i, download.patched.Ended i) ∧ download.patched.written = download.written := by
  constructor
  · intro i writer found
    obtain ⟨worker, present, rfl⟩ := List.mem_map.mp (List.mem_of_getElem? found)
    exact (joined worker present).2
  · have none_ : (download.workers.map (·.uncounted)).sum = 0 := by
      refine List.sum_eq_zero fun count member => ?_
      obtain ⟨worker, present, rfl⟩ := List.mem_map.mp member
      rw [DownloadWorker.uncounted, (joined worker present).1]
    exact (congrArg (download.written + ·) none_).trans (Nat.add_zero _)

end ParallelDownload

section Start

variable (get : Option String → HttpResponse) (chunking : Chunking) (total : Nat)
  (ranges : List (Nat × Nat))

/-- At the start the workers are the writers of what they receive. -/
theorem startWorkers_patched :
    (startWorkers get chunking total ranges).patched = received get chunking total ranges := by
  have uncounted : ((startWorkers get chunking total ranges).workers.map (·.uncounted)).sum = 0 := by
    refine List.sum_eq_zero fun count member => ?_
    obtain ⟨worker, present, rfl⟩ := List.mem_map.mp member
    obtain ⟨index, inside, rfl⟩ := List.mem_mapIdx.mp present
    rfl
  have writers : (startWorkers get chunking total ranges).workers.map (·.writer) =
      (received get chunking total ranges).writers := by
    refine List.ext_getElem? fun index => ?_
    unfold startWorkers received
    dsimp only
    rw [List.getElem?_map, List.getElem?_mapIdx, List.getElem?_mapIdx, Option.map_map]
    rfl
  unfold ParallelDownload.patched
  rw [uncounted, writers]
  rfl

private theorem startWorkers_reported : (startWorkers get chunking total ranges).Reported :=
  ⟨List.forall_mem_nil _, rfl⟩

end Start

/-- Intervals that follow on one another and make up `[0, total)`. -/
structure Tiles (total : Nat) (ranges : List (Nat × Nat)) : Prop where
  nonempty : ∀ range ∈ ranges, range.1 ≤ range.2
  consecutive : ranges.IsChain fun first second => second.1 = first.2 + 1
  disjoint : ranges.Pairwise fun first second => first.2 < second.1
  union : ∀ index, index < total ↔ ∃ range ∈ ranges, range.1 ≤ index ∧ index ≤ range.2

theorem rangesFrom_length (total step start remaining : Nat) :
    (rangesFrom total step start remaining).length = remaining := by
  induction remaining generalizing start with
  | zero => rfl
  | succ remaining ih => rw [rangesFrom, List.length_cons, ih]

private theorem rangesFrom_consecutive (total step start remaining : Nat) :
    (rangesFrom total step start remaining).IsChain
      fun first second => second.1 = first.2 + 1 := by
  induction remaining generalizing start with
  | zero => exact .nil
  | succ remaining ih =>
    rw [rangesFrom, List.isChain_cons]
    refine ⟨fun second next => ?_, ih _⟩
    cases remaining with
    | zero => cases next
    | succ remaining =>
      rw [rangesFrom] at next
      cases next
      rfl

theorem behind_of_consecutive {range : Nat × Nat} {ranges : List (Nat × Nat)}
    (nonempty : ∀ later ∈ ranges, later.1 ≤ later.2)
    (consecutive : (range :: ranges).IsChain fun first second => second.1 = first.2 + 1) :
    ∀ later ∈ ranges, range.2 < later.1 := by
  induction ranges generalizing range with
  | nil => exact List.forall_mem_nil _
  | cons next rest ih =>
    obtain ⟨follows, chain⟩ := List.isChain_cons_cons.mp consecutive
    obtain ⟨filled, others⟩ := List.forall_mem_cons.mp nonempty
    refine List.forall_mem_cons.mpr ⟨by omega, fun later member => ?_⟩
    have further := ih others chain later member
    omega

private theorem disjoint_of_consecutive {ranges : List (Nat × Nat)}
    (nonempty : ∀ range ∈ ranges, range.1 ≤ range.2)
    (consecutive : ranges.IsChain fun first second => second.1 = first.2 + 1) :
    ranges.Pairwise fun first second => first.2 < second.1 := by
  induction ranges with
  | nil => exact .nil
  | cons range rest ih =>
    have others := (List.forall_mem_cons.mp nonempty).2
    exact .cons (behind_of_consecutive others consecutive)
      (ih others (List.isChain_cons.mp consecutive).2)

section Ranges

variable {total requested : Nat} (nonempty : 1 ≤ total) (workers : 1 ≤ requested)

include nonempty workers

private theorem parallelRanges_positions :
    (parallelRanges total requested).flatMap positions = List.range' 0 total := by
  have some_ : 0 < min requested total := Nat.lt_min.mpr ⟨workers, nonempty⟩
  refine rangesFrom_positions (Nat.div_pos (Nat.min_le_right _ _) some_) some_ ?_
  rw [Nat.zero_add]
  exact Nat.mul_div_le total _

theorem parallelRanges_tiles : Tiles total (parallelRanges total requested) where
  nonempty range member := (parallelRanges_within nonempty workers range member).1
  consecutive := rangesFrom_consecutive _ _ _ _
  disjoint := disjoint_of_consecutive
    (fun range member => (parallelRanges_within nonempty workers range member).1)
    (rangesFrom_consecutive _ _ _ _)
  union := by
    intro index
    constructor
    · exact parallelRanges_cover workers
    · rintro ⟨range, member, _, within⟩
      exact within.trans_lt (parallelRanges_within nonempty workers range member).2

/-- What the workers receive of some content is as long as the content. -/
theorem received_owed {get : Option String → HttpResponse} {content : Bytes}
    (sized : content.length = total)
    (served : ∀ range ∈ parallelRanges total requested,
      (get (some (rangeHeader range.1 range.2))).body =
        (content.drop range.1).take (range.2 - range.1 + 1)) (chunking : Chunking) :
    (received get chunking total (parallelRanges total requested)).owed = total := by
  have lengths : (received get chunking total (parallelRanges total requested)).writers.map
      (·.pieces.flatten.length) =
        (parallelRanges total requested).map fun range => (positions range).length := by
    refine List.ext_getElem? fun index => ?_
    unfold received
    dsimp only
    rw [List.getElem?_map, List.getElem?_mapIdx, List.getElem?_map, Option.map_map]
    cases found : (parallelRanges total requested)[index]? with
    | none => rfl
    | some range =>
      have member := List.mem_of_getElem? found
      obtain ⟨ordered, last⟩ := parallelRanges_within nonempty workers range member
      rw [Option.map_some, Option.map_some, Function.comp_apply]
      dsimp only
      rw [chunking.whole, served range member, positions, List.length_take, List.length_drop,
        List.length_range']
      congr 1
      omega
  have together := congrArg List.length (parallelRanges_positions nonempty workers)
  rw [List.length_flatMap, List.length_range'] at together
  rw [PatchedFile.owed, lengths]
  exact together

end Ranges

/-- The ranges tile the file, and whatever the chunks are and however the workers take turns,
the bytes they count never exceed it; once all are joined, the file is the content and all of it
is counted. They can be joined from every point. -/
theorem workers_assemble (total requested : Nat) (nonempty : 1 ≤ total) (workers : 1 ≤ requested) :
    (parallelRanges total requested).length = min requested total ∧
      Tiles total (parallelRanges total requested) ∧
      ∀ (get : Option String → HttpResponse) (content : Bytes), content.length = total →
        (∀ range ∈ parallelRanges total requested,
          (get (some (rangeHeader range.1 range.2))).body =
            (content.drop range.1).take (range.2 - range.1 + 1)) →
        ∀ (chunking : Chunking) (schedule : List Nat),
          let reached := schedule.foldl ParallelDownload.step
            (startWorkers get chunking total (parallelRanges total requested))
          reached.written ≤ total ∧ (∀ count ∈ reached.progress, count ≤ total) ∧
            (reached.Joined → reached.dest = content ∧ reached.written = total ∧
              reached.progress.getLast? = some total) ∧
            ∃ rest : List Nat, (rest.foldl ParallelDownload.step reached).Joined := by
  refine ⟨rangesFrom_length _ _ _ _, parallelRanges_tiles nonempty workers, ?_⟩
  intro get content sized served chunking schedule reached
  have start := startWorkers_patched get chunking total (parallelRanges total requested)
  obtain ⟨turns, refined⟩ := ParallelDownload.run_refines schedule
    (startWorkers get chunking total (parallelRanges total requested))
  rw [start] at refined
  have balance : reached.patched.written + reached.patched.owed = total := by
    have owed := received_owed nonempty workers sized served chunking
    rw [refined]
    exact @run_preserves _ _ _ (fun file : PatchedFile UInt8 => file.written + file.owed = total) _
      turns ((Nat.zero_add _).trans owed) fun file i kept => (file.step_owed i).trans kept
  have fills : reached.patched.Fills content := by
    subst sized
    rw [refined]
    exact run_preserves turns (served_fills nonempty workers served chunking)
      fun _ i now => now.step i
  have reported : reached.Reported :=
    run_preserves schedule (startWorkers_reported get chunking total _) fun _ i now => now.step i
  have counted : reached.written ≤ total := by
    have more : reached.patched.written =
      reached.written + (reached.workers.map (·.uncounted)).sum := rfl
    omega
  refine ⟨counted, fun count member => (reported.below count member).trans counted, ?_,
    reached.join_reachable⟩
  intro joined
  obtain ⟨ended, all⟩ := joined.patched
  have nothing : reached.patched.owed = 0 := by
    refine List.sum_eq_zero fun left member => ?_
    obtain ⟨writer, present, rfl⟩ := List.mem_map.mp member
    obtain ⟨i, found⟩ := List.getElem?_of_mem present
    rw [ended i writer found]
    rfl
  have whole : reached.written = total := by omega
  refine ⟨fills.ended ended, whole, ?_⟩
  have last := reported.last
  cases latest : reached.progress.getLast? with
  | none =>
    rw [latest, whole] at last
    exact absurd last.symm (Nat.ne_of_gt nonempty)
  | some count =>
    rw [latest, whole] at last
    exact congrArg some last

/-- Three workers on four bytes, from the endpoint and byte by byte. -/
theorem small_workers_assemble : ∃ schedule : List Nat,
    let reached := schedule.foldl ParallelDownload.step
      (startWorkers (downloadFile smallLocalApp smallStored smallTenant 0 1) bytewise 4
        (parallelRanges 4 3))
    reached.dest = [1, 2, 3, 4] ∧ reached.written = 4 ∧ reached.progress.getLast? = some 4 := by
  have visible : Visible smallLocalApp smallStored smallTenant 0 _ [1, 2, 3, 4] := ⟨rfl, rfl⟩
  obtain ⟨_, _, assemble⟩ := workers_assemble 4 3 (by decide) (by decide)
  have assembled := assemble (downloadFile smallLocalApp smallStored smallTenant 0 1) [1, 2, 3, 4]
    rfl (fun range member => by
      obtain ⟨ordered, last⟩ := parallelRanges_within (by decide) (by decide) range member
      exact (worker_served (localReadsRanges _) visible (short_of_bigint (by decide)) rfl ordered last).2) bytewise
  obtain ⟨_, _, _, rest, joined⟩ := assembled [2, 0, 2, 1]
  refine ⟨[2, 0, 2, 1] ++ rest, ?_⟩
  rw [← List.foldl_append] at joined
  exact (assembled _).2.2.1 joined

end PyUploadX.Sdk
