import Mathlib.Data.List.Perm.Subperm
import PyUploadX.Db.Integrity
import PyUploadX.Storage.Factory
import PyUploadX.Storage.LocalBackend

/-! The two lists of missing parts: `resume` counts rows and stored parts, `complete`
counts rows. -/
namespace PyUploadX

open Kit UploadService

variable {σ : Type} {app : AppState σ}

/-- The numbers of the committed rows of a session. -/
def committedNumbers (db : Database) (upload : UploadSession) : List Nat :=
  (committedOf (db.partsOf upload.id)).map (·.partNumber)

/-- The numbers the storage lists for a session, where it can be asked. -/
def listedNumbers (app : AppState σ) (upload : UploadSession) (store : σ) : List Nat :=
  match upload.storageId? with
  | some storageUploadId =>
    if app.storage.capabilities.listParts then
      match app.storage.listParts upload.bucket upload.objectKey storageUploadId store with
      | .ok parts => parts.map (·.partNumber)
      | .error _ => []
    else []
  | none => []

/-- The numbers a `complete` reports as missing. -/
def missingReported : Except Failure Reply → List Nat
  | .error (.api (.missingParts missing)) => missing
  | _ => []

theorem mem_partsOf {db : Database} {uploadId : Uuid} {part : UploadPart} :
    part ∈ db.partsOf uploadId ↔ part ∈ db.uploadParts ∧ part.uploadId = uploadId := by
  unfold Database.partsOf
  rw [List.mem_insertionSort, List.mem_filter, decide_eq_true_eq]

/-- The rows of a session have different numbers, all of them within the session. -/
theorem committedNumbers_sound {db : Database} (sound : Integrity app db) {upload : UploadSession}
    (found : upload ∈ db.uploadSessions) :
    (committedNumbers db upload).Nodup ∧
      ∀ number ∈ committedNumbers db upload, 1 ≤ number ∧ number ≤ upload.totalParts := by
  constructor
  · have keys : ((committedOf (db.partsOf upload.id)).map (·.key)).Nodup := by
      have sorted : ((db.partsOf upload.id).map (·.key)).Nodup :=
        ((List.perm_insertionSort _ _).map _).nodup_iff.mpr
          (sound.parts.unique.sublist (List.filter_sublist.map _))
      exact sorted.sublist (List.filter_sublist.map _)
    have pairs : (committedOf (db.partsOf upload.id)).map (·.key) =
        (committedNumbers db upload).map fun number => (upload.id, number) := by
      rw [committedNumbers, List.map_map]
      apply List.map_congr_left
      intro part member
      have owner := (mem_partsOf.mp (List.mem_of_mem_filter member)).2
      simp [UploadPart.key, owner]
    rw [pairs] at keys
    exact List.Nodup.of_map _ keys
  · intro number member
    obtain ⟨part, inRows, rfl⟩ := List.mem_map.mp member
    obtain ⟨inTable, owner⟩ := mem_partsOf.mp (List.mem_of_mem_filter inRows)
    exact sound.parts.inRange part inTable upload.core (mem_cores found) owner.symm

theorem mem_missingNumbers {total number : Nat} {present : List Nat} :
    number ∈ missingNumbers total present ↔ (1 ≤ number ∧ number ≤ total) ∧ number ∉ present := by
  have bounds : (1 ≤ number ∧ number < 1 + total) ↔ (1 ≤ number ∧ number ≤ total) := by omega
  unfold missingNumbers
  rw [List.mem_filter, List.mem_range'_1, decide_eq_true_eq, bounds]

/-- Counting rows and comparing sets agree, since no row is counted twice or out of range. -/
theorem missingNumbers_nil_iff {total : Nat} {present : List Nat} (nodup : present.Nodup)
    (inRange : ∀ number ∈ present, 1 ≤ number ∧ number ≤ total) :
    missingNumbers total present = [] ↔ total ≤ present.length := by
  have within : present ⊆ List.range' 1 total := by
    intro number member
    have := inRange number member
    rw [List.mem_range'_1]
    omega
  have bounded := (nodup.subperm within).length_le
  rw [List.length_range'] at bounded
  constructor
  · intro none
    have covered : List.range' 1 total ⊆ present := by
      intro number member
      by_contra absent
      have missing : number ∈ missingNumbers total present := by
        rw [mem_missingNumbers]
        rw [List.mem_range'_1] at member
        exact ⟨by omega, absent⟩
      rw [none] at missing
      cases missing
    have nodup' : (List.range' 1 total).Nodup := List.nodup_range'
    have enough := (nodup'.subperm covered).length_le
    rwa [List.length_range'] at enough
  · intro enough
    have same : present.Perm (List.range' 1 total) :=
      (nodup.subperm within).perm_of_length_le (by rw [List.length_range']; exact enough)
    rw [List.eq_nil_iff_forall_not_mem]
    intro number missing
    rw [mem_missingNumbers] at missing
    refine missing.2 (same.mem_iff.mpr ?_)
    rw [List.mem_range'_1]
    omega

private theorem missingNumbers_eq_iff {total : Nat} {first second : List Nat} :
    missingNumbers total (first ++ second) = missingNumbers total first ↔
      ∀ number, 1 ≤ number → number ≤ total → number ∈ second → number ∈ first := by
  constructor
  · intro same number low high listed
    by_contra absent
    have missing : number ∈ missingNumbers total first :=
      mem_missingNumbers.mpr ⟨⟨low, high⟩, absent⟩
    rw [← same, mem_missingNumbers] at missing
    exact missing.2 (List.mem_append_right first listed)
  · intro covered
    unfold missingNumbers
    apply List.filter_congr
    intro number member
    rw [List.mem_range'_1] at member
    have := covered number (by omega) (by omega)
    simp only [List.mem_append, decide_eq_decide]
    tauto

private theorem storedNumbers_eq {upload : UploadSession} {db db' : Database} {store store' : σ}
    {stored : List Nat}
    (read : (storedNumbers app upload).run db store = (.ok (stored, db'), store')) :
    stored = listedNumbers app upload store := by
  unfold storedNumbers at read
  unfold listedNumbers
  cases named : upload.storageId? with
  | none =>
    simp only [named, Program.pure_eq_ok] at read
    cases read.1
    rfl
  | some storageUploadId =>
    simp only [named] at read ⊢
    by_cases lists : app.storage.capabilities.listParts = true
    · simp only [lists, if_true, Program.run_tryStore_bind] at read ⊢
      cases listed : app.storage.listParts upload.bucket upload.objectKey storageUploadId store with
      | ok parts =>
        simp only [listed, Program.pure_eq_ok] at read
        cases read.1
        rfl
      | error failure =>
        simp only [listed] at read
        by_cases known : failure.isApiError = true
        · simp only [known, if_true, Program.pure_eq_ok] at read
          cases read.1
          rfl
        · simp only [known] at read
          cases read
    · rw [if_neg lists, Program.pure_eq_ok] at read
      rw [if_neg lists]
      cases read.1
      rfl

/-! Only the check of the rows reports missing parts. -/

def NotMissing (failure : Failure) : Prop := ∀ missing, failure ≠ .api (.missingParts missing)

private theorem storedParts_raises (backend : Backend app.storage) (upload : UploadSession)
    (committed : List UploadPart) : (storedParts app upload committed).Raises NotMissing := by
  unfold storedParts
  split
  · split
    · refine .bind (.askStore fun store failure failed missing same => ?_) fun listed => ?_
      · rw [same] at failed
        exact backend.listParts_raises failed
      · dsimp only
        split
        · exact .fail fun missing same => by cases same
        · exact .pure _
    · exact .pure _
  · exact .pure _

private theorem assemble_raises (backend : Backend app.storage) (identity : Identity)
    (upload : UploadSession) (parts : List UploadedPart) (now : Timestamp) :
    (assemble app identity upload parts now).Raises NotMissing := by
  refine .bind (.modify _ _ _) fun _ => .bind (.onStore fun store failure failed missing same => ?_)
    fun stored => .bind (.ask _) fun id => .bind (.write fun db failure refused missing same => ?_)
      fun _ => .bind (.modify _ _ _) fun _ => .pure _
  · rw [same] at failed
    exact backend.complete_raises failed
  · rw [same] at refused
    split at refused
    · cases refused
    split at refused <;> cases refused

private theorem transitionUpload_raises {current target : UploadStatus} {failure : Failure}
    (refused : transitionUpload current target = .error failure) : NotMissing failure := by
  unfold transitionUpload at refused
  split at refused
  · cases refused
  · cases refused
    exact fun missing same => by cases same

private theorem partsToComplete_raises (backend : Backend app.storage) {upload : UploadSession}
    {db : Database} (enough : upload.totalParts ≤ (committedOf (db.partsOf upload.id)).length)
    {store store' : σ} {failure : Failure}
    (failed : (partsToComplete app upload).run db store = (.error failure, store')) :
    NotMissing failure := by
  unfold partsToComplete at failed
  simp only [PartRepository.listPartsForUpload, Program.run_ask_bind] at failed
  rw [Program.run_bind_ok (Program.refuseIf_false (Nat.not_lt.mpr enough) _ _)] at failed
  have raises : (storedParts app upload (committedOf (db.partsOf upload.id)) >>= fun parts => do
      if upload.status ≠ .uploading ∧ upload.status ≠ .initiated then
        let _ ← Program.liftExcept (transitionUpload upload.status .completing)
      return parts : Handler σ (List UploadedPart)).Raises NotMissing := by
    refine .bind (storedParts_raises backend _ _) fun parts => ?_
    dsimp only
    split
    · exact .bind (.liftExcept fun _ refused => transitionUpload_raises refused) fun _ => .pure _
    · exact .pure _
  exact raises _ _ _ _ failed

private theorem partsToComplete_missing {upload : UploadSession} {db : Database}
    (few : (committedOf (db.partsOf upload.id)).length < upload.totalParts) (store : σ) :
    (partsToComplete app upload).run db store =
      (.error (.api (.missingParts (missingNumbers upload.totalParts (committedNumbers db upload)))),
        store) := by
  unfold partsToComplete
  simp only [PartRepository.listPartsForUpload, Program.run_ask_bind]
  rw [Program.run_bind_error]
  rw [Program.run_refuseIf, if_pos few]
  rfl

/-- On an unfinished session `complete` goes straight to the parts. -/
theorem complete_unfinished (app : AppState σ) {identity : Identity} {uploadId : Uuid}
    (now : Timestamp) {db : Database} {upload : UploadSession}
    (found : db.findUpload uploadId identity.tenantId = some upload)
    (unfinished : upload.status.terminal = false) (store : σ) :
    (complete app identity uploadId now).run db store =
      (partsToComplete app upload >>= fun parts => assemble app identity upload parts now).run
        db store := by
  have session : (completedFile identity upload : Handler σ (Option FileObject)) = pure none := by
    unfold completedFile
    rw [if_neg]
    rintro same
    simp [same, UploadStatus.terminal] at unfinished
  have live : ¬ upload.status = .aborted ∧ ¬ upload.status = .expired := by
    constructor <;> rintro same <;> simp [same, UploadStatus.terminal] at unfinished
  unfold complete UploadRepository.getUpload
  rw [Program.run_bind]
  simp only [Program.run, found, session]
  rw [Program.run_bind_ok (Program.run_pure _ _ _)]
  dsimp only
  rw [Program.run_bind_ok (Program.refuseIf_false live.1 _ _),
    Program.run_bind_ok (Program.refuseIf_false live.2 _ _)]

/-- `complete` on an unfinished session raises the numbers that are missing, if any, and else
nothing of the kind. -/
theorem complete_missing_cases (backend : Backend app.storage) {world : World Database σ}
    (sound : Integrity app world.db) {identity : Identity} {uploadId : Uuid}
    {upload : UploadSession} (found : world.db.findUpload uploadId identity.tenantId = some upload)
    (unfinished : upload.status.terminal = false) (now : Timestamp) :
    (missingNumbers upload.totalParts (committedNumbers world.db upload) ≠ [] ∧
      (serve app world (.complete identity uploadId, now)).1 = .error (.api (.missingParts
        (missingNumbers upload.totalParts (committedNumbers world.db upload))))) ∨
    (missingNumbers upload.totalParts (committedNumbers world.db upload) = [] ∧
      ∀ missing, (serve app world (.complete identity uploadId, now)).1 ≠
        .error (.api (.missingParts missing))) := by
  obtain ⟨nodup, inRange⟩ :=
    committedNumbers_sound sound (Database.findUpload_some found).1
  have lengths : (committedNumbers world.db upload).length =
      (committedOf (world.db.partsOf upload.id)).length := List.length_map _
  have reached := complete_unfinished app now found unfinished world.store
  unfold serve World.execute handle
  simp only
  rw [Program.run_bind, reached, Program.run_bind]
  by_cases enough : upload.totalParts ≤ (committedOf (world.db.partsOf upload.id)).length
  · refine .inr ⟨(missingNumbers_nil_iff nodup inRange).mpr (lengths ▸ enough), ?_⟩
    rcases prepared : (partsToComplete app upload).run world.db world.store with
      ⟨failure | ⟨parts, db'⟩, store'⟩
    · intro missing same
      exact partsToComplete_raises backend enough prepared missing (Except.error.inj same)
    · dsimp only
      rcases assembled : (assemble app identity upload parts now).run db' store' with
        ⟨failure | ⟨file, db''⟩, store''⟩
      · intro missing same
        exact assemble_raises backend identity upload parts now _ _ _ _ assembled missing
          (Except.error.inj same)
      · exact fun _ same => by cases same
  · refine .inl ⟨fun none => enough ?_, ?_⟩
    · exact lengths ▸ (missingNumbers_nil_iff nodup inRange).mp none
    · rw [partsToComplete_missing (Nat.not_le.mp enough)]

/-- `complete` on an unfinished session reports the rows that are missing, if any. -/
theorem complete_missing (backend : Backend app.storage) {world : World Database σ}
    (sound : Integrity app world.db) {identity : Identity} {uploadId : Uuid}
    {upload : UploadSession} (found : world.db.findUpload uploadId identity.tenantId = some upload)
    (unfinished : upload.status.terminal = false) (now : Timestamp) :
    missingReported (serve app world (.complete identity uploadId, now)).1 =
      missingNumbers upload.totalParts (committedNumbers world.db upload) := by
  rcases complete_missing_cases backend sound found unfinished now with ⟨_, raised⟩ | ⟨none, other⟩
  · rw [raised]
    rfl
  · rw [none]
    unfold missingReported
    split
    · rename_i missing same
      exact absurd same (other missing)
    · rfl

/-- In every reachable state of an unfinished session, the list `resume` returns is the list
`complete` reports exactly when the storage lists no part that has no committed row. -/
theorem resume_agrees_iff_listed_committed (app : AppState σ) (backend : Backend app.storage)
    (world : World Database σ) (initial : world.db.Initial) (requests : List Timed)
    (identity : Identity) (uploadId : Uuid) (upload : UploadSession)
    (found : (after app world requests).db.findUpload uploadId identity.tenantId = some upload)
    (unfinished : upload.status.terminal = false) (now later : Timestamp)
    (session : UploadSession) (missing : List Nat)
    (resumed : (serve app (after app world requests) (.resume identity uploadId, now)).1 =
      .ok (.missing session missing)) :
    missing = missingReported
        (serve app (after app world requests) (.complete identity uploadId, later)).1 ↔
      ∀ number, 1 ≤ number → number ≤ upload.totalParts →
        number ∈ listedNumbers app upload (after app world requests).store →
          number ∈ committedNumbers (after app world requests).db upload := by
  have sound := after_integrity app initial requests
  rw [complete_missing backend sound found unfinished later]
  have stored : missing = missingNumbers upload.totalParts
      (committedNumbers (after app world requests).db upload ++
        listedNumbers app upload (after app world requests).store) := by
    have done := Program.bind_pure_eq_ok.mp (World.execute_committed resumed)
    obtain ⟨⟨resumedUpload, numbers⟩, run, same⟩ := done
    cases same
    obtain ⟨listed, present, read, rfl, _, _⟩ := resume_ok run
    rw [found] at present
    cases present
    rw [storedNumbers_eq read]
    rfl
  rw [stored]
  exact missingNumbers_eq_iff

def startedRun : List Timed :=
  [(.createSession smallTenant smallSession, 0),
    (.proxyUploadPart smallTenant 0 1 [1, 2] none, 0)]

theorem startedRun_agrees :
    [2] = missingReported (serve smallLocalApp (after smallLocalApp ⟨{}, {}⟩ startedRun)
        (.complete smallTenant 0, 0)).1 ↔
      ∀ number, 1 ≤ number →
        number ≤ (((after smallLocalApp ⟨{}, {}⟩ startedRun).db.findUpload 0 "tenant").get
          (by decide)).totalParts →
        number ∈ listedNumbers smallLocalApp
          (((after smallLocalApp ⟨{}, {}⟩ startedRun).db.findUpload 0 "tenant").get (by decide))
          (after smallLocalApp ⟨{}, {}⟩ startedRun).store →
        number ∈ committedNumbers (after smallLocalApp ⟨{}, {}⟩ startedRun).db
          (((after smallLocalApp ⟨{}, {}⟩ startedRun).db.findUpload 0 "tenant").get (by decide)) :=
  resume_agrees_iff_listed_committed smallLocalApp (localBackend _) ⟨{}, {}⟩ (by decide)
    startedRun smallTenant 0 _ (Option.some_get (by decide)).symm (by decide) 0 0
    (((after smallLocalApp ⟨{}, {}⟩ startedRun).db.findUpload 0 "tenant").get (by decide)) [2]
    (by decide)

/-- The second part reaches the storage, and its transaction is lost. -/
def lostRun : List Timed :=
  [(.createSession smallTenant smallSession, 0),
    (.proxyUploadPart smallTenant 0 1 [1, 2] none, 0),
    (.lostPart smallTenant 0 2 [3, 4] none, 0)]

/-- Nothing is missing for `resume`, and `complete` asks for the second part for ever. -/
theorem lost_part_never_completes :
    let world := after smallLocalApp ⟨{}, {}⟩ lostRun
    (match (serve smallLocalApp world (.resume smallTenant 0, 0)).1 with
      | .ok (.missing _ missing) => some missing
      | _ => none) = some [] ∧
    (serve smallLocalApp world (.complete smallTenant 0, 0)).1 =
      .error (.api (.missingParts [2])) := by
  decide

end PyUploadX
