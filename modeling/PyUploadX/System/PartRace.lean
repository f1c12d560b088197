import PyUploadX.Kit.Runs
import PyUploadX.Services.StepwisePart
import PyUploadX.System.SessionRace

/-! Proxied uploads of one part side by side: the file of the part is emptied and written
chunk by chunk while other requests do the same, and the rows follow in an order of their own. -/
namespace PyUploadX

open Kit UploadService LocalStorageAdapter

/-- The row of the part is there, and it has the digest and the length of the content. -/
def Database.RecordedAs (db : Database) (sha256 : Bytes → String) (uploadId : Uuid)
    (partNumber : Nat) (content : Bytes) : Prop :=
  (∃ row ∈ db.uploadParts, row.uploadId = uploadId ∧ row.partNumber = partNumber) ∧
    ∀ row ∈ db.uploadParts, row.uploadId = uploadId → row.partNumber = partNumber →
      row.etag = some (sha256 content) ∧ row.sizeBytes = content.length ∧
        row.checksumSha256 = some (sha256 content)

/-- The session has its part files under this key. -/
def Database.StoresUnder (db : Database) (uploadId : Uuid) (key : StorageUploadId) : Prop :=
  ∀ upload ∈ db.uploadSessions, upload.id = uploadId → upload.storageKey = key

theorem Database.StoresUnder.updateUpload {db : Database} {uploadId : Uuid} {key : StorageUploadId}
    (stores : db.StoresUnder uploadId key) (other : Uuid) {change : UploadSession → UploadSession}
    (kept : ∀ row, (change row).id = row.id ∧ (change row).storageKey = row.storageKey) :
    (db.updateUpload other change).StoresUnder uploadId key := by
  intro upload member named
  obtain ⟨row, present, rfl⟩ := List.mem_map.mp member
  by_cases changed : row.id = other
  · rw [if_pos changed] at named ⊢
    rw [(kept row).2]
    exact stores row present ((kept row).1.symm.trans named)
  · rw [if_neg changed] at named ⊢
    exact stores row present named

theorem Database.StoresUnder.upsertPart {db : Database} {uploadId : Uuid} {key : StorageUploadId}
    (stores : db.StoresUnder uploadId key) (part : UploadPart) :
    (db.upsertPart part).StoresUnder uploadId key := by
  unfold Database.StoresUnder
  rw [Database.upsertPart_uploadSessions]
  exact stores

theorem Database.RecordedAs.upsertPart (db : Database) {sha256 : Bytes → String} {content : Bytes}
    {part : UploadPart} (etag : part.etag = some (sha256 content))
    (size : part.sizeBytes = content.length)
    (checksum : part.checksumSha256 = some (sha256 content)) :
    (db.upsertPart part).RecordedAs sha256 part.uploadId part.partNumber content := by
  unfold Database.upsertPart
  dsimp only
  split
  · rename_i conflict
    obtain ⟨row, present, same⟩ := List.any_eq_true.mp conflict
    rw [decide_eq_true_eq] at same
    constructor
    · refine ⟨_, List.mem_map.mpr ⟨row, present, rfl⟩, ?_⟩
      rw [if_pos same]
      exact same
    · intro other member upload number
      obtain ⟨before, _, rfl⟩ := List.mem_map.mp member
      by_cases own : before.uploadId = part.uploadId ∧ before.partNumber = part.partNumber
      · rw [if_pos own]
        exact ⟨etag, size, checksum⟩
      · rw [if_neg own] at upload number
        exact absurd ⟨upload, number⟩ own
  · rename_i vacant
    constructor
    · exact ⟨part, List.mem_append_right _ (List.mem_singleton_self part), rfl, rfl⟩
    · intro other member upload number
      rcases List.mem_append.mp member with old | new
      · refine absurd (List.any_eq_true.mpr ⟨other, old, ?_⟩) vacant
        exact decide_eq_true ⟨upload, number⟩
      · rw [List.mem_singleton.mp new]
        exact ⟨etag, size, checksum⟩

section Race

variable (app : AppState LocalState) (uploadId : Uuid) (partNumber : Int)

/-- The requests for one part, side by side. -/
def racingParts (world : World Database LocalState) (requests : Nat → PartRequest) :
    Machine Row Operation Database LocalState Failure UploadPart :=
  .start world.db world.store fun i => (requests i).program app uploadId partNumber

/-- A request opens the file of the part only while every other one that has opened it, and
has not ended, carries the same bytes, and none breaks off once it has opened it. -/
def OpensAlike (requests : Nat → PartRequest)
    (machine : Machine Row Operation Database LocalState Failure UploadPart) : Move → Prop
  | .advance i => machine.Calls i .openPart → ∀ j, (machine.threads j).Past .openPart →
    (requests j).body = (requests i).body
  | .abandon i => ¬ (machine.threads i).Past .openPart

variable (key : StorageUploadId) (request : PartRequest)

/-- The rest of a request that has yet to open the file, -/
def storing (number : Nat) (upload : UploadSession) : Handler LocalState UploadPart :=
  uploadPartStepwise app.sha256 upload.storageKey number request.body request.body.length >>=
    recordPart upload number request.checksumSha256 request.now

/-- and of one that is about to write some chunks. -/
def copying (number : Nat) (upload : UploadSession) (chunks : List Bytes) (copied : Copied) :
    Handler LocalState UploadPart :=
  (copyPart upload.storageKey number chunks copied >>=
      finishPart app.sha256 upload.storageKey number request.body.length) >>=
    recordPart upload number request.checksumSha256 request.now

/-- A request that has read the row of its session. -/
def checking (found : Option UploadSession) : Handler LocalState UploadPart :=
  match found with
  | none => .fail (.api (.uploadNotFound uploadId))
  | some upload => do
    Program.liftExcept (ensureActive upload)
    let number ← Program.liftExcept (checkPartNumber upload partNumber)
    Program.liftExcept (checkPartSize app.settings.uploads.multipart.minimumPartSizeBytes upload
      number request.body.length)
    if upload.status = .initiated then UploadRepository.updateStatus upload.id .uploading
    storing app request number upload

/-- The writes so far leave the part files where they are, -/
def KeepsKey (pending : Database → Database) : Prop :=
  ∀ db : Database, db.StoresUnder uploadId key → (pending db).StoresUnder uploadId key

/-- and have recorded the body. -/
def Records (pending : Database → Database) : Prop :=
  ∀ db : Database, db.StoresUnder uploadId key → (pending db).StoresUnder uploadId key ∧
    (pending db).RecordedAs app.sha256 uploadId partNumber.toNat request.body

/-- How far a request is, as a writer of the file of the part. -/
inductive Stage : Thread Row Operation Database LocalState Failure UploadPart → WriterPhase → Prop
  | begins : Stage (.running id (request.program app uploadId partNumber)) .waiting
  | marks (upload : UploadSession) (own : upload.id = uploadId) (keyed : upload.storageKey = key) :
      Stage (.running id (UploadRepository.updateStatus upload.id .uploading >>= fun _ =>
        storing app request partNumber.toNat upload)) .waiting
  | opens (upload : UploadSession) (own : upload.id = uploadId) (keyed : upload.storageKey = key)
      (pending : Database → Database) (keeps : KeepsKey uploadId key pending) :
      Stage (.running pending (storing app request partNumber.toNat upload)) .waiting
  | copies (upload : UploadSession) (own : upload.id = uploadId) (keyed : upload.storageKey = key)
      (pending : Database → Database) (keeps : KeepsKey uploadId key pending)
      (chunks : List Bytes) (copied : Copied) (counted : copied.written = copied.digested.length)
      (left : copied.digested ++ chunks.flatten = request.body) :
      Stage (.running pending (copying app request partNumber.toNat upload chunks copied))
        (.writing copied.written)
  | touches (pending : Database → Database)
      (records : Records app uploadId partNumber key request pending) (now : Timestamp)
      (part : UploadPart) :
      Stage (.running pending (UploadRepository.touchActivity uploadId now >>= fun _ => pure part))
        (.writing request.body.length)
  | commits (pending : Database → Database)
      (records : Records app uploadId partNumber key request pending) (part : UploadPart) :
      Stage (.running pending (.done part)) (.writing request.body.length)
  | returned (part : UploadPart) : Stage (.returned part) .finished
  | refused (pending : Database → Database) (failure : Failure) :
      Stage (.running pending (.fail failure)) .gone
  | failed : Stage .failed .gone

/-- The machine runs as the writers of the file do. -/
structure Follows (requests : Nat → PartRequest)
    (machine : Machine Row Operation Database LocalState Failure UploadPart)
    (file : SharedFile UInt8) : Prop where
  keyed : machine.db.StoresUnder uploadId key
  stages : ∀ i, Stage app uploadId partNumber key (requests i) (machine.threads i) (file.phase i)
  content : ∀ last, file.last = some last →
    partFile? machine.store key partNumber.toNat = some file.content
  recorded : ∀ content, file.register = some content →
    machine.db.RecordedAs app.sha256 uploadId partNumber.toNat content

end Race

section Steps

variable {app : AppState LocalState} {uploadId : Uuid} {partNumber : Int} {key : StorageUploadId}
  {request : PartRequest}

private theorem finishPart_bind (upload : UploadSession) (copied : Copied)
    (whole : copied.written = request.body.length) :
    (finishPart app.sha256 upload.storageKey partNumber.toNat request.body.length copied >>=
      recordPart upload partNumber.toNat request.checksumSha256 request.now) =
    recordPart upload partNumber.toNat request.checksumSha256 request.now
      { partNumber := partNumber.toNat
        etag := app.sha256 copied.digested
        sizeBytes := copied.written
        checksumSha256 := some (app.sha256 copied.digested) } := by
  unfold finishPart
  rw [if_neg (not_not.mpr whole)]
  rfl

/-- With the last chunk written, the request goes on to its row. -/
theorem copying_nil {upload : UploadSession} {copied : Copied}
    (counted : copied.written = copied.digested.length) (whole : copied.digested = request.body) :
    copying app request partNumber.toNat upload [] copied =
      recordPart upload partNumber.toNat request.checksumSha256 request.now
        { partNumber := partNumber.toNat
          etag := app.sha256 request.body
          sizeBytes := request.body.length
          checksumSha256 := some (app.sha256 request.body) } := by
  have length : copied.written = request.body.length := by rw [counted, whole]
  have record := @finishPart_bind app partNumber request upload copied length
  rw [length, whole] at record
  exact record

private theorem copying_ahead {upload : UploadSession} {chunks : List Bytes} {copied : Copied}
    (counted : copied.written = copied.digested.length)
    (left : copied.digested ++ chunks.flatten = request.body) :
    (∀ failure, copying app request partNumber.toNat upload chunks copied ≠ .fail failure) ∧
      ¬ (copying app request partNumber.toNat upload chunks copied).Makes .openPart := by
  induction chunks generalizing copied with
  | nil =>
    rw [List.flatten_nil, List.append_nil] at left
    rw [copying_nil counted left]
    constructor
    · rintro failure same
      cases same
    · exact id
  | cons chunk rest ih =>
    have next := @ih (copied.write chunk) (by simp [Copied.write, counted])
      (by simpa [Copied.write] using left)
    constructor
    · rintro failure same
      cases same
    · rintro (other | ⟨_, later⟩)
      · cases other
      · exact next.2 later

private theorem program_eq : request.program app uploadId partNumber =
    .select none (fun db => .ok (db.findUpload uploadId request.identity.tenantId))
      (checking app uploadId partNumber request) := by
  unfold PartRequest.program proxyUploadPartWith getSession UploadRepository.getUpload
  refine congrArg (Program.select none _) (funext fun found => ?_)
  cases found with
  | none => rfl
  | some upload =>
    rfl

/-- A writer has opened the file and not ended. -/
theorem Stage.past {thread : Thread Row Operation Database LocalState Failure UploadPart}
    {position : Nat} (stage : Stage app uploadId partNumber key request thread (.writing position)) :
    thread.Past .openPart := by
  cases stage with
  | copies upload own keyed pending keeps chunks copied counted left =>
    obtain ⟨goes, makes⟩ := copying_ahead counted left
    exact ⟨pending, _, rfl, goes, makes⟩
  | touches pending records now part =>
    refine ⟨pending, _, rfl, ?_, ?_⟩
    · rintro failure same
      cases same
    · exact id
  | commits pending records part =>
    refine ⟨pending, _, rfl, ?_, ?_⟩
    · rintro failure same
      cases same
    · exact id

/-- A check lets a program go on or makes it fail. -/
theorem liftExcept_bind {α : Type} {holds : Handler LocalState UploadPart → Prop}
    {result : Except Failure α} {next : α → Handler LocalState UploadPart}
    (refused : ∀ failure, holds (.fail failure))
    (goes : ∀ value, result = .ok value → holds (next value)) :
    holds (Program.liftExcept result >>= next) := by
  cases result with
  | ok value => exact goes value rfl
  | error failure => exact refused failure

/-- Past its checks a request has yet to open the file; or a check stops it. -/
theorem checking_stage {db : Database} (stores : db.StoresUnder uploadId key) :
    let rest := checking app uploadId partNumber request
      (db.findUpload uploadId request.identity.tenantId)
    Stage app uploadId partNumber key request (.running id rest) .waiting ∨
      Stage app uploadId partNumber key request (.running id rest) .gone := by
  dsimp only
  cases found : db.findUpload uploadId request.identity.tenantId with
  | none => exact .inr (.refused _ _)
  | some upload =>
    have same := List.find?_some found
    rw [decide_eq_true_eq] at same
    have keyed := stores upload (List.mem_of_find?_eq_some found) same.1
    let Reached (rest : Handler LocalState UploadPart) : Prop :=
      Stage app uploadId partNumber key request (.running id rest) .waiting ∨
        Stage app uploadId partNumber key request (.running id rest) .gone
    refine @liftExcept_bind _ Reached _ _ (fun _ => .inr (.refused _ _)) fun _ _ => ?_
    refine @liftExcept_bind _ Reached _ _ (fun _ => .inr (.refused _ _)) fun number inRange => ?_
    refine @liftExcept_bind _ Reached _ _ (fun _ => .inr (.refused _ _)) fun _ _ => .inl ?_
    have named : number = partNumber.toNat := by
      obtain ⟨_, _, same⟩ := checkPartNumber_ok inRange
      omega
    subst named
    by_cases fresh : upload.status = .initiated
    · have marks : Stage app uploadId partNumber key request _ _ := .marks upload same.1 keyed
      simpa only [fresh, if_true] using marks
    · have opens : Stage app uploadId partNumber key request _ _ :=
        .opens upload same.1 keyed id fun _ stores => stores
      simpa only [fresh, if_false] using opens

end Steps

section Simulation

variable {app : AppState LocalState} {uploadId : Uuid} {partNumber : Int} {key : StorageUploadId}
  {requests : Nat → PartRequest}
  {machine after : Machine Row Operation Database LocalState Failure UploadPart}
  {file file' : SharedFile UInt8}

/-- A move of one request, seen from the others. -/
theorem Follows.next (follows : Follows app uploadId partNumber key requests machine file) (i : Nat)
    (threads : ∀ j, j ≠ i → after.threads j = machine.threads j)
    (phases : ∀ j, j ≠ i → file'.phase j = file.phase j)
    (stage : Stage app uploadId partNumber key (requests i) (after.threads i) (file'.phase i))
    (keyed : after.db.StoresUnder uploadId key)
    (content : ∀ last, file'.last = some last →
      partFile? after.store key partNumber.toNat = some file'.content)
    (recorded : ∀ content, file'.register = some content →
      after.db.RecordedAs app.sha256 uploadId partNumber.toNat content) :
    Follows app uploadId partNumber key requests after file' := by
  refine ⟨keyed, fun j => ?_, content, recorded⟩
  by_cases moved : j = i
  · rw [moved]
    exact stage
  · rw [threads j moved, phases j moved]
    exact follows.stages j

/-- A move of one request that touches neither the store nor the committed rows. -/
theorem Follows.local (follows : Follows app uploadId partNumber key requests machine file)
    (i : Nat) (threads : ∀ j, j ≠ i → after.threads j = machine.threads j)
    (world : after.world = machine.world)
    (stage : Stage app uploadId partNumber key (requests i) (after.threads i) (file.phase i)) :
    Follows app uploadId partNumber key requests after file := by
  have db : after.db = machine.db := congrArg World.db world
  have store : after.store = machine.store := congrArg World.store world
  refine follows.next i threads (fun _ _ => rfl) stage (db ▸ follows.keyed) ?_ ?_
  · rw [store]
    exact follows.content
  · rw [db]
    exact follows.recorded

/-- A request that gives up. -/
theorem Follows.quits (follows : Follows app uploadId partNumber key requests machine file)
    (i : Nat) (threads : ∀ j, j ≠ i → after.threads j = machine.threads j)
    (world : after.world = machine.world)
    (stage : Stage app uploadId partNumber key (requests i) (after.threads i) .gone) :
    Follows app uploadId partNumber key requests after (file.setPhase i .gone) := by
  have db : after.db = machine.db := congrArg World.db world
  have store : after.store = machine.store := congrArg World.store world
  refine follows.next i threads (fun j other => SharedFile.setPhase_of_ne file other _) ?_
    (db ▸ follows.keyed) ?_ ?_
  · rw [SharedFile.setPhase_self]
    exact stage
  · rw [store]
    exact follows.content
  · rw [db]
    exact follows.recorded

theorem KeepsKey.status (upload : Uuid) (status : UploadStatus) {pending : Database → Database}
    (keeps : KeepsKey uploadId key pending) :
    KeepsKey uploadId key ((·.updateUpload upload (·.setStatus status)) ∘ pending) :=
  fun db stores => (keeps db stores).updateUpload upload fun _ => ⟨rfl, rfl⟩

theorem Records.start {request : PartRequest} {upload : UploadSession}
    {pending : Database → Database} (own : upload.id = uploadId)
    (keeps : KeepsKey uploadId key pending) (digest : app.sha256 request.body ≠ "") :
    Records app uploadId partNumber key request
      ((·.upsertPart (storedRow upload partNumber.toNat
        { partNumber := partNumber.toNat
          etag := app.sha256 request.body
          sizeBytes := request.body.length
          checksumSha256 := some (app.sha256 request.body) } request.checksumSha256)) ∘
        pending) := by
  subst own
  refine fun db stores => ⟨(keeps db stores).upsertPart _, ?_⟩
  exact Database.RecordedAs.upsertPart (pending db) rfl rfl (if_neg digest)

theorem Records.touch {request : PartRequest} {pending : Database → Database} (now : Timestamp)
    (records : Records app uploadId partNumber key request pending) :
    Records app uploadId partNumber key request
      ((·.updateUpload uploadId (·.touch now)) ∘ pending) :=
  fun db stores => ⟨(records db stores).1.updateUpload uploadId fun _ => ⟨rfl, rfl⟩,
    (records db stores).2⟩

/-- Each move of a request is a step of its writer, or none. -/
theorem Follows.advance (coherent : file.Coherent fun j => (requests j).body)
    (follows : Follows app uploadId partNumber key requests machine file) (i : Nat)
    (alike : OpensAlike requests machine (.advance i)) (digests : ∀ content, app.sha256 content ≠ "") :
    ∃ file', (file' = file ∨ file.Step 0 (fun j => (requests j).body) file') ∧
      Follows app uploadId partNumber key requests (machine.advance i) file' := by
  have stage := follows.stages i
  generalize running : machine.threads i = thread at stage
  generalize reached : file.phase i = phase at stage
  have others : ∀ {lock : Option Row} {thread}, ∀ j, j ≠ i →
      ((machine.acquire i lock).setThread i thread).threads j = machine.threads j :=
    fun j other => Machine.setThread_of_ne other
  cases stage with
  | begins =>
    rw [program_eq] at running
    rw [Machine.advance_ask running]
    rcases checking_stage follows.keyed with goes | stops
    · exact ⟨file, .inl rfl, follows.local i others rfl (by
        rw [Machine.setThread_self, reached]; exact goes)⟩
    · refine ⟨_, .inr (.quits i reached), follows.quits i others rfl ?_⟩
      rw [Machine.setThread_self]
      exact stops
  | marks upload own keyed =>
    have write : machine.threads i = .running id (.write .updateStatus (some (.upload upload.id))
      (fun _ => .ok (·.updateUpload upload.id (·.setStatus .uploading)))
        (storing app (requests i) partNumber.toNat upload)) := running
    rcases Machine.advance_modify write with waits | written
    · rw [waits]
      exact ⟨file, .inl rfl, follows⟩
    · rw [written]
      refine ⟨file, .inl rfl, follows.local i others rfl ?_⟩
      rw [Machine.setThread_self, reached]
      have keeps : KeepsKey uploadId key id := fun _ stores => stores
      exact .opens upload own keyed _ (keeps.status upload.id .uploading)
  | opens upload own keyed pending keeps =>
    have open_ : machine.threads i = .running pending (.call .openPart
      (fun store => ((), setPartFile upload.storageKey partNumber.toNat [] store)) fun _ =>
        copying app (requests i) partNumber.toNat upload (chunksOf (requests i).body) {}) := running
    have same := alike ⟨_, _, _, _, open_⟩
    rw [Machine.advance_call open_]
    refine ⟨_, .inr (.opens i reached fun j position writing => ?_), follows.next i
      (fun j other => Machine.setThread_of_ne other)
      (fun j other => SharedFile.setPhase_of_ne _ other _) ?_ follows.keyed ?_ follows.recorded⟩
    · have writer := follows.stages j
      rw [writing] at writer
      exact same j writer.past
    · rw [Machine.setThread_self, SharedFile.setPhase_self]
      exact .copies upload own keyed pending keeps _ {} rfl (chunksOf_flatten _)
    · intro last opened
      rw [← keyed]
      exact partFile?_setPartFile ..
  | copies upload own keyed pending keeps chunks copied counted left =>
    cases chunks with
    | nil =>
      rw [List.flatten_nil, List.append_nil] at left
      rw [copying_nil counted left] at running
      have write : machine.threads i = .running pending (.write .upsertPart none
        (fun _ => .ok (·.upsertPart (storedRow upload partNumber.toNat _
          (requests i).checksumSha256))) (UploadRepository.touchActivity upload.id (requests i).now
            >>= fun _ => pure _)) := running
      have length : copied.written = (requests i).body.length := by rw [counted, left]
      rcases Machine.advance_modify write with waits | written
      · rw [waits]
        exact ⟨file, .inl rfl, follows⟩
      · rw [written]
        refine ⟨file, .inl rfl, follows.local i others rfl ?_⟩
        rw [Machine.setThread_self, reached, length, own]
        exact .touches _ (Records.start own keeps (digests _)) _ _
    | cons chunk rest =>
      have write : machine.threads i = .running pending (.call .writePart
        (fun store => ((), writePart upload.storageKey partNumber.toNat copied.written chunk store))
          fun _ => copying app (requests i) partNumber.toNat upload rest (copied.write chunk)) :=
        running
      have next : chunk <+: (requests i).body.drop copied.written := by
        rw [← left, counted, List.drop_left, List.flatten_cons]
        exact List.prefix_append chunk _
      obtain ⟨last, opened⟩ := coherent.last_of_writing reached
      have content := follows.content last opened
      rw [Machine.advance_call write]
      refine ⟨_, .inr (.writes i copied.written chunk reached next), follows.next i
        (fun j other => Machine.setThread_of_ne other)
        (fun j other => SharedFile.setPhase_of_ne _ other _) ?_ follows.keyed ?_ follows.recorded⟩
      · rw [Machine.setThread_self, SharedFile.setPhase_self]
        refine .copies upload own keyed pending keeps rest (copied.write chunk) ?_ ?_
        · simp [Copied.write, counted]
        · simpa [Copied.write] using left
      · intro _ _
        subst keyed
        refine (partFile?_setPartFile ..).trans ?_
        rw [content]
        rfl
  | touches pending records now part =>
    have write : machine.threads i = .running pending (.write .touchActivity
      (some (.upload uploadId)) (fun _ => .ok (·.updateUpload uploadId (·.touch now)))
        (.done part)) := running
    rcases Machine.advance_modify write with waits | written
    · rw [waits]
      exact ⟨file, .inl rfl, follows⟩
    · rw [written]
      refine ⟨file, .inl rfl, follows.local i others rfl ?_⟩
      rw [Machine.setThread_self, reached]
      exact .commits _ (records.touch now) part
  | commits pending records part =>
    obtain ⟨keyed, recorded⟩ := records machine.db follows.keyed
    rw [Machine.advance_done running]
    refine ⟨_, .inr (.finishes i reached), follows.next i
      (fun j other => Machine.setThread_of_ne other)
      (fun j other => SharedFile.setPhase_of_ne _ other _) ?_ keyed follows.content ?_⟩
    · rw [Machine.setThread_self, SharedFile.setPhase_self]
      exact .returned part
    · rintro content same
      cases same
      exact recorded
  | returned part =>
    rw [Machine.advance_returned running]
    exact ⟨file, .inl rfl, follows⟩
  | refused pending failure =>
    rw [Machine.advance_fail running]
    refine ⟨file, .inl rfl, follows.local i (fun j other => Machine.setThread_of_ne other) rfl ?_⟩
    rw [Machine.setThread_self, reached]
    exact .failed
  | failed =>
    rw [Machine.advance_failed running]
    exact ⟨file, .inl rfl, follows⟩

theorem Follows.abandon (follows : Follows app uploadId partNumber key requests machine file)
    (i : Nat) (unopened : ¬ (machine.threads i).Past .openPart) :
    ∃ file', (file' = file ∨ file.Step 0 (fun j => (requests j).body) file') ∧
      Follows app uploadId partNumber key requests (machine.abandon i) file' := by
  unfold Machine.abandon
  split
  · rename_i pending rest running
    have stage := follows.stages i
    have others : ∀ j, j ≠ i → (machine.setThread i .failed).threads j = machine.threads j :=
      fun j other => Machine.setThread_of_ne other
    cases reached : file.phase i with
    | waiting =>
      refine ⟨_, .inr (.quits i reached), follows.quits i others rfl ?_⟩
      rw [Machine.setThread_self]
      exact .failed
    | writing position =>
      rw [reached] at stage
      exact absurd stage.past unopened
    | finished =>
      rw [running, reached] at stage
      cases stage
    | gone =>
      refine ⟨file, .inl rfl, follows.local i others rfl ?_⟩
      rw [Machine.setThread_self, reached]
      exact .failed
  · exact ⟨file, .inl rfl, follows⟩

/-- The machine runs as writers do that keep the file and the register together. -/
def WritesTogether (app : AppState LocalState) (uploadId : Uuid) (partNumber : Int)
    (key : StorageUploadId) (requests : Nat → PartRequest)
    (machine : Machine Row Operation Database LocalState Failure UploadPart) : Prop :=
  ∃ file : SharedFile UInt8, (file.Coherent fun i => (requests i).body) ∧
    Follows app uploadId partNumber key requests machine file

theorem WritesTogether.move (writes : WritesTogether app uploadId partNumber key requests machine) (move : Move)
    (alike : OpensAlike requests machine move) (digests : ∀ content, app.sha256 content ≠ "") :
    WritesTogether app uploadId partNumber key requests (machine.move move) := by
  obtain ⟨file, coherent, follows⟩ := writes
  have stepped : ∃ file', (file' = file ∨ file.Step 0 (fun j => (requests j).body) file') ∧
      Follows app uploadId partNumber key requests (machine.move move) file' := by
    cases move with
    | advance i => exact follows.advance coherent i alike digests
    | abandon i => exact follows.abandon i alike
  obtain ⟨file', rfl | step, follows'⟩ := stepped
  · exact ⟨file', coherent, follows'⟩
  · exact ⟨file', coherent.step step, follows'⟩

private theorem writes_start {world : World Database LocalState}
    (stores : world.db.StoresUnder uploadId key) :
    WritesTogether app uploadId partNumber key requests
      (racingParts app uploadId partNumber world requests) := by
  refine ⟨⟨[], none, fun _ => .waiting, none⟩, SharedFile.coherent_start, stores,
    fun _ => .begins, fun last opened => ?_, fun content recorded => ?_⟩
  · cases opened
  · cases recorded

/-- A request at its first statement has not opened the file. -/
theorem Stage.unstarted {request : PartRequest} {phase : WriterPhase}
    (stage : Stage app uploadId partNumber key request
      (.running id (request.program app uploadId partNumber)) phase) : phase = .waiting := by
  rw [program_eq] at stage
  generalize first : Thread.running id (Program.select none _ _) = thread at stage
  cases stage with
  | begins => rfl
  | marks upload own keyed => rfl
  | opens upload own keyed pending keeps => rfl
  | copies upload own keyed pending keeps chunks copied counted left =>
    cases chunks with
    | nil =>
      rw [List.flatten_nil, List.append_nil] at left
      rw [copying_nil counted left] at first
      cases first
    | cons chunk rest => cases first
  | touches pending records now part => cases first
  | commits pending records part => cases first
  | returned part => cases first
  | refused pending failure => cases first
  | failed => cases first

/-- Proxied uploads of one part, in any interleaving in which the file is opened by requests
with the same bytes only: when all that have begun are answered or refused, the row is that of
the file. -/
theorem racing_parts_recorded (settings : Settings) (nfc : String → String)
    (sha256 : Bytes → String) (digests : ∀ content, sha256 content ≠ "")
    (world : World Database LocalState) (distinct : world.db.sessionIds.Nodup)
    (upload : UploadSession) (member : upload ∈ world.db.uploadSessions) (partNumber : Int)
    (requests : Nat → PartRequest) (moves : List Move)
    (alike : EachStep Machine.move (OpensAlike requests)
      (racingParts (localApp settings nfc sha256) upload.id partNumber world requests) moves) :
    let start := racingParts (localApp settings nfc sha256) upload.id partNumber world requests
    let now := start.run moves
    (∀ i, now.threads i = start.threads i ∨ now.threads i = .failed ∨
        ∃ part, now.threads i = .returned part) →
      (∃ i part, now.threads i = .returned part) →
        ∃ content, partFile? now.store upload.storageKey partNumber.toNat = some content ∧
          now.db.RecordedAs sha256 upload.id partNumber.toNat content := by
  intro start now ended ⟨i, part, answered⟩
  have stores : world.db.StoresUnder upload.id upload.storageKey := by
    intro other present same
    rw [List.inj_on_of_nodup_map distinct present member same]
  obtain ⟨file, coherent, follows⟩ : WritesTogether (localApp settings nfc sha256) upload.id partNumber
      upload.storageKey requests now :=
    alike.preserves (writes_start stores) fun machine move writes alike =>
      writes.move move alike digests
  have settled : ∀ j position, file.phase j ≠ .writing position := by
    intro j position writing
    have stage := follows.stages j
    rw [writing] at stage
    rcases ended j with untouched | failed | ⟨part, answered⟩
    · rw [untouched] at stage
      cases stage.unstarted
    · rw [failed] at stage
      cases stage
    · rw [answered] at stage
      cases stage
  have finished : file.phase i = .finished := by
    have stage := follows.stages i
    rw [answered] at stage
    generalize file.phase i = phase at stage
    cases stage
    rfl
  have register := coherent.settled settled finished
  obtain ⟨last, opened⟩ := @SharedFile.Coherent.last _ _ _ coherent i (by simp [finished])
    (by simp [finished])
  exact ⟨file.content, follows.content last opened, follows.recorded _ register⟩

end Simulation

/-- `smallLocalApp` with a digest that is never the empty text. -/
def digestingApp : AppState LocalState :=
  localApp (smallSettings .local) id fun content => "sha256:" ++ toString content.length

def startedWorld : World Database LocalState :=
  after digestingApp ⟨{}, {}⟩ [(.createSession smallTenant smallSession, 0),
    (.proxyUploadPart smallTenant 0 2 [3, 4] none, 0)]

/-- The second request comes when the first has written its chunk, and is answered before the
first goes on. -/
def crossing : List Move :=
  List.replicate 3 (.advance 0) ++ List.replicate 6 (.advance 1) ++ List.replicate 3 (.advance 0)

private theorem crossing_others (requests : Nat → PartRequest) {i : Nat} (other : 2 ≤ i) :
    ((racingParts digestingApp 0 1 startedWorld requests).run crossing).threads i =
      (racingParts digestingApp 0 1 startedWorld requests).threads i := by
  apply Machine.run_threads_of_unmoved
  have early : ∀ move ∈ crossing, move.thread < 2 := by decide
  intro move member
  exact Nat.ne_of_lt (Nat.lt_of_lt_of_le (early move member) other)

private theorem crossing_answers {requests : Nat → PartRequest} {i : Nat}
    (answers : (((racingParts digestingApp 0 1 startedWorld requests).run crossing).reply?
      i).isSome = true) :
    ∃ part, ((racingParts digestingApp 0 1 startedWorld requests).run crossing).threads i =
      .returned part := by
  obtain ⟨part, answer⟩ := Option.isSome_iff_exists.mp answers
  exact ⟨part, Machine.reply?_eq_some.mp answer⟩

/-- The same request, sent twice. -/
theorem repeated_part_recorded :
    ∃ upload ∈ startedWorld.db.uploadSessions,
      let now := (racingParts digestingApp upload.id 1 startedWorld
        fun _ => ⟨smallTenant, [1, 2], none, 0⟩).run crossing
      ∃ content, partFile? now.store upload.storageKey 1 = some content ∧
        now.db.RecordedAs digestingApp.sha256 upload.id 1 content := by
  have session : ∃ upload ∈ startedWorld.db.uploadSessions, upload.id = 0 :=
    ⟨(startedWorld.db.findUpload 0 "tenant").get (by decide), by decide, by decide⟩
  obtain ⟨upload, member, own⟩ := session
  refine ⟨upload, member, racing_parts_recorded _ _ _ (fun content => by simp) startedWorld
    (by decide) upload member 1 (fun _ => ⟨smallTenant, [1, 2], none, 0⟩) crossing ?_ ?_ ?_⟩
  · refine .of_forall (fun machine move member => ?_) _
    cases move with
    | advance i => exact fun _ _ _ => rfl
    | abandon i =>
      have goesOn : ∀ i, Move.abandon i ∉ crossing := by simp [crossing]
      exact absurd member (goesOn i)
  · rw [own]
    intro i
    rcases Nat.lt_or_ge i 2 with early | late
    · have answers : ∀ i < 2, (((racingParts digestingApp 0 1 startedWorld
          fun _ => ⟨smallTenant, [1, 2], none, 0⟩).run crossing).reply? i).isSome = true := by
        decide
      exact .inr (.inr (crossing_answers (answers i early)))
    · exact .inl (crossing_others _ late)
  · rw [own]
    exact ⟨0, crossing_answers (by decide)⟩

/-- Two clients send different bytes: the row is the first one's, the file the second one's. -/
theorem crossed_parts_mismatch :
    let now := (racingParts digestingApp 0 1 startedWorld
      fun i => ⟨smallTenant, if i = 0 then [1] else [2, 2], none, 0⟩).run crossing
    (∀ i < 2, ∃ part, now.threads i = .returned part) ∧
      partFile? now.store (.session 0) 1 = some [2, 2] ∧
      ¬ ∃ content, partFile? now.store (.session 0) 1 = some content ∧
        now.db.RecordedAs digestingApp.sha256 0 1 content := by
  intro now
  have answers : ∀ i < 2, (now.reply? i).isSome = true := by decide
  have file : partFile? now.store (.session 0) 1 = some [2, 2] := by decide
  refine ⟨fun i early => crossing_answers (answers i early), file, ?_⟩
  rintro ⟨content, same, ⟨row, member, upload, number⟩, recorded⟩
  rw [file] at same
  cases same
  have sizes : ∀ row ∈ now.db.uploadParts, row.partNumber = 1 → row.sizeBytes = 1 := by decide
  have size := (recorded row member upload number).2.1
  rw [sizes row member number] at size
  exact absurd size (by decide)

end PyUploadX
