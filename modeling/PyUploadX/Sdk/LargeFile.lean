import PyUploadX.Db.Integrity
import PyUploadX.Kit.Runs
import PyUploadX.Sdk.Manifest
import PyUploadX.Sdk.Multipart
import PyUploadX.Services.Completion
import PyUploadX.Storage.Factory

/-! `upload_large_file`, request by request, and two calls of it in a row. -/
namespace PyUploadX

open Kit UploadService

variable {σ : Type}

namespace Sdk

/-- `RETRYABLE_STATUS_CODES`. -/
def retryableStatusCodes : List Nat := [408, 429, 500, 502, 503, 504]

/-- `_resolve_object_key`: an explicit key first, then the directory with the file's name. -/
def resolveObjectKey (nfc : String → String) (objectKey directory : Option String)
    (filename : String) : Except String String := do
  if objectKey.getD "" ≠ "" then .ok (objectKey.getD "")
  else if directory.getD "" ≠ "" then
    let folder ← normalizeRelativePath nfc (directory.getD "")
    return folder.text ++ "/" ++ filename
  else .ok filename

/-- What `upload_large_file` is called with; of the path it reads the file's name and bytes, and
`fast_fingerprint` of it. -/
structure LargeFile where
  filename : String
  content : Bytes
  fingerprint : String
  bucket : String
  objectKey : Option String := none
  directory : Option String := none
  partSize : Int := 8 * 1024 * 1024
  resume : Bool := true
  lifecycle : Option LifecycleRequest := none

namespace LargeFile

/-- The body of `create_upload`. -/
def session (file : LargeFile) (objectKey : String) : CreateSession where
  bucket := file.bucket
  objectKey := objectKey
  totalSize := file.content.length
  partSize := some file.partSize
  uploadMode := "automatic"
  fileFingerprint := if file.fingerprint = "" then none else some file.fingerprint
  lifecycle := file.lifecycle

/-- The form of `upload_file`. -/
def whole (file : LargeFile) (objectKey : String) : ProxyUpload where
  bucket := file.bucket
  objectKey := objectKey
  originalFilename := file.filename
  contentType := some "application/octet-stream"
  stream := file.content
  fileFingerprint := some file.fingerprint
  lifecycle := file.lifecycle

end LargeFile

/-- What `upload_large_file` reads of a saved state. -/
structure FileUploadState where
  fingerprint : String
  deriving DecidableEq

/-- The files of `StateStore`, by upload id. -/
structure StateStore where
  load : Uuid → Option FileUploadState := fun _ => none

def StateStore.delete (saved : StateStore) (uploadId : Uuid) : StateStore where
  load := fun other => if other = uploadId then none else saved.load other

/-- `missing_parts` in the answer to `POST /v1/uploads/{id}/resume`: no route serves this path,
and the answer of a missing route names no parts. -/
def resumedParts : List Nat := []

/-- The parts that are to be sent: all of them, unless a state with the file's fingerprint was
saved for this very session. -/
def LargeFile.missing (file : LargeFile) (saved : StateStore) (session : UploadSession) :
    List Nat :=
  let localState := saved.load session.id
  let localState :=
    if file.resume then localState.filter (·.fingerprint = file.fingerprint) else localState
  if file.resume ∧ localState.isSome then resumedParts else List.range' 1 session.totalParts

/-- Where a call stands. While it is sending, `pending` are the parts without an answer and
`broken` says that the answer of another one was an error. -/
inductive Phase
  | starting
  | whole
  | sending (session : UploadSession) (pending : List Nat) (broken : Bool)
  | finished (file : FileObject)
  | failed

/-- A call of `upload_large_file` and the service it talks to. -/
structure Client (σ : Type) where
  world : World Database σ
  saved : StateStore
  phase : Phase := .starting
  /-- The session that `create_upload` returned. -/
  session : Option UploadSession := none
  /-- The parts that were sent and taken. -/
  sent : List Nat := []

/-- `other` is a request of anyone else. In `advance` the call makes its next request, of the
threads that upload parts the one that sends `part`; `again` says that `retry` has another
attempt for it. -/
inductive Event
  | other (timed : Timed)
  | advance (now : Timestamp) (part : Nat) (again : Bool)

namespace Client

variable (app : AppState σ) (identity : Identity) (file : LargeFile)

def request? (client : Client σ) (part : Nat) : Option Request :=
  let key := (resolveObjectKey app.nfc file.objectKey file.directory file.filename).toOption
  match client.phase with
  | .starting => key.map fun key => .createSession identity (file.session key)
  | .whole => key.map fun key => .proxyUpload identity (file.whole key)
  | .sending session pending broken =>
    if pending = [] then if broken then none else some (.complete identity session.id)
    else if part ∈ pending then some (uploadPart app.sha256 identity session file.content part)
    else none
  | .finished _ => none
  | .failed => none

/-- No request is left to make: the call raises, unless it has ended or a thread has no part. -/
def stopped (client : Client σ) : Client σ :=
  match client.phase with
  | .sending _ [] true => { client with phase := .failed }
  | .starting => { client with phase := .failed }
  | .whole => { client with phase := .failed }
  | _ => client

/-- The answer is a status that `_request` retries; `upload_file` does not go through it. -/
def Retries (client : Client σ) (answer : Except Failure Reply) : Prop :=
  match client.phase, answer with
  | .whole, _ => False
  | _, .error failure => failure.statusCode ∈ retryableStatusCodes
  | _, .ok _ => False

instance (client : Client σ) (answer : Except Failure Reply) :
    Decidable (client.Retries answer) := by
  unfold Retries
  split <;> infer_instance

def answered (client : Client σ) (part : Nat) (answer : Except Failure Reply) : Client σ :=
  match client.phase, answer with
  | .starting, .ok (.upload session) =>
    if session.uploadMode = .proxy then
      { client with phase := .whole, session := some session }
    else
      { client with
        phase := .sending session (file.missing client.saved session) false
        session := some session }
  | .whole, .ok (.file stored) => { client with phase := .finished stored }
  | .sending session pending broken, .ok (.part _) =>
    { client with
      phase := .sending session (pending.erase part) broken
      sent := client.sent ++ [part] }
  | .sending session _ _, .ok (.file stored) =>
    { client with phase := .finished stored, saved := client.saved.delete session.id }
  | .sending session (first :: rest) _, .error _ =>
    -- the other threads go on: leaving the scheduler waits for all of them
    { client with phase := .sending session ((first :: rest).erase part) true }
  | _, _ => { client with phase := .failed }

def step (client : Client σ) : Event → Client σ
  | .other timed => { client with world := (serve app client.world timed).2 }
  | .advance now part again =>
    match client.request? app identity file part with
    | none => client.stopped
    | some request =>
      let served := serve app client.world (request, now)
      let client := { client with world := served.2 }
      if again = true ∧ client.Retries served.1 then client
      else client.answered file part served.1

/-- A call on a service and a state directory, after the events. -/
def call (world : World Database σ) (saved : StateStore) (events : List Event) : Client σ :=
  events.foldl (step app identity file) { world, saved }

variable {app identity file} {client : Client σ} {least : Uuid}

/-- A call that has begun when `least` was the next id: its session is a new one. -/
structure Begun (least : Uuid) (client : Client σ) : Prop where
  later : least ≤ client.world.db.nextId
  session : ∀ session ∈ client.session, least ≤ session.id ∧ session.id < client.world.db.nextId

/-- Time passes, and the call stays as it is. -/
theorem Begun.serve (begun : client.Begun least) (timed : Timed) :
    Begun least { client with world := (PyUploadX.serve app client.world timed).2 } where
  later := begun.later.trans (serve_change app client.world timed).nextId_le
  session := by
    intro session present
    obtain ⟨new, old⟩ := begun.session session present
    exact ⟨new, old.trans_le (serve_change app client.world timed).nextId_le⟩

theorem session_new {world : World Database σ} {request : CreateSession} {now : Timestamp}
    {session : UploadSession}
    (created : (PyUploadX.serve app world (.createSession identity request, now)).1 =
      .ok (.upload session)) :
    session.id = world.db.nextId ∧
      (PyUploadX.serve app world (.createSession identity request, now)).2.db.nextId =
        world.db.nextId + 1 := by
  obtain ⟨_, done, same⟩ := Program.bind_pure_eq_ok.mp (World.execute_committed created)
  cases same
  have served := World.execute_wrap_ok done Reply.upload
  obtain ⟨safeKey, layout, mode, effective, storageUploadId, lifetime, _, _, _, _, _, _, _, row,
    committed⟩ := createSession_ok done
  have id : session.id = world.db.nextId := by rw [row]; rfl
  refine ⟨id, ?_⟩
  rw [PyUploadX.serve, handle, served, committed]
  change max world.db.nextId (session.id + 1) = _
  rw [id]
  exact Nat.max_eq_right (Nat.le_succ _)

/-- Only the answer to `create_upload` gives a call a session. -/
theorem answered_session (client : Client σ) (part : Nat) (answer : Except Failure Reply) :
    (client.answered file part answer).world = client.world ∧
      ((client.answered file part answer).session = client.session ∨
        ∃ session, client.phase = .starting ∧ answer = .ok (.upload session) ∧
          (client.answered file part answer).session = some session) := by
  unfold answered
  split
  · rename_i session starting
    split
    · exact ⟨rfl, .inr ⟨session, starting, rfl, rfl⟩⟩
    · exact ⟨rfl, .inr ⟨session, starting, rfl, rfl⟩⟩
  all_goals exact ⟨rfl, .inl rfl⟩

theorem request?_starting {part : Nat} {request : Request} (starting : client.phase = .starting)
    (asked : client.request? app identity file part = some request) :
    ∃ created, request = .createSession identity created := by
  unfold request? at asked
  rw [starting] at asked
  obtain ⟨key, _, same⟩ := Option.map_eq_some_iff.mp asked
  exact ⟨_, same.symm⟩

private theorem stopped_session (client : Client σ) :
    client.stopped.world = client.world ∧ client.stopped.session = client.session := by
  unfold stopped
  split <;> exact ⟨rfl, rfl⟩

theorem Begun.step (begun : client.Begun least) (event : Event) :
    (client.step app identity file event).Begun least := by
  cases event with
  | other timed => exact begun.serve timed
  | advance now part again =>
    unfold Client.step
    dsimp only
    split
    · obtain ⟨world, session⟩ := stopped_session client
      exact ⟨world ▸ begun.later, by rw [world, session]; exact begun.session⟩
    · rename_i request asked
      have served : { client with world := (PyUploadX.serve app client.world (request, now)).2 }.Begun
          least := begun.serve (request, now)
      split
      · exact served
      · obtain ⟨world, same | ⟨session, starting, answer, given⟩⟩ := @answered_session _ file
          { client with world := (PyUploadX.serve app client.world (request, now)).2 } part
          (PyUploadX.serve app client.world (request, now)).1
        · exact ⟨world ▸ served.later, by rw [world, same]; exact served.session⟩
        · obtain ⟨created, rfl⟩ := @request?_starting _ app identity file client _ _ starting asked
          obtain ⟨id, next⟩ := session_new answer
          refine ⟨world ▸ served.later, fun other present => ?_⟩
          rw [given] at present
          cases present
          rw [world, id]
          exact ⟨begun.later, next ▸ Nat.lt_succ_self _⟩

theorem call_begun (world : World Database σ) (saved : StateStore) (events : List Event) :
    (call app identity file world saved events).Begun world.db.nextId :=
  run_preserves events ⟨Nat.le_refl _, fun _ present => by cases present⟩
    fun _ event begun => begun.step event

/-- What resuming promises of two calls: the second goes on with the session of the first, sends
what is not committed there, and the object is the file. -/
structure Resumed (object? : σ → String → ObjectKey → Option Bytes) (file : LargeFile)
    (first second : Client σ) : Prop where
  goesOn : ∃ begun continued, first.session = some begun ∧ second.session = some continued ∧
    continued.id = begun.id ∧
    second.sent.Perm (missingNumbers begun.totalParts (committedNumbers first.world.db begun))
  stores : ∃ stored, second.phase = .finished stored ∧
    object? second.world.store stored.bucket stored.objectKey = some file.content

end Client

/-- However the first call was interrupted, the second does not resume it: it begins with a
session of its own. -/
theorem large_file_never_resumes (app : AppState σ)
    (object? : σ → String → ObjectKey → Option Bytes) (identity : Identity) (file : LargeFile)
    (world : World Database σ) (saved : StateStore) (interrupted later : List Event) :
    let first := Client.call app identity file world saved interrupted
    let second := Client.call app identity file first.world first.saved later
    ¬ Client.Resumed object? file first second := by
  intro first second resumed
  obtain ⟨begun, continued, ours, theirs, same, _⟩ := resumed.goesOn
  have old := ((Client.call_begun world saved interrupted).session begun ours).2
  have new := ((Client.call_begun first.world first.saved later).session continued theirs).1
  exact absurd same (Nat.ne_of_gt (old.trans_le new))

def smallFile : LargeFile where
  filename := "a.bin"
  content := [1, 2, 3, 4]
  fingerprint := "fp"
  bucket := "files"
  partSize := 2

/-- `smallLocalApp` on an empty disk, set up to take two bytes for a large file. -/
def smallDirectWorld : World Database LocalState :=
  ⟨{ overrides := { directUploadThresholdBytes := some 1 } }, {}⟩

def smallInterrupted : Client LocalState :=
  Client.call smallLocalApp smallTenant smallFile smallDirectWorld {}
    [.advance 0 0 false, .advance 1 1 false]

def smallRepeated : Client LocalState :=
  Client.call smallLocalApp smallTenant smallFile smallInterrupted.world smallInterrupted.saved
    [.advance 2 0 false, .advance 3 1 false, .advance 4 2 false, .advance 5 0 false]

/-- It sends the committed part again, to a session of its own, and stores the file. -/
theorem second_call_starts_over :
    (∃ begun, smallInterrupted.session = some begun ∧
      committedNumbers smallInterrupted.world.db begun = [1]) ∧
    (∃ stored, smallRepeated.phase = .finished stored) ∧
    smallRepeated.session.map (·.id) = some 1 ∧
    (smallInterrupted.sent, smallRepeated.sent) = ([1], [1, 2]) ∧
    ¬ Client.Resumed LocalStorageAdapter.view.object? smallFile smallInterrupted smallRepeated := by
  refine ⟨⟨_, rfl, by decide +kernel⟩, ⟨_, rfl⟩, by decide +kernel, by decide +kernel,
    fun resumed => ?_⟩
  obtain ⟨begun, continued, ours, theirs, same, _⟩ := resumed.goesOn
  cases ours
  cases theirs
  cases same

end Sdk

end PyUploadX
