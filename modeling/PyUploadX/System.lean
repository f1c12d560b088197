import PyUploadX.Api.DirectoryUploads
import PyUploadX.Api.Reads
import PyUploadX.Services.Cleanup
import PyUploadX.Worker.Lifecycle

/-! The deployment: requests and worker batches, each executed as a whole. -/
namespace PyUploadX

open Kit

inductive Request
  | createBucket (identity : Identity) (name : String)
  | deleteBucket (identity : Identity) (name : String)
  | createSession (identity : Identity) (request : CreateSession)
  | proxyUploadPart (identity : Identity) (uploadId : Uuid) (partNumber : Int) (body : Bytes)
      (checksumSha256 : Option String)
  /-- A proxied part whose transaction does not commit. -/
  | lostPart (identity : Identity) (uploadId : Uuid) (partNumber : Int) (body : Bytes)
      (checksumSha256 : Option String)
  /-- A PUT to a presigned URL, which passes by the service. -/
  | directPart (uploadId : Uuid) (partNumber : Nat) (body : Bytes)
  | commitPart (identity : Identity) (uploadId : Uuid) (partNumber : Int) (etag : String)
      (sizeBytes : Int) (checksumSha256 : Option String)
  | resume (identity : Identity) (uploadId : Uuid)
  | complete (identity : Identity) (uploadId : Uuid)
  | abort (identity : Identity) (uploadId : Uuid)
  | refresh (identity : Identity) (uploadId : Uuid)
  | expireUploadSessions (batchSize : Nat)
  | proxyUpload (identity : Identity) (request : ProxyUpload)
  | delete (identity : Identity) (fileId : Uuid)
  | updateLifecycle (identity : Identity) (fileId : Uuid) (requested : LifecycleRequest)
  | extend (identity : Identity) (fileId : Uuid) (extendSeconds : Int)
  | makePermanent (identity : Identity) (fileId : Uuid)
  | setLegalHold (identity : Identity) (fileId : Uuid) (hold : Bool)
  | processBatch (batchSize : Nat)
  | read (identity : Identity) (request : ReadRequest)
  | directoryUpload (identity : Identity) (request : DirectoryRequest)

inductive Reply
  | done
  | bucket (name : String)
  | upload (upload : UploadSession)
  | part (part : UploadPart)
  | missing (upload : UploadSession) (numbers : List Nat)
  | file (file : FileObject)
  | count (processed : Nat)
  | read (reply : ReadReply)
  | directory (reply : DirectoryReply)
  deriving DecidableEq

/-- The session a request writes a part of. -/
def Request.partOwner? : Request → Option Uuid
  | .proxyUploadPart _ uploadId _ _ _ => some uploadId
  | .lostPart _ uploadId _ _ _ => some uploadId
  | .directPart uploadId _ _ => some uploadId
  | .commitPart _ uploadId _ _ _ _ => some uploadId
  | _ => none

/-- The tenant that a request is authenticated as. -/
def Request.tenant? : Request → Option String
  | .createBucket identity _ => some identity.tenantId
  | .deleteBucket identity _ => some identity.tenantId
  | .createSession identity _ => some identity.tenantId
  | .proxyUploadPart identity _ _ _ _ => some identity.tenantId
  | .lostPart identity _ _ _ _ => some identity.tenantId
  | .directPart _ _ _ => none
  | .commitPart identity _ _ _ _ _ => some identity.tenantId
  | .resume identity _ => some identity.tenantId
  | .complete identity _ => some identity.tenantId
  | .abort identity _ => some identity.tenantId
  | .refresh identity _ => some identity.tenantId
  | .expireUploadSessions _ => none
  | .proxyUpload identity _ => some identity.tenantId
  | .delete identity _ => some identity.tenantId
  | .updateLifecycle identity _ _ => some identity.tenantId
  | .extend identity _ _ => some identity.tenantId
  | .makePermanent identity _ => some identity.tenantId
  | .setLegalHold identity _ _ => some identity.tenantId
  | .processBatch _ => none
  | .read identity _ => some identity.tenantId
  | .directoryUpload identity _ => some identity.tenantId

def servedFile : Except Failure Reply → Option FileObject
  | .ok (.file file) => some file
  | _ => none

theorem servedFile_eq_some {reply : Except Failure Reply} {file : FileObject} :
    servedFile reply = some file ↔ reply = .ok (.file file) := by
  unfold servedFile
  split
  · simp
  · rename_i other
    simpa using other file

variable {σ : Type} (app : AppState σ)

/-- A URL is presigned only for a part number of a session that has a storage id, on a
backend that can presign; the PUT itself asks nobody but the storage. -/
def putPresigned (uploadId : Uuid) (partNumber : Nat) (body : Bytes) : Handler σ Unit := do
  let upload? ← Program.ask fun db : Database => db.uploadSessions.find? (·.id = uploadId)
  match upload? with
  | none => Program.fail (.api (.uploadNotFound uploadId))
  | some upload =>
    match upload.storageId? with
    | none => Program.fail (.api (.storageCapabilityNotSupported "presigned_upload_part"))
    | some storageUploadId =>
      Program.refuseIf (app.storage.capabilities.presignedUploadPart = false)
        (.api (.storageCapabilityNotSupported "presigned_upload_part"))
      let partNumber ← Program.liftExcept (UploadService.checkPartNumber upload partNumber)
      let _ ← Program.onStore .uploadPart
        (app.storage.uploadPart upload.bucket upload.objectKey storageUploadId partNumber body
          body.length none)
      return ()

def handle (request : Request) (now : Timestamp) : Handler σ Reply :=
  match request with
  | .createBucket identity name => do
    return .bucket (← BucketService.createBucket app identity name)
  | .deleteBucket identity name => do
    return .bucket (← BucketService.deleteBucket app identity name)
  | .createSession identity request => do
    return .upload (← UploadService.createSession app identity request now)
  | .proxyUploadPart identity uploadId partNumber body checksumSha256 => do
    return .part (← UploadService.proxyUploadPart app identity uploadId partNumber body body.length
      checksumSha256 now)
  | .lostPart identity uploadId partNumber body checksumSha256 => do
    let _ ← UploadService.proxyUploadPart app identity uploadId partNumber body body.length
      checksumSha256 now
    Program.fail .connectionLost
  | .directPart uploadId partNumber body => do
    putPresigned app uploadId partNumber body
    return .done
  | .commitPart identity uploadId partNumber etag sizeBytes checksumSha256 => do
    UploadService.commitPart identity uploadId partNumber etag sizeBytes checksumSha256 now
    return .done
  | .resume identity uploadId => do
    let (upload, missing) ← UploadService.resume app identity uploadId now
    return .missing upload missing
  | .complete identity uploadId => do
    return .file (← UploadService.complete app identity uploadId now)
  | .abort identity uploadId => do
    return .upload (← UploadService.abort app identity uploadId)
  | .refresh identity uploadId => do
    return .upload (← UploadService.refresh app identity uploadId now)
  | .expireUploadSessions batchSize => do
    return .count (← CleanupService.expireUploadSessions batchSize now)
  | .proxyUpload identity request => do
    return .file (← FileService.proxyUpload app identity request now)
  | .delete identity fileId => do
    FileService.delete app identity fileId now
    return .done
  | .updateLifecycle identity fileId requested => do
    return .file (← LifecycleService.updateLifecycle app identity fileId requested)
  | .extend identity fileId extendSeconds => do
    return .file (← LifecycleService.extend app identity fileId extendSeconds now)
  | .makePermanent identity fileId => do
    return .file (← LifecycleService.makePermanent app identity fileId)
  | .setLegalHold identity fileId hold => do
    return .file (← LifecycleService.setLegalHold identity fileId hold)
  | .processBatch batchSize => do
    return .count (← LifecycleWorker.processBatch app batchSize now)
  | .read identity request => do
    return .read (← PyUploadX.read app identity request)
  | .directoryUpload identity request => do
    return .directory (← PyUploadX.directoryUpload app identity request now)

/-- A request and the clock reading it is served at. -/
abbrev Timed := Request × Timestamp

def serve (world : World Database σ) (timed : Timed) :
    Except Failure Reply × World Database σ :=
  world.execute (handle app timed.1 timed.2)

/-- The world after a run of requests, one at a time. -/
def after (world : World Database σ) (requests : List Timed) : World Database σ :=
  requests.foldl (fun world timed => (serve app world timed).2) world

/-- Every request of the run meets a condition on the world it is served in. -/
def EachMeets (condition : World Database σ → Timed → Prop) :
    World Database σ → List Timed → Prop
  | _, [] => True
  | world, timed :: rest =>
    condition world timed ∧ EachMeets condition (serve app world timed).2 rest

variable {app}

theorem after_cons (world : World Database σ) (timed : Timed) (rest : List Timed) :
    after app world (timed :: rest) = after app (serve app world timed).2 rest := rfl

theorem after_append (world : World Database σ) (first second : List Timed) :
    after app world (first ++ second) = after app (after app world first) second :=
  List.foldl_append

/-- What every request that meets the condition preserves, a run of such requests preserves. -/
theorem after_preserves_of (condition : World Database σ → Timed → Prop)
    (holds : World Database σ → Prop)
    (step : ∀ world timed, holds world → condition world timed → holds (serve app world timed).2)
    {world : World Database σ} {requests : List Timed} (start : holds world)
    (conditions : EachMeets app condition world requests) : holds (after app world requests) := by
  induction requests generalizing world with
  | nil => exact start
  | cons timed rest ih => exact ih (step world timed start conditions.1) conditions.2

theorem after_preserves (holds : World Database σ → Prop)
    (step : ∀ world timed, holds world → holds (serve app world timed).2)
    {world : World Database σ} (requests : List Timed) (start : holds world) :
    holds (after app world requests) := by
  induction requests generalizing world with
  | nil => exact start
  | cons timed rest ih => exact ih (step world timed start)

/-- Where every step keeps a property exactly when it meets the condition, every state of
a run has the property exactly when every step meets the condition. -/
theorem eachMeets_iff (condition : World Database σ → Timed → Prop)
    (sound holds : World Database σ → Prop)
    (keeps : ∀ world timed, sound world → sound (serve app world timed).2)
    (step : ∀ world timed, sound world → holds world →
      (holds (serve app world timed).2 ↔ condition world timed))
    {world : World Database σ} (start : sound world) (begins : holds world)
    (requests : List Timed) :
    (∀ count, holds (after app world (requests.take count))) ↔
      EachMeets app condition world requests := by
  induction requests generalizing world with
  | nil => exact iff_of_true (fun count => by rw [List.take_nil]; exact begins) trivial
  | cons timed rest ih =>
    have next := step world timed start begins
    constructor
    · intro always
      have first := always 1
      have went : holds (serve app world timed).2 := first
      exact ⟨next.mp went, (ih (keeps world timed start) went).mp fun count => always (count + 1)⟩
    · intro meets count
      have went := next.mpr meets.1
      cases count with
      | zero => exact begins
      | succ count => exact (ih (keeps world timed start) went).mpr meets.2 count

/-- Conditions that agree in every state of a run agree about the run. -/
theorem eachMeets_congr (first second : World Database σ → Timed → Prop)
    (sound : World Database σ → Prop)
    (keeps : ∀ world timed, sound world → sound (serve app world timed).2)
    (agree : ∀ world timed, sound world → (first world timed ↔ second world timed))
    {world : World Database σ} (start : sound world) (requests : List Timed) :
    EachMeets app first world requests ↔ EachMeets app second world requests := by
  induction requests generalizing world with
  | nil => exact Iff.rfl
  | cons timed rest ih =>
    exact and_congr (agree world timed start) (ih (keeps world timed start))

theorem EachMeets.take {condition : World Database σ → Timed → Prop} {world : World Database σ}
    {requests : List Timed} (meets : EachMeets app condition world requests) (count : Nat) :
    EachMeets app condition world (requests.take count) := by
  induction requests generalizing world count with
  | nil =>
    rw [List.take_nil]
    exact trivial
  | cons timed rest ih =>
    cases count with
    | zero => exact trivial
    | succ count => exact ⟨meets.1, ih meets.2 count⟩

theorem EachMeets.imp {first second : World Database σ → Timed → Prop} {world : World Database σ}
    {requests : List Timed} (meets : EachMeets app first world requests)
    (implies : ∀ world, ∀ timed ∈ requests, first world timed → second world timed) :
    EachMeets app second world requests := by
  induction requests generalizing world with
  | nil => exact trivial
  | cons timed rest ih =>
    refine ⟨implies world timed List.mem_cons_self meets.1, ih meets.2 fun world timed member => ?_⟩
    exact implies world timed (List.mem_cons_of_mem _ member)

/-- A service starts with its settings and its buckets, before the first upload. -/
def Database.Initial (db : Database) : Prop :=
  db.fileObjects = [] ∧ db.uploadSessions = [] ∧ db.uploadParts = []

instance (db : Database) : Decidable db.Initial := by unfold Database.Initial; infer_instance

end PyUploadX
