import PyUploadX.Kit.Runs
import PyUploadX.Storage.Factory
import PyUploadX.System

/-! The portal's upload queue: `uploadQueuedFile`, await by await, and what the page does between
its calls. -/
namespace PyUploadX.Portal

open Kit UploadService

inductive QueueStatus
  | pending
  | uploading
  | paused
  | completed
  | failed
  deriving DecidableEq, Repr

/-- `QueueFile`, without what is only shown; the lifecycle text is what it parses to. -/
structure QueueFile where
  bucket : String
  objectKey : String
  lifecycle : Option LifecycleRequest := none
  status : QueueStatus := .pending
  uploadId : Option Uuid := none
  fileId : Option Uuid := none
  partSize : Nat
  totalParts : Nat
  completedParts : List Nat := []
  needsFile : Bool := false
  deriving DecidableEq, Repr

/-- An entry as `enqueueFiles` makes it. -/
def enqueued (bucket objectKey : String) (lifecycle : Option LifecycleRequest) (partSize : Nat)
    (file : Bytes) : QueueFile where
  bucket
  objectKey
  lifecycle
  partSize
  totalParts := totalParts file.length partSize

/-- The next await of a call: a request when `opening` (a session) or `sending` (a part, and after
the last of them the completion), else `persist`. -/
inductive Phase
  | begun
  | opening
  | opened
  | sending
  | sent
  | completed (info : FileObject)
  deriving DecidableEq

/-- A call of `uploadQueuedFile`, with its local variables. -/
structure Call where
  file : Bytes
  entry : QueueFile
  phase : Phase := .begun
  missing : List Nat := []
  index : Nat := 0

namespace Call

variable (call : Call)

/-- `file.slice(start, end)`, and both ends of it. -/
def blob (partNumber : Nat) : Bytes :=
  let start := (partNumber - 1) * call.entry.partSize
  let end_ := min (start + call.entry.partSize) call.file.length
  (call.file.drop start).take (end_ - start)

/-- The body of `POST /v1/uploads`. -/
def session : CreateSession where
  bucket := call.entry.bucket
  objectKey := call.entry.objectKey
  totalSize := call.file.length
  partSize := some call.entry.partSize
  uploadMode := "automatic"
  lifecycle := call.entry.lifecycle

def request? (identity : Identity) (sha256 : Bytes → String) : Option Request :=
  match call.phase, call.entry.uploadId with
  | .opening, none => some (.createSession identity call.session)
  | .opening, some uploadId => some (.resume identity uploadId)
  | .sending, some uploadId =>
    match call.missing[call.index]? with
    | some partNumber => some (.proxyUploadPart identity uploadId partNumber
        (call.blob partNumber) (some (sha256 (call.blob partNumber))))
    | none => some (.complete identity uploadId)
  | _, _ => none

/-- The statements between the answer to a request and the next await; `none` throws. -/
def answered : Except Failure Reply → Option Call
  | .ok (.upload session) => some { call with
      entry := { call.entry with
        uploadId := some session.id
        totalParts := totalParts call.file.length call.entry.partSize }
      phase := .opened }
  | .ok (.missing _ missingParts) => some { call with
      entry := { call.entry with
        completedParts := call.entry.completedParts.filter (· ∉ missingParts) }
      phase := .opened }
  | .ok (.part _) => some { call with
      entry := { call.entry with
        completedParts := call.entry.completedParts ++ call.missing[call.index]?.toList }
      phase := .sent }
  | .ok (.file info) => some { call with
      entry := { call.entry with status := .completed, fileId := some info.id }
      phase := .completed info }
  | _ => none

/-- The statements between a `persist` and the next await; `none` returns. -/
def persisted : Option Call :=
  match call.phase with
  | .begun => some { call with phase := .opening }
  | .opened => some { call with
      missing := (List.range' 1 (totalParts call.file.length call.entry.partSize)).filter
        (· ∉ call.entry.completedParts)
      index := 0
      phase := .sending }
  | .sent => some { call with index := call.index + 1, phase := .sending }
  | _ => none

end Call

/-- The page, its row in IndexedDB, and the service. -/
structure Page where
  world : World Database LocalState
  saved : QueueFile
  item : QueueFile
  call : Option Call := none

/-- An entry right after it was queued. -/
def opened (world : World Database LocalState) (entry : QueueFile) : Page where
  world
  saved := entry
  item := entry

/-- What happens next. A call goes on to its next await (`advance`) or throws (`interrupt`); when it
throws or the page is loaded again, a request under way may have arrived. -/
inductive Action
  | other (timed : Timed)
  | refresh
  /-- The page shows the very entry the call works on. -/
  | share
  | runUpload (file : Option Bytes)
  | advance (now : Timestamp)
  | interrupt (arrived : Option Timestamp)
  | reload (arrived : Option Timestamp)
  | pause
  | reselect

namespace Page

variable (app : AppState LocalState) (identity : Identity) (page : Page)

def show_ (entry : QueueFile) : Page := { page with saved := entry, item := entry }

/-- The `catch` and `finally` of `runUpload`. -/
def throws (call : Call) : Page :=
  { page with saved := { call.entry with status := .failed }, call := none }

/-- The request of a call is served, though nobody waits for the answer any more. -/
def arrive (call : Call) (arrived : Option Timestamp) : World Database LocalState :=
  match arrived, call.request? identity app.sha256 with
  | some now, some request => (serve app page.world (request, now)).2
  | _, _ => page.world

def advance (call : Call) (now : Timestamp) : Page :=
  match call.request? identity app.sha256 with
  | some request =>
    let served := serve app page.world (request, now)
    match call.answered served.1 with
    | some call => { page with world := served.2, call := some call }
    | none => { page with world := served.2 }.throws call
  | none => { page with saved := call.entry, call := call.persisted }

def step (page : Page) : Action → Page
  | .other timed => { page with world := (serve app page.world timed).2 }
  | .refresh => { page with item := page.saved }
  | .share =>
    match page.call with
    | some call => { page with item := call.entry }
    | none => page
  | .runUpload file? =>
    -- `workers` lets one call through at a time.
    if page.call.isSome then page
    else
      match file? with
      | none => page.show_ { page.item with needsFile := true }
      | some file =>
        let entry := { page.item with status := .uploading }
        { page with item := entry, call := some { file, entry } }
  | .advance now =>
    match page.call with
    | some call => page.advance app identity call now
    | none => page
  | .interrupt arrived =>
    match page.call with
    | some call => { page with world := page.arrive app identity call arrived }.throws call
    | none => page
  | .reload arrived =>
    let world :=
      match page.call with
      | some call => page.arrive app identity call arrived
      | none => page.world
    let entry := if page.saved.status = .uploading then { page.saved with status := .pending }
      else page.saved
    opened world entry
  | .pause =>
    if page.item.status = .uploading ∧ page.item.uploadId.isSome then
      page.show_ { page.item with status := .paused }
    else page
  | .reselect => page.show_ { page.item with needsFile := false }

def after (actions : List Action) : Page := actions.foldl (step app identity) page

end Page

end PyUploadX.Portal
