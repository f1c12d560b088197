import PyUploadX.Services.DirectoryUpload

/-! The endpoints of directory uploads. -/
namespace PyUploadX

open Kit

inductive DirectoryRequest
  | createJob (request : CreateJob)
  | addEntries (jobId : Uuid) (entries : List EntryRequest)
  | completeManifest (jobId : Uuid) (expectedHash : Option String) (counts : Option ManifestCounts)
  | getJob (jobId : Uuid)
  | listEntries (jobId : Uuid) (cursor : Option String) (limit : Int)
  | getManifest (jobId : Uuid)
  | initiateEntry (jobId entryId : Uuid)
  | markEntryResult (jobId entryId : Uuid) (result : EntryResult)
  | retry (jobId : Uuid)
  | complete (jobId : Uuid)
  | cancel (jobId : Uuid)
  | patchLifecycle (jobId : Uuid) (requested : Option LifecycleRequest)

inductive DirectoryReply
  | job (job : DirectoryUploadJob)
  | added (count : Nat)
  | entries (entries : List DirectoryUploadEntry) (nextCursor : Option String)
  | manifest (text : String)
  | entry (entry : DirectoryUploadEntry)
  deriving DecidableEq

variable {σ : Type} (app : AppState σ)

open DirectoryUploadService in
def directoryUpload (identity : Identity) (request : DirectoryRequest) (now : Timestamp) :
    Handler σ DirectoryReply :=
  match request with
  | .createJob request => do
    return .job (← createJob app identity request now)
  | .addEntries jobId entries => do
    return .added (← addEntries app identity jobId entries)
  | .completeManifest jobId expectedHash counts => do
    return .job (← completeManifest app identity jobId expectedHash counts)
  | .getJob jobId => do
    return .job (← getJob identity jobId)
  | .listEntries jobId cursor limit => do
    let (entries, nextCursor) ← listEntries identity jobId cursor limit
    return .entries entries nextCursor
  | .getManifest jobId => do
    let (entries, _) ← listEntries identity jobId none 100000
    return .manifest (serializeManifestNdjson entries)
  | .initiateEntry jobId entryId => do
    return .entry (← initiateEntry identity jobId entryId)
  | .markEntryResult jobId entryId result => do
    return .entry (← markEntryResult identity jobId entryId result)
  | .retry jobId => do
    return .job (← retry identity jobId)
  | .complete jobId => do
    return .job (← complete identity jobId)
  | .cancel jobId => do
    return .job (← cancel identity jobId)
  | .patchLifecycle jobId requested => do
    return .job (← patchLifecycle app identity jobId requested now)

end PyUploadX
