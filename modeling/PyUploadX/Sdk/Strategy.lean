import PyUploadX.Kit.Ledgers
import PyUploadX.Sdk.LargeFile
import PyUploadX.System.Interchange
import PyUploadX.System.SessionTerms

/-! `Client.upload`: by which of the uploads a path goes, and what the service makes of it while
its settings change. -/
namespace PyUploadX

open Kit UploadService SettingService

variable {σ : Type}

namespace Sdk

/-- What `_resolve_threshold` gets from `GET /v1/client-config`: an `UploadClientError`, or the
direct upload threshold, where the answer has one. -/
inductive ConfigAnswer
  | failed
  | announced (directUploadThresholdBytes : Option Int)

/-- Of the class `Client` what it adds to `UploadClient`. -/
structure GenericClient where
  largeFileThreshold : Int := 8 * 1024 * 1024
  serverThreshold : Option Int := none

/-- What a path stands for; of a file its size. -/
inductive SourcePath
  | absent
  | directory
  | file (size : Nat)

inductive Strategy
  | uploadDirectory
  | uploadLargeFile
  | uploadFile
  deriving DecidableEq

/-- `source not found`. -/
structure SourceNotFound where
  deriving DecidableEq

namespace GenericClient

/-- An announced zero is no threshold. -/
def orLocal (client : GenericClient) : ConfigAnswer → Int
  | .announced (some threshold) =>
    if threshold = 0 then client.largeFileThreshold else threshold
  | .announced none => client.largeFileThreshold
  | .failed => client.largeFileThreshold

/-- The service is asked once in the life of a client. -/
def resolveThreshold (client : GenericClient) (answer : ConfigAnswer) : Int × GenericClient :=
  match client.serverThreshold with
  | some threshold => (threshold, client)
  | none =>
    let threshold := client.orLocal answer
    (threshold, { client with serverThreshold := some threshold })

def upload (client : GenericClient) (source : SourcePath) (answer : ConfigAnswer) :
    Except SourceNotFound Strategy × GenericClient :=
  match source with
  | .absent => (.error {}, client)
  | .directory => (.ok .uploadDirectory, client)
  | .file size =>
    let (threshold, client) := client.resolveThreshold answer
    (.ok (if threshold < size then .uploadLargeFile else .uploadFile), client)

end GenericClient

/-- `GET /v1/client-config`, of which the client reads `direct_upload_threshold_bytes`. -/
def clientConfig (app : AppState σ) : Handler σ Int := getDirectThreshold app

/-- A client and the service it talks to. -/
structure Deployment (σ : Type) where
  service : Administered σ
  client : GenericClient := {}

/-- The client is given a path, and its request for the configuration, if it makes one, is
answered or lost; or something happens at the service, of the client's own requests or
others'. -/
inductive ClientEvent
  | service (event : ServiceEvent)
  | upload (source : SourcePath) (answered : Bool)

namespace Deployment

variable (app : AppState σ)

def configAnswer (state : Deployment σ) (answered : Bool) : ConfigAnswer :=
  if answered then
    match (state.service.world.execute (clientConfig app)).1 with
    | .ok threshold => .announced (some threshold)
    | .error _ => .failed
  else .failed

def advance (state : Deployment σ) : ClientEvent → Deployment σ
  | .service event => { state with service := receive app state.service event }
  | .upload source answered =>
    { state with client := (state.client.upload source (state.configAnswer app answered)).2 }

def after (start : Deployment σ) (events : List ClientEvent) : Deployment σ :=
  events.foldl (advance app) start

/-- The threshold by which the service decides now. -/
def threshold (state : Deployment σ) : Int :=
  (getEffective app.settings state.service.world.db.overrides).directThreshold

/-- What is announced is what the service decides by. -/
theorem configAnswer_answered (state : Deployment σ) :
    state.configAnswer app true = .announced (some (state.threshold app)) := rfl

/-- The event makes the client ask for the threshold, and it takes this one. -/
def Asks (state : Deployment σ) (event : ClientEvent) (threshold : Int) : Prop :=
  state.client.serverThreshold = none ∧ ∃ size answered, event = .upload (.file size) answered ∧
    threshold = state.client.orLocal (state.configAnswer app answered)

variable {app}

end Deployment

end Sdk

end PyUploadX
