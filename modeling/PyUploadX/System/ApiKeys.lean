import PyUploadX.Core.Auth
import PyUploadX.Core.JsonDumps
import PyUploadX.System.TenantRows

/-! The service behind its keys: what the document of the keys says about who may change whose
rows. -/
namespace PyUploadX

open Kit

variable {σ : Type}

/-- An HTTP request to a route that asks for an identity, with which it is served. -/
structure Call where
  headers : List (String × String)
  route : Identity → Request
  now : Timestamp
  own : ∀ identity, (route identity).tenant? = some identity.tenantId

/-- Who is let in. -/
structure Gate where
  config : AuthConfig := {}
  authenticator : ApiKeyAuthenticator

def Gate.identity (gate : Gate) (call : Call) : Except Unauthenticated Identity :=
  getIdentity gate.config gate.authenticator call.headers

inductive Answer
  | refused (reason : Unauthenticated)
  | served (reply : Except Failure Reply)

section Calls

variable (app : AppState σ) (gate : Gate)

def serveCall (world : World Database σ) (call : Call) : Answer × World Database σ :=
  match gate.identity call with
  | .error reason => (.refused reason, world)
  | .ok identity =>
    let (reply, world) := serve app world (call.route identity, call.now)
    (.served reply, world)

def afterCalls (world : World Database σ) (calls : List Call) : World Database σ :=
  calls.foldl (fun world call => (serveCall app gate world call).2) world

/-- The requests that get past the gate. -/
def admitted (calls : List Call) : List Timed :=
  calls.filterMap fun call =>
    ((gate.identity call).toOption).map fun identity => (call.route identity, call.now)

variable {app gate}

/-- Behind the gate the service is the one whose requests come with their identity. -/
theorem afterCalls_eq (world : World Database σ) (calls : List Call) :
    afterCalls app gate world calls = after app world (admitted gate calls) := by
  induction calls generalizing world with
  | nil => rfl
  | cons call rest ih =>
    have next := ih (serveCall app gate world call).2
    rw [afterCalls] at next ⊢
    rw [List.foldl_cons, next]
    unfold serveCall admitted
    cases known : gate.identity call with
    | error reason => simp [known, Except.toOption]
    | ok identity => simp [known, Except.toOption, after_cons]

end Calls

/-! The rows of one tenant. -/

/-- Of the rows of several tenants those of one. -/
def OtherRows.of (rows : OtherRows) (tenantId : String) : OtherRows where
  fileObjects := rows.fileObjects.filter (·.tenantId = tenantId)
  uploadSessions := rows.uploadSessions.filter (·.tenantId = tenantId)
  uploadParts := rows.uploadParts.filter fun part =>
    (rows.uploadSessions.filter (·.tenantId = tenantId)).any (·.id = part.uploadId)
  directoryUploadJobs := rows.directoryUploadJobs.filter (·.tenantId = tenantId)
  directoryUploadEntries := rows.directoryUploadEntries.filter fun entry =>
    (rows.directoryUploadJobs.filter (·.tenantId = tenantId)).any (·.id = entry.directoryUploadId)

def Database.allRows (db : Database) : OtherRows where
  fileObjects := db.fileObjects
  uploadSessions := db.uploadSessions
  uploadParts := db.uploadParts
  directoryUploadJobs := db.directoryUploadJobs
  directoryUploadEntries := db.directoryUploadEntries

def Database.tenantRows (db : Database) (tenantId : String) : OtherRows := db.allRows.of tenantId

/-- Rows of one tenant are among the rows that are not another's. -/
theorem filter_own {α : Type} (tenant : α → String) {tenantId other : String}
    (different : tenantId ≠ other) (rows : List α) :
    (rows.filter fun row => tenant row ≠ other).filter (fun row => tenant row = tenantId) =
      rows.filter fun row => tenant row = tenantId := by
  rw [List.filter_filter]
  apply List.filter_congr
  intro row _
  by_cases same : tenant row = tenantId
  · simp [same, different]
  · simp [same]

private theorem filter_owned {α β : Type} (tenant : α → String) (id : α → Uuid) (owner : β → Uuid)
    {tenantId other : String} (different : tenantId ≠ other) (rows : List α) (parts : List β) :
    (parts.filter fun part => (rows.filter fun row => tenant row ≠ other).any fun row =>
        id row = owner part).filter (fun part =>
      (rows.filter fun row => tenant row = tenantId).any fun row => id row = owner part) =
      parts.filter fun part =>
        (rows.filter fun row => tenant row = tenantId).any fun row => id row = owner part := by
  rw [List.filter_filter]
  apply List.filter_congr
  intro part _
  rw [Bool.and_eq_left_iff_imp, List.any_eq_true]
  rintro ⟨row, member, named⟩
  obtain ⟨present, owned⟩ := List.mem_filter.mp member
  have foreign : tenant row ≠ other := (of_decide_eq_true owned).trans_ne different
  exact List.any_eq_true.mpr
    ⟨row, List.mem_filter.mpr ⟨present, decide_eq_true foreign⟩, named⟩

private theorem tenantRows_others {tenantId other : String} (different : tenantId ≠ other) (db : Database) :
    (db.others other).of tenantId = db.tenantRows tenantId := by
  have files := filter_own (fun file : FileObject => file.tenantId) different db.fileObjects
  have sessions := filter_own (fun upload : UploadSession => upload.tenantId) different
    db.uploadSessions
  have jobs := filter_own (fun job : DirectoryUploadJob => job.tenantId) different
    db.directoryUploadJobs
  have parts := filter_owned (fun upload : UploadSession => upload.tenantId) (·.id)
    (fun part : UploadPart => part.uploadId) different db.uploadSessions db.uploadParts
  have entries := filter_owned (fun job : DirectoryUploadJob => job.tenantId) (·.id)
    (fun entry : DirectoryUploadEntry => entry.directoryUploadId) different
    db.directoryUploadJobs db.directoryUploadEntries
  unfold Database.tenantRows OtherRows.of Database.others Database.otherFiles Database.otherUploads
    Database.otherJobs Database.allRows
  dsimp only
  rw [files, sessions, jobs, parts, entries]

/-- The ids and the numbers of the rows are in order in every state a run reaches. -/
def Orderly (app : AppState σ) (world : World Database σ) : Prop :=
  Integrity app world.db ∧ DirectoriesNumbered world.db

private theorem afterCalls_orderly {app : AppState σ} {gate : Gate} {world : World Database σ}
    (fresh : world.db.Fresh) (calls : List Call) :
    Orderly app (afterCalls app gate world calls) := by
  rw [afterCalls_eq]
  exact ⟨after_integrity app fresh.1 _, after_directoriesNumbered fresh _⟩

/-- A call changes a tenant's rows only if its key is one of the tenant's. -/
theorem serveCall_tenantRows {app : AppState σ} {gate : Gate} {world : World Database σ}
    (orderly : Orderly app world) {call : Call} {tenantId : String}
    (foreign : ∀ identity, gate.identity call = .ok identity → identity.tenantId ≠ tenantId) :
    (serveCall app gate world call).2.db.tenantRows tenantId = world.db.tenantRows tenantId := by
  unfold serveCall
  split
  · rfl
  · rename_i identity known
    have different := (foreign identity known).symm
    have kept := (serve_change app world (call.route identity, call.now)).others
      (call.own identity) orderly.1.ids orderly.2
    rw [← tenantRows_others different, ← tenantRows_others different world.db]
    exact congrArg (OtherRows.of · tenantId) kept

/-- The document lists the key for a scope of the tenant. -/
def ListedFor (data : Json) (tenantId key : String) : Prop :=
  ∃ identity, (key, identity) ∈ listedKeys data ∧ identity.tenantId = tenantId

theorem load_listed {float : String → FloatValue} {raw : String} {data : Json}
    (decoded : jsonLoads float raw = some data) {authenticator : ApiKeyAuthenticator}
    (loaded : ApiKeyAuthenticator.load float (some raw) = .ok authenticator) {key : String}
    {identity : Identity} (known : authenticator.keys key = some identity) :
    (key, identity) ∈ listedKeys data := by
  unfold ApiKeyAuthenticator.load at loaded
  split at loaded
  · cases loaded
    cases known
  · simp only [Option.getD_some, decoded] at loaded
    rw [ApiKeyAuthenticator.loadData_keys loaded] at known
    rcases lastListed_mem known with nobody | listed
    · cases nobody
    · exact listed

/-- In front of the service stands the document of the keys: the files, sessions, parts, jobs and
entries of a tenant change only by requests that come with a key listed for the tenant, in any
run and whatever the others ask for. -/
theorem tenant_rows_need_its_key (app : AppState σ) {config : AuthConfig}
    (guarded : config.mode = .apiKey) {float : String → FloatValue} {raw : String} {data : Json}
    (decoded : jsonLoads float raw = some data) {authenticator : ApiKeyAuthenticator}
    (loaded : ApiKeyAuthenticator.load float (some raw) = .ok authenticator)
    {world : World Database σ} (fresh : world.db.Fresh) (before later : List Call)
    {tenantId : String}
    (others : ∀ call ∈ later,
      ¬ ListedFor data tenantId ((config.presentedKey call.headers).getD "")) :
    (afterCalls app ⟨config, authenticator⟩ world (before ++ later)).db.tenantRows tenantId =
      (afterCalls app ⟨config, authenticator⟩ world before).db.tenantRows tenantId := by
  induction later using List.reverseRecOn with
  | nil => rw [List.append_nil]
  | append_singleton rest call ih =>
    have earlier := ih fun other member => others other (List.mem_append_left _ member)
    have foreign : ∀ identity, (⟨config, authenticator⟩ : Gate).identity call = .ok identity →
        identity.tenantId ≠ tenantId := by
      intro identity passed owned
      rw [Gate.identity, getIdentity, guarded] at passed
      have listed := load_listed decoded loaded
        (ApiKeyAuthenticator.authenticate_eq_ok passed)
      exact others call (by simp) ⟨identity, listed, owned⟩
    have orderly : Orderly app
        (afterCalls app ⟨config, authenticator⟩ world (before ++ rest)) :=
      afterCalls_orderly fresh _
    have kept := serveCall_tenantRows orderly foreign
    rw [← earlier, ← kept, ← List.append_assoc, afterCalls, afterCalls, List.foldl_append]
    rfl

/-! A stranger aborts the session of a tenant. -/

def smallListing : Json :=
  .object [("tenant/principal", .array [.string "k1"]), ("stranger", .string "k2")]

def smallAuthenticator : ApiKeyAuthenticator :=
  (ApiKeyAuthenticator.loadData smallListing).toOption.getD {}

def smallCall : Call where
  headers := [("X-Api-Key", "k1")]
  route := fun identity => .createSession identity smallSession
  now := 0
  own := fun _ => rfl

def strangerCall : Call where
  headers := [("x-api-key", "k2")]
  route := fun identity => .abort identity 0
  now := 1
  own := fun _ => rfl

private theorem smallListing_keys :
    listedKeys smallListing = [("k1", smallTenant), ("k2", ⟨"stranger", "default"⟩)] := by
  decide +kernel

private theorem smallListing_loaded :
    ∃ raw, jsonLoads (fun _ => .nan) raw = some smallListing ∧
      ApiKeyAuthenticator.load (fun _ => .nan) (some raw) = .ok smallAuthenticator := by
  have plain : smallListing.Plain := ⟨by decide, ⟨trivial, trivial⟩, trivial, trivial⟩
  obtain ⟨text, -, decoded⟩ := dumpsAt_loads (fun _ => .nan) (fun _ => []) {} plain
  have written : String.ofList text ≠ "" := by
    intro empty
    rw [empty] at decoded
    cases decoded
  refine ⟨_, decoded, ?_⟩
  rw [ApiKeyAuthenticator.load, Option.getD_some, if_neg written, decoded]
  rfl

theorem tenant_rows_need_its_key_small :
    ∃ raw, ApiKeyAuthenticator.load (fun _ => .nan) (some raw) = .ok smallAuthenticator ∧
      (afterCalls smallS3App ⟨{}, smallAuthenticator⟩ ⟨{}, smallS3⟩
          ([smallCall] ++ [strangerCall])).db.tenantRows "tenant" =
        (afterCalls smallS3App ⟨{}, smallAuthenticator⟩ ⟨{}, smallS3⟩
          [smallCall]).db.tenantRows "tenant" := by
  obtain ⟨raw, decoded, loaded⟩ := smallListing_loaded
  refine ⟨raw, loaded, tenant_rows_need_its_key smallS3App rfl decoded loaded (by decide) _ _ ?_⟩
  intro call member
  cases List.mem_singleton.mp member
  have presented : (AuthConfig.presentedKey {} strangerCall.headers).getD "" = "k2" := by
    decide +kernel
  rintro ⟨identity, listed, owned⟩
  rw [presented, smallListing_keys] at listed
  have stranger : identity = ⟨"stranger", "default"⟩ := by simpa using listed
  rw [stranger] at owned
  exact absurd owned (by decide)

end PyUploadX
