import Mathlib.Data.Fintype.EquivFin
import Mathlib.Data.List.Dedup
import PyUploadX.Services.SettingUpdate
import PyUploadX.System.BucketRecords

/-! The default bucket, which is the same for all tenants, beside the buckets that one tenant
creates and deletes. -/
namespace PyUploadX

open Kit SettingService

variable {σ : Type}

/-- The settings table and the rest of the service. -/
structure Administered (σ : Type) where
  rows : AppSettings := {}
  world : World Database σ

inductive AdminRequest
  | updateSettings (identity : Identity) (payload : Json)
  | createBucket (identity : Identity) (name : String)
  | deleteBucket (identity : Identity) (name : String)

namespace SettingService

def getDefaultBucket (app : AppState σ) : Handler σ String :=
  Program.ask fun db => orText db.overrides.defaultBucket app.settings.storage.defaultBucket

end SettingService

namespace BucketService

/-- The configured buckets and those of the tenant, `sorted`. -/
def listBucketsForTenant (settings : Settings) (db : Database) (tenantId : String) : List String :=
  let own := (db.storageBuckets.filter fun bucket => bucket.tenantId = tenantId).map (·.name)
  (settings.storage.allowedBuckets ++ own).dedup.insertionSort (· ≤ ·)

end BucketService

/-- A request of an administrator, served as a whole. -/
def administer (app : AppState σ) (state : Administered σ) : AdminRequest → Administered σ
  | .updateSettings identity payload =>
    let allowedBuckets :=
      BucketService.listBucketsForTenant app.settings state.world.db identity.tenantId
    let rows := commit app.settings state.rows { payload, allowedBuckets }
    { rows, world := { state.world with db.overrides := rows.overrides } }
  | .createBucket identity name =>
    { state with world := (state.world.execute (BucketService.createBucket app identity name)).2 }
  | .deleteBucket identity name =>
    { state with world := (state.world.execute (BucketService.deleteBucket app identity name)).2 }

/-- Every tenant may use the default bucket. -/
def AllowsDefault (app : AppState σ) (state : Administered σ) : Prop :=
  ∀ tenantId,
    (do
      let bucket ← getDefaultBucket app
      BucketService.isBucketAllowed app tenantId bucket : Handler σ Bool).run state.world.db
        state.world.store = (.ok (true, state.world.db), state.world.store)

/-- The default bucket that the body gives. -/
def Json.defaultBucket? : Json → Option String
  | .object payload =>
    match (JsonObject.group payload "storage").bind (·.given "default_bucket") with
    | some (.string text) => some (strip text)
    | _ => none
  | _ => none

/-- An update that is accepted names a configured bucket, if it names one. -/
def ChoosesConfigured (settings : Settings) (state : Administered σ) : AdminRequest → Prop
  | .updateSettings identity payload =>
    let allowedBuckets :=
      BucketService.listBucketsForTenant settings state.world.db identity.tenantId
    (update settings { payload, allowedBuckets } state.rows).isOk = true →
      ∀ bucket ∈ payload.defaultBucket?, bucket ∈ settings.storage.allowedBuckets
  | .createBucket _ _ | .deleteBucket _ _ => True

section Default

variable {app : AppState σ} {settings : Settings} {rows rows' : AppSettings}

/-- The tenants have no end and the rows have one: a bucket that all may use is configured. -/
theorem allowsDefault_iff {state : Administered σ} :
    AllowsDefault app state ↔
      orText state.world.db.overrides.defaultBucket app.settings.storage.defaultBucket ∈
        app.settings.storage.allowedBuckets := by
  unfold AllowsDefault getDefaultBucket
  simp only [Program.run_ask_bind, isBucketAllowed_iff]
  constructor
  · intro allowed
    obtain ⟨stranger, unknown⟩ := Infinite.exists_notMem_finset
      (state.world.db.storageBuckets.map (·.tenantId)).toFinset
    refine (allowed stranger).resolve_right fun present => unknown ?_
    obtain ⟨bucket, found⟩ := Option.isSome_iff_exists.mp present
    obtain ⟨member, owner, _⟩ := Database.findBucket_some found
    rw [List.mem_toFinset]
    exact List.mem_map.mpr ⟨bucket, member, owner⟩
  · exact fun configured _ => .inl configured

private theorem bucketText_ok {allowedBuckets : List String} {value : Json} {bucket : String}
    (done : bucketText allowedBuckets value = .ok bucket) :
    ∃ text, value = .string text ∧ bucket = strip text ∧ bucket ≠ "" := by
  unfold bucketText at done
  split at done
  · rename_i text
    dsimp only at done
    split at done
    · cases done
    · rename_i named
      split at done
      · cases done
        exact ⟨text, rfl, rfl, named⟩
      · cases done
  · cases done

/-- The row after an accepted update: the bucket of the body, or the row as it was. -/
theorem update_defaultBucket {request : SettingsUpdate}
    (done : update settings request rows = .ok rows') :
    rows'.defaultBucket = stored request.payload.defaultBucket? rows.defaultBucket ∧
      ∀ bucket ∈ request.payload.defaultBucket?, bucket ≠ "" := by
  obtain ⟨payload, first, second, same, storage, uploads, lifecycle⟩ := update_ok done
  have kept : second.defaultBucket = first.defaultBucket := by
    refine @applyGroup_preserves _ _ _ _ (fun after => after.defaultBucket =
      first.defaultBucket) rfl (fun fields _ after done => ?_) uploads
    obtain ⟨maxSize, _, done⟩ := except_bind_eq_ok.mp done
    obtain ⟨threshold, _, done⟩ := except_bind_eq_ok.mp done
    obtain ⟨mode, _, done⟩ := except_bind_eq_ok.mp done
    obtain ⟨partSize, _, done⟩ := except_bind_eq_ok.mp done
    obtain ⟨expiry, _, done⟩ := except_bind_eq_ok.mp done
    cases done
    rfl
  have last : rows'.defaultBucket = first.defaultBucket := by
    refine @applyGroup_preserves _ _ _ _ (fun after => after.defaultBucket =
      first.defaultBucket) kept (fun fields _ after done => ?_) lifecycle
    obtain ⟨policy, mode, action, ttlSeconds, _, _, _, _, rfl⟩ := lifecycleGroup_ok done
    exact kept
  rw [last, same]
  unfold Json.defaultBucket?
  dsimp only
  cases group : JsonObject.group payload "storage" with
  | none =>
    rw [group] at storage
    cases storage
    exact ⟨rfl, by simp⟩
  | some fields =>
    rw [group] at storage
    obtain ⟨bucket, given, done⟩ := except_bind_eq_ok.mp storage
    obtain ⟨presign, _, done⟩ := except_bind_eq_ok.mp done
    cases done
    rw [Option.bind_some]
    cases raw : JsonObject.given fields "default_bucket" with
    | none =>
      rw [raw] at given
      cases given
      exact ⟨rfl, by simp⟩
    | some value =>
      rw [raw] at given
      obtain ⟨text, passed, rfl⟩ := checked_some given
      obtain ⟨text, rfl, rfl, named⟩ := bucketText_ok passed
      refine ⟨rfl, fun other same => ?_⟩
      cases same
      exact named

/-- The service reads its overrides from the rows. -/
def Synced (state : Administered σ) : Prop := state.world.db.overrides = state.rows.overrides

private theorem createBucket_overrides (identity : Identity) (name : String) (world : World Database σ) :
    (world.execute (BucketService.createBucket app identity name)).2.db.overrides =
      world.db.overrides := by
  refine World.execute_preserves
    (fun after : World Database σ => after.db.overrides = world.db.overrides) ?_ ?_
  · intro out db store done
    obtain ⟨rfl, _⟩ := createBucket_ok done
    rfl
  · exact fun _ _ _ => rfl

private theorem deleteBucket_overrides (identity : Identity) (name : String) (world : World Database σ) :
    (world.execute (BucketService.deleteBucket app identity name)).2.db.overrides =
      world.db.overrides := by
  refine World.execute_preserves
    (fun after : World Database σ => after.db.overrides = world.db.overrides) ?_ ?_
  · intro out db store done
    obtain ⟨rfl, _⟩ := deleteBucket_ok done
    rfl
  · exact fun _ _ _ => rfl

theorem administer_synced {state : Administered σ} (synced : Synced state)
    (request : AdminRequest) : Synced (administer app state request) := by
  cases request with
  | updateSettings identity payload => rfl
  | createBucket identity name =>
    unfold Synced administer
    dsimp only
    rw [createBucket_overrides]
    exact synced
  | deleteBucket identity name =>
    unfold Synced administer
    dsimp only
    rw [deleteBucket_overrides]
    exact synced

/-- A request keeps the default bucket open to all exactly when it chooses a configured one. -/
theorem administer_allowsDefault_iff {state : Administered σ} (synced : Synced state)
    (allows : AllowsDefault app state) (request : AdminRequest) :
    AllowsDefault app (administer app state request) ↔
      ChoosesConfigured app.settings state request := by
  rw [allowsDefault_iff] at allows ⊢
  cases request with
  | createBucket identity name =>
    refine iff_of_true ?_ trivial
    unfold administer
    dsimp only
    rw [createBucket_overrides]
    exact allows
  | deleteBucket identity name =>
    refine iff_of_true ?_ trivial
    unfold administer
    dsimp only
    rw [deleteBucket_overrides]
    exact allows
  | updateSettings identity payload =>
    unfold administer ChoosesConfigured commit
    dsimp only
    cases done : update app.settings _ state.rows with
    | error failure =>
      refine iff_of_true ?_ fun accepted => absurd accepted Bool.false_ne_true
      dsimp only
      rw [← synced]
      exact allows
    | ok rows' =>
      obtain ⟨row, named⟩ := update_defaultBucket done
      dsimp only at row named ⊢
      have changed : rows'.overrides.defaultBucket =
          stored payload.defaultBucket? state.rows.defaultBucket := row
      rw [changed]
      cases given : payload.defaultBucket? with
      | none =>
        refine iff_of_true ?_ fun _ _ absent => by cases absent
        have same : state.world.db.overrides.defaultBucket = state.rows.defaultBucket := by
          rw [synced]
          rfl
        rw [same] at allows
        exact allows
      | some bucket =>
        have chosen : orText (stored (some bucket) state.rows.defaultBucket)
            app.settings.storage.defaultBucket = bucket := if_neg (named bucket given)
        rw [chosen]
        constructor
        · intro configured _ other same
          cases same
          exact configured
        · exact fun chooses => chooses rfl bucket rfl

end Default

/-- With a configured default to begin with, the default bucket is open to every tenant in
every state of a run exactly when every accepted update chooses a configured bucket. -/
theorem default_bucket_allowed_iff (app : AppState σ)
    (config : app.settings.storage.defaultBucket ∈ app.settings.storage.allowedBuckets)
    (world : World Database σ) (fresh : world.db.overrides = {}) (requests : List AdminRequest) :
    (∀ count, AllowsDefault app ((requests.take count).foldl (administer app) { world })) ↔
      EachStep (administer app) (ChoosesConfigured app.settings) { world } requests := by
  have start : Synced { world } ∧ AllowsDefault app { world } := by
    refine ⟨fresh, allowsDefault_iff.mpr ?_⟩
    rw [fresh]
    exact config
  have step : ∀ (state : Administered σ) request, True → Synced state ∧ AllowsDefault app state →
      (Synced (administer app state request) ∧ AllowsDefault app (administer app state request) ↔
        ChoosesConfigured app.settings state request) := by
    intro state request _ ⟨synced, allows⟩
    rw [administer_allowsDefault_iff synced allows]
    exact and_iff_right (administer_synced synced request)
  rw [← @always_iff_eachStep _ _ (administer app) (ChoosesConfigured app.settings)
    (fun _ _ => True) (fun state => Synced state ∧ AllowsDefault app state) _ _
    (.of_forall (fun _ _ _ => trivial) _) start step]
  refine forall_congr' fun count => (and_iff_right ?_).symm
  exact run_preserves _ start.1 fun state request synced => administer_synced synced request

/-- A bucket of one tenant, chosen as the default of all and deleted. -/
def teamDefault : List AdminRequest := [
  .createBucket smallTenant "team",
  .updateSettings smallTenant
    (.object [("storage", .object [("default_bucket", .string "team")])]),
  .deleteBucket smallTenant "team"]

/-- A bucket of one tenant comes and goes, and the configured one is chosen. -/
def filesDefault : List AdminRequest := [
  .createBucket smallTenant "team",
  .updateSettings smallTenant
    (.object [("storage", .object [("default_bucket", .string "files")])]),
  .deleteBucket smallTenant "team"]

theorem default_bucket_allowed_files :
    (filesDefault.foldl (administer smallLocalApp) ⟨{}, {}, {}⟩).rows.defaultBucket = some "files" ∧
      ∀ count, AllowsDefault smallLocalApp
        ((filesDefault.take count).foldl (administer smallLocalApp) ⟨{}, {}, {}⟩) := by
  refine ⟨by decide +kernel, ?_⟩
  refine (default_bucket_allowed_iff smallLocalApp (by decide) ⟨{}, {}⟩ rfl filesDefault).mpr ?_
  refine ⟨trivial, fun _ bucket chosen => ?_, trivial, trivial⟩
  have named : bucket = "files" := Option.mem_unique chosen (by decide +kernel)
  rw [named]
  decide

/-- The other tenant is refused the default bucket at once, and the first one in the end. -/
theorem team_default_is_refused :
    let state := fun count => (teamDefault.take count).foldl (administer smallLocalApp) ⟨{}, {}, {}⟩
    let allowed := fun count (identity : Identity) =>
      (do
        let bucket ← getDefaultBucket smallLocalApp
        BucketService.isBucketAllowed smallLocalApp identity.tenantId bucket :
          Handler LocalState Bool).run (state count).world.db (state count).world.store
    smallLocalApp.settings.storage.defaultBucket ∈ smallLocalApp.settings.storage.allowedBuckets ∧
      (allowed 2 strangerTenant).1.toOption.map (·.1) = some false ∧
      (allowed 2 smallTenant).1.toOption.map (·.1) = some true ∧
      (allowed 3 smallTenant).1.toOption.map (·.1) = some false := by
  decide +kernel

end PyUploadX
