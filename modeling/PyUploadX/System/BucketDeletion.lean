import PyUploadX.Storage.BucketRemoval
import PyUploadX.System.BucketRecords

/-! The deletion of a bucket on the local storage: what a request can remove. -/
namespace PyUploadX

open Kit UploadService LocalStorageAdapter

private theorem deleteBucket_validated {σ : Type} {app : AppState σ} {identity : Identity}
    {name out : String} {db db' : Database} {store store' : σ}
    (done : (BucketService.deleteBucket app identity name).run db store =
      (.ok (out, db'), store')) :
    BucketService.validateName name = .ok out ∧ app.storage.bucketExists out store = .ok true := by
  unfold BucketService.deleteBucket at done
  simp only [Program.liftExcept_bind_ok, Program.refuseIf_bind_ok, BucketRepository.getByName,
    Program.run_ask_bind] at done
  obtain ⟨valid, validated, _, done⟩ := done
  split at done
  · simp only [Program.askStore_bind_ok, Program.refuseIf_bind_ok, Program.onStore_bind_ok,
      BucketRepository.delete, Program.run_modify_bind, Program.pure_eq_ok] at done
    obtain ⟨answer, asked, stored, _, _, _, same, _⟩ := done
    cases same
    rw [Bool.not_eq_false] at stored
    subst stored
    exact ⟨validated, asked⟩
  · cases done

/-- The application over the local storage, where a bucket is deleted system call by system call. -/
def AppState.stepwiseLocal (app : AppState LocalState) (limits : CallLimits) :
    AppState LocalState :=
  { app with storage := LocalStorageAdapter.stepwise app.sha256 limits }

/-- What the deletion of a bucket may do, for any tenant that asks for it. -/
structure DeletesSafely (app : AppState LocalState) (world : World Database LocalState)
    (identity : Identity) (name : String) (outcome : Except Failure Reply)
    (world' : World Database LocalState) : Prop where
  /-- Only a bucket that is recorded for the tenant and has no file at any depth is deleted. -/
  deleted : ∀ reply, outcome = .ok reply →
    ∃ bucket, reply = .bucket bucket ∧ BucketService.validateName name = .ok bucket ∧
      bucket ∉ app.settings.storage.allowedBuckets ∧
      (world.db.findBucket identity.tenantId bucket).isSome ∧ NoFiles world.store.tree [bucket]
  /-- No object is removed, however the request ends. -/
  objects : ∀ path, world'.store.tree.file? path = world.store.tree.file? path
  parts : world'.store.staging = world.store.staging
  /-- A request that fails changes no record, and no directory unless the removal had begun. -/
  refused : ∀ failure, outcome = .error failure → world'.db = world.db ∧
    ((∀ error, failure ≠ removalFailure error) → world'.store.tree = world.store.tree)

section Deletion

variable {app : AppState LocalState} {limits : CallLimits}
  {world world' : World Database LocalState} {identity : Identity} {name : String}
  {now : Timestamp}

/-- A request that fails did so before the storage was called, or in that call. -/
theorem failed_deletion {failure : Failure}
    (failed : serve (app.stepwiseLocal limits) world (.deleteBucket identity name, now) =
      (.error failure, world')) :
    world'.db = world.db ∧ (world'.store = world.store ∨
      ∃ bucket, deleteBucketStepwise limits bucket world.store =
        (.error failure, world'.store)) := by
  obtain ⟨ran, records⟩ := World.execute_eq_error.mp failed
  refine ⟨records, ?_⟩
  rcases Program.bind_eq_error.mp ran with refused | ⟨_, _, _, _, ended⟩
  · exact deleteBucket_failed refused
  · cases ended

private theorem committed_deletion {reply : Reply}
    (done : serve (app.stepwiseLocal limits) world (.deleteBucket identity name, now) =
      (.ok reply, world')) :
    ∃ bucket, reply = .bucket bucket ∧ BucketService.validateName name = .ok bucket ∧
      bucket ∉ app.settings.storage.allowedBuckets ∧
      (world.db.findBucket identity.tenantId bucket).isSome ∧
      world.store.tree.isDirectory [bucket] = true ∧
      deleteBucketStepwise limits bucket world.store = (.ok (), world'.store) := by
  obtain ⟨bucket, ran, rfl⟩ := Program.bind_pure_eq_ok.mp (World.execute_eq_ok.mp done)
  obtain ⟨_, deletable, recorded, removed⟩ := deleteBucket_ok ran
  obtain ⟨validated, there⟩ := deleteBucket_validated ran
  exact ⟨bucket, rfl, validated, deletable, recorded, Except.ok.inj there, removed⟩

/-- The store afterwards is the one before, or what the adapter makes of it. -/
theorem deletion_store (app : AppState LocalState) (limits : CallLimits)
    (world : World Database LocalState) (identity : Identity) (name : String) (now : Timestamp) :
    let world' := (serve (app.stepwiseLocal limits) world (.deleteBucket identity name, now)).2
    world'.store = world.store ∨
      ∃ bucket, world'.store = (deleteBucketStepwise limits bucket world.store).2 := by
  intro world'
  rcases outcome : serve (app.stepwiseLocal limits) world (.deleteBucket identity name, now)
    with ⟨failure | reply, after⟩
  · have reached : world' = after := congrArg Prod.snd outcome
    rw [reached]
    exact (failed_deletion outcome).2.imp_right fun ⟨bucket, called⟩ =>
      ⟨bucket, (congrArg Prod.snd called).symm⟩
  · have reached : world' = after := congrArg Prod.snd outcome
    obtain ⟨bucket, _, _, _, _, _, called⟩ := committed_deletion outcome
    rw [reached]
    exact .inr ⟨bucket, (congrArg Prod.snd called).symm⟩

end Deletion

/-- A bucket is deleted only when it is empty, and no object ever goes with it. -/
theorem deletion_removes_no_object (app : AppState LocalState) (limits : CallLimits)
    (world : World Database LocalState) (rooted : world.store.tree.Rooted) (identity : Identity)
    (name : String) (now : Timestamp) :
    let served := serve (app.stepwiseLocal limits) world (.deleteBucket identity name, now)
    DeletesSafely app world identity name served.1 served.2 := by
  have reached := deletion_store app limits world identity name now
  rcases served : serve (app.stepwiseLocal limits) world (.deleteBucket identity name, now)
    with ⟨outcome, world'⟩
  rw [served] at reached
  refine ⟨?_, ?_, ?_, ?_⟩
  · rintro reply rfl
    obtain ⟨bucket, named, validated, deletable, recorded, there, called⟩ :=
      committed_deletion served
    exact ⟨bucket, named, validated, deletable, recorded,
      deleteBucketStepwise_ok rooted there (congrArg Prod.fst called)⟩
  · intro path
    rcases reached with same | ⟨bucket, called⟩
    · rw [same]
    · rw [called]
      exact deleteBucketStepwise_file? rooted path
  · rcases reached with same | ⟨bucket, called⟩
    · rw [same]
    · rw [called]
      exact deleteBucketStepwise_staging limits bucket world.store
  · rintro failure rfl
    obtain ⟨records, same | ⟨bucket, called⟩⟩ := failed_deletion served
    · exact ⟨records, fun _ => by rw [same]⟩
    · exact ⟨records, deleteBucketStepwise_refused called⟩

def emptyFolders : FileTree String Bytes :=
  (FileTree.empty.set ["logs"] .directory).set ["logs", "old"] .directory

private theorem emptyFolders_rooted : emptyFolders.Rooted :=
  (FileTree.Rooted.empty.addDirectory (List.cons_ne_nil _ _) rfl).addDirectory
    (List.cons_ne_nil _ _) (by decide)

def emptyBucket : World Database LocalState where
  db := { storageBuckets := [⟨"tenant", "logs", "principal"⟩] }
  store := { tree := emptyFolders }

theorem empty_bucket_is_deleted :
    (serve (smallLocalApp.stepwiseLocal ⟨9, 9⟩) emptyBucket
        (.deleteBucket smallTenant "logs", 0)).1 = .ok (.bucket "logs") ∧
      DeletesSafely smallLocalApp emptyBucket smallTenant "logs"
        (serve (smallLocalApp.stepwiseLocal ⟨9, 9⟩) emptyBucket
          (.deleteBucket smallTenant "logs", 0)).1
        (serve (smallLocalApp.stepwiseLocal ⟨9, 9⟩) emptyBucket
          (.deleteBucket smallTenant "logs", 0)).2 :=
  ⟨by decide +kernel, deletion_removes_no_object smallLocalApp ⟨9, 9⟩ emptyBucket
    emptyFolders_rooted smallTenant "logs" 0⟩

end PyUploadX
