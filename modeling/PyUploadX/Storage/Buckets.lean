import PyUploadX.Storage.LocalBackend
import PyUploadX.Storage.MemoryS3

/-! Which buckets a storage has, and which calls can take one away. -/
namespace PyUploadX

open Kit

/-- The laws of an adapter about buckets. Only `delete_bucket` takes one away, and not when
it fails. -/
structure BucketBackend {σ : Type} (adapter : StorageAdapter σ) where
  hasBucket : σ → String → Prop
  bucketExists_ok : ∀ {bucket store answer},
    adapter.bucketExists bucket store = .ok answer → (answer = true ↔ hasBucket store bucket)
  createBucket_ok : ∀ {bucket store store'},
    adapter.createBucket bucket store = (.ok (), store') → hasBucket store' bucket
  createBucket_keeps : ∀ {other store} bucket,
    hasBucket store other → hasBucket (adapter.createBucket bucket store).2 other
  deleteBucket_keeps : ∀ {bucket other store}, other ≠ bucket →
    hasBucket store other → hasBucket (adapter.deleteBucket bucket store).2 other
  deleteBucket_error : ∀ {bucket store failure store'},
    adapter.deleteBucket bucket store = (.error failure, store') →
      hasBucket store bucket → hasBucket store' bucket
  putObject_keeps : ∀ {other store} bucket key stream contentType size checksum,
    hasBucket store other →
      hasBucket (adapter.putObject bucket key stream contentType size checksum store).2 other
  deleteObject_keeps : ∀ {other store} bucket key,
    hasBucket store other → hasBucket (adapter.deleteObject bucket key store).2 other
  initiate_keeps : ∀ {other store} bucket key contentType metadata, hasBucket store other →
    hasBucket (adapter.initiateMultipartUpload bucket key contentType metadata store).2 other
  uploadPart_keeps : ∀ {other store} bucket key uploadId number stream size checksum,
    hasBucket store other →
      hasBucket (adapter.uploadPart bucket key uploadId number stream size checksum store).2 other
  complete_keeps : ∀ {other store} bucket key uploadId parts, hasBucket store other →
    hasBucket (adapter.completeMultipartUpload bucket key uploadId parts store).2 other
  abort_keeps : ∀ {other store} bucket key uploadId, hasBucket store other →
    hasBucket (adapter.abortMultipartUpload bucket key uploadId store).2 other

section Local

open LocalStorageAdapter

theorem isDirectory_iff {tree : FileTree String Bytes} {path : List String} :
    tree.isDirectory path = true ↔ tree.node? path = some .directory := by
  unfold FileTree.isDirectory
  rcases tree.node? path with _ | _ | _ <;> simp

/-- Writing and removing files further down leaves a directory where it is. -/
def KeepsTop (tree tree' : FileTree String Bytes) : Prop :=
  ∀ name, tree.node? [name] = some .directory → tree'.node? [name] = some .directory

theorem KeepsTop.trans {tree₁ tree₂ tree₃ : FileTree String Bytes} (first : KeepsTop tree₁ tree₂)
    (second : KeepsTop tree₂ tree₃) : KeepsTop tree₁ tree₃ :=
  fun name there => second name (first name there)

theorem KeepsTop.set {path : List String} (tree : FileTree String Bytes) (deep : 1 < path.length)
    (node : Node Bytes) : KeepsTop tree (tree.set path node) := by
  intro name there
  rw [FileTree.node?_set_of_ne _ (by rintro rfl; simp at deep)]
  exact there

theorem KeepsTop.remove {path : List String} (tree : FileTree String Bytes)
    (deep : 1 < path.length) : KeepsTop tree (tree.remove path) := by
  intro name there
  rw [FileTree.node?_remove_of_ne _ (by rintro rfl; simp at deep)]
  exact there

theorem KeepsTop.mkdirParents {tree tree' : FileTree String Bytes} {target : List String}
    (made : tree.mkdirParents target = .ok tree') : KeepsTop tree tree' := by
  intro name there
  rcases FileTree.mkdirFrom_node? made [name] with same | ⟨missing, _⟩
  · rw [same, there]
  · rw [missing] at there
    cases there

theorem KeepsTop.writeFile {tree tree' : FileTree String Bytes} {path : List String}
    (deep : 1 < path.length) {content : Bytes} (written : tree.writeFile path content = .ok tree') :
    KeepsTop tree tree' := by
  obtain ⟨_, _, rfl⟩ := FileTree.writeFile_eq_ok.mp written
  exact .set tree deep _

theorem KeepsTop.replace {tree tree' : FileTree String Bytes} {source target : List String}
    (deep : 1 < source.length) (deep' : 1 < target.length)
    (replaced : tree.replace source target = .ok tree') : KeepsTop tree tree' := by
  obtain ⟨content, _, _, rfl⟩ := FileTree.replace_eq_ok.mp replaced
  exact (KeepsTop.remove tree deep).trans (.set _ deep' _)

theorem KeepsTop.unlink {tree tree' : FileTree String Bytes} {path : List String}
    (deep : 1 < path.length) (unlinked : tree.unlink path = .ok tree') : KeepsTop tree tree' := by
  unfold FileTree.unlink at unlinked
  split at unlinked
  · cases unlinked
    exact .remove tree deep
  · cases unlinked
  · split at unlinked
    · cases unlinked
    · cases unlinked
      exact fun _ => id

private theorem objectPath_deep (bucket : String) (key : ObjectKey) :
    1 < (objectPath bucket key).length ∧ 1 < (temporaryPath (objectPath bucket key)).length := by
  rw [temporaryPath_length]
  have filled := List.length_pos_iff.mpr key.nonempty
  simp only [objectPath, List.length_cons]
  omega

private theorem abandonWrite_top (state : LocalState) {tree : FileTree String Bytes} {bucket : String}
    {key : ObjectKey} (top : KeepsTop state.tree tree) :
    KeepsTop state.tree
      (abandonWrite state tree (temporaryPath (objectPath bucket key))).2.tree := by
  unfold abandonWrite
  split
  · rename_i unlinked
    exact top.trans (.unlink (objectPath_deep bucket key).2 unlinked)
  · exact top

private theorem putObject_top (sha256 : Bytes → String) (bucket : String) (key : ObjectKey)
    (stream : Bytes) (contentType : Option String) (size : Option Nat) (checksum : Option String)
    (state : LocalState) :
    KeepsTop state.tree
      (putObject sha256 bucket key stream contentType size checksum state).2.tree := by
  obtain ⟨deep, deep'⟩ := objectPath_deep bucket key
  unfold putObject
  dsimp only
  rw [← takeFault_tree state]
  split
  · rw [takeFault_tree]; exact fun _ => id
  · rename_i tree made
    have parents := KeepsTop.mkdirParents made
    split
    · exact abandonWrite_top _ parents
    · rename_i opened written
      have opens := parents.trans (.writeFile deep' written)
      split
      · rename_i replaced unfaulted moved
        have placed := opens.trans (.replace deep' deep moved)
        split
        · exact placed.trans (.remove _ deep)
        · exact placed
      · exact abandonWrite_top _ opens

private theorem complete_top (sha256 : Bytes → String) (bucket : String) (key : ObjectKey)
    (uploadId : StorageUploadId) (parts : List UploadedPart) (state : LocalState) :
    KeepsTop state.tree
      (completeMultipartUpload sha256 bucket key uploadId parts state).2.tree := by
  obtain ⟨deep, deep'⟩ := objectPath_deep bucket key
  unfold completeMultipartUpload
  dsimp only
  split
  · exact fun _ => id
  · rename_i tree made
    have parents := KeepsTop.mkdirParents made
    split
    · exact parents
    · rename_i opened written
      have opens := parents.trans (.writeFile deep' written)
      split
      · split
        · exact opens
        · rename_i replaced moved
          exact opens.trans (.replace deep' deep moved)
      · exact opens
      · exact opens

private theorem removeTree_top {tree : FileTree String Bytes} {bucket other : String}
    (different : other ≠ bucket) (there : tree.node? [other] = some .directory) :
    (tree.removeTree [bucket]).node? [other] = some .directory := by
  unfold FileTree.node? FileTree.removeTree at *
  simp only [List.cons_ne_nil, if_false] at *
  rw [FileTree.removeTree_lookup, if_neg, there]
  intro member
  have below := (List.mem_filter.mp member).2
  simp [different.symm] at below

def localBuckets (sha256 : Bytes → String) : BucketBackend (LocalStorageAdapter sha256) where
  hasBucket state bucket := state.tree.node? [bucket] = some .directory
  bucketExists_ok answer := by
    cases answer
    exact isDirectory_iff
  createBucket_ok := by
    intro bucket store store' created
    change createBucket bucket store = _ at created
    unfold createBucket at created
    split at created
    · cases created
    · cases created
      exact FileTree.node?_set_self _ (by simp) _
  createBucket_keeps := by
    intro other store bucket there
    change (createBucket bucket store).2.tree.node? [other] = _
    unfold createBucket
    split
    · exact there
    · by_cases same : [other] = [bucket]
      · rw [same]
        exact FileTree.node?_set_self _ (by simp) _
      · exact (FileTree.node?_set_of_ne _ same _).trans there
  deleteBucket_keeps := by
    intro bucket other store different there
    change (deleteBucket bucket store).2.tree.node? [other] = _
    unfold deleteBucket
    split
    · exact there
    · split
      · exact there
      · exact removeTree_top different there
  deleteBucket_error := by
    intro bucket store failure store' failed there
    change deleteBucket bucket store = _ at failed
    unfold deleteBucket at failed
    split at failed
    · cases failed
    · split at failed
      · cases failed; exact there
      · cases failed
  putObject_keeps bucket key stream contentType size checksum there :=
    putObject_top sha256 bucket key stream contentType size checksum _ _ there
  deleteObject_keeps := by
    intro other store bucket key there
    change (deleteObject bucket key store).2.tree.node? [other] = _
    unfold deleteObject
    dsimp only
    rw [← takeFault_tree store] at there
    split
    · rename_i unlinked
      exact KeepsTop.unlink (objectPath_deep bucket key).1 unlinked other there
    · exact there
    · exact there
  initiate_keeps _ _ _ _ there := there
  uploadPart_keeps := by
    intro other store bucket key uploadId number stream size checksum there
    change (uploadPart sha256 uploadId number stream size store).2.tree.node? [other] = _
    rw [(uploadPart_effect sha256 uploadId number stream size store).1]
    exact there
  complete_keeps bucket key uploadId parts there :=
    complete_top sha256 bucket key uploadId parts _ _ there
  abort_keeps _ _ _ there := there

end Local

section S3

open S3StorageAdapter

/-- What S3 documents about buckets; a `DeleteBucket` that fails has not taken effect. -/
structure S3Client.BucketLaws {σ : Type} (client : S3Client σ) (hasBucket : σ → String → Prop) :
    Prop where
  headBucket_ok : ∀ {bucket state}, client.headBucket bucket state = .ok () →
    hasBucket state bucket
  headBucket_missing : ∀ {bucket state code},
    client.headBucket bucket state = .error (.client code) →
      code = "404" ∨ code = "NotFound" ∨ code = "NoSuchBucket" → ¬ hasBucket state bucket
  createBucket_ok : ∀ {bucket state state'},
    client.createBucket bucket state = (.ok (), state') → hasBucket state' bucket
  createBucket_keeps : ∀ {other state} bucket,
    hasBucket state other → hasBucket (client.createBucket bucket state).2 other
  deleteBucket_keeps : ∀ {bucket other state}, other ≠ bucket →
    hasBucket state other → hasBucket (client.deleteBucket bucket state).2 other
  deleteBucket_error : ∀ {bucket state error state'},
    client.deleteBucket bucket state = (.error error, state') →
      hasBucket state bucket → hasBucket state' bucket
  putObject_keeps : ∀ {other state} bucket key body,
    hasBucket state other → hasBucket (client.putObject bucket key body state).2 other
  deleteObject_keeps : ∀ {other state} bucket key,
    hasBucket state other → hasBucket (client.deleteObject bucket key state).2 other
  createMultipartUpload_keeps : ∀ {other state} bucket key,
    hasBucket state other → hasBucket (client.createMultipartUpload bucket key state).2 other
  uploadPart_keeps : ∀ {other state} bucket key uploadId number body, hasBucket state other →
    hasBucket (client.uploadPart bucket key uploadId number body state).2 other
  completeMultipartUpload_keeps : ∀ {other state} bucket key uploadId parts,
    hasBucket state other →
      hasBucket (client.completeMultipartUpload bucket key uploadId parts state).2 other
  abortMultipartUpload_keeps : ∀ {other state} bucket key uploadId, hasBucket state other →
    hasBucket (client.abortMultipartUpload bucket key uploadId state).2 other

theorem deleteBucket_state {σ : Type} (client : S3Client σ) (bucket : String) (state : σ) :
    (deleteBucket client bucket state).2 = (client.deleteBucket bucket state).2 := by
  unfold deleteBucket
  rcases client.deleteBucket bucket state with ⟨(code | _) | _, after⟩
  · dsimp only; split_ifs <;> rfl
  · rfl
  · rfl

theorem createBucket_state {σ : Type} (client : S3Client σ) (bucket : String) (state : σ) :
    (createBucket client bucket state).2 = (client.createBucket bucket state).2 := by
  unfold createBucket
  rcases client.createBucket bucket state with ⟨(code | _) | _, after⟩
  · dsimp only; split_ifs <;> rfl
  · rfl
  · rfl

theorem putObject_state {σ : Type} (client : S3Client σ) (sha256 : Bytes → String)
    (bucket : String) (key : ObjectKey) (stream : Bytes) (contentType : Option String)
    (size : Option Nat) (checksum : Option String) (state : σ) :
    (putObject client sha256 bucket key stream contentType size checksum state).2 =
      (client.putObject bucket key stream state).2 := by
  unfold putObject
  rcases client.putObject bucket key stream state with ⟨_ | _, after⟩
  · rfl
  · dsimp only; split <;> rfl

def s3Buckets (sha256 : Bytes → String) (pages : Nat) {σ : Type} {client : S3Client σ}
    {hasBucket : σ → String → Prop} (laws : client.BucketLaws hasBucket) :
    BucketBackend (S3StorageAdapter sha256 pages client) where
  hasBucket := hasBucket
  bucketExists_ok := by
    intro bucket store answer read
    change bucketExists client bucket store = _ at read
    unfold bucketExists at read
    split at read
    · rename_i found
      cases read
      exact iff_of_true rfl (laws.headBucket_ok found)
    · rename_i code refused
      split at read
      · rename_i missing
        cases read
        exact iff_of_false (by simp) (laws.headBucket_missing refused missing)
      · cases read
    · cases read
  createBucket_ok := by
    intro bucket store store' created
    change createBucket client bucket store = _ at created
    have ok : client.createBucket bucket store = (.ok (), store') := by
      unfold createBucket at created
      rcases answer : client.createBucket bucket store with ⟨(code | _) | _, after⟩ <;>
        rw [answer] at created
      · dsimp only at created
        split_ifs at created <;> cases created
      · cases created
      · cases created
        rfl
    exact laws.createBucket_ok ok
  createBucket_keeps := by
    intro other store bucket there
    change hasBucket (createBucket client bucket store).2 other
    rw [createBucket_state]
    exact laws.createBucket_keeps bucket there
  deleteBucket_keeps := by
    intro bucket other store different there
    change hasBucket (deleteBucket client bucket store).2 other
    rw [deleteBucket_state]
    exact laws.deleteBucket_keeps different there
  deleteBucket_error := by
    intro bucket store failure store' failed there
    change deleteBucket client bucket store = _ at failed
    have refused : ∃ error, client.deleteBucket bucket store = (.error error, store') := by
      unfold deleteBucket at failed
      rcases answer : client.deleteBucket bucket store with ⟨(code | _) | _, after⟩ <;>
        rw [answer] at failed
      · dsimp only at failed
        split_ifs at failed <;> cases failed
        · exact ⟨_, rfl⟩
        · exact ⟨_, rfl⟩
      · cases failed
        exact ⟨_, rfl⟩
      · cases failed
    obtain ⟨error, refused⟩ := refused
    exact laws.deleteBucket_error refused there
  putObject_keeps := by
    intro other store bucket key stream contentType size checksum there
    change hasBucket
      (putObject client sha256 bucket key stream contentType size checksum store).2 other
    rw [putObject_state]
    exact laws.putObject_keeps bucket key stream there
  deleteObject_keeps := by
    intro other store bucket key there
    change hasBucket (call (client.deleteObject bucket key store) id).2 other
    rw [call_state]
    exact laws.deleteObject_keeps bucket key there
  initiate_keeps := by
    intro other store bucket key contentType metadata there
    change hasBucket (call (client.createMultipartUpload bucket key store) id).2 other
    rw [call_state]
    exact laws.createMultipartUpload_keeps bucket key there
  uploadPart_keeps := by
    intro other store bucket key uploadId number stream size checksum there
    change hasBucket (call (client.uploadPart bucket key uploadId number stream store) _).2 other
    rw [call_state]
    exact laws.uploadPart_keeps bucket key uploadId number stream there
  complete_keeps := by
    intro other store bucket key uploadId parts there
    change hasBucket
      (call (client.completeMultipartUpload bucket key uploadId (completionPayload parts) store)
        _).2 other
    rw [call_state]
    exact laws.completeMultipartUpload_keeps bucket key uploadId _ there
  abort_keeps := by
    intro other store bucket key uploadId there
    change hasBucket (call (client.abortMultipartUpload bucket key uploadId store) id).2 other
    rw [call_state]
    exact laws.abortMultipartUpload_keeps bucket key uploadId there

/-- The service in memory has the buckets it lists. -/
theorem memory_bucketLaws (md5 : Bytes → String) :
    (MemoryS3.client md5).BucketLaws fun state bucket => bucket ∈ state.buckets where
  headBucket_ok := by
    intro bucket state found
    change (if bucket ∈ state.buckets then _ else _) = _ at found
    split at found
    · assumption
    · cases found
  headBucket_missing := by
    intro bucket state code refused _ there
    change (if bucket ∈ state.buckets then _ else _) = _ at refused
    rw [if_pos there] at refused
    cases refused
  createBucket_ok := by
    intro bucket state state' created
    change MemoryS3.createBucket bucket state = _ at created
    unfold MemoryS3.createBucket at created
    split at created
    · cases created
    · cases created; simp
  createBucket_keeps := by
    intro other state bucket there
    change other ∈ (MemoryS3.createBucket bucket state).2.buckets
    unfold MemoryS3.createBucket
    split
    · exact there
    · exact List.mem_cons_of_mem _ there
  deleteBucket_keeps := by
    intro bucket other state different there
    change other ∈ (MemoryS3.deleteBucket bucket state).2.buckets
    unfold MemoryS3.deleteBucket
    split_ifs
    · exact there
    · exact (List.mem_erase_of_ne different).mpr there
    · exact there
  deleteBucket_error := by
    intro bucket state error state' failed there
    change MemoryS3.deleteBucket bucket state = _ at failed
    unfold MemoryS3.deleteBucket at failed
    split_ifs at failed
    · cases failed; exact there
    · cases failed
  putObject_keeps := by
    intro other state bucket key body there
    change other ∈ (MemoryS3.putObject md5 bucket key body state).2.buckets
    unfold MemoryS3.putObject
    split <;> exact there
  deleteObject_keeps _ _ there := there
  createMultipartUpload_keeps := by
    intro other state bucket key there
    change other ∈ (MemoryS3.createMultipartUpload bucket key state).2.buckets
    unfold MemoryS3.createMultipartUpload
    split <;> exact there
  uploadPart_keeps := by
    intro other state bucket key uploadId number body there
    change other ∈ (MemoryS3.uploadPart md5 uploadId number body state).2.buckets
    unfold MemoryS3.uploadPart
    split
    · exact there
    · split <;> exact there
  completeMultipartUpload_keeps := by
    intro other state bucket key uploadId parts there
    change other ∈ (MemoryS3.completeMultipartUpload md5 bucket key uploadId parts state).2.buckets
    unfold MemoryS3.completeMultipartUpload
    split
    · exact there
    · split <;> exact there
  abortMultipartUpload_keeps _ _ _ there := there

end S3

end PyUploadX
