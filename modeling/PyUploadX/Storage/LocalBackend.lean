import PyUploadX.Storage.Backend
import PyUploadX.Storage.LocalPut

/-! The local adapter keeps the laws. -/
namespace PyUploadX

open Kit

namespace LocalStorageAdapter

def view : StoreView LocalState where
  object? state bucket key := state.tree.file? (objectPath bucket key)
  hasPart state _ _ uploadId number := number ∈ partFiles state uploadId
  issued _ _ := True
  scratch? key := some key.temporary

/-- Paths other than an object's own and its temporary one. -/
theorem elsewhere {bucket bucket' : String} {key key' : ObjectKey}
    (aside : ¬ (bucket' = bucket ∧ (key' = key ∨ view.scratch? key = some key'))) :
    objectPath bucket' key' ≠ objectPath bucket key ∧
      objectPath bucket' key' ≠ temporaryPath (objectPath bucket key) := by
  constructor
  · intro same
    obtain ⟨sameBucket, sameKey⟩ := objectPath_injective same
    exact aside ⟨sameBucket, .inl sameKey⟩
  · rw [temporaryPath_objectPath]
    intro same
    obtain ⟨sameBucket, sameKey⟩ := objectPath_injective same
    exact aside ⟨sameBucket, .inr (by rw [sameKey]; rfl)⟩

/-- However a put ends, it touches no file but the object's and its temporary one. -/
theorem putObject_effect (sha256 : Bytes → String) (bucket : String) (key : ObjectKey)
    (stream : Bytes) (contentType : Option String) (size : Option Nat)
    (checksum : Option String) (state : LocalState) :
    (putObject sha256 bucket key stream contentType size checksum state).2.staging =
        state.staging ∧
      ∀ path, path ≠ objectPath bucket key → path ≠ temporaryPath (objectPath bucket key) →
        (putObject sha256 bucket key stream contentType size checksum state).2.tree.file? path =
          state.tree.file? path := by
  obtain ⟨result, state', done, staging, outcome⟩ :=
    putObject_outcome sha256 bucket key stream contentType size checksum state
  rw [done, temporaryPath_objectPath]
  refine ⟨staging, fun path own temporary => ?_⟩
  dsimp only
  generalize state'.tree.file? = files at outcome
  cases outcome with
  | unopened failure closed => rfl
  | interrupted failure opens stopped => exact if_neg temporary
  | mismatched opens ran mismatch => exact if_neg (not_or.mpr ⟨own, temporary⟩)
  | stored object opens ran matched => exact (if_neg own).trans (if_neg temporary)

theorem Copied.write_append (copied : Copied) (first second : Bytes) :
    copied.write (first ++ second) = (copied.write first).write second := by
  simp [Copied.write, Nat.add_assoc]

/-- The contents of the named part files, one after the other. -/
def contents (files : PartFiles) (parts : List UploadedPart) : Bytes :=
  parts.flatMap fun part => (files.lookup part.partNumber).getD []

theorem mergeParts_present {files : PartFiles} {parts : List UploadedPart}
    (present : ∀ part ∈ parts, part.partNumber ∈ files) (copied : Copied) :
    mergeParts files parts copied = .ok (copied.write (contents files parts)) := by
  induction parts generalizing copied with
  | nil => simp [mergeParts, contents, Copied.write]
  | cons part rest ih =>
    have inTable := present part (by simp)
    rw [← AList.lookup_isSome, Option.isSome_iff_exists] at inTable
    obtain ⟨content, found⟩ := inTable
    rw [mergeParts]
    simp only [found]
    rw [ih fun other member => present other (List.mem_cons_of_mem part member), copyStream_eq,
      ← Copied.write_append]
    simp [contents, found]

theorem mergeParts_ok {files : PartFiles} {parts : List UploadedPart} {copied merged : Copied}
    (done : mergeParts files parts copied = .ok merged) :
    ∀ part ∈ parts, part.partNumber ∈ files := by
  induction parts generalizing copied with
  | nil => simp
  | cons part rest ih =>
    rw [mergeParts] at done
    cases found : files.lookup part.partNumber with
    | none => simp only [found] at done; cases done
    | some content =>
      simp only [found] at done
      intro other member
      rcases List.mem_cons.mp member with head | later
      · rw [head, ← AList.lookup_isSome, found]
        rfl
      · exact ih done other later

theorem partFiles_dropStaging (state : LocalState) (uploadId other : StorageUploadId) :
    partFiles (dropStaging state uploadId) other =
      if other = uploadId then ∅ else partFiles state other := by
  unfold partFiles dropStaging
  by_cases same : other = uploadId
  · subst same; simp
  · simp [same, AList.lookup_erase_ne same]

theorem partFiles_setPartFiles (state : LocalState) (uploadId other : StorageUploadId)
    (files : PartFiles) : partFiles (setPartFiles state uploadId files) other =
      if other = uploadId then files else partFiles state other := by
  unfold partFiles setPartFiles
  by_cases same : other = uploadId
  · subst same; simp
  · simp [same, AList.lookup_insert_ne same]

/-- However a completion ends, it touches no file but the object's and its temporary one. -/
theorem complete_effect (sha256 : Bytes → String) (bucket : String) (key : ObjectKey)
    (uploadId : StorageUploadId) (parts : List UploadedPart) (state : LocalState) :
    let state' := (completeMultipartUpload sha256 bucket key uploadId parts state).2
    (∀ other, partFiles state' other = partFiles state other ∨ partFiles state' other = ∅) ∧
      ∀ path, path ≠ objectPath bucket key → path ≠ temporaryPath (objectPath bucket key) →
        state'.tree.file? path = state.tree.file? path := by
  have dropped : ∀ (tree : FileTree String Bytes) other,
      partFiles { dropStaging (takeFault state).2 uploadId with tree } other =
          partFiles state other ∨
        partFiles { dropStaging (takeFault state).2 uploadId with tree } other = ∅ := by
    intro tree other
    have files := partFiles_dropStaging (takeFault state).2 uploadId other
    have same : partFiles (takeFault state).2 other = partFiles state other := by
      unfold partFiles; rw [takeFault_staging]
    by_cases named : other = uploadId
    · exact .inr (by rw [if_pos named] at files; exact files)
    · exact .inl (by rw [if_neg named, same] at files; exact files)
  unfold completeMultipartUpload
  dsimp only
  split
  · exact ⟨fun _ => .inl rfl, fun _ _ _ => rfl⟩
  · rename_i tree made
    have directories := FileTree.mkdirParents_file? made
    split
    · exact ⟨dropped tree, fun path _ _ => directories path⟩
    · rename_i opened written
      have opens : ∀ path, path ≠ temporaryPath (objectPath bucket key) →
          opened.file? path = state.tree.file? path := fun path temporary =>
        (FileTree.writeFile_file? written temporary).trans (directories path)
      split
      · split
        · exact ⟨dropped opened, fun path _ temporary => opens path temporary⟩
        · rename_i replaced moved
          refine ⟨dropped replaced, fun path own temporary => ?_⟩
          rw [FileTree.replace_file? moved temporary own]
          exact opens path temporary
      · exact ⟨dropped opened, fun path _ temporary => opens path temporary⟩
      · exact ⟨dropped opened, fun path _ temporary => opens path temporary⟩

/-- A completed upload is the contents of its part files, all of which were there. -/
theorem complete_ok {sha256 : Bytes → String} {bucket : String} {key : ObjectKey}
    {uploadId : StorageUploadId} {parts : List UploadedPart} {state state' : LocalState}
    {stored : StoredObject}
    (done : completeMultipartUpload sha256 bucket key uploadId parts state = (.ok stored, state')) :
    state'.tree.file? (objectPath bucket key) =
        some (contents (partFiles state uploadId) (sortedParts parts)) ∧
      ∀ part ∈ parts, part.partNumber ∈ partFiles state uploadId := by
  have files : partFiles (takeFault state).2 uploadId = partFiles state uploadId := by
    unfold partFiles; rw [takeFault_staging]
  unfold completeMultipartUpload at done
  dsimp only at done
  rw [files] at done
  split at done
  · cases done
  · split at done
    · cases done
    · rename_i opened written
      split at done
      · rename_i copied unfaulted merged
        have present := mergeParts_ok merged
        split at done
        · cases done
        · rename_i replaced moved
          cases done
          rw [mergeParts_present present] at merged
          cases merged
          rw [unfaulted, mergeParts_present present] at written
          obtain ⟨content, source, _, rfl⟩ := FileTree.replace_eq_ok.mp moved
          obtain ⟨_, _, rfl⟩ := FileTree.writeFile_eq_ok.mp written
          have temporary : temporaryPath (objectPath bucket key) ≠ [] := by
            rw [temporaryPath_objectPath]; exact objectPath_ne_nil _ _
          rw [FileTree.node?_set_self _ temporary] at source
          cases source
          refine ⟨?_, fun part member => present part (by simpa [sortedParts] using member)⟩
          simp only
          rw [FileTree.file?_set_file _ (objectPath_ne_nil bucket key)]
          simp [Copied.write]
      · cases done
      · cases done

/-- Without an I/O error a completion fails only for a missing part file, or where the file
of the object cannot be put in place. -/
theorem complete_run (sha256 : Bytes → String) {bucket : String} {key : ObjectKey}
    {uploadId : StorageUploadId} {parts : List UploadedPart} {state : LocalState}
    (present : ∀ part ∈ parts, part.partNumber ∈ partFiles state uploadId)
    (opens : Opens state bucket key) (ran : ¬ Interrupted state bucket key) :
    ∃ stored state',
      completeMultipartUpload sha256 bucket key uploadId parts state = (.ok stored, state') := by
  obtain ⟨unfaulted, free⟩ := not_or.mp ran
  have files : partFiles (takeFault state).2 uploadId = partFiles state uploadId := by
    unfold partFiles; rw [takeFault_staging]
  have merged : mergeParts (partFiles state uploadId) (sortedParts parts) {} =
      .ok (Copied.write {} (contents (partFiles state uploadId) (sortedParts parts))) := by
    apply mergeParts_present
    intro part member
    exact present part ((List.mem_insertionSort _).mp member)
  obtain ⟨tree, made⟩ := opens.1
  have opened := (opens_iff_writeFile (Copied.write {}
    (contents (partFiles state uploadId) (sortedParts parts))).out made).mp opens
  obtain ⟨opened, wrote⟩ := opened
  have own : opened.node? (objectPath bucket key) ≠ some .directory := by
    obtain ⟨_, _, rfl⟩ := FileTree.writeFile_eq_ok.mp wrote
    rw [FileTree.node?_set_of_ne _ (temporary_ne bucket key).symm,
      FileTree.mkdirParents_deeper made (dropLast_objectPath_length bucket key).1]
    exact free
  have source : ∃ content, opened.node? (objectPath bucket key.temporary) = some (.file content) := by
    obtain ⟨_, _, rfl⟩ := FileTree.writeFile_eq_ok.mp wrote
    exact ⟨_, FileTree.node?_set_self _ (objectPath_ne_nil bucket key.temporary) _⟩
  obtain ⟨content, source⟩ := source
  have moved : ∃ replaced, opened.replace (objectPath bucket key.temporary)
      (objectPath bucket key) = .ok replaced :=
    ⟨_, FileTree.replace_eq_ok.mpr ⟨content, source, own, rfl⟩⟩
  obtain ⟨replaced, moved⟩ := moved
  unfold completeMultipartUpload
  simp only [temporaryPath_objectPath, made, files, merged, not_not.mp unfaulted,
    Option.getD_none, List.take_length, wrote, moved]
  exact ⟨_, _, rfl⟩

theorem uploadPart_effect (sha256 : Bytes → String) (uploadId : StorageUploadId) (number : Nat)
    (stream : Bytes) (size : Nat) (state : LocalState) :
    let state' := (uploadPart sha256 uploadId number stream size state).2
    state'.tree = state.tree ∧ ∀ other, other ≠ uploadId →
      partFiles state' other = partFiles state other := by
  have files : ∀ other, partFiles (takeFault state).2 other = partFiles state other := by
    intro other; unfold partFiles; rw [takeFault_staging]
  have set : ∀ contents : PartFiles,
      (setPartFiles (takeFault state).2 uploadId contents).tree = state.tree ∧
        ∀ other, other ≠ uploadId →
          partFiles (setPartFiles (takeFault state).2 uploadId contents) other =
            partFiles state other := by
    intro contents
    refine ⟨takeFault_tree state, fun other different => ?_⟩
    rw [partFiles_setPartFiles, if_neg different, files]
  unfold uploadPart
  dsimp only
  split
  · exact set _
  · split <;> exact set _

/-- A part whose declared size is its own fails only by an I/O error. -/
theorem uploadPart_run (sha256 : Bytes → String) (uploadId : StorageUploadId) (number : Nat)
    (stream : Bytes) (state : LocalState) :
    uploadPart sha256 uploadId number stream stream.length state =
      if (takeFault state).1 = none then
        (.ok { partNumber := number, etag := sha256 stream, sizeBytes := stream.length,
               checksumSha256 := some (sha256 stream) },
          setPartFiles (takeFault state).2 uploadId
            ((partFiles state uploadId).insert number stream))
      else
        (.error (.api (.storageUnavailable "local part write failed")),
          setPartFiles (takeFault state).2 uploadId ((partFiles state uploadId).erase number)) := by
  have files : partFiles (takeFault state).2 uploadId = partFiles state uploadId := by
    unfold partFiles; rw [takeFault_staging]
  unfold uploadPart
  simp only [copyStream_eq, files, Copied.write, List.nil_append, Nat.zero_add, ne_eq,
    not_true_eq_false, if_false]
  by_cases fault : (takeFault state).1 = none
  · rw [if_pos fault, if_neg (not_not.mpr fault)]
  · rw [if_neg fault, if_pos fault]

private theorem uploadPart_files (sha256 : Bytes → String) (uploadId : StorageUploadId) (number : Nat)
    (stream : Bytes) (size : Nat) (state : LocalState) {other : Nat}
    (member : other ∈ partFiles (uploadPart sha256 uploadId number stream size state).2 uploadId) :
    other ∈ partFiles state uploadId ∨ other = number := by
  have files : partFiles (takeFault state).2 uploadId = partFiles state uploadId := by
    unfold partFiles; rw [takeFault_staging]
  unfold uploadPart at member
  dsimp only at member
  split_ifs at member <;> rw [partFiles_setPartFiles, if_pos rfl, files] at member
  · exact .inl (AList.mem_erase.mp member).2
  · exact .inl (AList.mem_erase.mp member).2
  · exact ((AList.mem_insert _).mp member).symm

theorem putObject_ok {sha256 : Bytes → String} {bucket : String} {key : ObjectKey}
    {stream : Bytes} {contentType : Option String} {size : Option Nat} {checksum : Option String}
    {state state' : LocalState} {stored : StoredObject}
    (done : putObject sha256 bucket key stream contentType size checksum state =
      (.ok stored, state')) :
    state'.tree.file? (objectPath bucket key) = some stream := by
  obtain ⟨result, after, put, _, outcome⟩ :=
    putObject_outcome sha256 bucket key stream contentType size checksum state
  rw [done] at put
  cases put
  generalize state'.tree.file? = files at outcome
  cases outcome with
  | stored object opens ran matched => exact if_pos rfl

theorem deleteObject_effect (bucket : String) (key : ObjectKey) (state : LocalState) :
    (deleteObject bucket key state).2.staging = state.staging ∧
      ∀ path, path ≠ objectPath bucket key →
        (deleteObject bucket key state).2.tree.file? path = state.tree.file? path := by
  unfold deleteObject
  dsimp only
  rw [← takeFault_staging state, ← takeFault_tree state]
  split
  · rename_i tree unfaulted unlinked
    refine ⟨rfl, fun path different => ?_⟩
    rw [FileTree.unlink_file? unlinked, if_neg different]
  · exact ⟨rfl, fun _ _ => rfl⟩
  · exact ⟨rfl, fun _ _ => rfl⟩

theorem deleteObject_error {bucket : String} {key : ObjectKey} {state state' : LocalState}
    {failure : Failure} (failed : deleteObject bucket key state = (.error failure, state')) :
    state'.tree = state.tree := by
  unfold deleteObject at failed
  dsimp only at failed
  split at failed
  · cases failed
  · cases failed; exact takeFault_tree state
  · cases failed; exact takeFault_tree state

theorem createBucket_effect (bucket : String) (state : LocalState) :
    (createBucket bucket state).2.staging = state.staging ∧
      ∀ path, (createBucket bucket state).2.tree.file? path = state.tree.file? path := by
  unfold createBucket
  split
  · exact ⟨rfl, fun _ => rfl⟩
  · rename_i absent
    refine ⟨rfl, fun path => ?_⟩
    by_cases same : path = [bucket]
    · have empty : state.tree.node? path = none := by
        rw [same]; simpa [FileTree.exists?] using absent
      rw [FileTree.file?_eq_none.mpr (.inl empty), FileTree.file?_eq_none.mpr (.inr ?_)]
      rw [same]
      exact FileTree.node?_set_self _ (by simp) _
    · exact FileTree.file?_set_of_ne _ same _

theorem deleteBucket_effect (bucket : String) (state : LocalState) :
    (deleteBucket bucket state).2.staging = state.staging ∧
      ∀ path, (deleteBucket bucket state).2.tree.file? path = state.tree.file? path := by
  unfold deleteBucket
  split
  · exact ⟨rfl, fun _ => rfl⟩
  · split
    · exact ⟨rfl, fun _ => rfl⟩
    · rename_i empty
      exact ⟨rfl, fun path => FileTree.removeTree_file? (by simpa using empty) path⟩

theorem listParts_ok {uploadId : StorageUploadId} {state : LocalState} {parts : List UploadedPart}
    (listed : listParts uploadId state = .ok parts) :
    (parts.map (·.partNumber)).Nodup ∧
      ∀ number, number ∈ parts.map (·.partNumber) ↔ number ∈ partFiles state uploadId := by
  cases listed
  rw [List.map_map]
  have numbers : ∀ names : List Nat, names.map ((·.partNumber) ∘ fun partNumber =>
      ({ partNumber, etag := "", sizeBytes := (((partFiles state uploadId).lookup
        partNumber).getD []).length } : UploadedPart)) = names := by
    intro names
    simp [Function.comp_def]
  rw [numbers]
  constructor
  · exact (List.perm_insertionSort _ _).nodup_iff.mpr (partFiles state uploadId).nodupKeys
  · intro number
    rw [List.mem_insertionSort]
    exact AList.mem_keys.symm

private theorem addsNoPart_of_files {state state' : LocalState}
    (files : ∀ uploadId, partFiles state' uploadId = partFiles state uploadId ∨
      partFiles state' uploadId = ∅) : view.AddsNoPart state state' := by
  intro _ _ uploadId number member
  change number ∈ partFiles state' uploadId at member
  rcases files uploadId with kept | dropped
  · rwa [kept] at member
  · rw [dropped] at member
    exact absurd member (AList.notMem_empty number)

private theorem addsNoPart_of_staging {state state' : LocalState}
    (same : state'.staging = state.staging) : view.AddsNoPart state state' :=
  addsNoPart_of_files fun _ => .inl (by unfold partFiles; rw [same])

end LocalStorageAdapter

open LocalStorageAdapter in
def localBackend (sha256 : Bytes → String) : Backend (LocalStorageAdapter sha256) where
  toStoreView := view
  putObject_effect bucket key stream contentType size checksum state := by
    obtain ⟨staging, files⟩ :=
      putObject_effect sha256 bucket key stream contentType size checksum state
    exact ⟨fun _ _ aside => files _ (elsewhere aside).1 (elsewhere aside).2, fun _ _ => trivial,
      addsNoPart_of_staging staging⟩
  deleteObject_effect bucket key state := by
    obtain ⟨staging, files⟩ := deleteObject_effect bucket key state
    exact ⟨fun _ _ aside => files _ fun same => aside (objectPath_injective same),
      fun _ _ => trivial, addsNoPart_of_staging staging⟩
  initiate_effect _ _ _ _ _ := ⟨rfl, fun _ _ => trivial, fun _ _ _ _ member => member⟩
  uploadPart_effect bucket key uploadId number stream size checksum state := by
    obtain ⟨tree, others⟩ := uploadPart_effect sha256 uploadId number stream size state
    refine ⟨?_, fun _ _ => trivial, fun _ _ uploadId' number' member => ?_⟩
    · exact congrArg (fun (tree : FileTree String Bytes) bucket key =>
        tree.file? (objectPath bucket key)) tree
    · by_cases same : uploadId' = uploadId
      · subst same
        rcases uploadPart_files sha256 uploadId' number stream size state member with old | new
        · exact .inl old
        · exact .inr ⟨rfl, new⟩
      · exact .inl ((others uploadId' same).subst (motive := (number' ∈ ·)) member)
  complete_effect bucket key uploadId parts state := by
    obtain ⟨staging, files⟩ := complete_effect sha256 bucket key uploadId parts state
    exact ⟨fun _ _ aside => files _ (elsewhere aside).1 (elsewhere aside).2, fun _ _ => trivial,
      addsNoPart_of_files staging⟩
  abort_effect bucket key uploadId state := by
    refine ⟨rfl, fun _ _ => trivial, addsNoPart_of_files fun other => ?_⟩
    change partFiles (dropStaging state uploadId) other = _ ∨
      partFiles (dropStaging state uploadId) other = _
    rw [partFiles_dropStaging]
    split
    · exact .inr rfl
    · exact .inl rfl
  createBucket_effect bucket state := by
    obtain ⟨staging, files⟩ := createBucket_effect bucket state
    exact ⟨funext fun _ => funext fun _ => files _, fun _ _ => trivial,
      addsNoPart_of_staging staging⟩
  deleteBucket_effect bucket state := by
    obtain ⟨staging, files⟩ := deleteBucket_effect bucket state
    exact ⟨funext fun _ => funext fun _ => files _, fun _ _ => trivial,
      addsNoPart_of_staging staging⟩
  objectExists_false := by
    intro bucket key state absent
    have missing : state.tree.exists? (objectPath bucket key) = false := Except.ok.inj absent
    cases stored : state.tree.file? (objectPath bucket key) with
    | none => exact stored
    | some content => rw [FileTree.exists?_of_file stored] at missing; cases missing
  putObject_ok done := putObject_ok done
  deleteObject_error failed := congrArg (fun (tree : FileTree String Bytes) bucket key =>
    tree.file? (objectPath bucket key)) (deleteObject_error failed)
  initiate_fresh remote := by cases remote
  listParts_ok listed := listParts_ok listed
  complete_ok done := by
    obtain ⟨content, present⟩ := complete_ok done
    exact ⟨by rw [view]; simp only [content]; rfl, present⟩
  listParts_raises := by
    intro bucket key uploadId state missing raised
    cases raised
  complete_raises := by
    intro bucket key uploadId parts state missing raised
    change (completeMultipartUpload sha256 bucket key uploadId parts state).1 = _ at raised
    unfold completeMultipartUpload at raised
    dsimp only at raised
    split at raised
    · cases raised
    · split at raised
      · cases raised
      · split at raised
        · split at raised <;> cases raised
        · cases raised
        · cases raised

end PyUploadX
