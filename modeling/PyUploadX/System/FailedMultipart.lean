import PyUploadX.Services.Completion
import PyUploadX.Storage.LocalKeys

/-! What the part files of a session and its destination are after a multipart call that
raised. -/
namespace PyUploadX

open Kit

namespace LocalStorageAdapter

/-- Byte for byte the part files and the destination object of before. -/
structure FilesKept (bucket : String) (key : ObjectKey) (uploadId : StorageUploadId)
    (before after : LocalState) : Prop where
  parts : ∀ number,
    (partFiles after uploadId).lookup number = (partFiles before uploadId).lookup number
  destination :
    after.tree.file? (objectPath bucket key) = before.tree.file? (objectPath bucket key)

/-- The two calls that write for a multipart session. -/
inductive MultipartCall
  | uploadPart (partNumber : Nat) (stream : Bytes) (sizeBytes : Nat)
  | completeMultipartUpload (parts : List UploadedPart)

namespace MultipartCall

variable (sha256 : Bytes → String) (bucket : String) (key : ObjectKey)
  (uploadId : StorageUploadId) (state : LocalState)

def Raises : MultipartCall → Prop
  | uploadPart partNumber stream sizeBytes => ∃ failure,
    (LocalStorageAdapter.uploadPart sha256 uploadId partNumber stream sizeBytes state).1 =
      .error failure
  | completeMultipartUpload parts => ∃ failure,
    (LocalStorageAdapter.completeMultipartUpload sha256 bucket key uploadId parts state).1 =
      .error failure

/-- The state after a call, whether it returned or raised. -/
def after : MultipartCall → LocalState
  | uploadPart partNumber stream sizeBytes =>
    (LocalStorageAdapter.uploadPart sha256 uploadId partNumber stream sizeBytes state).2
  | completeMultipartUpload parts =>
    (LocalStorageAdapter.completeMultipartUpload sha256 bucket key uploadId parts state).2

/-- The cleanup of a failed call finds nothing to remove: no file of that part, no directory
for the object or no part at all. -/
def NothingToRemove : MultipartCall → Prop
  | uploadPart partNumber _ _ => partNumber ∉ partFiles state uploadId
  | completeMultipartUpload _ =>
    (∀ tree, state.tree.mkdirParents (objectPath bucket key).dropLast ≠ .ok tree) ∨
      ∀ number, number ∉ partFiles state uploadId

end MultipartCall

/-- Wherever `upload_part` fails, the file of the part is gone. -/
theorem uploadPart_failed {sha256 : Bytes → String} {uploadId : StorageUploadId}
    {partNumber : Nat} {stream : Bytes} {sizeBytes : Nat} {state : LocalState}
    {failure : Failure}
    (failed : (uploadPart sha256 uploadId partNumber stream sizeBytes state).1 =
      .error failure) :
    let state' := (uploadPart sha256 uploadId partNumber stream sizeBytes state).2
    state'.tree = state.tree ∧
      partFiles state' uploadId = (partFiles state uploadId).erase partNumber := by
  have files : partFiles (takeFault state).2 uploadId = partFiles state uploadId := by
    unfold partFiles
    rw [takeFault_staging]
  have erased : (setPartFiles (takeFault state).2 uploadId
        ((partFiles (takeFault state).2 uploadId).erase partNumber)).tree = state.tree ∧
      partFiles (setPartFiles (takeFault state).2 uploadId
        ((partFiles (takeFault state).2 uploadId).erase partNumber)) uploadId =
          (partFiles state uploadId).erase partNumber := by
    constructor
    · exact takeFault_tree state
    · rw [partFiles_setPartFiles, if_pos rfl, files]
  unfold uploadPart at failed ⊢
  simp only at failed ⊢
  split at failed
  · rename_i faulted
    rw [if_pos faulted]
    exact erased
  · rename_i unfaulted
    rw [if_neg unfaulted]
    split at failed
    · rename_i short
      rw [if_pos short]
      exact erased
    · cases failed

/-- Without a directory for the object, `complete_multipart_upload` does nothing. -/
theorem complete_unopened {sha256 : Bytes → String} {bucket : String} {key : ObjectKey}
    {uploadId : StorageUploadId} {parts : List UploadedPart} {state : LocalState} {errno : Errno}
    (refused : state.tree.mkdirParents (objectPath bucket key).dropLast = .error errno) :
    completeMultipartUpload sha256 bucket key uploadId parts state =
      (.error (.os errno), state) := by
  unfold completeMultipartUpload
  simp only [refused]

/-- With one, the staging directory goes, however the merge ends. -/
theorem complete_drops_parts (sha256 : Bytes → String) {bucket : String} {key : ObjectKey}
    (uploadId : StorageUploadId) (parts : List UploadedPart) {state : LocalState}
    {tree : FileTree String Bytes}
    (made : state.tree.mkdirParents (objectPath bucket key).dropLast = .ok tree) :
    partFiles (completeMultipartUpload sha256 bucket key uploadId parts state).2 uploadId = ∅ := by
  have dropped : ∀ tree : FileTree String Bytes,
      partFiles { dropStaging (takeFault state).2 uploadId with tree } uploadId = ∅ := by
    intro tree
    have files := partFiles_dropStaging (takeFault state).2 uploadId uploadId
    rw [if_pos rfl] at files
    exact files
  unfold completeMultipartUpload
  simp only [made]
  split
  · exact dropped _
  · split
    · split <;> exact dropped _
    · exact dropped _
    · exact dropped _

theorem complete_failed_destination {sha256 : Bytes → String} {bucket : String}
    {key : ObjectKey} {uploadId : StorageUploadId} {parts : List UploadedPart}
    {state : LocalState} {failure : Failure}
    (failed : (completeMultipartUpload sha256 bucket key uploadId parts state).1 =
      .error failure) :
    (completeMultipartUpload sha256 bucket key uploadId parts state).2.tree.file?
        (objectPath bucket key) = state.tree.file? (objectPath bucket key) := by
  have beside := temporary_ne bucket key
  obtain ⟨result, state', done, outcome⟩ :=
    completeMultipartUpload_outcome sha256 bucket key uploadId parts state
  rw [done] at failed ⊢
  simp only at failed ⊢
  generalize state'.tree.file? = files at outcome
  cases outcome with
  | unopened _ closed => rfl
  | brokenOff _ opens stopped => exact if_neg beside.symm
  | completed object opens ran => cases failed

private theorem uploadPart_failed_keeps_iff {sha256 : Bytes → String} {uploadId : StorageUploadId}
    {partNumber : Nat} {stream : Bytes} {sizeBytes : Nat} {state : LocalState}
    {failure : Failure} (bucket : String) (key : ObjectKey)
    (failed : (uploadPart sha256 uploadId partNumber stream sizeBytes state).1 =
      .error failure) :
    FilesKept bucket key uploadId state
        (uploadPart sha256 uploadId partNumber stream sizeBytes state).2 ↔
      partNumber ∉ partFiles state uploadId := by
  obtain ⟨tree, files⟩ := uploadPart_failed failed
  constructor
  · intro kept
    have own := kept.parts partNumber
    rw [files, AList.lookup_erase] at own
    exact AList.lookup_eq_none.mp own.symm
  · intro absent
    refine ⟨fun number => ?_, by rw [tree]⟩
    rw [files]
    by_cases own : number = partNumber
    · rw [own, AList.lookup_erase]
      exact (AList.lookup_eq_none.mpr absent).symm
    · exact AList.lookup_erase_ne own

private theorem complete_failed_keeps_iff {sha256 : Bytes → String} {bucket : String}
    {key : ObjectKey} {uploadId : StorageUploadId} {parts : List UploadedPart}
    {state : LocalState} {failure : Failure}
    (failed : (completeMultipartUpload sha256 bucket key uploadId parts state).1 =
      .error failure) :
    FilesKept bucket key uploadId state
        (completeMultipartUpload sha256 bucket key uploadId parts state).2 ↔
      (∀ tree, state.tree.mkdirParents (objectPath bucket key).dropLast ≠ .ok tree) ∨
        ∀ number, number ∉ partFiles state uploadId := by
  have destination := complete_failed_destination failed
  cases made : state.tree.mkdirParents (objectPath bucket key).dropLast with
  | error errno =>
    rw [complete_unopened made]
    exact iff_of_true ⟨fun _ => rfl, rfl⟩ (.inl (by simp))
  | ok tree =>
    have dropped := complete_drops_parts sha256 uploadId parts made
    constructor
    · intro kept
      refine .inr fun number => ?_
      have same := kept.parts number
      rw [dropped, AList.lookup_empty] at same
      exact AList.lookup_eq_none.mp same.symm
    · rintro (closed | empty)
      · exact absurd rfl (closed tree)
      · refine ⟨fun number => ?_, destination⟩
        rw [dropped, AList.lookup_empty]
        exact (AList.lookup_eq_none.mpr (empty number)).symm

/-- A call that raised keeps the files of its session exactly when its cleanup found nothing
to remove. -/
theorem raising_call_keeps_files_iff (sha256 : Bytes → String) (bucket : String)
    (key : ObjectKey) (uploadId : StorageUploadId) (state : LocalState) (call : MultipartCall)
    (raises : call.Raises sha256 bucket key uploadId state) :
    FilesKept bucket key uploadId state (call.after sha256 bucket key uploadId state) ↔
      call.NothingToRemove bucket key uploadId state := by
  obtain ⟨partNumber, stream, sizeBytes⟩ | parts := call
  · obtain ⟨failure, failed⟩ := raises
    exact uploadPart_failed_keeps_iff bucket key failed
  · obtain ⟨failure, failed⟩ := raises
    exact complete_failed_keeps_iff failed

/-- The first upload of a part, cut short. -/
theorem raising_call_keeps_files_small :
    FilesKept "files" smallKey (.session 0) {}
        ((MultipartCall.uploadPart 1 [1] 2).after (fun _ => "") "files" smallKey (.session 0) {}) ↔
      (MultipartCall.uploadPart 1 [1] 2).NothingToRemove "files" smallKey (.session 0) {} :=
  raising_call_keeps_files_iff (fun _ => "") "files" smallKey (.session 0) {} (.uploadPart 1 [1] 2)
    ⟨.value "part size mismatch", rfl⟩

/-- Two stored and committed parts, on a disk that fails after one more byte. -/
def failingDisk : World Database LocalState :=
  after smallLocalApp ⟨{}, { faults := [none, none, some 1] }⟩ storedRun

def smallMerge : MultipartCall :=
  .completeMultipartUpload
    [{ partNumber := 1, etag := "", sizeBytes := 2 }, { partNumber := 2, etag := "", sizeBytes := 2 }]

/-- The merge raises and takes both part files with it, as a repeated upload of part 1 takes
that one. The rows of the parts stay committed, so `complete` cannot be repeated. -/
theorem failed_call_loses_committed_parts :
    (smallMerge.Raises smallLocalApp.sha256 "files" smallKey (.session 0) failingDisk.store ∧
      ¬ FilesKept "files" smallKey (.session 0) failingDisk.store
        (smallMerge.after smallLocalApp.sha256 "files" smallKey (.session 0)
          failingDisk.store)) ∧
    ((MultipartCall.uploadPart 1 [1, 2] 2).Raises smallLocalApp.sha256 "files" smallKey
        (.session 0) failingDisk.store ∧
      ¬ FilesKept "files" smallKey (.session 0) failingDisk.store
        ((MultipartCall.uploadPart 1 [1, 2] 2).after smallLocalApp.sha256 "files" smallKey
          (.session 0) failingDisk.store)) ∧
    (let failed := serve smallLocalApp failingDisk (.complete smallTenant 0, 0);
      (failed.2.db.findUpload 0 "tenant").map (fun upload =>
          (upload.status, committedNumbers failed.2.db upload)) =
        some (.uploading, [1, 2]) ∧
      servedFile (serve smallLocalApp failed.2 (.complete smallTenant 0, 0)).1 = none) := by
  refine ⟨⟨⟨.os .io, rfl⟩, fun kept => ?_⟩,
    ⟨⟨.api (.storageUnavailable "local part write failed"), rfl⟩, fun kept => ?_⟩, by decide⟩
  · exact absurd (kept.parts 1) (by decide)
  · exact absurd (kept.parts 1) (by decide)

end LocalStorageAdapter

end PyUploadX
