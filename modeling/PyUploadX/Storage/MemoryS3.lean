import Mathlib.Data.List.AList
import PyUploadX.Storage.S3Backend

/-! An S3 service in memory. It shows that the documented laws can all be met, and the
deployments on S3 can be run on it. -/
namespace PyUploadX

structure MemoryS3 where
  buckets : List String := []
  objects : AList (fun _ : String × ObjectKey => Bytes) := ∅
  uploads : AList (fun _ : StorageUploadId => AList fun _ : Nat => Bytes) := ∅
  /-- The length of the next upload id. -/
  nextUpload : Nat := 1

namespace MemoryS3

variable (md5 : Bytes → String)

def quoted (text : String) : String := "\"" ++ text ++ "\""

def partsOf (state : MemoryS3) (uploadId : StorageUploadId) : AList fun _ : Nat => Bytes :=
  (state.uploads.lookup uploadId).getD ∅

def createBucket (bucket : String) (state : MemoryS3) : Except S3Error Unit × MemoryS3 :=
  if bucket ∈ state.buckets then (.error (.client "BucketAlreadyOwnedByYou"), state)
  else (.ok (), { state with buckets := bucket :: state.buckets })

def deleteBucket (bucket : String) (state : MemoryS3) : Except S3Error Unit × MemoryS3 :=
  if bucket ∉ state.buckets then (.error (.client "NoSuchBucket"), state)
  else if state.objects.keys.any (·.1 = bucket) then (.error (.client "BucketNotEmpty"), state)
  else (.ok (), { state with buckets := state.buckets.erase bucket })

def putObject (bucket : String) (key : ObjectKey) (body : Bytes) (state : MemoryS3) :
    Except S3Error (Option String) × MemoryS3 :=
  if bucket ∈ state.buckets then
    (.ok (some (quoted (md5 body))),
      { state with objects := state.objects.insert (bucket, key) body })
  else (.error (.client "NoSuchBucket"), state)

/-- The bytes from `start` to `last`; there must be one. -/
def cutRange (range : S3Range) (body : Bytes) : Except S3Error Bytes :=
  if body.length ≤ range.start then .error (.client "InvalidRange")
  else
    .ok (match range.last with
      | none => body.drop range.start
      | some last => (body.drop range.start).take (last + 1 - range.start).toNat)

def getObject (bucket : String) (key : ObjectKey) (range : Option S3Range) (state : MemoryS3) :
    Except S3Error Bytes :=
  if bucket ∈ state.buckets then
    match state.objects.lookup (bucket, key), range with
    | none, _ => .error (.client "NoSuchKey")
    | some body, none => .ok body
    | some body, some range => cutRange range body
  else .error (.client "NoSuchBucket")

def deleteObject (bucket : String) (key : ObjectKey) (state : MemoryS3) :
    Except S3Error Unit × MemoryS3 :=
  (.ok (), { state with objects := state.objects.erase (bucket, key) })

def headObject (bucket : String) (key : ObjectKey) (state : MemoryS3) : Except S3Error Unit :=
  if (state.objects.lookup (bucket, key)).isSome then .ok () else .error (.client "404")

def createMultipartUpload (bucket : String) (_ : ObjectKey) (state : MemoryS3) :
    Except S3Error String × MemoryS3 :=
  if bucket ∈ state.buckets then
    let text := String.ofList (List.replicate state.nextUpload 'u')
    (.ok text,
      { state with
        uploads := state.uploads.insert (.issued text) ∅
        nextUpload := state.nextUpload + 1 })
  else (.error (.client "NoSuchBucket"), state)

def uploadPart (uploadId : StorageUploadId) (partNumber : Nat) (body : Bytes)
    (state : MemoryS3) : Except S3Error (Option String) × MemoryS3 :=
  match state.uploads.lookup uploadId with
  | none => (.error (.client "NoSuchUpload"), state)
  | some parts =>
    if partNumber = 0 then (.error (.client "InvalidArgument"), state)
    else
      (.ok (some (quoted (md5 body))),
        { state with uploads := state.uploads.insert uploadId (parts.insert partNumber body) })

def listParts (uploadId : StorageUploadId) (partNumberMarker : Nat) (state : MemoryS3) :
    Except S3Error ListPartsPage :=
  match state.uploads.lookup uploadId with
  | none => .error (.client "NoSuchUpload")
  | some parts =>
    .ok {
      parts := ((parts.keys.filter (partNumberMarker < ·)).insertionSort (· ≤ ·)).map
        fun partNumber => {
          partNumber
          etag := (parts.lookup partNumber).map fun body => quoted (md5 body)
          size := (parts.lookup partNumber).map (·.length) }
      isTruncated := false
      nextPartNumberMarker := none }

def completeMultipartUpload (bucket : String) (key : ObjectKey) (uploadId : StorageUploadId)
    (named : List (Nat × String)) (state : MemoryS3) :
    Except S3Error (Option String) × MemoryS3 :=
  match state.uploads.lookup uploadId with
  | none => (.error (.client "NoSuchUpload"), state)
  | some parts =>
    if named.all fun part => 0 < part.1 &&
        (parts.lookup part.1).any fun body => decide (quoted (md5 body) = part.2) then
      let body := named.flatMap fun part => (parts.lookup part.1).getD []
      (.ok (some (quoted (md5 body))),
        { state with
          objects := state.objects.insert (bucket, key) body
          uploads := state.uploads.erase uploadId })
    else (.error (.client "InvalidPart"), state)

def abortMultipartUpload (uploadId : StorageUploadId) (state : MemoryS3) :
    Except S3Error Unit × MemoryS3 :=
  (.ok (), { state with uploads := state.uploads.erase uploadId })

def client : S3Client MemoryS3 where
  createBucket := createBucket
  headBucket := fun bucket state =>
    if bucket ∈ state.buckets then .ok () else .error (.client "404")
  deleteBucket := deleteBucket
  putObject := putObject md5
  getObject := getObject
  deleteObject := deleteObject
  headObject := headObject
  createMultipartUpload := createMultipartUpload
  uploadPart := fun _ _ => uploadPart md5
  listParts := fun _ _ => listParts md5
  completeMultipartUpload := completeMultipartUpload md5
  abortMultipartUpload := fun _ _ => abortMultipartUpload
  generatePresignedUrl := fun _ _ => .ok ()

def view : StoreView MemoryS3 where
  object? state bucket key := state.objects.lookup (bucket, key)
  hasPart state _ _ uploadId number := 1 ≤ number ∧ number ∈ partsOf state uploadId
  issued state text := text.length < state.nextUpload
  scratch? _ := none

/-- A change that touches the objects only through one key. -/
theorem keepsOthers_of_objects {state state' : MemoryS3} {bucket : String} {key : ObjectKey}
    (others : ∀ path, path ≠ (bucket, key) →
      state'.objects.lookup path = state.objects.lookup path) :
    view.KeepsOthers bucket key state state' := by
  intro bucket' key' aside
  refine others (bucket', key') fun same => aside ?_
  obtain ⟨sameBucket, sameKey⟩ := Prod.mk.injEq _ _ _ _ ▸ same
  exact ⟨sameBucket, .inl sameKey⟩

private theorem addsNoPart_of_uploads {state state' : MemoryS3}
    (fewer : ∀ uploadId, partsOf state' uploadId = partsOf state uploadId ∨
      partsOf state' uploadId = ∅) : view.AddsNoPart state state' := by
  rintro _ _ uploadId number ⟨positive, member⟩
  rcases fewer uploadId with kept | dropped
  · exact ⟨positive, kept ▸ member⟩
  · rw [dropped] at member
    exact absurd member (AList.notMem_empty number)

theorem partsOf_insert (state : MemoryS3) (uploadId other : StorageUploadId)
    (parts : AList fun _ : Nat => Bytes) :
    partsOf { state with uploads := state.uploads.insert uploadId parts } other =
      if other = uploadId then parts else partsOf state other := by
  unfold partsOf
  by_cases same : other = uploadId
  · subst same; simp
  · simp [same, AList.lookup_insert_ne same]

private theorem partsOf_erase (state : MemoryS3) (uploadId other : StorageUploadId) :
    partsOf { state with uploads := state.uploads.erase uploadId } other =
      if other = uploadId then ∅ else partsOf state other := by
  unfold partsOf
  by_cases same : other = uploadId
  · subst same; simp
  · simp [same, AList.lookup_erase_ne same]

theorem keeps_of_same {state state' : MemoryS3} (objects : state'.objects = state.objects)
    (uploads : state'.uploads = state.uploads) (next : state'.nextUpload = state.nextUpload) :
    view.KeepsObjects state state' ∧ view.KeepsIssued state state' ∧
      view.AddsNoPart state state' := by
  refine ⟨?_, fun text known => ?_, addsNoPart_of_uploads fun uploadId => .inl ?_⟩
  · unfold StoreView.KeepsObjects view
    simp only [objects]
  · change text.length < _
    rw [next]
    exact known
  · unfold partsOf
    rw [uploads]

private theorem others_of_same {state state' : MemoryS3} {bucket : String} {key : ObjectKey}
    (same : state' = state) : view.KeepsOthers bucket key state state' ∧
      view.KeepsIssued state state' ∧ view.AddsNoPart state state' := by
  subst same
  exact ⟨fun _ _ _ => rfl, fun _ => id, fun _ _ _ _ => id⟩

theorem putObject_effect (bucket : String) (key : ObjectKey) (body : Bytes) (state : MemoryS3) :
    view.KeepsOthers bucket key state (putObject md5 bucket key body state).2 ∧
      view.KeepsIssued state (putObject md5 bucket key body state).2 ∧
      view.AddsNoPart state (putObject md5 bucket key body state).2 := by
  unfold putObject
  split
  · exact ⟨keepsOthers_of_objects fun path different => AList.lookup_insert_ne different,
      fun _ => id, addsNoPart_of_uploads fun _ => .inl rfl⟩
  · exact others_of_same rfl

theorem createMultipartUpload_effect (bucket : String) (key : ObjectKey) (state : MemoryS3) :
    view.KeepsObjects state (createMultipartUpload bucket key state).2 ∧
      view.KeepsIssued state (createMultipartUpload bucket key state).2 ∧
      view.AddsNoPart state (createMultipartUpload bucket key state).2 := by
  unfold createMultipartUpload
  split
  · refine ⟨rfl, fun text known => Nat.lt_succ_of_lt known,
      addsNoPart_of_uploads fun uploadId => ?_⟩
    have parts := partsOf_insert state (.issued (String.ofList
      (List.replicate state.nextUpload 'u'))) uploadId ∅
    split at parts
    · exact .inr parts
    · exact .inl parts
  · exact keeps_of_same rfl rfl rfl

theorem uploadPart_effect (uploadId : StorageUploadId) (number : Nat) (body : Bytes)
    (state : MemoryS3) :
    view.KeepsObjects state (uploadPart md5 uploadId number body state).2 ∧
      view.KeepsIssued state (uploadPart md5 uploadId number body state).2 ∧
      view.AddsPart uploadId number state (uploadPart md5 uploadId number body state).2 := by
  have unchanged : view.AddsPart uploadId number state state := fun _ _ _ _ => .inl
  unfold uploadPart
  split
  · exact ⟨rfl, fun _ => id, unchanged⟩
  · rename_i parts found
    split
    · exact ⟨rfl, fun _ => id, unchanged⟩
    · refine ⟨rfl, fun _ => id, ?_⟩
      rintro _ _ other number' ⟨positive, member⟩
      change number' ∈ partsOf { state with uploads := state.uploads.insert uploadId _ } other
        at member
      rw [partsOf_insert] at member
      split at member
      · rename_i same
        subst same
        rcases (AList.mem_insert _).mp member with new | old
        · exact .inr ⟨rfl, new⟩
        · refine .inl ⟨positive, ?_⟩
          unfold partsOf
          rw [found]
          exact old
      · exact .inl ⟨positive, member⟩

private theorem listParts_page {uploadId : StorageUploadId} {marker : Nat} {state : MemoryS3}
    {page : ListPartsPage} (listed : listParts md5 uploadId marker state = .ok page) :
    page.Of (fun number => 1 ≤ number ∧ number ∈ partsOf state uploadId) marker := by
  unfold listParts at listed
  split at listed
  · cases listed
  · rename_i parts found
    cases listed
    have numbers : ∀ keys : List Nat, (keys.map fun partNumber => ({
        partNumber
        etag := (parts.lookup partNumber).map fun body => quoted (md5 body)
        size := (parts.lookup partNumber).map (·.length) } : S3Part)).map (·.partNumber) =
        keys := by
      intro keys
      simp [Function.comp_def]
    have members : ∀ number,
        number ∈ (parts.keys.filter (marker < ·)).insertionSort (· ≤ ·) ↔
          number ∈ partsOf state uploadId ∧ marker < number := by
      intro number
      unfold partsOf
      rw [List.mem_insertionSort, List.mem_filter, AList.mem_keys, found]
      simp
    constructor <;> dsimp only
    · rw [numbers]
      have sorted := List.pairwise_insertionSort (· ≤ ·) (parts.keys.filter (marker < ·))
      have nodup := (List.perm_insertionSort (· ≤ ·) (parts.keys.filter (marker < ·))).nodup_iff.mpr
        (parts.nodupKeys.filter _)
      exact (sorted.and nodup).imp fun both => lt_of_le_of_ne both.1 both.2
    · rw [numbers]
      intro number member
      obtain ⟨present, above⟩ := (members number).mp member
      exact ⟨above, Nat.succ_le_of_lt (Nat.zero_lt_of_lt above), present⟩
    · rw [numbers]
      intro _ number stored above
      exact (members number).mpr ⟨stored.2, above⟩
    · intro truncated
      cases truncated

theorem completeMultipartUpload_effect (bucket : String) (key : ObjectKey)
    (uploadId : StorageUploadId) (named : List (Nat × String)) (state : MemoryS3) :
    view.KeepsOthers bucket key state
        (completeMultipartUpload md5 bucket key uploadId named state).2 ∧
      view.KeepsIssued state (completeMultipartUpload md5 bucket key uploadId named state).2 ∧
      view.AddsNoPart state (completeMultipartUpload md5 bucket key uploadId named state).2 := by
  unfold completeMultipartUpload
  split
  · exact others_of_same rfl
  · split
    · refine ⟨keepsOthers_of_objects fun path different => AList.lookup_insert_ne different,
        fun _ => id, addsNoPart_of_uploads fun other => ?_⟩
      have parts := partsOf_erase state uploadId other
      split at parts
      · exact .inr parts
      · exact .inl parts
    · exact others_of_same rfl

theorem completeMultipartUpload_ok {bucket : String} {key : ObjectKey}
    {uploadId : StorageUploadId} {named : List (Nat × String)} {state state' : MemoryS3}
    {etag : Option String}
    (done : completeMultipartUpload md5 bucket key uploadId named state = (.ok etag, state')) :
    (view.object? state' bucket key).isSome ∧
      ∀ part ∈ named, view.hasPart state bucket key uploadId part.1 := by
  unfold completeMultipartUpload at done
  split at done
  · cases done
  · rename_i parts found
    split at done
    · rename_i present
      cases done
      refine ⟨?_, fun part member => ?_⟩
      · change ((AList.insert _ _ _).lookup _).isSome = true
        rw [AList.lookup_insert]
        rfl
      · have inTable := List.all_eq_true.mp present part member
        simp only [Bool.and_eq_true, decide_eq_true_eq] at inTable
        refine ⟨inTable.1, ?_⟩
        unfold partsOf
        rw [found, Option.getD_some, ← AList.lookup_isSome]
        exact Option.isSome_of_any inTable.2
    · cases done

theorem abortMultipartUpload_effect (uploadId : StorageUploadId) (state : MemoryS3) :
    view.KeepsObjects state (abortMultipartUpload uploadId state).2 ∧
      view.KeepsIssued state (abortMultipartUpload uploadId state).2 ∧
      view.AddsNoPart state (abortMultipartUpload uploadId state).2 := by
  refine ⟨rfl, fun _ => id, addsNoPart_of_uploads fun other => ?_⟩
  have parts := partsOf_erase state uploadId other
  split at parts
  · exact .inr parts
  · exact .inl parts

private theorem buckets_effect (bucket : String) (state : MemoryS3) :
    (view.KeepsObjects state (createBucket bucket state).2 ∧
      view.KeepsIssued state (createBucket bucket state).2 ∧
      view.AddsNoPart state (createBucket bucket state).2) ∧
    view.KeepsObjects state (deleteBucket bucket state).2 ∧
      view.KeepsIssued state (deleteBucket bucket state).2 ∧
      view.AddsNoPart state (deleteBucket bucket state).2 := by
  unfold createBucket deleteBucket
  constructor
  · split <;> exact keeps_of_same rfl rfl rfl
  · split_ifs <;> exact keeps_of_same rfl rfl rfl

theorem client_laws : (client md5).Laws view where
  noScratch _ := rfl
  numbered stored := stored.1
  putObject_effect := putObject_effect md5
  putObject_ok := by
    intro bucket key body state etag state' done
    change putObject md5 bucket key body state = _ at done
    unfold putObject at done
    split at done
    · cases done
      exact AList.lookup_insert _
    · cases done
  putObject_error := by
    intro bucket key body state error state' failed
    change putObject md5 bucket key body state = _ at failed
    unfold putObject at failed
    split at failed
    · cases failed
    · cases failed
      rfl
  deleteObject_effect bucket key state :=
    ⟨keepsOthers_of_objects fun path different => AList.lookup_erase_ne different, fun _ => id,
      addsNoPart_of_uploads fun _ => .inl rfl⟩
  deleteObject_error := by
    intro bucket key state error state' failed
    cases failed
  headObject_ok := by
    intro bucket key state found
    change headObject bucket key state = _ at found
    unfold headObject at found
    split at found
    · assumption
    · cases found
  headObject_missing := by
    intro bucket key state code missing _
    change headObject bucket key state = _ at missing
    unfold headObject at missing
    split at missing
    · cases missing
    · rename_i absent
      exact Option.not_isSome_iff_eq_none.mp absent
  createMultipartUpload_effect := createMultipartUpload_effect
  createMultipartUpload_ok := by
    intro bucket key state text state' done
    change createMultipartUpload bucket key state = _ at done
    unfold createMultipartUpload at done
    split at done
    · cases done
      refine ⟨?_, ?_, ?_⟩
      · change ¬ (String.ofList _).length < _
        simp
      · change (String.ofList _).length < _
        simp
      · rintro _ _ number ⟨_, member⟩
        change number ∈ partsOf { state with uploads := state.uploads.insert _ ∅ } _ at member
        rw [partsOf_insert, if_pos rfl] at member
        exact AList.notMem_empty number member
    · cases done
  uploadPart_effect _ _ := uploadPart_effect md5
  listParts_ok := listParts_page md5
  completeMultipartUpload_effect := completeMultipartUpload_effect md5
  completeMultipartUpload_ok := completeMultipartUpload_ok md5
  abortMultipartUpload_effect _ _ := abortMultipartUpload_effect
  createBucket_effect bucket state := (buckets_effect bucket state).1
  deleteBucket_effect bucket state := (buckets_effect bucket state).2

end MemoryS3

end PyUploadX
