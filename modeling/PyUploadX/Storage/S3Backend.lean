import PyUploadX.Storage.Backend
import PyUploadX.Storage.S3

/-! What S3 documents about the calls the adapter makes, and that the adapter keeps the
laws of a backend on top of it. -/
namespace PyUploadX

/-- One page of `ListParts`: the parts above the marker in ascending order, as many as fit.
A truncated page says where the next one begins. -/
structure ListPartsPage.Of (page : ListPartsPage) (stored : Nat → Prop) (marker : Nat) : Prop where
  ascending : (page.parts.map (·.partNumber)).Pairwise (· < ·)
  listed : ∀ number ∈ page.parts.map (·.partNumber), marker < number ∧ stored number
  last : page.isTruncated = false → ∀ number, stored number → marker < number →
    number ∈ page.parts.map (·.partNumber)
  next : page.isTruncated = true → ∃ next, page.nextPartNumberMarker = some next ∧
    marker ≤ next ∧ (∀ number ∈ page.parts.map (·.partNumber), number ≤ next) ∧
    ∀ number, stored number → marker < number → number ≤ next →
      number ∈ page.parts.map (·.partNumber)

/-- The documented behaviour of S3. A put or a delete that fails has not taken effect; the
other calls may have, within the same bounds as when they succeed. -/
structure S3Client.Laws {σ : Type} (client : S3Client σ) (view : StoreView σ) : Prop where
  noScratch : ∀ key, view.scratch? key = none
  numbered : ∀ {bucket key uploadId number state},
    view.hasPart state bucket key uploadId number → 1 ≤ number
  putObject_effect : ∀ bucket key body state,
    let state' := (client.putObject bucket key body state).2
    view.KeepsOthers bucket key state state' ∧ view.KeepsIssued state state' ∧
      view.AddsNoPart state state'
  putObject_ok : ∀ {bucket key body state etag state'},
    client.putObject bucket key body state = (.ok etag, state') →
      view.object? state' bucket key = some body
  putObject_error : ∀ {bucket key body state error state'},
    client.putObject bucket key body state = (.error error, state') →
      view.KeepsObjects state state'
  deleteObject_effect : ∀ bucket key state,
    let state' := (client.deleteObject bucket key state).2
    view.KeepsOthers bucket key state state' ∧ view.KeepsIssued state state' ∧
      view.AddsNoPart state state'
  deleteObject_error : ∀ {bucket key state error state'},
    client.deleteObject bucket key state = (.error error, state') →
      view.KeepsObjects state state'
  headObject_ok : ∀ {bucket key state},
    client.headObject bucket key state = .ok () → (view.object? state bucket key).isSome
  headObject_missing : ∀ {bucket key state code},
    client.headObject bucket key state = .error (.client code) →
      code = "404" ∨ code = "NoSuchKey" ∨ code = "NotFound" →
        view.object? state bucket key = none
  createMultipartUpload_effect : ∀ bucket key state,
    let state' := (client.createMultipartUpload bucket key state).2
    view.KeepsObjects state state' ∧ view.KeepsIssued state state' ∧ view.AddsNoPart state state'
  createMultipartUpload_ok : ∀ {bucket key state text state'},
    client.createMultipartUpload bucket key state = (.ok text, state') →
      ¬ view.issued state text ∧ view.issued state' text ∧
        ∀ bucket' key' number, ¬ view.hasPart state' bucket' key' (.issued text) number
  uploadPart_effect : ∀ bucket key uploadId number body state,
    let state' := (client.uploadPart bucket key uploadId number body state).2
    view.KeepsObjects state state' ∧ view.KeepsIssued state state' ∧
      view.AddsPart uploadId number state state'
  listParts_ok : ∀ {bucket key uploadId marker state page},
    client.listParts bucket key uploadId marker state = .ok page →
      page.Of (view.hasPart state bucket key uploadId) marker
  completeMultipartUpload_effect : ∀ bucket key uploadId parts state,
    let state' := (client.completeMultipartUpload bucket key uploadId parts state).2
    view.KeepsOthers bucket key state state' ∧ view.KeepsIssued state state' ∧
      view.AddsNoPart state state'
  completeMultipartUpload_ok : ∀ {bucket key uploadId parts state etag state'},
    client.completeMultipartUpload bucket key uploadId parts state = (.ok etag, state') →
      (view.object? state' bucket key).isSome ∧
        ∀ part ∈ parts, view.hasPart state bucket key uploadId part.1
  abortMultipartUpload_effect : ∀ bucket key uploadId state,
    let state' := (client.abortMultipartUpload bucket key uploadId state).2
    view.KeepsObjects state state' ∧ view.KeepsIssued state state' ∧ view.AddsNoPart state state'
  createBucket_effect : ∀ bucket state,
    let state' := (client.createBucket bucket state).2
    view.KeepsObjects state state' ∧ view.KeepsIssued state state' ∧ view.AddsNoPart state state'
  deleteBucket_effect : ∀ bucket state,
    let state' := (client.deleteBucket bucket state).2
    view.KeepsObjects state state' ∧ view.KeepsIssued state state' ∧ view.AddsNoPart state state'

namespace S3StorageAdapter

variable {σ : Type} {client : S3Client σ} {view : StoreView σ}

theorem call_state {α β : Type} (response : Except S3Error α × σ) (result : α → β) :
    (call response result).2 = response.2 := by
  obtain ⟨_ | _, _⟩ := response <;> rfl

theorem call_ok {α β : Type} {response : Except S3Error α × σ} {result : α → β} {value : β}
    {state : σ} (done : call response result = (.ok value, state)) :
    ∃ found, response = (.ok found, state) ∧ value = result found := by
  obtain ⟨_ | found, _⟩ := response <;> cases done
  exact ⟨found, rfl, rfl⟩

theorem call_error {α β : Type} {response : Except S3Error α × σ} {result : α → β}
    {failure : Failure} {state : σ} (failed : call response result = (.error failure, state)) :
    ∃ error, response = (.error error, state) ∧ failure = raised error := by
  obtain ⟨error | _, _⟩ := response <;> cases failed
  exact ⟨error, rfl, rfl⟩

private theorem raised_ne_missingParts (error : S3Error) (missing : List Nat) :
    raised error ≠ .api (.missingParts missing) := by
  unfold raised
  split
  · split_ifs <;> simp
  · simp

theorem listPages_page {bucket : String} {key : ObjectKey} {uploadId : StorageUploadId} {state : σ}
    {marker : Nat} {page : ListPartsPage}
    (answer : client.listParts bucket key uploadId marker state = .ok page) (fuel : Nat)
    (parts : List UploadedPart) :
    listPages client bucket key uploadId state (fuel + 1) marker parts =
      if page.isTruncated then
        listPages client bucket key uploadId state fuel (page.nextPartNumberMarker.getD marker)
          (parts ++ page.parts.map listedPart)
      else .ok (parts ++ page.parts.map listedPart) := by
  rw [listPages, answer]

/-- Page by page the listing grows by the stored parts up to the marker. -/
theorem listPages_ok (laws : client.Laws view) {bucket : String} {key : ObjectKey}
    {uploadId : StorageUploadId} {state : σ} {fuel marker : Nat}
    {parts listed : List UploadedPart}
    (ascending : (parts.map (·.partNumber)).Pairwise (· < ·))
    (below : ∀ number, number ∈ parts.map (·.partNumber) ↔
      view.hasPart state bucket key uploadId number ∧ number ≤ marker)
    (done : listPages client bucket key uploadId state fuel marker parts = .ok listed) :
    (listed.map (·.partNumber)).Nodup ∧
      ∀ number, number ∈ listed.map (·.partNumber) ↔
        view.hasPart state bucket key uploadId number := by
  induction fuel generalizing marker parts with
  | zero => cases done
  | succ fuel ih =>
    cases answer : client.listParts bucket key uploadId marker state with
    | error error =>
      rw [listPages, answer] at done
      cases done
    | ok page =>
      rw [listPages_page answer] at done
      have sound := laws.listParts_ok answer
      have numbers : (parts ++ page.parts.map listedPart).map (·.partNumber) =
          parts.map (·.partNumber) ++ page.parts.map (·.partNumber) := by
        rw [List.map_append, List.map_map]; rfl
      have sorted : ((parts ++ page.parts.map listedPart).map (·.partNumber)).Pairwise (· < ·) := by
        rw [numbers, List.pairwise_append]
        refine ⟨ascending, sound.ascending, fun old earlier new later => ?_⟩
        exact ((below old).mp earlier).2.trans_lt (sound.listed new later).1
      split at done
      · rename_i truncated
        obtain ⟨next, named, further, bounded, covered⟩ := sound.next truncated
        rw [named] at done
        refine ih sorted (fun number => ?_) done
        rw [numbers, List.mem_append, below]
        constructor
        · rintro (⟨stored, old⟩ | new)
          · exact ⟨stored, old.trans further⟩
          · exact ⟨(sound.listed number new).2, bounded number new⟩
        · rintro ⟨stored, upto⟩
          by_cases old : number ≤ marker
          · exact .inl ⟨stored, old⟩
          · exact .inr (covered number stored (Nat.not_le.mp old) upto)
      · rename_i finished
        cases done
        refine ⟨sorted.imp fun less => less.ne, fun number => ?_⟩
        rw [numbers, List.mem_append, below]
        constructor
        · rintro (⟨stored, _⟩ | new)
          · exact stored
          · exact (sound.listed number new).2
        · intro stored
          by_cases old : number ≤ marker
          · exact .inl ⟨stored, old⟩
          · exact .inr (sound.last (by simpa using finished) number stored (Nat.not_le.mp old))

private theorem listPages_raises {bucket : String} {key : ObjectKey} {uploadId : StorageUploadId}
    {state : σ} {fuel marker : Nat} {parts : List UploadedPart} {missing : List Nat} :
    listPages client bucket key uploadId state fuel marker parts ≠
      .error (.api (.missingParts missing)) := by
  induction fuel generalizing marker parts with
  | zero => simp [listPages]
  | succ fuel ih =>
    unfold listPages
    split
    · rename_i error _
      simpa using raised_ne_missingParts error missing
    · dsimp only
      split
      · exact ih
      · simp

theorem putObject_state (sha256 : Bytes → String) (bucket : String) (key : ObjectKey)
    (stream : Bytes) (contentType : Option String) (size : Option Nat)
    (checksum : Option String) (state : σ) :
    (putObject client sha256 bucket key stream contentType size checksum state).2 =
      (client.putObject bucket key stream state).2 := by
  unfold putObject
  split
  · rename_i put; rw [put]
  · rename_i put; rw [put]; split <;> rfl

theorem createBucket_state (bucket : String) (state : σ) :
    (createBucket client bucket state).2 = (client.createBucket bucket state).2 := by
  unfold createBucket
  split
  · rename_i made; rw [made]; split <;> rfl
  · exact call_state _ _

theorem deleteBucket_state (bucket : String) (state : σ) :
    (deleteBucket client bucket state).2 = (client.deleteBucket bucket state).2 := by
  unfold deleteBucket
  split
  · rename_i removed; rw [removed]; split_ifs <;> rfl
  · exact call_state _ _

private theorem mem_completionPayload {parts : List UploadedPart} {part : UploadedPart}
    (member : part ∈ parts) :
    (part.partNumber, "\"" ++ part.etag ++ "\"") ∈ completionPayload parts :=
  List.mem_map.mpr ⟨part, (List.mem_insertionSort _).mpr member, rfl⟩

end S3StorageAdapter

open S3StorageAdapter in
def s3Backend (sha256 : Bytes → String) (pages : Nat) {σ : Type} (client : S3Client σ)
    (view : StoreView σ) (laws : client.Laws view) :
    Backend (S3StorageAdapter sha256 pages client) where
  toStoreView := view
  putObject_effect bucket key stream contentType size checksum state := by
    dsimp only [S3StorageAdapter]
    rw [putObject_state]
    exact laws.putObject_effect bucket key stream state
  deleteObject_effect bucket key state := by
    dsimp only [S3StorageAdapter, deleteObject]
    rw [call_state]
    obtain ⟨others, kept⟩ := laws.deleteObject_effect bucket key state
    refine ⟨fun bucket' key' aside => others bucket' key' ?_, kept⟩
    rintro ⟨sameBucket, sameKey | scratch⟩
    · exact aside ⟨sameBucket, sameKey⟩
    · rw [laws.noScratch] at scratch
      cases scratch
  initiate_effect bucket key contentType metadata state := by
    dsimp only [S3StorageAdapter]
    rw [call_state]
    exact laws.createMultipartUpload_effect bucket key state
  uploadPart_effect bucket key uploadId number stream size checksum state := by
    dsimp only [S3StorageAdapter, uploadPart]
    rw [call_state]
    exact laws.uploadPart_effect bucket key uploadId number stream state
  complete_effect bucket key uploadId parts state := by
    dsimp only [S3StorageAdapter, completeMultipartUpload]
    rw [call_state]
    exact laws.completeMultipartUpload_effect bucket key uploadId _ state
  abort_effect bucket key uploadId state := by
    dsimp only [S3StorageAdapter]
    rw [call_state]
    exact laws.abortMultipartUpload_effect bucket key uploadId state
  createBucket_effect bucket state := by
    dsimp only [S3StorageAdapter]
    rw [createBucket_state]
    exact laws.createBucket_effect bucket state
  deleteBucket_effect bucket state := by
    dsimp only [S3StorageAdapter]
    rw [deleteBucket_state]
    exact laws.deleteBucket_effect bucket state
  objectExists_false := by
    intro bucket key state absent
    change objectExists client bucket key state = .ok false at absent
    unfold objectExists at absent
    split at absent
    · cases absent
    · rename_i answer
      split at absent
      · rename_i missing
        exact laws.headObject_missing answer missing
      · cases absent
    · cases absent
  putObject_ok := by
    intro bucket key stream contentType size checksum state stored state' done
    change putObject client sha256 bucket key stream contentType size checksum state = _ at done
    unfold putObject at done
    split at done
    · cases done
    · rename_i put
      split at done
      · cases done
      · cases done
        exact laws.putObject_ok put
  deleteObject_error := by
    intro bucket key state failure state' failed
    obtain ⟨error, deleted, _⟩ := call_error failed
    exact laws.deleteObject_error deleted
  initiate_fresh := by
    intro bucket key contentType metadata state text state' _ done
    obtain ⟨found, created, rfl⟩ := call_ok done
    exact laws.createMultipartUpload_ok created
  listParts_ok := by
    intro bucket key uploadId state parts listed
    refine listPages_ok laws List.Pairwise.nil (fun number => ?_) listed
    simp only [List.map_nil, List.not_mem_nil, false_iff, not_and]
    intro stored
    have := laws.numbered stored
    omega
  complete_ok := by
    intro bucket key uploadId parts state stored state' done
    obtain ⟨etag, completed, _⟩ := call_ok done
    obtain ⟨object, named⟩ := laws.completeMultipartUpload_ok completed
    exact ⟨object, fun part member => named _ (mem_completionPayload member)⟩
  listParts_raises := listPages_raises
  complete_raises := by
    intro bucket key uploadId parts state missing raised
    rcases outcome : client.completeMultipartUpload bucket key uploadId (completionPayload parts)
      state with ⟨error | etag, state'⟩
    · dsimp only [S3StorageAdapter, completeMultipartUpload] at raised
      rw [outcome] at raised
      exact raised_ne_missingParts error missing (Except.error.inj raised)
    · dsimp only [S3StorageAdapter, completeMultipartUpload] at raised
      rw [outcome] at raised
      cases raised

end PyUploadX
