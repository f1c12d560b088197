import PyUploadX.Kit.Stream
import PyUploadX.Storage.LocalBackend
import PyUploadX.Storage.MemoryS3

/-! The bytes of the parts that wait for a completion, and the object they make. -/
namespace PyUploadX

open Kit

/-- The parts one after the other, in ascending order of their numbers. -/
def joined (part? : Nat → Option Bytes) (parts : List UploadedPart) : Bytes :=
  (parts.insertionSort fun first second => first.partNumber ≤ second.partNumber).flatMap
    fun part => (part? part.partNumber).getD []

/-- The parts of a content, put together by their numbers, are the content. -/
theorem joined_whole {part? : Nat → Option Bytes} {parts : List UploadedPart} {content : Bytes}
    {partSize count : Nat} (covers : content.length ≤ count * partSize)
    (numbers : (parts.map (·.partNumber)).Perm (List.range' 1 count))
    (stored : ∀ number ∈ List.range' 1 count,
      part? number = some (slice partSize content (number - 1))) :
    joined part? parts = content := by
  have sorted : ((parts.insertionSort fun first second =>
      first.partNumber ≤ second.partNumber).map (·.partNumber)).Pairwise (· ≤ ·) := by
    rw [List.pairwise_map]
    exact List.pairwise_insertionSort _ _
  have ordered : (parts.insertionSort fun first second =>
      first.partNumber ≤ second.partNumber).map (·.partNumber) = List.range' 1 count :=
    List.Perm.eq_of_pairwise' sorted (List.pairwise_le_range' 1)
      (((List.perm_insertionSort _ parts).map _).trans numbers)
  have pieces : joined part? parts =
      ((parts.insertionSort fun first second =>
        first.partNumber ≤ second.partNumber).map (·.partNumber)).flatMap
          fun number => (part? number).getD [] := by
    rw [joined, List.flatMap_map]
  have cut : (List.range' 1 count).flatMap (fun number => (part? number).getD []) =
      (List.range' 1 count).flatMap fun number => slice partSize content (number - 1) := by
    rw [List.flatMap_def, List.flatMap_def]
    congr 1
    apply List.map_congr_left
    intro number member
    rw [stored number member]
    rfl
  have shifted : (List.range' 1 count).flatMap (fun number => slice partSize content (number - 1)) =
      (List.range count).flatMap (slice partSize content) := by
    rw [List.range'_eq_map_range, List.flatMap_map]
    simp
  rw [pieces, ordered, cut, shifted, flatMap_slice_eq covers]

/-- A backend whose parts have bytes: a part that was put is read back, and a completed
object is its parts. -/
structure PartBackend {σ : Type} (adapter : StorageAdapter σ) extends Backend adapter where
  part? : σ → String → ObjectKey → StorageUploadId → Nat → Option Bytes
  hasPart_of_part : ∀ {store bucket key uploadId number bytes}, 1 ≤ number →
    part? store bucket key uploadId number = some bytes → hasPart store bucket key uploadId number
  uploadPart_stores : ∀ {bucket key uploadId number stream size checksum store part store'},
    adapter.uploadPart bucket key uploadId number stream size checksum store =
        (.ok part, store') →
      part? store' bucket key uploadId number = some stream
  uploadPart_others : ∀ bucket key uploadId number stream size checksum store other,
    other ≠ number →
      part? (adapter.uploadPart bucket key uploadId number stream size checksum store).2 bucket key
        uploadId other = part? store bucket key uploadId other
  complete_joins : ∀ {bucket key uploadId parts store stored store'},
    adapter.completeMultipartUpload bucket key uploadId parts store = (.ok stored, store') →
      object? store' bucket key = some (joined (part? store bucket key uploadId) parts)
  putObject_size : ∀ {bucket key stream contentType size checksum store stored store'},
    adapter.putObject bucket key stream contentType (some size) checksum store =
        (.ok stored, store') →
      stored.sizeBytes = size

namespace LocalStorageAdapter

/-- A part that is accepted is on disk, and its size is the declared one. -/
theorem uploadPart_ok {sha256 : Bytes → String} {uploadId : StorageUploadId} {number : Nat}
    {stream : Bytes} {size : Nat} {state state' : LocalState} {part : UploadedPart}
    (done : uploadPart sha256 uploadId number stream size state = (.ok part, state')) :
    (partFiles state' uploadId).lookup number = some stream := by
  unfold uploadPart at done
  dsimp only at done
  split at done
  · cases done
  · split at done
    · cases done
    · cases done
      rw [partFiles_setPartFiles, if_pos rfl, AList.lookup_insert, copyStream_eq]
      rfl

theorem uploadPart_others (sha256 : Bytes → String) (uploadId : StorageUploadId) (number : Nat)
    (stream : Bytes) (size : Nat) (state : LocalState) {other : Nat} (different : other ≠ number) :
    (partFiles (uploadPart sha256 uploadId number stream size state).2 uploadId).lookup other =
      (partFiles state uploadId).lookup other := by
  have files : partFiles (takeFault state).2 uploadId = partFiles state uploadId := by
    unfold partFiles
    rw [takeFault_staging]
  unfold uploadPart
  dsimp only
  split
  · rw [partFiles_setPartFiles, if_pos rfl, AList.lookup_erase_ne different, files]
  · split
    · rw [partFiles_setPartFiles, if_pos rfl, AList.lookup_erase_ne different, files]
    · rw [partFiles_setPartFiles, if_pos rfl, AList.lookup_insert_ne different, files]

theorem putObject_size {sha256 : Bytes → String} {bucket : String} {key : ObjectKey}
    {stream : Bytes} {contentType : Option String} {size : Nat} {checksum : Option String}
    {state state' : LocalState} {stored : StoredObject}
    (done : putObject sha256 bucket key stream contentType (some size) checksum state =
      (.ok stored, state')) : stored.sizeBytes = size := by
  have refused : ∀ {state : LocalState} {tree : FileTree String Bytes} {temporary : List String},
      abandonWrite state tree temporary ≠ (.ok stored, state') := by
    intro state tree temporary
    unfold abandonWrite
    split <;> exact fun same => by cases same
  unfold putObject at done
  dsimp only at done
  split at done
  · cases done
  · split at done
    · exact absurd done refused
    · split at done
      · split at done
        · cases done
        · cases done
          rfl
      · exact absurd done refused

end LocalStorageAdapter

open LocalStorageAdapter in
def localParts (sha256 : Bytes → String) : PartBackend (LocalStorageAdapter sha256) where
  toBackend := localBackend sha256
  part? state _ _ uploadId number := (partFiles state uploadId).lookup number
  hasPart_of_part _ found := AList.lookup_isSome.mp (Option.isSome_of_eq_some found)
  uploadPart_stores done := uploadPart_ok done
  uploadPart_others _ _ uploadId number stream size _ store _ different :=
    uploadPart_others sha256 uploadId number stream size store different
  complete_joins done := (LocalStorageAdapter.complete_ok done).1
  putObject_size done := putObject_size done

/-- What S3 documents about the bytes of parts. -/
structure S3Client.PartLaws {σ : Type} (client : S3Client σ) (view : StoreView σ)
    (part? : σ → String → ObjectKey → StorageUploadId → Nat → Option Bytes) : Prop
    extends client.Laws view where
  hasPart_of_part : ∀ {state bucket key uploadId number bytes}, 1 ≤ number →
    part? state bucket key uploadId number = some bytes →
      view.hasPart state bucket key uploadId number
  uploadPart_ok : ∀ {bucket key uploadId number body state etag state'},
    client.uploadPart bucket key uploadId number body state = (.ok etag, state') →
      part? state' bucket key uploadId number = some body
  uploadPart_others : ∀ bucket key uploadId number body state other, other ≠ number →
    part? (client.uploadPart bucket key uploadId number body state).2 bucket key uploadId other =
      part? state bucket key uploadId other
  completeMultipartUpload_joins : ∀ {bucket key uploadId parts state etag state'},
    client.completeMultipartUpload bucket key uploadId parts state = (.ok etag, state') →
      view.object? state' bucket key = some
        (parts.flatMap fun part => (part? state bucket key uploadId part.1).getD [])

open S3StorageAdapter in
def s3Parts (sha256 : Bytes → String) (pages : Nat) {σ : Type} (client : S3Client σ)
    (view : StoreView σ)
    (part? : σ → String → ObjectKey → StorageUploadId → Nat → Option Bytes)
    (laws : client.PartLaws view part?) : PartBackend (S3StorageAdapter sha256 pages client) where
  toBackend := s3Backend sha256 pages client view laws.toLaws
  part? := part?
  hasPart_of_part first found := laws.hasPart_of_part first found
  uploadPart_stores := by
    intro bucket key uploadId number stream size checksum state part state' done
    obtain ⟨etag, put, _⟩ := call_ok done
    exact laws.uploadPart_ok put
  uploadPart_others bucket key uploadId number stream size checksum state other different := by
    dsimp only [S3StorageAdapter, uploadPart]
    rw [call_state]
    exact laws.uploadPart_others bucket key uploadId number stream state other different
  complete_joins := by
    intro bucket key uploadId parts state stored state' done
    obtain ⟨etag, completed, _⟩ := call_ok done
    rw [joined]
    refine (laws.completeMultipartUpload_joins completed).trans ?_
    rw [completionPayload, List.flatMap_map]
  putObject_size := by
    intro bucket key stream contentType size checksum state stored state' done
    change putObject client sha256 bucket key stream contentType (some size) checksum state = _
      at done
    unfold putObject at done
    split at done
    · cases done
    · split at done
      · cases done
      · cases done
        rfl

namespace MemoryS3

def part? (state : MemoryS3) (_ : String) (_ : ObjectKey) (uploadId : StorageUploadId)
    (number : Nat) : Option Bytes :=
  (partsOf state uploadId).lookup number

theorem client_partLaws (md5 : Bytes → String) : (client md5).PartLaws view part? where
  toLaws := client_laws md5
  hasPart_of_part first found :=
    ⟨first, AList.lookup_isSome.mp (Option.isSome_of_eq_some found)⟩
  uploadPart_ok := by
    intro bucket key uploadId number body state etag state' done
    change uploadPart md5 uploadId number body state = _ at done
    unfold uploadPart at done
    split at done
    · cases done
    · split at done
      · cases done
      · cases done
        rw [part?, partsOf_insert, if_pos rfl, AList.lookup_insert]
  uploadPart_others bucket key uploadId number body state other different := by
    change (partsOf (uploadPart md5 uploadId number body state).2 uploadId).lookup other = _
    unfold uploadPart
    split
    · rfl
    · rename_i parts found
      split
      · rfl
      · rw [partsOf_insert, if_pos rfl, AList.lookup_insert_ne different, part?, partsOf, found]
        rfl
  completeMultipartUpload_joins := by
    intro bucket key uploadId named state etag state' done
    change completeMultipartUpload md5 bucket key uploadId named state = _ at done
    unfold completeMultipartUpload at done
    split at done
    · cases done
    · rename_i parts found
      split at done
      · cases done
        unfold part? partsOf
        rw [found]
        exact AList.lookup_insert _
      · cases done

end MemoryS3

end PyUploadX
