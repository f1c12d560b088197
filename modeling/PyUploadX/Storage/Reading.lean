import PyUploadX.Storage.Local
import PyUploadX.Storage.MemoryS3

/-! Reading objects. -/
namespace PyUploadX

/-- What a reader finds at a key. -/
def StorageAdapter.stored {σ : Type} (adapter : StorageAdapter σ) (store : σ) (bucket : String)
    (objectKey : ObjectKey) : Except Failure Bytes :=
  adapter.getObject bucket objectKey 0 none store

/-- How an adapter reads: a range is cut out of the whole object, and a presigned GET is
for the object it was asked for. -/
structure ObjectReader {σ : Type} (adapter : StorageAdapter σ) where
  cut : Nat → Option Nat → Bytes → Except Failure Bytes
  getObject_eq : ∀ bucket objectKey offset length store,
    adapter.getObject bucket objectKey offset length store =
      (adapter.stored store bucket objectKey).bind (cut offset length)
  presigned : ∀ {bucket objectKey expiresSeconds url},
    adapter.createPresignedGetUrl bucket objectKey expiresSeconds = .ok url →
      url.object? = some (bucket, objectKey)

/-- The bytes from an offset on, at most as many as asked for. -/
def portion (offset : Nat) (length : Option Nat) (content : Bytes) : Bytes :=
  match length with
  | none => content.drop offset
  | some length => (content.drop offset).take length

/-- An adapter reads ranges: one that lies within the object is read, and whatever is read
is the portion that was asked for. -/
structure StorageAdapter.ReadsRanges {σ : Type} (adapter : StorageAdapter σ) : Prop where
  inside : ∀ {store bucket objectKey content offset length},
    adapter.stored store bucket objectKey = .ok content → 0 < length →
    offset + length ≤ content.length →
    adapter.getObject bucket objectKey offset (some length) store =
      .ok (portion offset (some length) content)
  read : ∀ {store bucket objectKey content offset length bytes},
    adapter.stored store bucket objectKey = .ok content → 0 < length →
    adapter.getObject bucket objectKey offset (some length) store = .ok bytes →
    bytes = portion offset (some length) content

namespace LocalStorageAdapter

private theorem take_append_take (rest : Bytes) {size length : Nat} (within : size ≤ length) :
    rest.take size ++ (rest.drop size).take (length - (rest.take size).length) = rest.take length := by
  by_cases long : size ≤ rest.length
  · have read : (rest.take size).length = size := by simp [long]
    rw [read, ← List.take_add, Nat.add_sub_cancel' within]
  · have short : rest.length ≤ size := by omega
    rw [List.drop_eq_nil_of_le short, List.take_nil, List.append_nil, List.take_of_length_le short,
      List.take_of_length_le (short.trans within)]

private theorem readSize_pos {remaining : Option Nat} (wanted : remaining ≠ some 0) :
    0 < readSize remaining := by
  have positive : 0 < chunkSize := by simp [chunkSize]
  cases remaining with
  | none => exact positive
  | some length =>
    have : length ≠ 0 := fun nothing => wanted (by rw [nothing])
    exact Nat.lt_min.mpr ⟨positive, Nat.pos_of_ne_zero this⟩

/-- The chunks put together are what was asked for. -/
theorem readChunks_flatten {fuel : Nat} {remaining : Option Nat} {rest : Bytes}
    (enough : rest.length < fuel) :
    (readChunks fuel remaining rest).flatten = portion 0 remaining rest := by
  induction fuel generalizing remaining rest with
  | zero => omega
  | succ fuel ih =>
    unfold readChunks
    split
    · rename_i used
      simp [used, portion]
    · rename_i wanted
      have positive := readSize_pos wanted
      dsimp only
      split
      · rename_i finished
        have ended : rest = [] := by
          rcases List.take_eq_nil_iff.mp finished with none | nil
          · omega
          · exact nil
        cases remaining <;> simp [ended, portion]
      · rename_i more
        have nonempty : rest ≠ [] := by rintro rfl; simp at more
        have shorter : (rest.drop (readSize remaining)).length < fuel := by
          have := List.length_pos_iff.mpr nonempty
          rw [List.length_drop]
          omega
        rw [List.flatten_cons, ih shorter]
        cases remaining with
        | none => exact List.take_append_drop chunkSize rest
        | some length => exact take_append_take rest (Nat.min_le_right _ _)

theorem getObject_eq (bucket : String) (objectKey : ObjectKey) (offset : Nat) (length : Option Nat)
    (state : LocalState) :
    getObject bucket objectKey offset length state =
      (getObject bucket objectKey 0 none state).bind fun content =>
        .ok (portion offset length content) := by
  unfold getObject
  cases state.tree.node? (objectPath bucket objectKey) with
  | none => rfl
  | some node =>
    cases node with
    | directory => rfl
    | file content =>
      have shorter : (content.drop offset).length < content.length + 1 := by
        rw [List.length_drop]
        omega
      have whole : content.length < content.length + 1 := Nat.lt_succ_self _
      dsimp only
      rw [readChunks_flatten shorter, List.drop_zero, readChunks_flatten whole]
      cases length <;> rfl

end LocalStorageAdapter

def localReader (sha256 : Bytes → String) : ObjectReader (LocalStorageAdapter sha256) where
  cut offset length content := .ok (portion offset length content)
  getObject_eq := LocalStorageAdapter.getObject_eq
  presigned := nofun

theorem localReadsRanges (sha256 : Bytes → String) : (LocalStorageAdapter sha256).ReadsRanges where
  inside := by
    intro store bucket objectKey content offset length stored _ _
    rw [(localReader sha256).getObject_eq, stored]
    rfl
  read := by
    intro store bucket objectKey content offset length bytes stored _ answered
    rw [(localReader sha256).getObject_eq, stored] at answered
    exact (Except.ok.inj answered).symm

/-- A ranged GET of the service is cut out of the whole object. -/
structure S3Client.CutsRanges {σ : Type} (client : S3Client σ) where
  cut : S3Range → Bytes → Except S3Error Bytes
  getObject_eq : ∀ bucket key range state,
    client.getObject bucket key (some range) state =
      (client.getObject bucket key none state).bind (cut range)

namespace S3StorageAdapter

variable {σ : Type} {client : S3Client σ}

def cutOf (service : client.CutsRanges) (offset : Nat) (length : Option Nat) (body : Bytes) :
    Except Failure Bytes :=
  match rangeOf offset length with
  | none => .ok body
  | some range => reported (service.cut range body)

private theorem reported_bind {α β : Type} (first : Except S3Error α) (next : α → Except S3Error β) :
    reported (first.bind next) = (reported first).bind fun value => reported (next value) := by
  cases first <;> rfl

theorem getObject_eq (service : client.CutsRanges) (bucket : String) (objectKey : ObjectKey)
    (offset : Nat) (length : Option Nat) (state : σ) :
    getObject client bucket objectKey offset length state =
      (getObject client bucket objectKey 0 none state).bind (cutOf service offset length) := by
  have whole : rangeOf 0 none = none := rfl
  unfold getObject cutOf
  rw [whole]
  cases rangeOf offset length with
  | none => cases client.getObject bucket objectKey none state <;> rfl
  | some range => rw [service.getObject_eq, reported_bind]

private theorem presign_object {bucket : String} {objectKey : ObjectKey} {expiresSeconds : Int}
    {url : PresignedUrl}
    (signed : presign client (.getObject bucket objectKey) expiresSeconds = .ok url) :
    url.object? = some (bucket, objectKey) := by
  unfold presign at signed
  split at signed
  · cases signed
    rfl
  · cases signed

end S3StorageAdapter

def s3Reader (sha256 : Bytes → String) (pages : Nat) {σ : Type} {client : S3Client σ}
    (service : client.CutsRanges) : ObjectReader (S3StorageAdapter sha256 pages client) where
  cut := S3StorageAdapter.cutOf service
  getObject_eq := S3StorageAdapter.getObject_eq service
  presigned := S3StorageAdapter.presign_object

/-- What S3 documents of a range with both ends: it is refused only from the end of the object
on, and clipped there. -/
def S3Client.CutsRanges.Documented {σ : Type} {client : S3Client σ} (service : client.CutsRanges) :
    Prop :=
  ∀ (start length : Nat) (body : Bytes), 0 < length →
    service.cut ⟨start, some ((start : Int) + length - 1)⟩ body =
        .ok ((body.drop start).take length) ∨
      body.length ≤ start ∧
        ∃ error, service.cut ⟨start, some ((start : Int) + length - 1)⟩ body = .error error

def MemoryS3.cutsRanges (md5 : Bytes → String) : (MemoryS3.client md5).CutsRanges where
  cut := MemoryS3.cutRange
  getObject_eq bucket key range state := by
    change MemoryS3.getObject bucket key (some range) state =
      (MemoryS3.getObject bucket key none state).bind _
    unfold MemoryS3.getObject
    split
    · cases state.objects.lookup (bucket, key) <;> rfl
    · rfl

theorem MemoryS3.cutsRanges_documented (md5 : Bytes → String) :
    (MemoryS3.cutsRanges md5).Documented := by
  intro start length body positive
  change MemoryS3.cutRange _ body = _ ∨ _ ∧ ∃ error, MemoryS3.cutRange _ body = _
  unfold MemoryS3.cutRange
  dsimp only
  by_cases outside : body.length ≤ start
  · rw [if_pos outside]
    exact .inr ⟨outside, _, rfl⟩
  · have count : ((start : Int) + length - 1 + 1 - start).toNat = length := by omega
    rw [if_neg outside, count]
    exact .inl rfl

theorem s3ReadsRanges (sha256 : Bytes → String) (pages : Nat) {σ : Type} {client : S3Client σ}
    (service : client.CutsRanges) (documented : service.Documented) :
    (S3StorageAdapter sha256 pages client).ReadsRanges := by
  have cut : ∀ offset length content, S3StorageAdapter.cutOf service offset (some length) content =
      S3StorageAdapter.reported
        (service.cut ⟨offset, some ((offset : Int) + length - 1)⟩ content) := by
    intro offset length content
    have asked : S3StorageAdapter.rangeOf offset (some length) =
        some ⟨offset, some ((offset : Int) + length - 1)⟩ := if_pos (.inr (Option.some_ne_none _))
    rw [S3StorageAdapter.cutOf, asked]
  constructor
  · intro store bucket objectKey content offset length stored positive within
    rw [(s3Reader sha256 pages service).getObject_eq, stored]
    change S3StorageAdapter.cutOf service offset (some length) content = _
    rw [cut]
    rcases documented offset length content positive with served | ⟨outside, _⟩
    · rw [served]
      rfl
    · omega
  · intro store bucket objectKey content offset length bytes stored positive answered
    rw [(s3Reader sha256 pages service).getObject_eq, stored] at answered
    change S3StorageAdapter.cutOf service offset (some length) content = _ at answered
    rw [cut] at answered
    rcases documented offset length content positive with served | ⟨_, error, refused⟩
    · rw [served] at answered
      exact (Except.ok.inj answered).symm
    · rw [refused] at answered
      cases answered

end PyUploadX
