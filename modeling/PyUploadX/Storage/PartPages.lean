import Mathlib.Data.List.TakeDrop
import PyUploadX.Kit.Paging
import PyUploadX.Storage.MemoryS3

/-! The listing of a multipart upload that S3 hands out in pages of any length. -/
namespace PyUploadX

/-- The parts that are numbered above a marker. -/
def partsAbove (marker : Nat) (held : List S3Part) : List S3Part :=
  Kit.Paging.behind (·.partNumber) (· < ·) (some marker) held

/-- A page cut from the parts that are left: the first of them, one at least if there is one.
It is truncated when some are left behind it, and its last number marks where they begin. -/
structure ListPartsPage.CutFrom (page : ListPartsPage) (left : List S3Part) : Prop where
  front : page.parts <+: left
  filled : left ≠ [] → page.parts ≠ []
  truncated : page.isTruncated = true ↔ page.parts ≠ left
  marked : ∀ part ∈ page.parts.getLast?, page.nextPartNumberMarker = some part.partNumber

/-- The server holds these parts of an upload, which S3 numbers from one, and answers for
them page by page. -/
structure S3Client.PagesParts {σ : Type} (client : S3Client σ) (state : σ) (bucket : String)
    (key : ObjectKey) (uploadId : StorageUploadId) (held : List S3Part) : Prop where
  ascending : held.Pairwise fun first second => first.partNumber < second.partNumber
  numbered : ∀ part ∈ held, 1 ≤ part.partNumber
  answers : ∀ marker, ∃ page, client.listParts bucket key uploadId marker state = .ok page ∧
    page.CutFrom (partsAbove marker held)

private theorem partsAbove_zero {held : List S3Part} (numbered : ∀ part ∈ held, 1 ≤ part.partNumber) :
    partsAbove 0 held = held :=
  List.filter_eq_self.mpr fun part member => decide_eq_true (numbered part member)

theorem partsAbove_front {front rest : List S3Part}
    (ascending : (front ++ rest).Pairwise fun first second => first.partNumber < second.partNumber)
    {part : S3Part} (last : front.getLast? = some part) :
    partsAbove part.partNumber (front ++ rest) = rest := by
  have behind := Kit.Paging.behind_front ascending
  rw [last] at behind
  exact behind

namespace S3StorageAdapter

variable {σ : Type} {client : S3Client σ} {state : σ} {bucket : String} {key : ObjectKey}
  {uploadId : StorageUploadId} {held : List S3Part}

/-- One page moves the parts it lists from what is left to what is read. -/
theorem listPages_step (server : client.PagesParts state bucket key uploadId held)
    {front rest : List S3Part} (read : held = front ++ rest) {marker : Nat}
    (left : partsAbove marker held = rest) (fuel : Nat) :
    listPages client bucket key uploadId state (fuel + 1) marker (front.map listedPart) =
        .ok (held.map listedPart) ∨
      ∃ cut later next, rest = cut ++ later ∧ cut ≠ [] ∧ partsAbove next held = later ∧
        listPages client bucket key uploadId state (fuel + 1) marker (front.map listedPart) =
          listPages client bucket key uploadId state fuel next ((front ++ cut).map listedPart) := by
  obtain ⟨page, answer, cut⟩ := server.answers marker
  rw [left] at cut
  obtain ⟨later, whole⟩ := cut.front
  have asked := listPages_page answer fuel (front.map listedPart)
  rw [← List.map_append] at asked
  by_cases truncated : page.isTruncated = true
  · have short := cut.truncated.mp truncated
    have filled : page.parts ≠ [] := by
      apply cut.filled
      rintro rfl
      exact short (List.append_eq_nil_iff.mp whole).1
    have last := List.getLast?_eq_some_getLast filled
    have next := cut.marked _ last
    rw [next, Option.getD_some, if_pos truncated] at asked
    have regrouped : held = (front ++ page.parts) ++ later := by
      rw [read, ← whole, List.append_assoc]
    have sorted := server.ascending
    rw [regrouped] at sorted
    have final : (front ++ page.parts).getLast? = some (page.parts.getLast filled) := by
      rw [List.getLast?_append_of_ne_nil _ filled, last]
    refine .inr ⟨page.parts, later, _, whole.symm, filled, ?_, asked⟩
    rw [regrouped]
    exact partsAbove_front sorted final
  · have all : page.parts = rest := not_not.mp fun short => truncated (cut.truncated.mpr short)
    rw [if_neg truncated, all, ← read] at asked
    exact .inl asked

/-- From the marker on, at most one page is read for each part that is left. -/
theorem listPages_all (server : client.PagesParts state bucket key uploadId held)
    {fuel : Nat} {front rest : List S3Part} (read : held = front ++ rest) {marker : Nat}
    (left : partsAbove marker held = rest) (enough : rest.length < fuel) :
    listPages client bucket key uploadId state fuel marker (front.map listedPart) =
      .ok (held.map listedPart) := by
  induction fuel generalizing front rest marker with
  | zero => exact absurd enough (Nat.not_lt_zero _)
  | succ fuel ih =>
    rcases listPages_step server read left fuel with
      finished | ⟨cut, later, next, rfl, filled, further, turned⟩
    · exact finished
    · have shorter := List.length_pos_of_ne_nil filled
      rw [List.length_append] at enough
      rw [turned]
      exact ih (by rw [read, List.append_assoc]) further (by omega)

/-- The adapter lists every part once, in ascending order, whatever the pages are. -/
theorem listParts_all (sha256 : Bytes → String)
    (server : client.PagesParts state bucket key uploadId held) {pages : Nat}
    (enough : held.length < pages) :
    (S3StorageAdapter sha256 pages client).listParts bucket key uploadId state =
      .ok (held.map listedPart) :=
  listPages_all server (List.nil_append held).symm (partsAbove_zero server.numbered) enough

theorem listed_ascending
    (ascending : held.Pairwise fun first second => first.partNumber < second.partNumber) :
    (held.map listedPart).Pairwise fun first second => first.partNumber < second.partNumber :=
  List.pairwise_map.mpr ascending

/-- Parts that are listed in ascending order are handed over in this order. -/
theorem completionPayload_ascending {parts : List UploadedPart}
    (ascending : parts.Pairwise fun first second => first.partNumber < second.partNumber) :
    completionPayload parts = parts.map fun part => (part.partNumber, "\"" ++ part.etag ++ "\"") := by
  unfold completionPayload
  rw [(ascending.imp fun less => less.le).insertionSort_eq]

end S3StorageAdapter

namespace MemoryS3

variable (md5 : Bytes → String)

def heldPart (parts : AList fun _ : Nat => Bytes) (partNumber : Nat) : S3Part where
  partNumber
  etag := (parts.lookup partNumber).map fun body => quoted (md5 body)
  size := (parts.lookup partNumber).map (·.length)

/-- What the service holds of an upload, in ascending order. -/
def heldParts (parts : AList fun _ : Nat => Bytes) : List S3Part :=
  (parts.keys.insertionSort (· ≤ ·)).map (heldPart md5 parts)

/-- The first parts above the marker, at most so many. -/
def listPartsPage (length : Nat) (uploadId : StorageUploadId) (partNumberMarker : Nat)
    (state : MemoryS3) : Except S3Error ListPartsPage :=
  (listParts md5 uploadId partNumberMarker state).map fun whole => {
    parts := whole.parts.take length
    isTruncated := length < whole.parts.length
    nextPartNumberMarker := (whole.parts.take length).getLast?.map (·.partNumber) }

/-- The service with listings in pages of a fixed length. -/
def pagingClient (length : Nat) : S3Client MemoryS3 where
  __ := client md5
  listParts := fun _ _ => listPartsPage md5 length

private theorem heldParts_above (marker : Nat) (parts : AList fun _ : Nat => Bytes) :
    partsAbove marker (heldParts md5 parts) =
      ((parts.keys.filter (marker < ·)).insertionSort (· ≤ ·)).map (heldPart md5 parts) := by
  rw [← Kit.filter_insertionSort]
  exact List.filter_map

/-- Whatever the length of its pages, the service pages what it holds of an open upload. -/
theorem pagingClient_pagesParts {length : Nat} (positive : 0 < length) {state : MemoryS3}
    (bucket : String) (key : ObjectKey) {uploadId : StorageUploadId}
    {parts : AList fun _ : Nat => Bytes} (opened : state.uploads.lookup uploadId = some parts)
    (numbered : 0 ∉ parts) :
    (pagingClient md5 length).PagesParts state bucket key uploadId (heldParts md5 parts) where
  ascending := by
    have sorted := List.pairwise_insertionSort (· ≤ ·) parts.keys
    have distinct := (List.perm_insertionSort (· ≤ ·) parts.keys).nodup_iff.mpr parts.nodupKeys
    exact List.pairwise_map.mpr ((sorted.and distinct).imp fun order => lt_of_le_of_ne order.1 order.2)
  numbered := by
    intro part member
    obtain ⟨number, inside, rfl⟩ := List.mem_map.mp member
    rw [List.mem_insertionSort] at inside
    apply Nat.one_le_iff_ne_zero.mpr
    rintro zero
    exact numbered (zero ▸ inside)
  answers := by
    intro marker
    have answer : (pagingClient md5 length).listParts bucket key uploadId marker state = .ok {
        parts := (partsAbove marker (heldParts md5 parts)).take length
        isTruncated := length < (partsAbove marker (heldParts md5 parts)).length
        nextPartNumberMarker :=
          ((partsAbove marker (heldParts md5 parts)).take length).getLast?.map (·.partNumber) } := by
      change listPartsPage md5 length uploadId marker state = _
      unfold listPartsPage listParts
      rw [opened, heldParts_above]
      rfl
    refine ⟨_, answer, List.take_prefix _ _, fun some_ none_ => ?_, ?_, fun part last => ?_⟩
    · rcases List.take_eq_nil_iff.mp none_ with zero | empty
      · omega
      · exact some_ empty
    · dsimp only
      rw [decide_eq_true_iff, Ne, List.take_eq_self_iff, Nat.not_le]
    · rw [Option.mem_def] at last
      rw [last]
      rfl

end MemoryS3

end PyUploadX
