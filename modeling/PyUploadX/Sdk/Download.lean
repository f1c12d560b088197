import PyUploadX.Core.Decimal
import PyUploadX.Kit.Patches
import PyUploadX.Services.ReadOutcomes
import PyUploadX.Storage.Factory
import PyUploadX.Storage.Reading
import PyUploadX.System

/-! `UploadClient.download`, in one stream and in parallel ranges. -/
namespace PyUploadX

open Kit

variable {σ : Type}

/-- What the client reads of a response; it reads no body of an error. -/
structure HttpResponse where
  status : Nat
  contentRange : Option String := none
  body : Bytes := []

/-- `GET /v1/files/{file_id}/download`. -/
def downloadFile (app : AppState σ) (world : World Database σ) (identity : Identity)
    (fileId : Uuid) (now : Timestamp) (rangeHeader : Option String) : HttpResponse :=
  match (serve app world (.read identity (.download fileId rangeHeader), now)).1 with
  | .ok (.read (.content file (some range) content)) =>
    { status := 206
      contentRange := some ("bytes " ++ toString range.start ++ "-" ++ toString range.last ++ "/" ++
        toString file.sizeBytes)
      body := content }
  | .ok (.read (.content _ none content)) => { status := 200, body := content }
  | .ok _ => { status := 500 }
  | .error failure => { status := failure.statusCode }

namespace Sdk

/-- `_content_range_total`: the number behind the last slash; `none` is an exception. -/
def contentRangeTotal (header : String) : Option Int :=
  if '/' ∈ header.toList then parseInt (String.ofList (header.toList.rtakeWhile (· ≠ '/')))
  else none

/-- The loop that cuts `total` bytes into ranges; the last one ends at the end of the file. -/
def rangesFrom (total step : Nat) : Nat → Nat → List (Nat × Nat)
  | _, 0 => []
  | start, remaining + 1 =>
    let last := if remaining = 0 then total - 1 else start + step - 1
    (start, last) :: rangesFrom total step (last + 1) remaining

def parallelRanges (total concurrency : Nat) : List (Nat × Nat) :=
  let concurrency := min concurrency total
  rangesFrom total (total / concurrency) 0 concurrency

/-- How the bodies of responses arrive in chunks, each response in its own way. -/
structure Chunking where
  cut : Nat → Bytes → List Bytes
  whole : ∀ response body, (cut response body).flatten = body

/-- What a download can raise. -/
inductive DownloadError
  /-- An error status, which the client reports as an `UploadClientError` of some kind. -/
  | status (code : Nat)
  /-- `parallel download failed: …`, with the error of the first thread that failed. -/
  | parallel
  /-- The header of the probe has no size. -/
  | header
  deriving DecidableEq

/-- `_stream_response`: the chunks one after the other. -/
def streamResponse (chunking : Chunking) (response : Nat) (body : Bytes) : Bytes :=
  (chunking.cut response body).foldl (· ++ ·) []

/-- The file of `total` zero bytes, and the workers with what they have received. -/
def received (get : Option String → HttpResponse) (chunking : Chunking) (total : Nat)
    (ranges : List (Nat × Nat)) : PatchedFile UInt8 where
  content := List.replicate total 0
  writers := ranges.mapIdx fun index range =>
    { position := range.1
      pieces := chunking.cut (index + 1) (get (some (rangeHeader range.1 range.2))).body }

/-- `_stream_parallel`, as the threads take turns. -/
def streamParallel (get : Option String → HttpResponse) (chunking : Chunking) (schedule : List Nat)
    (concurrency : Nat) : Except DownloadError Bytes :=
  let probe := get (some "bytes=0-0")
  if probe.status ≠ 206 then
    if 400 ≤ probe.status then .error (.status probe.status)
    else
      let response := get none
      if 400 ≤ response.status then .error (.status response.status)
      else .ok (streamResponse chunking 0 response.body)
  else
    match contentRangeTotal (probe.contentRange.getD "") with
    | none => .error .header
    | some total =>
      if total < 0 then .error .header
      else if total = 0 then .ok []
      else
        let ranges := parallelRanges total.toNat concurrency
        if ranges.all fun range => (get (some (rangeHeader range.1 range.2))).status = 206 then
          .ok ((received get chunking total.toNat ranges).join 0 schedule).content
        else .error .parallel

/-- `download`, without a URL of its own. -/
def download (get : Option String → HttpResponse) (chunking : Chunking) (schedule : List Nat)
    (concurrency : Nat) : Except DownloadError Bytes :=
  if 1 < concurrency then streamParallel get chunking schedule concurrency
  else
    let response := get none
    if 400 ≤ response.status then .error (.status response.status)
    else .ok (streamResponse chunking 0 response.body)

/-- The ranges lie within the file, each of them with a byte at least. -/
theorem rangesFrom_within {total step : Nat} (positive : 0 < step) {start remaining : Nat}
    (enough : start + remaining * step ≤ total) :
    ∀ range ∈ rangesFrom total step start remaining, range.1 ≤ range.2 ∧ range.2 < total := by
  induction remaining generalizing start with
  | zero => exact List.forall_mem_nil _
  | succ remaining ih =>
    have next : start + step + remaining * step ≤ total := by
      rw [Nat.succ_mul] at enough
      omega
    intro range member
    unfold rangesFrom at member
    rcases List.mem_cons.mp member with rfl | later
    · dsimp only
      split <;> omega
    · by_cases last : remaining = 0
      · rw [last] at later
        cases later
      · rw [if_neg last] at later
        exact ih (by omega) range later

/-- The positions of a range, one after the other. -/
def positions (range : Nat × Nat) : List Nat := List.range' range.1 (range.2 + 1 - range.1)

private theorem mem_positions {range : Nat × Nat} {index : Nat} :
    index ∈ positions range ↔ range.1 ≤ index ∧ index ≤ range.2 := by
  unfold positions
  rw [List.mem_range'_1]
  omega

/-- One after the other, the ranges are all that is left from the start on. -/
theorem rangesFrom_positions {total step : Nat} (positive : 0 < step) {start remaining : Nat}
    (some_ : 0 < remaining) (enough : start + remaining * step ≤ total) :
    (rangesFrom total step start remaining).flatMap positions =
      List.range' start (total - start) := by
  induction remaining generalizing start with
  | zero => exact absurd some_ (Nat.lt_irrefl 0)
  | succ remaining ih =>
    have next : start + step + remaining * step ≤ total := by
      rw [Nat.succ_mul] at enough
      omega
    unfold rangesFrom
    rw [List.flatMap_cons]
    by_cases last : remaining = 0
    · rw [if_pos last, last, rangesFrom, List.flatMap_nil, List.append_nil, positions]
      congr 1
      dsimp only
      omega
    · have begun : start + step - 1 + 1 = start + step := by omega
      have first : positions (start, start + step - 1) = List.range' start step := by
        unfold positions
        congr 1
        dsimp only
        omega
      rw [if_neg last, begun, ih (Nat.pos_of_ne_zero last) next, first, List.range'_append_1]
      congr 1
      omega

/-- Every byte from the start on is in one of the ranges. -/
theorem rangesFrom_cover {total step : Nat} (positive : 0 < step) {start remaining : Nat}
    (some_ : 0 < remaining) (enough : start + remaining * step ≤ total) {index : Nat}
    (begun : start ≤ index) (inside : index < total) :
    ∃ range ∈ rangesFrom total step start remaining, range.1 ≤ index ∧ index ≤ range.2 := by
  have among : index ∈ (rangesFrom total step start remaining).flatMap positions := by
    rw [rangesFrom_positions positive some_ enough, List.mem_range'_1]
    omega
  obtain ⟨range, member, inRange⟩ := List.mem_flatMap.mp among
  exact ⟨range, member, mem_positions.mp inRange⟩

theorem parallelRanges_within {total concurrency : Nat} (nonempty : 0 < total)
    (workers : 0 < concurrency) :
    ∀ range ∈ parallelRanges total concurrency, range.1 ≤ range.2 ∧ range.2 < total := by
  have some_ : 0 < min concurrency total := Nat.lt_min.mpr ⟨workers, nonempty⟩
  refine rangesFrom_within (Nat.div_pos (Nat.min_le_right _ _) some_) ?_
  rw [Nat.zero_add]
  exact Nat.mul_div_le total _

theorem parallelRanges_cover {total concurrency : Nat} (workers : 0 < concurrency) {index : Nat}
    (inside : index < total) :
    ∃ range ∈ parallelRanges total concurrency, range.1 ≤ index ∧ index ≤ range.2 := by
  have some_ : 0 < min concurrency total :=
    Nat.lt_min.mpr ⟨workers, Nat.zero_lt_of_lt inside⟩
  refine rangesFrom_cover (Nat.div_pos (Nat.min_le_right _ _) some_) some_ ?_ (Nat.zero_le _) inside
  rw [Nat.zero_add]
  exact Nat.mul_div_le total _

/-- Each worker starts at its range with the body it has received. -/
theorem received_writer {get : Option String → HttpResponse} {chunking : Chunking} {total i : Nat}
    {ranges : List (Nat × Nat)} {writer : PieceWriter UInt8}
    (found : (received get chunking total ranges).writers[i]? = some writer) :
    ∃ range ∈ ranges, writer.position = range.1 ∧
      writer.pieces.flatten = (get (some (rangeHeader range.1 range.2))).body := by
  unfold received at found
  dsimp only at found
  rw [List.getElem?_mapIdx] at found
  obtain ⟨range, present, rfl⟩ := Option.map_eq_some_iff.mp found
  exact ⟨range, List.mem_of_getElem? present, rfl, chunking.whole _ _⟩

private theorem received_present (get : Option String → HttpResponse) (chunking : Chunking) (total : Nat)
    {ranges : List (Nat × Nat)} {range : Nat × Nat} (member : range ∈ ranges) :
    ∃ (i : Nat) (writer : PieceWriter UInt8),
      (received get chunking total ranges).writers[i]? = some writer ∧
      writer.position = range.1 ∧
      writer.pieces.flatten = (get (some (rangeHeader range.1 range.2))).body := by
  obtain ⟨i, present⟩ := List.getElem?_of_mem member
  refine ⟨i, ⟨range.1, chunking.cut (i + 1) (get (some (rangeHeader range.1 range.2))).body⟩, ?_,
    rfl, chunking.whole _ _⟩
  unfold received
  dsimp only
  rw [List.getElem?_mapIdx, present]
  rfl

/-- Workers that receive their ranges of some content write all of it. -/
theorem served_fills {get : Option String → HttpResponse} {content : Bytes} {concurrency : Nat}
    (nonempty : 0 < content.length) (workers : 0 < concurrency)
    (served : ∀ range ∈ parallelRanges content.length concurrency,
      (get (some (rangeHeader range.1 range.2))).body =
        (content.drop range.1).take (range.2 - range.1 + 1)) (chunking : Chunking) :
    (received get chunking content.length (parallelRanges content.length concurrency)).Fills
      content where
  length := List.length_replicate
  stops := by
    intro i writer found
    obtain ⟨range, member, position, pieces⟩ := received_writer found
    obtain ⟨ordered, last⟩ := parallelRanges_within nonempty workers range member
    rw [PieceWriter.stop, position, pieces, served range member, List.length_take,
      List.length_drop]
    omega
  pieces := by
    intro i writer found
    obtain ⟨range, member, position, pieces⟩ := received_writer found
    rw [pieces, position, served range member]
    exact List.take_prefix _ _
  open_ := by
    intro index inside
    right
    obtain ⟨range, member, begun, ended⟩ := parallelRanges_cover workers inside
    obtain ⟨ordered, last⟩ := parallelRanges_within nonempty workers range member
    obtain ⟨i, writer, found, position, pieces⟩ := received_present get chunking content.length
      member
    refine ⟨i, writer, found, position ▸ begun, ?_⟩
    rw [PieceWriter.stop, position, pieces, served range member, List.length_take,
      List.length_drop]
    omega

/-- A column of 64 bits is printed in few enough digits to be read back. -/
theorem short_of_bigint {size : Nat} (bigint : size < 2 ^ 63) : size < 10 ^ maximumDigits :=
  bigint.trans (Nat.lt_of_lt_of_le (by decide : 2 ^ 63 < 10 ^ 19)
    (Nat.pow_le_pow_right (by decide) (by decide)))

section OneObject

variable {app : AppState σ} {world : World Database σ} {identity : Identity} {fileId : Uuid}
  {now : Timestamp} {file : FileObject} {content : Bytes}

/-- The client can see the file, and its object is in the storage. -/
structure Visible (app : AppState σ) (world : World Database σ) (identity : Identity)
    (fileId : Uuid) (file : FileObject) (content : Bytes) : Prop where
  row : (FileService.get identity fileId).run world.db world.store =
    (.ok (file, world.db), world.store)
  object : app.storage.stored world.store file.bucket file.objectKey = .ok content

theorem downloadFile_ok {rangeHeader : Option String} {range : Option ByteRange} {bytes : Bytes}
    (done : (FileService.download app identity fileId rangeHeader).run world.db world.store =
      (.ok ((file, range, bytes), world.db), world.store)) :
    downloadFile app world identity fileId now rangeHeader =
      match range with
      | none => { status := 200, body := bytes }
      | some range =>
        { status := 206
          contentRange := some ("bytes " ++ toString range.start ++ "-" ++ toString range.last ++
            "/" ++ toString file.sizeBytes)
          body := bytes } := by
  have answered : (read app identity (.download fileId rangeHeader)).run world.db world.store =
      (.ok (.content file range bytes, world.db), world.store) := by
    unfold read
    rw [Program.run_bind_ok done]
    rfl
  have served := World.execute_wrap_ok answered Reply.read
  unfold downloadFile
  rw [serve, handle, served]
  cases range <;> rfl

private theorem downloadFile_error {rangeHeader : Option String} {failure : Failure}
    (refused : (FileService.download app identity fileId rangeHeader).run world.db world.store =
      (.error failure, world.store)) :
    downloadFile app world identity fileId now rangeHeader = { status := failure.statusCode } := by
  have answered : (read app identity (.download fileId rangeHeader)).run world.db world.store =
      (.error failure, world.store) := by
    unfold read
    exact Program.run_bind_error refused _
  have served := World.execute_wrap_error answered Reply.read
  unfold downloadFile
  rw [serve, handle, served]

theorem download_run (visible : Visible app world identity fileId file content)
    {rangeHeader : Option String} {range : Option ByteRange}
    (ranged : FileService.requestedRange rangeHeader file.sizeBytes = .ok range) :
    (FileService.download app identity fileId rangeHeader).run world.db world.store =
      ((app.storage.getObject file.bucket file.objectKey ((range.map (·.start)).getD 0)
        (range.map (·.length)) world.store).map fun bytes => ((file, range, bytes), world.db),
        world.store) := by
  unfold FileService.download
  rw [Program.run_bind_ok visible.row, Program.run_bind_ok (Program.liftExcept_ok ranged _ _),
    Program.run_bind, Program.run_askStore]
  cases app.storage.getObject file.bucket file.objectKey ((range.map (·.start)).getD 0)
    (range.map (·.length)) world.store <;> rfl

theorem requestedRange_some {header : String} (filled : header ≠ "") (size : Nat) :
    FileService.requestedRange (some header) size = (parseByteRange header size).map some := by
  have given : firstText (some header) none = some header := if_neg filled
  unfold FileService.requestedRange
  rw [given]

/-- With a range, it serves what the adapter reads. -/
theorem downloadFile_range (visible : Visible app world identity fileId file content)
    {header : String} (filled : header ≠ "") {range : ByteRange}
    (accepted : parseByteRange header file.sizeBytes = .ok range) :
    downloadFile app world identity fileId now (some header) =
      match app.storage.getObject file.bucket file.objectKey range.start (some range.length)
        world.store with
      | .error failure => { status := failure.statusCode }
      | .ok bytes =>
        { status := 206
          contentRange := some ("bytes " ++ toString range.start ++ "-" ++ toString range.last ++
            "/" ++ toString file.sizeBytes)
          body := bytes } := by
  have ranged : FileService.requestedRange (some header) file.sizeBytes = .ok (some range) := by
    rw [requestedRange_some filled, accepted]
    rfl
  have ran := download_run visible ranged
  dsimp only [Option.map_some, Option.getD_some] at ran
  cases reads : app.storage.getObject file.bucket file.objectKey range.start (some range.length)
      world.store with
  | error failure =>
    rw [reads] at ran
    exact downloadFile_error ran
  | ok bytes =>
    rw [reads] at ran
    exact downloadFile_ok ran

private theorem rangeHeader_filled (first last : Nat) : rangeHeader first last ≠ "" := by
  intro empty
  have letters := congrArg String.toList empty
  unfold rangeHeader at letters
  simp at letters

theorem downloadFile_worker (visible : Visible app world identity fileId file content)
    (short : file.sizeBytes < 10 ^ maximumDigits) {first last : Nat} (ordered : first ≤ last)
    (within : last < file.sizeBytes) :
    downloadFile app world identity fileId now (some (rangeHeader first last)) =
      match app.storage.getObject file.bucket file.objectKey first (some (last - first + 1))
        world.store with
      | .error failure => { status := failure.statusCode }
      | .ok bytes =>
        { status := 206
          contentRange := some ("bytes " ++ toString first ++ "-" ++ toString last ++ "/" ++
            toString file.sizeBytes)
          body := bytes } :=
  downloadFile_range visible (rangeHeader_filled first last)
    (parseByteRange_header ordered within short)

/-- A worker whose range lies within the object receives it. -/
theorem worker_served (serves : app.storage.ReadsRanges)
    (visible : Visible app world identity fileId file content)
    (short : file.sizeBytes < 10 ^ maximumDigits) (sized : file.sizeBytes = content.length)
    {first last : Nat} (ordered : first ≤ last) (within : last < file.sizeBytes) :
    (downloadFile app world identity fileId now (some (rangeHeader first last))).status = 206 ∧
      (downloadFile app world identity fileId now (some (rangeHeader first last))).body =
        (content.drop first).take (last - first + 1) := by
  rw [downloadFile_worker visible short ordered within,
    serves.inside visible.object (Nat.succ_pos _) (by omega)]
  exact ⟨rfl, rfl⟩

end OneObject

def bytewise : Chunking where
  cut _ body := body.map ([·])
  whole _ body := by
    induction body with
    | nil => rfl
    | cons byte rest ih => rw [List.map_cons, List.flatten_cons, ih, List.singleton_append]

def smallStored : World Database LocalState :=
  after smallLocalApp ⟨{}, {}⟩ [(.proxyUpload smallTenant smallUpload, 0)]

end Sdk

end PyUploadX
