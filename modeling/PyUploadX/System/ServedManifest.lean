import PyUploadX.DirectoryUpload.ManifestLines
import PyUploadX.Sdk.EntryPages

/-! The manifest of a job as it is served: its lines, and the entries they stand for. -/
namespace PyUploadX

open Kit DirectoryUploadService

variable {σ : Type} {app : AppState σ}

/-- The objects of a text of JSON lines. -/
def objectsOfLines (float : String → FloatValue) (text : String) : Option (List Json) :=
  parseLines float (text.toList.splitOn '\n')

/-- What the manifest says about a row. -/
def DirectoryUploadEntry.object (entry : DirectoryUploadEntry) : Json := .object entry.record.object

section Lines

variable {float : String → FloatValue}

private theorem splitOn_lines {lines : List (List Char)} (unbroken : ∀ line ∈ lines, '\n' ∉ line) :
    (lines.flatMap fun line => line ++ ['\n']).splitOn '\n' = lines ++ [[]] := by
  induction lines with
  | nil => rfl
  | cons line lines ih =>
    have plain : ∀ char ∈ line, (char == '\n') = false := fun char member =>
      beq_eq_false_iff_ne.mpr fun same => unbroken line List.mem_cons_self (same ▸ member)
    rw [List.flatMap_cons, List.append_assoc, List.singleton_append, List.splitOn_eq_splitOnP,
      List.splitOnP_append_cons_of_forall_mem plain _ (beq_self_eq_true _),
      ← List.splitOn_eq_splitOnP, ih fun other member => unbroken other (List.mem_cons_of_mem _ member)]
    rfl

theorem newline_not_mem_line (record : ManifestRecord) : '\n' ∉ record.line.toList := by
  intro member
  rcases ManifestRecord.mem_line member with plain | ⟨_, printed⟩
  · exact absurd plain.1 (by decide)
  · exact absurd printed (by decide)

/-- Cut at the line feeds alone, every manifest is read back as its records. -/
theorem objectsOfLines_serialize (records : List ManifestRecord) :
    objectsOfLines float (serializeRecords records) =
      some (records.map fun record => .object record.object) := by
  unfold objectsOfLines
  rw [ManifestRecord.toList_serializeRecords, splitOn_lines]
  · induction records with
    | nil => rfl
    | cons record records ih =>
      rw [List.map_cons, List.cons_append, ManifestRecord.parseLines_line, ih]
      rfl
  · intro line listed
    obtain ⟨record, _, rfl⟩ := List.mem_map.mp listed
    exact newline_not_mem_line record

end Lines

/-- The objects of the manifest that is served. -/
def servedObjects (app : AppState σ) (float : String → FloatValue) (world : World Database σ)
    (identity : Identity) (jobId : Uuid) (now : Timestamp) : Option (List Json) :=
  match (serve app world (.directoryUpload identity (.getManifest jobId), now)).1 with
  | .ok (.directory (.manifest text)) => objectsOfLines float text
  | _ => none

section Served

variable {world : World Database σ} {identity : Identity} {jobId : Uuid} {job : DirectoryUploadJob}

private theorem serve_getManifest (found : world.db.findJob jobId identity.tenantId = some job)
    (now : Timestamp) :
    serve app world (.directoryUpload identity (.getManifest jobId), now) =
      (.ok (.directory (.manifest (serializeManifestNdjson
        (pageOf none 100000 (world.db.entriesOf jobId)).1))), world) := by
  refine World.execute_eq_ok.mpr (Program.bind_pure_eq_ok.mpr ⟨_, ?_, rfl⟩)
  exact Program.bind_pure_eq_ok.mpr ⟨_, listEntries_found found none 100000, rfl⟩

/-- However many entries are asked for, a page has at most a thousand. -/
theorem pageOf_largest (entries : List DirectoryUploadEntry) :
    (pageOf none 100000 entries).1 =
      (Paging.arrange (·.normalizedPath.text) (· < ·) entries).take 1000 := rfl

private theorem servedObjects_eq (float : String → FloatValue)
    (found : world.db.findJob jobId identity.tenantId = some job) (now : Timestamp) :
    servedObjects app float world identity jobId now =
      some (((Paging.arrange (·.normalizedPath.text) (· < ·)
        (world.db.entriesOf jobId)).take 1000).map (·.object)) := by
  unfold servedObjects
  rw [serve_getManifest found]
  dsimp only
  rw [serializeManifestNdjson, objectsOfLines_serialize, pageOf_largest, List.map_map]
  rfl

end Served

/-- The manifest that is served holds every entry of the job once, and nothing else, if and only
if the job has at most a thousand entries. -/
theorem served_manifest_complete_iff (app : AppState σ) (float : String → FloatValue)
    (world : World Database σ) (identity : Identity) (jobId : Uuid) (now : Timestamp)
    {job : DirectoryUploadJob} (found : world.db.findJob jobId identity.tenantId = some job) :
    (∃ objects, servedObjects app float world identity jobId now = some objects ∧
      objects.Perm ((world.db.entriesOf jobId).map (·.object))) ↔
      (world.db.entriesOf jobId).length ≤ 1000 := by
  rw [servedObjects_eq float found now]
  have arranged := @Paging.arrange_perm _ _ (fun entry : DirectoryUploadEntry =>
    entry.normalizedPath.text) (· < ·) _ (world.db.entriesOf jobId)
  constructor
  · rintro ⟨objects, same, complete⟩
    cases same
    have length := complete.length_eq
    rw [List.length_map, List.length_map, List.length_take, arranged.length_eq] at length
    omega
  · intro few
    refine ⟨_, rfl, ?_⟩
    rw [List.take_of_length_le (by rw [arranged.length_eq]; exact few)]
    exact arranged.map _

private theorem ordinarySegment_digits (number : Nat) : OrdinarySegment (toString number) := by
  have digits := isDigit_toDigits number
  have spelled : (toString number).toList = Nat.toDigits 10 number := Nat.toList_repr
  have differs : ∀ text : String, (∃ char ∈ text.toList, char.isDigit = false) →
      toString number ≠ text := by
    rintro text ⟨char, member, other⟩ same
    rw [← same, spelled] at member
    rw [digits char member] at other
    cases other
  refine ⟨Nat.repr_ne_empty, differs "." ⟨'.', by simp, rfl⟩, differs ".." ⟨'.', by simp, rfl⟩,
    fun slash => ?_⟩
  rw [spelled] at slash
  cases digits '/' slash

/-- A row whose path is its number. -/
def numberedEntry (number : Nat) : DirectoryUploadEntry where
  id := number + 1
  directoryUploadId := 0
  entryType := .file
  relativePath := toString number
  normalizedPath := ⟨[toString number], List.cons_ne_nil _ _, fun segment member => by
    rw [List.mem_singleton.mp member]
    exact ordinarySegment_digits number⟩
  objectKey := toString number
  sizeBytes := 0
  lastModifiedNs := none
  contentType := none
  fingerprint := none
  fullSha256 := none
  status := .pending
  requestedLifecycle := none
  effectiveLifecycle := none

/-- A job of `count` files. -/
def numberedJob (count : Nat) : World Database MemoryS3 :=
  let world := after smallS3App ⟨{}, smallS3⟩ (smallDirectory.take 1)
  { world with db := world.db.addEntries ((List.range count).map numberedEntry) }

private theorem numberedJob_entriesOf (count : Nat) :
    (numberedJob count).db.entriesOf 0 = (List.range count).map numberedEntry := by
  have empty : (after smallS3App ⟨{}, smallS3⟩ (smallDirectory.take 1)).db.directoryUploadEntries =
      [] := by decide +kernel
  unfold numberedJob Database.entriesOf
  dsimp only [Database.addEntries]
  rw [empty, List.nil_append, List.filter_eq_self]
  intro entry member
  obtain ⟨number, _, rfl⟩ := List.mem_map.mp member
  rfl

private theorem numberedJob_found (count : Nat) :
    ∃ job, (numberedJob count).db.findJob 0 smallTenant.tenantId = some job := by
  have created : ((after smallS3App ⟨{}, smallS3⟩ (smallDirectory.take 1)).db.findJob 0
      smallTenant.tenantId).isSome = true := by decide +kernel
  exact Option.isSome_iff_exists.mp created

theorem manifest_of_1001_entries_is_cut :
    ¬ ∀ (world : World Database MemoryS3) (identity : Identity) (jobId : Uuid) (now : Timestamp)
      (job : DirectoryUploadJob), world.db.findJob jobId identity.tenantId = some job →
      ∃ objects, servedObjects smallS3App (fun _ => .nan) world identity jobId now = some objects ∧
        objects.Perm ((world.db.entriesOf jobId).map (·.object)) := by
  intro complete
  obtain ⟨job, found⟩ := numberedJob_found 1001
  obtain ⟨objects, served, all⟩ := complete (numberedJob 1001) smallTenant 0 0 job found
  rw [servedObjects_eq _ found] at served
  obtain rfl := Option.some.inj served
  have length := all.length_eq
  have arranged := (@Paging.arrange_perm _ _ (fun entry : DirectoryUploadEntry =>
    entry.normalizedPath.text) (· < ·) _ ((numberedJob 1001).db.entriesOf 0)).length_eq
  rw [List.length_map, List.length_map, List.length_take, arranged, numberedJob_entriesOf,
    List.length_map, List.length_range] at length
  omega

theorem manifest_of_2_entries_is_complete :
    ∃ objects, servedObjects smallS3App (fun _ => .nan) (numberedJob 2) smallTenant 0 0 =
        some objects ∧ objects.Perm [(numberedEntry 0).object, (numberedEntry 1).object] := by
  obtain ⟨job, found⟩ := numberedJob_found 2
  have few : ((numberedJob 2).db.entriesOf 0).length ≤ 1000 := by
    rw [numberedJob_entriesOf]
    decide
  have complete := (served_manifest_complete_iff smallS3App (fun _ => .nan) (numberedJob 2)
    smallTenant 0 0 found).mpr few
  rw [numberedJob_entriesOf] at complete
  exact complete

end PyUploadX
