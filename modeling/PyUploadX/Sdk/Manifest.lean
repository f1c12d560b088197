import PyUploadX.Services.DirectoryEffects

/-! The SDK's side of a manifest: its own normalization of paths, and its own hash. -/
namespace PyUploadX

open Kit DirectoryUploadService

namespace Sdk

/-- The pieces that count; the SDK knows no unsafe segments. -/
def collectSegments : List String → Except String (List String)
  | [] => .ok []
  | part :: rest =>
    if part = "" ∨ part = "." then collectSegments rest
    else if part = ".." then .error "parent directory traversal is forbidden"
    else do
      let parts ← collectSegments rest
      return part :: parts

/-- The parts are the pieces other than `""` and `"."`. -/
theorem collectSegments_ok {pieces parts : List String}
    (collected : collectSegments pieces = .ok parts) :
    ∀ part ∈ parts, part ∈ pieces ∧ part ≠ "" ∧ part ≠ "." ∧ part ≠ ".." := by
  induction pieces generalizing parts with
  | nil => cases collected; exact fun _ => nofun
  | cons piece rest ih =>
    unfold collectSegments at collected
    split at collected
    · intro part member
      obtain ⟨present, ordinary⟩ := ih collected part member
      exact ⟨List.mem_cons_of_mem _ present, ordinary⟩
    · rename_i meaningful
      split at collected
      · cases collected
      · rename_i inside
        obtain ⟨others, tail, collected⟩ := except_bind_eq_ok.mp collected
        cases collected
        intro part member
        rcases List.mem_cons.mp member with rfl | later
        · rw [not_or] at meaningful
          exact ⟨List.mem_cons_self, meaningful.1, meaningful.2, inside⟩
        · obtain ⟨present, ordinary⟩ := ih tail part later
          exact ⟨List.mem_cons_of_mem _ present, ordinary⟩

theorem collectSegments_ordinary {path : String} {parts : List String}
    (collected : collectSegments (splitPath path) = .ok parts) :
    ∀ part ∈ parts, OrdinarySegment part := by
  intro part member
  obtain ⟨present, empty, dot, dots⟩ := collectSegments_ok collected part member
  exact ⟨empty, dot, dots, slash_not_mem_splitPath path part present⟩

def forwardSlashes (path : String) : String :=
  String.ofList (path.toList.map fun char => if char = '\\' then '/' else char)

theorem forwardSlashes_append (first second : String) :
    forwardSlashes (first ++ second) =
      forwardSlashes first ++ forwardSlashes second := by
  unfold forwardSlashes
  rw [String.toList_append, List.map_append, String.ofList_append]

theorem forwardSlashes_join (first second : String) :
    forwardSlashes (first ++ "/" ++ second) =
      forwardSlashes first ++ "/" ++ forwardSlashes second := by
  rw [forwardSlashes_append, forwardSlashes_append]
  rfl

/-- `normalize_relative_path` of the SDK; its errors are the texts of a `ValidationError`. -/
def normalizeRelativePath (nfc : String → String) (rawPath : String) (maximumDepth : Nat := 64)
    (maximumBytes : Nat := 1024) : Except String ObjectKey :=
  let nfcPath := nfc (forwardSlashes rawPath)
  if nfcPath.toList.head? = some '/' then .error "absolute paths are forbidden"
  else if nfcPath.toList[1]? = some ':' then .error "windows drive paths are forbidden"
  else
    match collected : collectSegments (splitPath nfcPath) with
    | .error message => .error message
    | .ok parts =>
      if empty : parts = [] then .error "path must not be empty"
      else if maximumDepth < parts.length then
        .error s!"path exceeds maximum depth of {maximumDepth}"
      else if maximumBytes < ("/".intercalate parts).utf8ByteSize then
        .error s!"path exceeds maximum length of {maximumBytes} bytes"
      else .ok ⟨parts, empty, collectSegments_ordinary collected⟩

/-- What Unicode normalization does to paths. -/
structure NormalForms (nfc : String → String) : Prop where
  idempotent : ∀ text, nfc (nfc text) = nfc text
  segmentwise : ∀ text, splitPath (nfc text) = (splitPath text).map nfc
  /-- No sequence of other characters composes to a backslash. -/
  forward : ∀ text, '\\' ∉ text.toList → '\\' ∉ (nfc text).toList

/-- Texts that are composed already. -/
theorem normalForms_id : NormalForms id :=
  ⟨fun _ => rfl, fun _ => (List.map_id _).symm, fun _ => id⟩

section Fixpoint

variable {nfc : String → String} {rawPath : String} {key : ObjectKey} {maximumDepth maximumBytes : Nat}

/-- Normalization keeps to the segments. -/
theorem NormalForms.join (forms : NormalForms nfc) (first second : String) :
    nfc (first ++ "/" ++ second) = nfc first ++ "/" ++ nfc second := by
  apply splitPath_injective
  rw [splitPath_join, forms.segmentwise, forms.segmentwise, forms.segmentwise, splitPath_join,
    List.map_append]

private theorem normalizeRelativePath_ok
    (accepted : normalizeRelativePath nfc rawPath maximumDepth maximumBytes = .ok key) :
    collectSegments (splitPath (nfc (forwardSlashes rawPath))) = .ok key.segments := by
  simp only [normalizeRelativePath] at accepted
  split_ifs at accepted
  split at accepted
  · cases accepted
  · rename_i parts collected
    split_ifs at accepted
    cases accepted
    exact collected

private theorem forward_forwardSlashes (path : String) : '\\' ∉ (forwardSlashes path).toList := by
  unfold forwardSlashes
  rw [String.toList_ofList, List.mem_map]
  rintro ⟨char, _, same⟩
  split at same
  · exact absurd same (by decide)
  · contradiction

theorem forwardSlashes_eq_self {path : String} (forward : '\\' ∉ path.toList) :
    forwardSlashes path = path := by
  unfold forwardSlashes
  have same : (path.toList.map fun char => if char = '\\' then '/' else char) = path.toList := by
    conv_rhs => rw [← List.map_id path.toList]
    apply List.map_congr_left
    intro char member
    have other : char ≠ '\\' := fun same => forward (same ▸ member)
    rw [if_neg other]
    rfl
  rw [same, String.ofList_toList]

theorem mem_of_mem_splitPath {path piece : String} (member : piece ∈ splitPath path) {char : Char}
    (inside : char ∈ piece.toList) : char ∈ path.toList := by
  obtain ⟨chars, present, rfl⟩ := List.mem_map.mp member
  rw [String.toList_ofList] at inside
  exact splitOn_subset '/' path.toList chars present inside

theorem segment_normal (forms : NormalForms nfc)
    (accepted : normalizeRelativePath nfc rawPath maximumDepth maximumBytes = .ok key)
    {segment : String} (member : segment ∈ key.segments) :
    nfc segment = segment ∧ '\\' ∉ segment.toList := by
  obtain ⟨piece, _⟩ := collectSegments_ok (normalizeRelativePath_ok accepted) segment member
  constructor
  · rw [forms.segmentwise] at piece
    obtain ⟨raw, _, rfl⟩ := List.mem_map.mp piece
    exact forms.idempotent raw
  · intro backslash
    exact forms.forward _ (forward_forwardSlashes rawPath) (mem_of_mem_splitPath piece backslash)

theorem text_forward (forward : ∀ segment ∈ key.segments, '\\' ∉ segment.toList) :
    '\\' ∉ key.text.toList := by
  intro backslash
  obtain ⟨chars, present, inside⟩ := @exists_mem_splitOn '/' _ (by decide) _ backslash
  have piece : String.ofList chars ∈ splitPath key.text := List.mem_map_of_mem present
  rw [splitPath_text] at piece
  exact forward _ piece (by rwa [String.toList_ofList])

theorem collectSegments_of_ordinary {pieces parts : List String}
    (ordinary : ∀ piece ∈ pieces, OrdinarySegment piece)
    (collected : PyUploadX.collectSegments pieces = .ok parts) : parts = pieces := by
  induction pieces generalizing parts with
  | nil => cases collected; rfl
  | cons piece rest ih =>
    obtain ⟨empty, dot, dots, _⟩ := ordinary piece List.mem_cons_self
    unfold PyUploadX.collectSegments at collected
    rw [if_neg (not_or.mpr ⟨empty, dot⟩), if_neg dots] at collected
    split at collected
    · cases collected
    · obtain ⟨others, tail, collected⟩ := except_bind_eq_ok.mp collected
      cases collected
      rw [ih (fun other member => ordinary other (List.mem_cons_of_mem _ member)) tail]

/-- What the SDK's normalization gives is a fixed point of the server's. -/
theorem server_normalizes_to_self (forms : NormalForms nfc)
    (accepted : normalizeRelativePath nfc rawPath maximumDepth maximumBytes = .ok key)
    {depth bytes : Nat} {normalized : ObjectKey}
    (served : PyUploadX.normalizeRelativePath nfc depth bytes key.text = .ok normalized) :
    normalized = key := by
  have forward := forwardSlashes_eq_self
    (text_forward fun segment member => (segment_normal forms accepted member).2)
  have pieces : splitPath (nfc key.text) = key.segments := by
    rw [forms.segmentwise, splitPath_text]
    conv_rhs => rw [← List.map_id key.segments]
    exact List.map_congr_left fun segment member => (segment_normal forms accepted member).1
  unfold forwardSlashes at forward
  simp only [PyUploadX.normalizeRelativePath] at served
  split_ifs at served
  split at served
  · cases served
  · rename_i parts collected
    rw [forward, pieces] at collected
    split_ifs at served
    cases served
    exact ObjectKey.ext_segments (collectSegments_of_ordinary key.ordinary collected)

end Fixpoint

/-- An entry of a walk, with the path the SDK's normalization gave it. -/
structure WalkedEntry where
  entryType : EntryType
  path : ObjectKey
  sizeBytes : Int
  lastModifiedNs : Option Int := none
  fingerprint : Option String := none
  contentType : Option String := none
  deriving DecidableEq

/-- The entry in a body of `POST …/entries`. -/
def WalkedEntry.request (entry : WalkedEntry) : EntryRequest where
  entryType := entry.entryType.value
  relativePath := entry.path.text
  sizeBytes := entry.sizeBytes
  lastModifiedNs := entry.lastModifiedNs
  contentType := entry.contentType
  fingerprint := entry.fingerprint

/-- What `walk_directory` returns. -/
structure Walk (nfc : String → String) where
  files : List WalkedEntry
  directories : List WalkedEntry
  isFile : ∀ entry ∈ files, entry.entryType = .file
  isDirectory : ∀ entry ∈ directories, entry.entryType = .directory
  normal : ∀ entry ∈ directories ++ files, ∃ rawPath,
    normalizeRelativePath nfc rawPath = .ok entry.path

def Walk.entries {nfc : String → String} (walk : Walk nfc) : List WalkedEntry :=
  walk.directories ++ walk.files

/-- `manifest_hash_from_entries` of the SDK. -/
def manifestHashFromEntries (sha256 : Bytes → String) (entries : List WalkedEntry) : String :=
  let sorted := entries.insertionSort fun first second => ¬ second.path.text < first.path.text
  let lines := sorted.map fun entry => jsonObject [
    ("fingerprint", jsonNullable entry.fingerprint),
    ("relative_path", jsonString entry.path.text),
    ("size_bytes", toString entry.sizeBytes)]
  sha256 ("\n".intercalate lines).toUTF8.toList

def WalkedEntry.manifestEntry (entry : WalkedEntry) : ManifestEntry where
  relativePath := entry.path.text
  sizeBytes := entry.sizeBytes
  fingerprint := entry.fingerprint

/-- The two hashes differ in what they take an entry from. -/
theorem manifestHashFromEntries_eq (sha256 : Bytes → String) (entries : List WalkedEntry) :
    manifestHashFromEntries sha256 entries =
      PyUploadX.manifestHashFromEntries sha256 (entries.map (·.manifestEntry)) := by
  have sorted := List.map_insertionSort
    (fun first second : WalkedEntry => ¬ second.path.text < first.path.text)
    (fun first second : ManifestEntry => ¬ second.relativePath < first.relativePath)
    WalkedEntry.manifestEntry entries fun _ _ _ _ => Iff.rfl
  unfold manifestHashFromEntries PyUploadX.manifestHashFromEntries manifestText
  rw [← sorted]
  dsimp only
  rw [List.map_map]
  rfl

end Sdk

/-- The entry as the client described it. -/
def DirectoryUploadEntry.walked (entry : DirectoryUploadEntry) : Sdk.WalkedEntry where
  entryType := entry.entryType
  path := entry.normalizedPath
  sizeBytes := entry.sizeBytes
  lastModifiedNs := entry.lastModifiedNs
  fingerprint := entry.fingerprint
  contentType := entry.contentType

namespace Sdk

theorem ofText_value (entryType : EntryType) : EntryType.ofText entryType.value = .ok entryType := by
  cases entryType <;> rfl

/-- The rows of an accepted batch are the entries that were sent, under their own paths. -/
theorem collectEntries_walked {nfc : String → String} (forms : NormalForms nfc)
    {limits : DirectoryUploadLimits} {job : DirectoryUploadJob} {id : Uuid}
    {existing : List ObjectKey} {sent : List WalkedEntry} {rows : List DirectoryUploadEntry}
    (normal : ∀ entry ∈ sent, ∃ rawPath, normalizeRelativePath nfc rawPath = .ok entry.path)
    (collected : collectEntries nfc limits job id existing (sent.map (·.request)) = .ok rows) :
    rows.map (·.walked) = sent := by
  induction sent generalizing id existing rows with
  | nil => cases collected; rfl
  | cons entry rest ih =>
    obtain ⟨row, others, collects, _, _, tail, rfl⟩ := collectEntries_cons collected
    obtain ⟨rawPath, accepted⟩ := normal entry List.mem_cons_self
    have same : row.normalizedPath = entry.path :=
      server_normalizes_to_self forms accepted collects.path
    have typed : row.entryType = entry.entryType :=
      Except.ok.inj (collects.named.symm.trans (ofText_value entry.entryType))
    rw [List.map_cons, ih (fun other member => normal other (List.mem_cons_of_mem _ member)) tail,
      collects.row, same, typed]
    rfl

end Sdk

end PyUploadX
