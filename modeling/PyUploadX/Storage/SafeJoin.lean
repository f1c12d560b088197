import PyUploadX.Services.Bucket
import PyUploadX.Storage.LocalKeys

/-! Where an object key leads on disk: the checks on keys and bucket names keep every path
below the directory of its bucket. -/
namespace PyUploadX

/-- The names of a path, from `/` down, after one more part of `Path.joinpath`: empty names
and dots vanish, and an absolute part starts over. -/
def joinPart (path : List String) (part : String) : List String :=
  let names := (splitPath part).filter fun name => name ≠ "" ∧ name ≠ "."
  if part.toList.head? = some '/' then names else path ++ names

def joinpath (path : List String) (parts : List String) : List String := parts.foldl joinPart path

/-- `Path.resolve()` where there are no links. -/
def resolve (path : List String) : List String :=
  path.foldl (fun reached name => if name = ".." then reached.dropLast else reached ++ [name]) []

/-- `resolved == root or resolved.is_relative_to(root)`. -/
def Inside (directory path : List String) : Prop := resolve directory <+: resolve path

instance (directory path : List String) : Decidable (Inside directory path) :=
  inferInstanceAs (Decidable (_ <+: _))

def StrictlyInside (directory path : List String) : Prop :=
  Inside directory path ∧ resolve path ≠ resolve directory

def safeJoin (root : List String) (parts : List String) : Except Failure (List String) :=
  let candidate := joinpath root parts
  if Inside root candidate then .ok candidate else .error (.value "path escapes storage root")

section Joining

private theorem joinPart_ordinary (path : List String) {name : String} (ordinary : OrdinarySegment name) :
    joinPart path name = path ++ [name] := by
  have relative : name.toList.head? ≠ some '/' := by
    intro absolute
    exact ordinary.2.2.2 (List.mem_of_mem_head? absolute)
  unfold joinPart
  rw [splitPath_slashless ordinary.2.2.2, if_neg relative,
    List.filter_singleton, decide_eq_true ⟨ordinary.1, ordinary.2.1⟩, cond_true]

private theorem joinpath_ordinary (path : List String) {parts : List String}
    (ordinary : ∀ part ∈ parts, OrdinarySegment part) : joinpath path parts = path ++ parts := by
  induction parts generalizing path with
  | nil => exact (List.append_nil path).symm
  | cons part rest ih =>
    have first : OrdinarySegment part := ordinary part List.mem_cons_self
    have others := ih (joinPart path part) fun other member =>
      ordinary other (List.mem_cons_of_mem _ member)
    rw [joinPart_ordinary path first] at others
    rw [joinpath, List.foldl_cons, joinPart_ordinary path first]
    exact others.trans (List.append_assoc _ _ _)

private theorem resolve_append {path names : List String} (descending : ∀ name ∈ names, name ≠ "..") :
    resolve (path ++ names) = resolve path ++ names := by
  induction names generalizing path with
  | nil => rw [List.append_nil, List.append_nil]
  | cons name rest ih =>
    have step : resolve (path ++ [name]) = resolve path ++ [name] := by
      unfold resolve
      rw [List.foldl_append, List.foldl_cons, List.foldl_nil,
        if_neg (descending name List.mem_cons_self)]
    have others := @ih (path ++ [name]) fun other member =>
      descending other (List.mem_cons_of_mem _ member)
    rw [List.append_assoc, List.singleton_append] at others
    rw [others, step, List.append_assoc, List.singleton_append]

/-- Ordinary names are joined as they are, and lead down. -/
theorem safeJoin_ordinary (root : List String) {parts : List String}
    (ordinary : ∀ part ∈ parts, OrdinarySegment part) :
    safeJoin root parts = .ok (root ++ parts) ∧
      resolve (root ++ parts) = resolve root ++ parts := by
  have down : resolve (root ++ parts) = resolve root ++ parts :=
    resolve_append fun part member => (ordinary part member).2.2.1
  have inside : Inside root (root ++ parts) := by
    unfold Inside
    rw [down]
    exact List.prefix_append _ _
  refine ⟨?_, down⟩
  unfold safeJoin
  rw [joinpath_ordinary root ordinary]
  exact if_pos inside

end Joining

section Names

/-- The characters that neither a key nor its normal form may bring in. -/
def reservedChar (char : Char) : Bool := char == '/' || char == '\\' || char == '.' || isControlChar char

/-- Normalization forms no reserved character. -/
def FormsNoReserved (nfc : String → String) : Prop :=
  ∀ text, ∀ char ∈ (nfc text).toList, reservedChar char = true → char ∈ text.toList

private theorem collectSegments_subset {pieces parts : List String}
    (collected : collectSegments pieces = .ok parts) : parts ⊆ pieces := by
  induction pieces generalizing parts with
  | nil => cases collected; exact List.nil_subset _
  | cons piece rest ih =>
    unfold collectSegments at collected
    split at collected
    · exact List.subset_cons_of_subset _ (ih collected)
    · split_ifs at collected
      obtain ⟨others, tail, same⟩ := Kit.except_bind_eq_ok.mp collected
      cases same
      exact List.cons_subset_cons _ (ih tail)

/-- No reserved character of an accepted key other than the dot is in a segment. -/
theorem normalizeRelativePath_chars {nfc : String → String} (forms : FormsNoReserved nfc)
    {maximumDepth maximumBytes : Nat} {rawPath : String} {key : ObjectKey}
    (accepted : normalizeRelativePath nfc maximumDepth maximumBytes rawPath = .ok key) :
    ∀ segment ∈ key.segments, ∀ char ∈ segment.toList,
      char ≠ '\\' ∧ isControlChar char = false := by
  simp only [normalizeRelativePath] at accepted
  split_ifs at accepted with nul control absolute drive
  split at accepted
  · cases accepted
  · rename_i parts collected
    split_ifs at accepted
    cases accepted
    intro segment member char inside
    obtain ⟨chars, piece, rfl⟩ := List.mem_map.mp (collectSegments_subset collected member)
    rw [String.toList_ofList] at inside
    have formed := splitOn_subset '/' _ chars piece inside
    have posix : reservedChar char = true →
        char ∈ rawPath.toList.map fun char => if char = '\\' then '/' else char := by
      intro reserved
      have present := forms _ char formed reserved
      rwa [String.toList_ofList] at present
    constructor
    · rintro rfl
      obtain ⟨raw, _, same⟩ := List.mem_map.mp (posix (by decide))
      split at same
      · cases same
      · rename_i other
        exact other same
    · by_contra controls
      rw [Bool.not_eq_false] at controls
      obtain ⟨raw, present, same⟩ := List.mem_map.mp (posix (by simp [reservedChar, controls]))
      split at same
      · rw [← same] at controls
        exact absurd controls (by decide)
      · rw [same] at present
        exact control (List.any_eq_true.mpr ⟨char, present, controls⟩)

open BucketService in
/-- A name that `validate_name` accepts is one ordinary segment, and starts with no dot. -/
theorem validateName_ordinary {name bucket : String} (accepted : validateName name = .ok bucket) :
    OrdinarySegment bucket ∧ bucket.toList.head? ≠ some '.' := by
  unfold validateName at accepted
  simp only at accepted
  split_ifs at accepted with refused
  cases accepted
  rw [not_or, Bool.not_eq_false] at refused
  have shape := refused.1
  unfold matchesBucketName at shape
  simp only [Bool.and_eq_true, decide_eq_true_eq, List.all_eq_true] at shape
  obtain ⟨⟨⟨⟨long, _⟩, chars⟩, head⟩, _⟩ := shape
  have first : ∀ char, (stripBy isSpace name.toList).head? = some char → isBucketEdgeChar char = true := by
    intro char found
    rw [found] at head
    exact head
  have start : (stripBy isSpace name.toList).head? ≠ some '.' := fun found =>
    absurd (first '.' found) (by decide)
  refine ⟨⟨?_, ?_, ?_, ?_⟩, by rwa [String.toList_ofList]⟩
  · intro empty
    have none : stripBy isSpace name.toList = [] := by
      rw [← String.toList_ofList (l := stripBy isSpace name.toList), empty]
      rfl
    rw [none] at long
    exact absurd long (by decide)
  · intro dot
    have single : stripBy isSpace name.toList = ['.'] := by
      rw [← String.toList_ofList (l := stripBy isSpace name.toList), dot]
      rfl
    rw [single] at start
    exact start rfl
  · intro dots
    have double : stripBy isSpace name.toList = ['.', '.'] := by
      rw [← String.toList_ofList (l := stripBy isSpace name.toList), dots]
      rfl
    rw [double] at start
    exact start rfl
  · rw [String.toList_ofList]
    intro slash
    exact absurd (chars '/' slash) (by decide)

end Names

private theorem staging_ordinary : OrdinarySegment ".multipart" :=
  ⟨by decide, by decide, by decide, by decide⟩

/-- A name that `create_bucket` accepts, or one from the configuration: an ordinary segment
other than the name of the staging directory. -/
def BucketSegment (bucket : String) : Prop :=
  (∃ name, BucketService.validateName name = .ok bucket) ∨
    (OrdinarySegment bucket ∧ bucket ≠ ".multipart")

theorem BucketSegment.ordinary {bucket : String} (segment : BucketSegment bucket) :
    OrdinarySegment bucket ∧ bucket ≠ ".multipart" := by
  rcases segment with ⟨name, accepted⟩ | configured
  · obtain ⟨ordinary, start⟩ := validateName_ordinary accepted
    refine ⟨ordinary, ?_⟩
    rintro rfl
    exact start rfl
  · exact configured

/-- What the result of `normalize_relative_path` promises. -/
structure SafeKey (maximumDepth maximumBytes : Nat) (key : ObjectKey) : Prop where
  nonempty : key.segments ≠ []
  joined : key.text = "/".intercalate key.segments
  ordinary : ∀ segment ∈ key.segments, OrdinarySegment segment
  plain : ∀ segment ∈ key.segments, ∀ char ∈ segment.toList,
    char ≠ '\\' ∧ isControlChar char = false
  relative : key.text.toList.head? ≠ some '/'
  depth : key.segments.length ≤ maximumDepth
  bytes : key.text.utf8ByteSize ≤ maximumBytes

private theorem text_relative (key : ObjectKey) : key.text.toList.head? ≠ some '/' := by
  intro absolute
  obtain ⟨rest, starts⟩ := List.head?_eq_some_iff.mp absolute
  have first : "" ∈ splitPath key.text := by
    unfold splitPath
    rw [starts, List.splitOn_cons_eq_if_modifyHead, if_pos (beq_self_eq_true _), List.map_cons]
    exact List.mem_cons_self
  rw [splitPath_text] at first
  exact (key.ordinary "" first).1 rfl

theorem normalizeRelativePath_safeKey {nfc : String → String} (forms : FormsNoReserved nfc)
    {maximumDepth maximumBytes : Nat} {rawPath : String} {key : ObjectKey}
    (accepted : normalizeRelativePath nfc maximumDepth maximumBytes rawPath = .ok key) :
    SafeKey maximumDepth maximumBytes key where
  nonempty := key.nonempty
  joined := rfl
  ordinary := key.ordinary
  plain := normalizeRelativePath_chars forms accepted
  relative := text_relative key
  depth := (normalizeRelativePath_bounds accepted).1
  bytes := (normalizeRelativePath_bounds accepted).2

/-- `_object_path` of a key below an ordinary bucket name. -/
theorem objectPath_joined (root : List String) {bucket : String} (ordinary : OrdinarySegment bucket)
    (key : ObjectKey) :
    safeJoin root (bucket :: splitPath key.text) = .ok (root ++ bucket :: key.segments) ∧
      resolve (root ++ bucket :: key.segments) = resolve root ++ bucket :: key.segments := by
  rw [splitPath_text]
  refine safeJoin_ordinary root fun part member => ?_
  rcases List.mem_cons.mp member with head | segment
  · rw [head]
    exact ordinary
  · exact key.ordinary part segment

private theorem resolve_ordinary (root : List String) {name : String} (ordinary : OrdinarySegment name) :
    resolve (root ++ [name]) = resolve root ++ [name] :=
  resolve_append fun other member => by
    rw [List.mem_singleton.mp member]
    exact ordinary.2.2.1

/-- An accepted key below an accepted bucket names a path of its own, strictly inside the
directory of the bucket and outside the staging directory. -/
theorem accepted_keys_have_own_paths {nfc : String → String} (forms : FormsNoReserved nfc)
    (root : List String) {maximumDepth maximumBytes : Nat} {rawPath : String} {key : ObjectKey}
    (accepted : normalizeRelativePath nfc maximumDepth maximumBytes rawPath = .ok key)
    {bucket : String} (segment : BucketSegment bucket) :
    SafeKey maximumDepth maximumBytes key ∧
    ∃ path, safeJoin root (bucket :: splitPath key.text) = .ok path ∧
      StrictlyInside (root ++ [bucket]) path ∧ ¬ Inside (root ++ [".multipart"]) path ∧
      ∀ (key' : ObjectKey) (bucket' : String) (path' : List String), BucketSegment bucket' →
        safeJoin root (bucket' :: splitPath key'.text) = .ok path' →
        resolve path' = resolve path → bucket' = bucket ∧ key' = key := by
  obtain ⟨ordinary, unstaged⟩ := segment.ordinary
  obtain ⟨joined, resolved⟩ := objectPath_joined root ordinary key
  refine ⟨normalizeRelativePath_safeKey forms accepted, _, joined, ⟨?_, ?_⟩, ?_, ?_⟩
  · unfold Inside
    rw [resolved, resolve_ordinary root ordinary]
    exact (List.prefix_append_right_inj _).mpr ⟨key.segments, rfl⟩
  · rw [resolved, resolve_ordinary root ordinary]
    intro same
    exact key.nonempty (List.cons.inj (List.append_cancel_left same)).2
  · unfold Inside
    rw [resolved, resolve_ordinary root staging_ordinary]
    intro inside
    obtain ⟨rest, same⟩ := (List.prefix_append_right_inj _).mp inside
    exact unstaged (List.cons.inj same).1.symm
  · intro key' bucket' path' segment' joined' same
    obtain ⟨joined'', resolved'⟩ := objectPath_joined root segment'.ordinary.1 key'
    rw [joined'] at joined''
    rw [Except.ok.inj joined'', resolved', resolved] at same
    obtain ⟨buckets, segments⟩ := List.cons.inj (List.append_cancel_left same)
    exact ⟨buckets, ObjectKey.ext_segments segments⟩

theorem accepted_keys_have_own_paths_small :
    SafeKey 64 1024 LocalStorageAdapter.smallKey ∧
    ∃ path, safeJoin ["data", "storage"] ("files" :: splitPath LocalStorageAdapter.smallKey.text) =
        .ok path ∧
      StrictlyInside (["data", "storage"] ++ ["files"]) path ∧
      ¬ Inside (["data", "storage"] ++ [".multipart"]) path ∧
      ∀ (key' : ObjectKey) (bucket' : String) (path' : List String), BucketSegment bucket' →
        safeJoin ["data", "storage"] (bucket' :: splitPath key'.text) = .ok path' →
        resolve path' = resolve path → bucket' = "files" ∧ key' = LocalStorageAdapter.smallKey :=
  @accepted_keys_have_own_paths id (fun _ _ member _ => member) ["data", "storage"] 64 1024
    ".\\\\a.bin" _ (by decide) "files" (.inl ⟨"files", by decide⟩)

/-- A configured bucket may carry the name of the staging directory. -/
theorem staging_bucket_is_staged :
    ¬ ∀ bucket, OrdinarySegment bucket → ∀ path,
      safeJoin ["data", "storage"] (bucket :: splitPath LocalStorageAdapter.smallKey.text) =
          .ok path → ¬ Inside (["data", "storage"] ++ [".multipart"]) path := by
  intro outside
  exact outside ".multipart" staging_ordinary _ rfl (by decide)

end PyUploadX
