import Mathlib.Data.List.DropRight
import PyUploadX.Core.Errors

/-! Safe relative paths. An object key is kept as its segments, together with what
`normalize_relative_path` guarantees about them. -/
namespace PyUploadX

def OrdinarySegment (segment : String) : Prop :=
  segment ≠ "" ∧ segment ≠ "." ∧ segment ≠ ".." ∧ '/' ∉ segment.toList

instance (segment : String) : Decidable (OrdinarySegment segment) :=
  inferInstanceAs (Decidable (_ ∧ _ ∧ _ ∧ _))

structure ObjectKey where
  segments : List String
  nonempty : segments ≠ []
  ordinary : ∀ segment ∈ segments, OrdinarySegment segment
  deriving DecidableEq

namespace ObjectKey

/-- `"/".join(parts)`. -/
def text (key : ObjectKey) : String := "/".intercalate key.segments

/-- `object_key.rsplit("/", 1)[-1]`. -/
def filename (key : ObjectKey) : String := key.segments.getLast key.nonempty

theorem ext_segments {first second : ObjectKey} (same : first.segments = second.segments) :
    first = second := by
  cases first; cases second; cases same; rfl

end ObjectKey

def isControlChar (char : Char) : Bool := char.toNat < 32 || char.toNat = 127

def unsafeSegments : List String := ["~", "*", "?", "\"", "<", ">", "|"]

/-- `path.split("/")`. -/
def splitPath (path : String) : List String := (path.toList.splitOn '/').map String.ofList

private theorem separator_not_mem_splitOn (separator : Char) (text : List Char) :
    ∀ piece ∈ text.splitOn separator, separator ∉ piece := by
  induction text with
  | nil => simp
  | cons char rest ih =>
    rw [List.splitOn_cons_eq_if_modifyHead]
    by_cases same : char = separator
    · simpa [same] using ih
    · simp only [beq_iff_eq, same, if_false]
      intro piece member
      cases pieces : rest.splitOn separator with
      | nil => exact absurd pieces (List.splitOn_ne_nil separator rest)
      | cons first others =>
        rw [pieces] at member ih
        simp only [List.modifyHead_cons, List.mem_cons] at member
        rcases member with head | tail
        · subst head
          simp [Ne.symm same, ih first (by simp)]
        · exact ih piece (by simp [tail])

theorem splitOn_subset (separator : Char) (text : List Char) :
    ∀ piece ∈ text.splitOn separator, piece ⊆ text := by
  induction text with
  | nil => simp
  | cons char rest ih =>
    rw [List.splitOn_cons_eq_if_modifyHead]
    split
    · intro piece member
      rcases List.mem_cons.mp member with empty | later
      · rw [empty]
        exact List.nil_subset _
      · exact List.subset_cons_of_subset _ (ih piece later)
    · intro piece member
      cases pieces : rest.splitOn separator with
      | nil => exact absurd pieces (List.splitOn_ne_nil separator rest)
      | cons first others =>
        rw [pieces] at member ih
        rw [List.modifyHead_cons] at member
        rcases List.mem_cons.mp member with head | tail
        · rw [head]
          exact List.cons_subset_cons _ (ih first List.mem_cons_self)
        · exact List.subset_cons_of_subset _ (ih piece (List.mem_cons_of_mem _ tail))

/-- Every character but the separators is in one of the pieces. -/
theorem exists_mem_splitOnP {separates : Char → Bool} {char : Char}
    (other : separates char = false) {text : List Char} (inside : char ∈ text) :
    ∃ piece ∈ text.splitOnP separates, char ∈ piece := by
  induction text with
  | nil => cases inside
  | cons first rest ih =>
    rw [List.splitOnP_cons_eq_if_modifyHead]
    rcases List.mem_cons.mp inside with rfl | later
    · rw [other, if_neg Bool.false_ne_true]
      cases pieces : rest.splitOnP separates with
      | nil => exact absurd pieces (List.splitOnP_ne_nil separates rest)
      | cons piece others => exact ⟨char :: piece, List.mem_cons_self, List.mem_cons_self⟩
    · obtain ⟨piece, member, present⟩ := ih later
      split
      · exact ⟨piece, List.mem_cons_of_mem _ member, present⟩
      · cases pieces : rest.splitOnP separates with
        | nil => exact absurd pieces (List.splitOnP_ne_nil separates rest)
        | cons head others =>
          rw [pieces] at member
          rcases List.mem_cons.mp member with rfl | tail
          · exact ⟨first :: piece, List.mem_cons_self, List.mem_cons_of_mem _ present⟩
          · exact ⟨piece, List.mem_cons_of_mem _ tail, present⟩

theorem exists_mem_splitOn {separator char : Char} (other : char ≠ separator) {text : List Char}
    (inside : char ∈ text) : ∃ piece ∈ text.splitOn separator, char ∈ piece := by
  rw [List.splitOn_eq_splitOnP]
  exact @exists_mem_splitOnP (· == separator) char (beq_eq_false_iff_ne.mpr other) text inside

theorem slash_not_mem_splitPath (path : String) :
    ∀ piece ∈ splitPath path, '/' ∉ piece.toList := by
  intro piece member
  obtain ⟨chars, present, same⟩ := List.mem_map.mp member
  subst same
  simpa using separator_not_mem_splitOn '/' path.toList chars present

/-- The loop over the pieces between slashes, which keeps the meaningful ones. -/
def collectSegments : List String → Except Failure (List String)
  | [] => .ok []
  | part :: rest =>
    if part = "" ∨ part = "." then collectSegments rest
    else if part = ".." then
      .error (.api (.invalidRelativePath "parent directory traversal is forbidden"))
    else if part ∈ unsafeSegments then
      .error (.api (.invalidRelativePath s!"unsafe path segment: '{part}'"))
    else do
      let parts ← collectSegments rest
      return part :: parts

theorem collectSegments_ordinary {pieces parts : List String}
    (collected : collectSegments pieces = .ok parts)
    (unslashed : ∀ piece ∈ pieces, '/' ∉ piece.toList) :
    ∀ part ∈ parts, OrdinarySegment part := by
  induction pieces generalizing parts with
  | nil => cases collected; simp
  | cons piece rest ih =>
    have unslashedRest : ∀ other ∈ rest, '/' ∉ other.toList :=
      fun other member => unslashed other (List.mem_cons_of_mem piece member)
    unfold collectSegments at collected
    split at collected
    · exact ih collected unslashedRest
    · rename_i meaningful
      split at collected
      · cases collected
      · rename_i inside
        split at collected
        · cases collected
        · cases tail : collectSegments rest with
          | error failure => rw [tail] at collected; cases collected
          | ok others =>
            rw [tail] at collected
            cases collected
            intro part member
            rcases List.mem_cons.mp member with head | later
            · subst head
              rw [not_or] at meaningful
              exact ⟨meaningful.1, meaningful.2, inside, unslashed part (by simp)⟩
            · exact ih tail unslashedRest part later

/-- `nfc` stands for `unicodedata.normalize("NFC", …)`. -/
def normalizeRelativePath (nfc : String → String) (maximumDepth maximumBytes : Nat)
    (rawPath : String) : Except Failure ObjectKey :=
  let fail := fun message => Except.error (.api (.invalidRelativePath message))
  if rawPath.toList.any (· == '\x00') then fail "path contains NUL character"
  else if rawPath.toList.any isControlChar then fail "path contains control characters"
  else
    let posixPath := String.ofList (rawPath.toList.map fun char => if char = '\\' then '/' else char)
    let nfcPath := nfc posixPath
    if nfcPath.toList.head? = some '/' then fail "absolute paths are forbidden"
    else if nfcPath.toList[1]? = some ':' then fail "windows drive paths are forbidden"
    else
      match collected : collectSegments (splitPath nfcPath) with
      | .error failure => .error failure
      | .ok parts =>
        if empty : parts = [] then fail "path must not be empty"
        else if maximumDepth < parts.length then
          fail s!"path exceeds maximum depth of {maximumDepth}"
        else if maximumBytes < ("/".intercalate parts).utf8ByteSize then
          fail s!"path exceeds maximum length of {maximumBytes} bytes"
        else .ok ⟨parts, empty, collectSegments_ordinary collected (slash_not_mem_splitPath nfcPath)⟩

/-- `text.strip("/")`. -/
def stripSlashes (text : String) : String :=
  String.ofList ((text.toList.dropWhile (· == '/')).rdropWhile (· == '/'))

/-- The path is normalized once more, with the default limits. -/
def joinPrefix (nfc : String → String) (directory relativePath : String) :
    Except Failure String := do
  let normalized ← normalizeRelativePath nfc 64 1024 relativePath
  let clean := stripSlashes directory
  return if clean = "" then normalized.text else clean ++ "/" ++ normalized.text

/-- An accepted path keeps to the limits it was checked against. -/
theorem normalizeRelativePath_bounds {nfc : String → String} {maximumDepth maximumBytes : Nat}
    {rawPath : String} {key : ObjectKey}
    (accepted : normalizeRelativePath nfc maximumDepth maximumBytes rawPath = .ok key) :
    key.segments.length ≤ maximumDepth ∧ key.text.utf8ByteSize ≤ maximumBytes := by
  simp only [normalizeRelativePath] at accepted
  split_ifs at accepted
  split at accepted
  · cases accepted
  · split_ifs at accepted with empty deep long
    cases accepted
    exact ⟨Nat.le_of_not_lt deep, Nat.le_of_not_lt long⟩

private theorem collectSegments_error {pieces : List String} {failure : Failure}
    (failed : collectSegments pieces = .error failure) :
    ∃ message, failure = .api (.invalidRelativePath message) := by
  induction pieces with
  | nil => cases failed
  | cons part rest ih =>
    unfold collectSegments at failed
    split at failed
    · exact ih failed
    · split at failed
      · cases failed
        exact ⟨_, rfl⟩
      · split at failed
        · cases failed
          exact ⟨_, rfl⟩
        · cases collected : collectSegments rest with
          | error raised =>
            rw [collected] at failed
            cases failed
            exact ih collected
          | ok parts =>
            rw [collected] at failed
            cases failed

/-- A path is refused as a path, and in no other way. -/
theorem normalizeRelativePath_error {nfc : String → String} {maximumDepth maximumBytes : Nat}
    {rawPath : String} {failure : Failure}
    (failed : normalizeRelativePath nfc maximumDepth maximumBytes rawPath = .error failure) :
    ∃ message, failure = .api (.invalidRelativePath message) := by
  simp only [normalizeRelativePath] at failed
  split_ifs at failed
  · cases failed
    exact ⟨_, rfl⟩
  · cases failed
    exact ⟨_, rfl⟩
  · cases failed
    exact ⟨_, rfl⟩
  · cases failed
    exact ⟨_, rfl⟩
  · split at failed
    · rename_i collected
      cases failed
      exact collectSegments_error collected
    · split_ifs at failed
      all_goals
        cases failed
        exact ⟨_, rfl⟩

/-- Splitting the text of a key at the slashes gives its segments back, so the
text determines the key. -/
theorem splitPath_text (key : ObjectKey) : splitPath key.text = key.segments := by
  have joined : key.text.toList = ['/'].intercalate (key.segments.map String.toList) := by
    unfold ObjectKey.text
    rw [String.toList_intercalate]
    rfl
  unfold splitPath
  rw [joined, List.splitOn_intercalate]
  · simp
  · intro piece member
    obtain ⟨segment, present, same⟩ := List.mem_map.mp member
    subst same
    exact (key.ordinary segment present).2.2.2
  · simpa using key.nonempty

theorem splitPath_slashless {text : String} (slashless : '/' ∉ text.toList) :
    splitPath text = [text] := by
  unfold splitPath
  rw [List.splitOn_eq_singleton slashless, List.map_singleton, String.ofList_toList]

theorem splitPath_ne_nil (path : String) : splitPath path ≠ [] := by
  unfold splitPath
  exact fun empty => List.splitOn_ne_nil '/' path.toList (List.map_eq_nil_iff.mp empty)

theorem ObjectKey.text_ne_empty (key : ObjectKey) : key.text ≠ "" := by
  intro empty
  have pieces := splitPath_text key
  rw [empty] at pieces
  have blank : "" ∈ key.segments := by
    rw [← pieces]
    exact List.mem_singleton.mpr rfl
  exact (key.ordinary "" blank).1 rfl

theorem splitPath_join (first second : String) :
    splitPath (first ++ "/" ++ second) = splitPath first ++ splitPath second := by
  have chars : (first ++ "/" ++ second).toList = first.toList ++ '/' :: second.toList := by
    rw [String.toList_append, String.toList_append, List.append_assoc]
    rfl
  unfold splitPath
  rw [chars, List.splitOn_append_cons_self, List.map_append]

theorem intercalate_splitPath (path : String) : "/".intercalate (splitPath path) = path := by
  apply String.toList_inj.mp
  rw [String.toList_intercalate]
  unfold splitPath
  rw [List.map_map]
  have texts : (String.toList ∘ String.ofList) = id := funext fun chars => String.toList_ofList
  rw [texts, List.map_id]
  exact List.intercalate_splitOn '/'

/-- A text without slashes behind a path goes to its last piece. -/
theorem splitPath_append (path : String) {text : String} (slashless : '/' ∉ text.toList) :
    ∃ front last, splitPath path = front ++ [last] ∧
      splitPath (path ++ text) = front ++ [last ++ text] := by
  obtain ⟨front, last, pieces⟩ : ∃ front last, splitPath path = front ++ [last] :=
    ⟨_, _, (List.dropLast_concat_getLast (splitPath_ne_nil path)).symm⟩
  have own : '/' ∉ last.toList :=
    slash_not_mem_splitPath path last (by rw [pieces]; exact List.mem_append_right _ List.mem_cons_self)
  have both : '/' ∉ (last ++ text).toList := by
    rw [String.toList_append]
    exact fun member => (List.mem_append.mp member).elim own slashless
  refine ⟨front, last, pieces, ?_⟩
  have whole := intercalate_splitPath path
  rw [pieces] at whole
  by_cases single : front = []
  · rw [single, List.nil_append, String.intercalate_singleton] at whole
    rw [single, ← whole, splitPath_slashless both, List.nil_append]
  · rw [String.intercalate_append_of_ne_nil single (List.cons_ne_nil _ _),
      String.intercalate_singleton] at whole
    rw [← whole, splitPath_join, splitPath_slashless own] at pieces
    rw [← whole, String.append_assoc, splitPath_join, splitPath_slashless both,
      List.append_cancel_right pieces]

theorem splitPath_injective {first second : String} (same : splitPath first = splitPath second) :
    first = second := by
  have pieces : first.toList.splitOn '/' = second.toList.splitOn '/' :=
    List.map_injective_iff.mpr (fun _ _ => String.ofList_inj.mp) same
  have texts := congrArg (['/'].intercalate ·) pieces
  rw [List.intercalate_splitOn, List.intercalate_splitOn] at texts
  exact String.toList_inj.mp texts

theorem ObjectKey.text_injective {first second : ObjectKey} (same : first.text = second.text) :
    first = second :=
  ObjectKey.ext_segments (by rw [← splitPath_text first, ← splitPath_text second, same])

end PyUploadX
