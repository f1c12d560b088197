import Mathlib.Data.Finset.Sort
import PyUploadX.Core.JsonDumps
import PyUploadX.Kit.AtomicFile
import PyUploadX.Kit.Utf8
import PyUploadX.Sdk.LargeFile

/-! `StateStore`: each upload state in a file of its own, kept across runs of the client that may
end at any point. -/
namespace PyUploadX.Sdk.StateFiles

open Kit

/-! Where a state is kept. -/

/-- `PurePath.suffix` of a file's name: from its last dot on, where the name neither begins nor
ends with that. -/
def suffix (name : List Char) : List Char :=
  let last := name.rtakeWhile fun char => char ≠ '.'
  if last ≠ [] ∧ last.length + 1 < name.length then '.' :: last else []

/-- `PurePath.with_suffix`. -/
def withSuffix (name extension : List Char) : List Char :=
  name.take (name.length - (suffix name).length) ++ extension

/-- `_path`, within `files_root`. -/
def path (uploadId : String) : String := uploadId ++ ".json"

def temporary (uploadId : String) : String :=
  String.ofList (withSuffix (path uploadId).toList ".json.tmp".toList)

/-- The id is a file's name without a directory. -/
def Named (uploadId : String) : Prop := uploadId ≠ "" ∧ '/' ∉ uploadId.toList

instance (uploadId : String) : Decidable (Named uploadId) :=
  inferInstanceAs (Decidable (_ ∧ _))

private theorem temporary_ne_path (uploadId other : String) : temporary uploadId ≠ path other := by
  intro same
  have ends := congrArg (fun name => name.toList.getLast?) same
  simp [temporary, path, withSuffix] at ends

private theorem suffix_json {stem : List Char} (inside : stem ≠ []) :
    suffix (stem ++ ".json".toList) = ".json".toList := by
  have last : (stem ++ ".json".toList).rtakeWhile (fun char => decide (char ≠ '.')) =
      "json".toList := by
    simp [List.rtakeWhile]
  have longer : 0 < stem.length := List.length_pos_of_ne_nil inside
  have within : "json".toList ≠ [] ∧ "json".toList.length + 1 < (stem ++ ".json".toList).length := by
    simp [longer]
  rw [suffix, last]
  exact if_pos within

private theorem temporary_of_ne {uploadId : String} (inside : uploadId ≠ "") :
    temporary uploadId = uploadId ++ ".json.tmp" := by
  have stem : uploadId.toList ≠ [] := fun none => inside (String.toList_eq_nil_iff.mp none)
  rw [temporary, path, String.toList_append, withSuffix, suffix_json stem]
  simp

/-- The file of a state, and the one it is written in first. -/
def slot (uploadId : String) : Slot String where
  target := path uploadId
  temporary := temporary uploadId
  different := temporary_ne_path uploadId uploadId

theorem slot_disjoint {first second : String} (named : Named first) (named' : Named second)
    {name : String} (member : name ∈ (slot first).names) (member' : name ∈ (slot second).names) :
    first = second := by
  simp only [slot, Slot.names, List.mem_cons, List.not_mem_nil, or_false] at member member'
  rcases member with rfl | rfl
  · rcases member' with same | same
    · exact (String.append_left_inj _).mp same
    · exact absurd same.symm (temporary_ne_path second first)
  · rcases member' with same | same
    · exact absurd same (temporary_ne_path first second)
    · rw [temporary_of_ne named.1, temporary_of_ne named'.1] at same
      exact (String.append_left_inj _).mp same

/-! What is kept. -/

structure FileUploadState where
  uploadId : String
  filePath : String
  bucket : String
  objectKey : String
  totalSize : Int
  partSize : Int
  totalParts : Int
  fingerprint : String
  completedParts : Finset Int := ∅
  status : String := "initiated"
  deriving DecidableEq

def forbiddenStateFields : List String :=
  ["api_key", "bearer_token", "access_key", "secret_key", "presigned_url"]

/-- The fields of the dataclass. -/
def fieldNames : List String :=
  ["upload_id", "file_path", "bucket", "object_key", "total_size", "part_size", "total_parts",
    "fingerprint", "completed_parts", "status"]

namespace FileUploadState

def toDict (state : FileUploadState) : JsonObject :=
  [("upload_id", .string state.uploadId), ("file_path", .string state.filePath),
    ("bucket", .string state.bucket), ("object_key", .string state.objectKey),
    ("total_size", .int state.totalSize), ("part_size", .int state.partSize),
    ("total_parts", .int state.totalParts), ("fingerprint", .string state.fingerprint),
    ("completed_parts", .array ((state.completedParts.sort (· ≤ ·)).map .int)),
    ("status", .string state.status)]

/-- What `save` writes of a state. -/
def payload (state : FileUploadState) : JsonObject :=
  state.toDict.filter fun field => field.1 ∉ forbiddenStateFields

/-- `json.dumps(payload, ensure_ascii=False, indent=2)`. -/
def document (state : FileUploadState) : Except Failure String :=
  jsonDumps (fun _ => []) { ensureAscii := false, indent := some 2 } (.object state.payload)

/-- No number has more digits than Python writes. -/
def Printable (state : FileUploadState) : Prop :=
  ∀ number ∈ state.totalSize :: state.partSize :: state.totalParts ::
      state.completedParts.sort (· ≤ ·),
    (Nat.toDigits 10 number.natAbs).length ≤ maximumDigits

private theorem payload_eq (state : FileUploadState) : state.payload = state.toDict := by
  have allowed : ∀ key ∈ fieldNames, key ∉ forbiddenStateFields := by decide
  apply List.filter_eq_self.mpr
  intro field member
  have listed : field.1 ∈ fieldNames := List.mem_map_of_mem member
  exact decide_eq_true (allowed _ listed)

private theorem plain_numbers {numbers : List Int}
    (short : ∀ number ∈ numbers, (Nat.toDigits 10 number.natAbs).length ≤ maximumDigits) :
    PlainItems (numbers.map .int) := by
  induction numbers with
  | nil => trivial
  | cons number rest ih =>
    exact ⟨short number List.mem_cons_self,
      ih fun other member => short other (List.mem_cons_of_mem number member)⟩

theorem Printable.plain {state : FileUploadState} (printable : state.Printable) :
    (Json.object state.payload).Plain := by
  rw [payload_eq]
  have distinct : fieldNames.Nodup := by decide
  have size := printable state.totalSize (by simp)
  have part := printable state.partSize (by simp)
  have parts := printable state.totalParts (by simp)
  have completed := plain_numbers fun number member =>
    printable number (List.mem_cons_of_mem _ (List.mem_cons_of_mem _
      (List.mem_cons_of_mem _ member)))
  exact ⟨distinct, trivial, trivial, trivial, trivial, size, part, parts, trivial, completed,
    trivial, trivial⟩

end FileUploadState

/-! Reading it back. -/

/-- The exceptions of `load`. -/
inductive LoadError
  | encoding
  | json
  | type
  deriving DecidableEq

section Fields

variable (data : JsonObject) (key : String)

/-- An argument of the dataclass. Python does not look at its type; a value of another one,
which `save` does not write, counts as missing here. -/
def textField : Except LoadError String :=
  match data.find? key with
  | some (.string text) => .ok text
  | _ => .error .type

def numberField : Except LoadError Int :=
  match data.find? key with
  | some (.int number) => .ok number
  | _ => .error .type

end Fields

def numbers : List Json → Except LoadError (List Int)
  | [] => .ok []
  | .int number :: rest => (numbers rest).map (number :: ·)
  | _ :: _ => .error .type

/-- `set(data.get("completed_parts", []))`. -/
def completedParts (data : JsonObject) : Except LoadError (Finset Int) :=
  match data.find? "completed_parts" with
  | none => .ok ∅
  | some (.array items) => (numbers items).map List.toFinset
  | some _ => .error .type

def statusField (data : JsonObject) : Except LoadError String :=
  match data.find? "status" with
  | none => .ok "initiated"
  | some _ => textField data "status"

def fromDict (data : JsonObject) : Except LoadError FileUploadState := do
  if ∃ field ∈ data, field.1 ∉ fieldNames then .error .type
  else
    let uploadId ← textField data "upload_id"
    let filePath ← textField data "file_path"
    let bucket ← textField data "bucket"
    let objectKey ← textField data "object_key"
    let totalSize ← numberField data "total_size"
    let partSize ← numberField data "part_size"
    let totalParts ← numberField data "total_parts"
    let fingerprint ← textField data "fingerprint"
    let completedParts ← completedParts data
    let status ← statusField data
    return { uploadId, filePath, bucket, objectKey, totalSize, partSize, totalParts, fingerprint,
             completedParts, status }

section Load

variable (float : String → FloatValue)

def readState : Option Bytes → Except LoadError (Option FileUploadState)
  | none => .ok none
  | some content =>
    match String.fromUTF8? content.toByteArray with
    | none => .error .encoding
    | some text =>
      match jsonLoads float text with
      | some (.object data) => (fromDict data).map some
      | some _ => .error .type
      | none => .error .json

def load (files : Files String UInt8) (uploadId : String) :
    Except LoadError (Option FileUploadState) :=
  readState float (files (path uploadId))

end Load

private theorem numbers_map (values : List Int) : numbers (values.map .int) = .ok values := by
  induction values with
  | nil => rfl
  | cons value rest ih => rw [List.map_cons, numbers, ih]; rfl

/-- The completed parts are written in order and read as a set. -/
theorem fromDict_toDict (state : FileUploadState) : fromDict state.toDict = .ok state := by
  have known : ¬ ∃ field ∈ state.toDict, field.1 ∉ fieldNames := by
    rintro ⟨field, member, unknown⟩
    exact unknown (List.mem_map_of_mem member)
  have completed : completedParts state.toDict = .ok state.completedParts := by
    simp [completedParts, FileUploadState.toDict, JsonObject.find?, numbers_map, Except.map]
  rw [fromDict, if_neg known, completed]
  simp [textField, numberField, statusField, FileUploadState.toDict, JsonObject.find?, bind,
    Except.bind, pure, Except.pure]

private theorem fromUTF8_toUTF8 (text : String) :
    String.fromUTF8? text.toUTF8.toList.toByteArray = some text := by
  have same : text.toUTF8.toList.toByteArray = text.toByteArray := by
    rw [bytes_toList]
    exact ByteArray.ext (Array.toList_inj.mp List.toList_data_toByteArray)
  rw [same, String.fromUTF8?, dif_pos text.isValidUTF8]
  rfl

private theorem loads_document (float : String → FloatValue) {state : FileUploadState}
    (printable : state.Printable) :
    ∃ text, state.document = .ok text ∧ jsonLoads float text = some (.object state.payload) := by
  obtain ⟨spelled, done, reads⟩ := dumpsAt_loads float (fun _ => [])
    { ensureAscii := false, indent := some 2 } printable.plain
  refine ⟨String.ofList spelled, ?_, reads⟩
  rw [FileUploadState.document, jsonDumps, if_neg Bool.false_ne_true, done]
  rfl

/-- What `save` writes is what `load` reads. -/
theorem readState_document (float : String → FloatValue) {state : FileUploadState}
    (printable : state.Printable) {text : String} (written : state.document = .ok text) :
    readState float (some text.toUTF8.toList) = .ok (some state) := by
  obtain ⟨spelled, done, reads⟩ := loads_document float printable
  cases written.symm.trans done
  simp only [readState, fromUTF8_toUTF8, reads, FileUploadState.payload_eq, fromDict_toDict]
  rfl

/-! Calls of the clients that share the directory. -/

/-- A text is written in pieces, however they are cut. -/
inductive Call
  | save (state : FileUploadState) (pieces : List Bytes)
  | delete (uploadId : String)

namespace Call

def uploadId : Call → String
  | save state _ => state.uploadId
  | delete uploadId => uploadId

def fileCall : Call → FileCall UInt8
  | save _ pieces => .replace pieces
  | delete _ => .remove

/-- The pieces are the text of the state. -/
def Writes : Call → Prop
  | save state pieces => state.Printable ∧
      ∃ text, state.document = .ok text ∧ pieces.flatten = text.toUTF8.toList
  | delete _ => True

/-- What is kept for the id once the call is through. -/
def result : Call → Option FileUploadState
  | save state _ => some state
  | delete _ => none

theorem Writes.reads (float : String → FloatValue) {call : Call} (writes : call.Writes) :
    readState float call.fileCall.result = .ok call.result := by
  cases call with
  | save state pieces =>
    obtain ⟨printable, text, written, whole⟩ := writes
    have read := readState_document float printable written
    rw [← whole] at read
    exact read
  | delete uploadId => rfl

end Call

/-- A call, and the number of its system calls that its process lives to make. -/
structure Started where
  call : Call
  lived : Nat

/-- What the store is for: the state that is kept for each id. -/
abbrev States := String → Option FileUploadState

namespace Started

def cut (started : Started) : CutCall UInt8 := ⟨started.call.fileCall, started.lived⟩

def actions (started : Started) : List (FileAction String UInt8) :=
  started.cut.actions (slot started.call.uploadId)

/-- A call that is cut off changes nothing. -/
def keeps (before : Option FileUploadState) (started : Started) : Option FileUploadState :=
  if started.call.fileCall.length ≤ started.lived then started.call.result else before

def effect (states : States) (started : Started) : States :=
  Function.update states started.call.uploadId (started.keeps (states started.call.uploadId))

end Started

/-- The trace is made of the actions of these calls, each noted with the id it is for: for one id
call after call, and in between whatever is done for other ids. -/
def Interleaves (history : List Started) (trace : List (String × FileAction String UInt8)) : Prop :=
  ∀ uploadId, (trace.filter fun action => action.1 = uploadId).map (·.2) =
    (history.filter fun started => started.call.uploadId = uploadId).flatMap Started.actions

theorem Interleaves.action {history : List Started}
    {trace : List (String × FileAction String UInt8)} (interleaves : Interleaves history trace)
    {action : String × FileAction String UInt8} (member : action ∈ trace) :
    ∃ started ∈ history, started.call.uploadId = action.1 ∧ action.2 ∈ started.actions := by
  have listed : action.2 ∈ (trace.filter fun other => other.1 = action.1).map (·.2) :=
    List.mem_map_of_mem (List.mem_filter.mpr ⟨member, decide_eq_true rfl⟩)
  rw [interleaves action.1] at listed
  obtain ⟨started, found, made⟩ := List.mem_flatMap.mp listed
  obtain ⟨present, same⟩ := List.mem_filter.mp found
  exact ⟨started, present, of_decide_eq_true same, made⟩

private theorem names_nonempty (action : FileAction String UInt8) : ∃ name, name ∈ action.names := by
  cases action <;> exact ⟨_, List.mem_cons_self⟩

/-- What touches the files of an id is what is done for it. -/
theorem Interleaves.share {history : List Started}
    {trace : List (String × FileAction String UInt8)} (interleaves : Interleaves history trace)
    (named : ∀ started ∈ history, Named started.call.uploadId) {uploadId : String}
    (own : Named uploadId) :
    (slot uploadId).share (trace.map (·.2)) =
      ((history.filter fun started => started.call.uploadId = uploadId).map
        Started.cut).flatMap (CutCall.actions (slot uploadId)) := by
  have touches : ∀ action ∈ trace, (slot uploadId).Touches action.2 ↔ action.1 = uploadId := by
    intro action member
    obtain ⟨started, present, same, made⟩ := interleaves.action member
    rw [← same]
    have within := FileCall.names_of_mem (List.mem_of_mem_take made)
    constructor
    · rintro ⟨name, mentioned, touched⟩
      exact slot_disjoint (named started present) own (within name mentioned) touched
    · rintro rfl
      obtain ⟨name, mentioned⟩ := names_nonempty action.2
      exact ⟨name, mentioned, within name mentioned⟩
  have shared : (slot uploadId).share (trace.map (·.2)) =
      (trace.filter fun action => action.1 = uploadId).map (·.2) := by
    rw [Slot.share, List.filter_map]
    congr 1
    apply List.filter_congr
    intro action member
    exact decide_eq_decide.mpr (touches action member)
  rw [shared, interleaves uploadId, List.flatMap_map]
  apply List.flatMap_congr
  intro started found
  rw [Started.actions, of_decide_eq_true (List.mem_filter.mp found).2]

theorem effects_of_id (history : List Started) (states : States) (uploadId : String) :
    history.foldl Started.effect states uploadId =
      (history.filter fun started => started.call.uploadId = uploadId).foldl Started.keeps
        (states uploadId) := by
  induction history generalizing states with
  | nil => rfl
  | cons started rest ih =>
    rw [List.foldl_cons, ih, Started.effect]
    by_cases same : started.call.uploadId = uploadId
    · rw [List.filter_cons_of_pos (by simpa using same), List.foldl_cons, same,
        Function.update_self]
    · rw [List.filter_cons_of_neg (by simpa using same), Function.update_of_ne (Ne.symm same)]

theorem Started.reads (float : String → FloatValue) {started : Started}
    (writes : started.call.Writes) {content : Option Bytes} {kept : Option FileUploadState}
    (readable : readState float content = .ok kept) :
    readState float (started.cut.effect content) = .ok (started.keeps kept) := by
  by_cases through : started.call.fileCall.length ≤ started.lived
  · rw [Started.cut, CutCall.effect_of_le through, Started.keeps, if_pos through]
    exact writes.reads float
  · rw [Started.cut, CutCall.effect_of_lt (Nat.lt_of_not_le through), Started.keeps,
      if_neg through]
    exact readable

private theorem readState_effects (float : String → FloatValue) {history : List Started}
    (writes : ∀ started ∈ history, started.call.Writes) {content : Option Bytes}
    {kept : Option FileUploadState} (readable : readState float content = .ok kept) :
    readState float ((history.map Started.cut).foldl CutCall.effect content) =
      .ok (history.foldl Started.keeps kept) := by
  induction history generalizing content kept with
  | nil => exact readable
  | cons started rest ih =>
    apply ih fun other member => writes other (List.mem_cons_of_mem started member)
    exact Started.reads float (writes started List.mem_cons_self) readable

/-- Clients may end at any point of a `save` or a `delete`, and calls for different uploads may
interleave: `load` gives what the last call that came through has kept, never a part of a text
and never an error. -/
theorem states_survive (float : String → FloatValue) {files : Files String UInt8} {states : States}
    (readable : ∀ uploadId, Named uploadId → load float files uploadId = .ok (states uploadId))
    {history : List Started}
    (proper : ∀ started ∈ history, Named started.call.uploadId ∧ started.call.Writes)
    {trace : List (String × FileAction String UInt8)} (interleaves : Interleaves history trace)
    {uploadId : String} (named : Named uploadId) :
    load float ((trace.map (·.2)).foldl FileAction.apply files) uploadId =
      .ok (history.foldl Started.effect states uploadId) := by
  have share := interleaves.share (fun started member => (proper started member).1) named
  have holds := atomic_run share files
  rw [effects_of_id, load, show path uploadId = (slot uploadId).target from rfl, holds]
  apply readState_effects float _ (readable uploadId named)
  intro started found
  exact (proper started (List.mem_filter.mp found).1).2

/-- What `upload_large_file` reads of the states; `idText` is `str` of a session's id. -/
def seen (idText : Uuid → String) (states : States) : StateStore where
  load := fun id => (states (idText id)).map fun state => ⟨state.fingerprint⟩

/-- The store that `upload_large_file` was modelled with deletes as the files do. -/
theorem seen_delete {idText : Uuid → String} (injective : Function.Injective idText)
    (states : States) (id : Uuid) (lived : Nat) :
    seen idText (Started.effect states ⟨.delete (idText id), lived + 1⟩) =
      (seen idText states).delete id := by
  have through : (Call.delete (idText id)).fileCall.length ≤ lived + 1 :=
    Nat.succ_pos lived
  apply congrArg StateStore.mk
  funext other
  dsimp only [Started.effect, Started.keeps]
  rw [if_pos through]
  by_cases same : other = id
  · rw [if_pos same, same]
    have gone : Function.update states (idText id) none (idText id) = none :=
      Function.update_self _ _ _
    exact congrArg (Option.map _) gone
  · rw [if_neg same]
    have apart : idText other ≠ idText id := fun equal => same (injective equal)
    have kept : Function.update states (idText id) none (idText other) = states (idText other) :=
      Function.update_of_ne apart none states
    exact congrArg (Option.map _) kept

/-! A second save of one state is cut off before its text is written, while another state is
deleted. -/

def smallState : FileUploadState where
  uploadId := "a"
  filePath := "/tmp/film"
  bucket := "raw"
  objectKey := "film"
  totalSize := 5
  partSize := 2
  totalParts := 3
  fingerprint := "5:0"

def smallPieces (state : FileUploadState) : List Bytes :=
  [(state.document.toOption.getD "").toUTF8.toList]

def smallHistory : List Started :=
  [⟨.save smallState (smallPieces smallState), 3⟩, ⟨.delete "b", 1⟩,
    ⟨.save { smallState with status := "uploading" }
      (smallPieces { smallState with status := "uploading" }), 1⟩]

def smallTrace : List (String × FileAction String UInt8) :=
  [("a", .create "a.json.tmp"), ("b", .unlink "b.json"),
    ("a", .append "a.json.tmp" (smallPieces smallState).flatten),
    ("a", .rename "a.json.tmp" "a.json"), ("a", .create "a.json.tmp")]

private theorem smallPieces_writes {state : FileUploadState} (printable : state.Printable) :
    (Call.save state (smallPieces state)).Writes := by
  obtain ⟨text, written, -⟩ := loads_document (fun _ => .nan) printable
  have whole : (smallPieces state).flatten = text.toUTF8.toList := by
    rw [smallPieces, written]
    exact List.append_nil _
  exact ⟨printable, text, written, whole⟩

private theorem smallState_printable (status : String) : { smallState with status }.Printable := by
  intro number member
  simp only [smallState, Finset.sort_empty, List.mem_cons, List.not_mem_nil, or_false] at member
  rcases member with rfl | rfl | rfl <;> decide

private theorem small_interleaves : Interleaves smallHistory smallTrace := by
  intro uploadId
  have nameA : temporary "a" = "a.json.tmp" := temporary_of_ne (by decide)
  by_cases first : uploadId = "a"
  · subst first
    simp [smallTrace, smallHistory, Started.actions, Started.cut, CutCall.actions,
      FileCall.actions, Call.fileCall, Call.uploadId, slot, nameA, path, smallState, smallPieces]
  · by_cases second : uploadId = "b"
    · subst second
      simp [smallTrace, smallHistory, Started.actions, Started.cut, CutCall.actions,
        FileCall.actions, Call.fileCall, Call.uploadId, slot, path, smallState]
    · simp [smallTrace, smallHistory, Call.uploadId, smallState, Ne.symm first, Ne.symm second]

theorem states_survive_small :
    load (fun _ => .nan) ((smallTrace.map (·.2)).foldl FileAction.apply fun _ => none) "a" =
      .ok (some smallState) := by
  have empty : ∀ uploadId, Named uploadId →
      load (fun _ => .nan) (fun _ => none) uploadId = .ok ((fun _ => none : States) uploadId) :=
    fun _ _ => rfl
  have proper : ∀ started ∈ smallHistory,
      Named started.call.uploadId ∧ started.call.Writes := by
    intro started member
    simp only [smallHistory, List.mem_cons, List.not_mem_nil, or_false] at member
    rcases member with rfl | rfl | rfl
    · exact ⟨by decide, smallPieces_writes (smallState_printable "initiated")⟩
    · exact ⟨by decide, trivial⟩
    · exact ⟨by decide, smallPieces_writes (smallState_printable "uploading")⟩
  exact states_survive _ empty proper small_interleaves (by decide)

end PyUploadX.Sdk.StateFiles
