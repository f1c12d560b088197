import Mathlib.Data.List.TakeWhile
import PyUploadX.Storage.LocalBackend

/-! Keys that share a directory: the temporary file of one object is the object of another
key, and the directories of one key are in the way of others. -/
namespace PyUploadX

open Kit

namespace LocalStorageAdapter

section Completion

/-- The contents of the part files, up to the first one that is missing. -/
def mergeable (files : PartFiles) (parts : List UploadedPart) : Bytes :=
  contents files (parts.takeWhile (·.partNumber ∈ files))

/-- However the merge ends, it has written the parts before the first missing one. -/
theorem mergeParts_out {files : PartFiles} {parts : List UploadedPart} {copied merged : Copied}
    (ended : mergeParts files parts copied = .ok merged ∨
      mergeParts files parts copied = .error merged) :
    merged.out = copied.out ++ mergeable files parts := by
  induction parts generalizing copied with
  | nil =>
    rcases ended with done | failed
    · cases done; simp [mergeable, contents]
    · cases failed
  | cons part rest ih =>
    rw [mergeParts] at ended
    cases found : files.lookup part.partNumber with
    | none =>
      have absent : part.partNumber ∉ files := by
        rw [← AList.lookup_isSome, found]
        simp
      simp only [found] at ended
      rcases ended with done | failed
      · cases done
      · cases failed; simp [mergeable, contents, absent]
    | some content =>
      have present : part.partNumber ∈ files := by
        rw [← AList.lookup_isSome, found]
        rfl
      simp only [found] at ended
      rw [ih ended, copyStream_eq]
      simp [mergeable, contents, present, found, Copied.write]

/-- An I/O error or a missing part stops a merge, or the object's name is a directory. -/
def BreaksOff (state : LocalState) (bucket : String) (key : ObjectKey)
    (uploadId : StorageUploadId) (parts : List UploadedPart) : Prop :=
  Interrupted state bucket key ∨ ∃ part ∈ parts, part.partNumber ∉ partFiles state uploadId

/-- What a merge that breaks off leaves in the temporary file. -/
def leftBehind (state : LocalState) (uploadId : StorageUploadId) (parts : List UploadedPart) :
    Bytes :=
  let merged := mergeable (partFiles state uploadId) (sortedParts parts)
  merged.take ((takeFault state).1.getD merged.length)

/-- The files after a completion, for each way it ends. -/
inductive CompleteOutcome (bucket : String) (key : ObjectKey) (uploadId : StorageUploadId)
    (parts : List UploadedPart) (state : LocalState) :
    Except Failure StoredObject → (List String → Option Bytes) → Prop
  | unopened (failure : Failure) (closed : ¬ Opens state bucket key) :
      CompleteOutcome bucket key uploadId parts state (.error failure) state.tree.file?
  | brokenOff (failure : Failure) (opens : Opens state bucket key)
      (stopped : BreaksOff state bucket key uploadId parts) :
      CompleteOutcome bucket key uploadId parts state (.error failure) fun path =>
        if path = objectPath bucket key.temporary then some (leftBehind state uploadId parts)
        else state.tree.file? path
  | completed (object : StoredObject) (opens : Opens state bucket key)
      (ran : ¬ BreaksOff state bucket key uploadId parts) :
      CompleteOutcome bucket key uploadId parts state (.ok object) fun path =>
        if path = objectPath bucket key then
          some (contents (partFiles state uploadId) (sortedParts parts))
        else if path = objectPath bucket key.temporary then none else state.tree.file? path

private theorem mergeParts_error {files : PartFiles} {parts : List UploadedPart} {copied merged : Copied}
    (failed : mergeParts files parts copied = .error merged) :
    ∃ part ∈ parts, part.partNumber ∉ files := by
  by_contra present
  push Not at present
  rw [mergeParts_present present] at failed
  cases failed

/-- Every completion ends in one of the three ways. -/
theorem completeMultipartUpload_outcome (sha256 : Bytes → String) (bucket : String)
    (key : ObjectKey) (uploadId : StorageUploadId) (parts : List UploadedPart)
    (state : LocalState) :
    ∃ result state',
      completeMultipartUpload sha256 bucket key uploadId parts state = (result, state') ∧
      CompleteOutcome bucket key uploadId parts state result state'.tree.file? := by
  have ne := temporary_ne bucket key
  have inside := objectPath_ne_nil bucket key.temporary
  have sorted : ∀ part, part ∈ sortedParts parts ↔ part ∈ parts :=
    fun part => (List.perm_insertionSort _ parts).mem_iff
  have files : partFiles (takeFault state).2 uploadId = partFiles state uploadId := by
    unfold partFiles; rw [takeFault_staging]
  unfold completeMultipartUpload
  simp only [temporaryPath_objectPath, files]
  split
  · rename_i errno refused
    refine ⟨_, _, rfl, .unopened _ fun opens => ?_⟩
    obtain ⟨⟨tree, made⟩, _⟩ := opens
    rw [refused] at made
    cases made
  · rename_i tree made
    have directories := FileTree.mkdirParents_file? made
    have closed : ∀ errno, tree.writeFile (objectPath bucket key.temporary)
        (leftBehind state uploadId parts) = .error errno → ¬ Opens state bucket key := by
      intro errno refused
      rw [opens_iff_writeFile (leftBehind state uploadId parts) made]
      rintro ⟨opened, written⟩
      rw [refused] at written
      cases written
    have own : ∀ content, (tree.set (objectPath bucket key.temporary) (.file content)).node?
        (objectPath bucket key) = state.tree.node? (objectPath bucket key) := by
      intro content
      rw [FileTree.node?_set_of_ne _ ne.symm]
      exact FileTree.mkdirParents_deeper made (dropLast_objectPath_length bucket key).1
    have left : ∀ content, (tree.set (objectPath bucket key.temporary) (.file content)).file? =
        fun path => if path = objectPath bucket key.temporary then some content
          else state.tree.file? path := by
      intro content
      funext path
      by_cases temporary : path = objectPath bucket key.temporary
      · rw [if_pos temporary, temporary, FileTree.file?_set_file _ inside]
      · rw [if_neg temporary, FileTree.file?_set_of_ne _ temporary, directories]
    cases ended : mergeParts (partFiles state uploadId) (sortedParts parts) {} with
    | error copied =>
      have written : copied.out.take ((takeFault state).1.getD copied.out.length) =
          leftBehind state uploadId parts := by
        rw [mergeParts_out (.inr ended)]
        rfl
      obtain ⟨part, member, absent⟩ := mergeParts_error ended
      have stopped : BreaksOff state bucket key uploadId parts :=
        .inr ⟨part, (sorted part).mp member, absent⟩
      simp only [written]
      split
      · rename_i errno refused
        refine ⟨_, _, rfl, ?_⟩
        simp only
        rw [funext directories]
        exact .unopened _ (closed errno refused)
      · rename_i opened filled
        have opens := (opens_iff_writeFile _ made).mpr ⟨opened, filled⟩
        obtain ⟨_, _, rfl⟩ := FileTree.writeFile_eq_ok.mp filled
        split
        · rename_i done; cases done
        · refine ⟨_, _, rfl, ?_⟩
          simp only
          rw [left]
          exact .brokenOff _ opens stopped
        · refine ⟨_, _, rfl, ?_⟩
          simp only
          rw [left]
          exact .brokenOff _ opens stopped
    | ok copied =>
      have written : copied.out.take ((takeFault state).1.getD copied.out.length) =
          leftBehind state uploadId parts := by
        rw [mergeParts_out (.inl ended)]
        rfl
      have present := mergeParts_ok ended
      simp only [written]
      split
      · rename_i errno refused
        refine ⟨_, _, rfl, ?_⟩
        simp only
        rw [funext directories]
        exact .unopened _ (closed errno refused)
      · rename_i opened filled
        have opens := (opens_iff_writeFile _ made).mpr ⟨opened, filled⟩
        obtain ⟨_, _, rfl⟩ := FileTree.writeFile_eq_ok.mp filled
        split
        · rename_i merged unfaulted same
          cases same
          have whole : leftBehind state uploadId parts =
              contents (partFiles state uploadId) (sortedParts parts) := by
            have all : (sortedParts parts).takeWhile (·.partNumber ∈ partFiles state uploadId) =
                sortedParts parts := by
              rw [List.takeWhile_eq_self_iff]
              simpa using present
            simp only [leftBehind, mergeable, all, unfaulted, Option.getD_none, List.take_length]
          split
          · rename_i errno refused
            refine ⟨_, _, rfl, ?_⟩
            simp only
            rw [left]
            refine .brokenOff _ opens (.inl (.inr ?_))
            by_contra free
            have moved := FileTree.replace_eq_ok.mpr ⟨leftBehind state uploadId parts,
              FileTree.node?_set_self tree inside _, own _ ▸ free, rfl⟩
            rw [refused] at moved
            cases moved
          · rename_i replaced moved
            obtain ⟨content, source, free, rfl⟩ := FileTree.replace_eq_ok.mp moved
            rw [FileTree.node?_set_self _ inside] at source
            cases source
            rw [own] at free
            have ran : ¬ BreaksOff state bucket key uploadId parts := by
              rintro ((faulted | directory) | ⟨part, member, absent⟩)
              · exact faulted unfaulted
              · exact free directory
              · exact absent (present part ((sorted part).mpr member))
            have moves : (((tree.set (objectPath bucket key.temporary)
                (.file (leftBehind state uploadId parts))).remove
                  (objectPath bucket key.temporary)).set (objectPath bucket key)
                    (.file (leftBehind state uploadId parts))).file? = fun path =>
                  if path = objectPath bucket key then
                    some (contents (partFiles state uploadId) (sortedParts parts))
                  else if path = objectPath bucket key.temporary then none
                  else state.tree.file? path := by
              funext path
              by_cases object : path = objectPath bucket key
              · rw [if_pos object, object,
                  FileTree.file?_set_file _ (objectPath_ne_nil bucket key), whole]
              · rw [if_neg object, FileTree.file?_set_of_ne _ object]
                by_cases temporary : path = objectPath bucket key.temporary
                · rw [if_pos temporary, temporary, FileTree.file?_remove_self]
                · rw [if_neg temporary, FileTree.file?_remove_of_ne _ temporary, left]
                  exact if_neg temporary
            refine ⟨_, _, rfl, ?_⟩
            simp only
            rw [moves]
            exact .completed _ opens ran
        · rename_i failed; cases failed
        · rename_i bytes faulted
          refine ⟨_, _, rfl, ?_⟩
          simp only
          rw [left]
          refine .brokenOff _ opens (.inl (.inl ?_))
          rw [faulted]
          simp

end Completion

/-- The three calls that write or remove an object. -/
inductive ObjectCall
  | putObject (stream : Bytes) (contentType : Option String) (size : Option Nat)
      (checksum : Option String)
  | completeMultipartUpload (uploadId : StorageUploadId) (parts : List UploadedPart)
  | deleteObject

/-- The state after a call, whether it succeeded or failed. -/
def ObjectCall.after (sha256 : Bytes → String) (bucket : String) (key : ObjectKey)
    (state : LocalState) : ObjectCall → LocalState
  | putObject stream contentType size checksum =>
    (LocalStorageAdapter.putObject sha256 bucket key stream contentType size checksum state).2
  | completeMultipartUpload uploadId parts =>
    (LocalStorageAdapter.completeMultipartUpload sha256 bucket key uploadId parts state).2
  | deleteObject => (LocalStorageAdapter.deleteObject bucket key state).2

/-- The call leaves what lies at the temporary name as it finds it. -/
def ObjectCall.Spares (bucket : String) (key : ObjectKey) (state : LocalState) :
    ObjectCall → Prop
  | putObject _ _ _ _ =>
    Opens state bucket key → state.tree.file? (objectPath bucket key.temporary) = none
  | completeMultipartUpload uploadId parts =>
    Opens state bucket key →
      (BreaksOff state bucket key uploadId parts →
        state.tree.file? (objectPath bucket key.temporary) =
          some (leftBehind state uploadId parts)) ∧
      (¬ BreaksOff state bucket key uploadId parts →
        state.tree.file? (objectPath bucket key.temporary) = none)
  | deleteObject => True

private theorem objectPath_ne {bucket : String} {key key' : ObjectKey} (different : key' ≠ key) :
    objectPath bucket key' ≠ objectPath bucket key :=
  fun same => different (objectPath_injective same).2

/-- Nothing but the object at the temporary name can be harmed. -/
theorem ObjectCall.after_other (sha256 : Bytes → String) (bucket : String) {key key' : ObjectKey}
    (state : LocalState) (call : ObjectCall) (different : key' ≠ key)
    (beside : key' ≠ key.temporary) :
    (call.after sha256 bucket key state).tree.file? (objectPath bucket key') =
      state.tree.file? (objectPath bucket key') := by
  have own : objectPath bucket key' ≠ objectPath bucket key := objectPath_ne different
  have temporary : objectPath bucket key' ≠ temporaryPath (objectPath bucket key) := by
    rw [temporaryPath_objectPath]
    exact objectPath_ne beside
  cases call with
  | putObject stream contentType size checksum =>
    exact (putObject_effect sha256 bucket key stream contentType size checksum state).2 _ own
      temporary
  | completeMultipartUpload uploadId parts =>
    exact (complete_effect sha256 bucket key uploadId parts state).2 _ own temporary
  | deleteObject => exact (deleteObject_effect bucket key state).2 _ own

private theorem ObjectCall.after_temporary (sha256 : Bytes → String) (bucket : String) (key : ObjectKey)
    (state : LocalState) (call : ObjectCall) :
    (call.after sha256 bucket key state).tree.file? (objectPath bucket key.temporary) =
        state.tree.file? (objectPath bucket key.temporary) ↔ call.Spares bucket key state := by
  have ne := temporary_ne bucket key
  cases call with
  | putObject stream contentType size checksum =>
    obtain ⟨result, state', done, _, outcome⟩ :=
      putObject_outcome sha256 bucket key stream contentType size checksum state
    simp only [after, Spares, done]
    generalize state'.tree.file? = files at outcome
    cases outcome with
    | unopened failure closed => exact iff_of_true rfl fun opens => absurd opens closed
    | interrupted failure opens stopped => simp [opens, eq_comm]
    | mismatched opens ran mismatch => simp [opens, eq_comm]
    | stored object opens ran matched => simp [opens, ne, eq_comm]
  | completeMultipartUpload uploadId parts =>
    obtain ⟨result, state', done, outcome⟩ :=
      completeMultipartUpload_outcome sha256 bucket key uploadId parts state
    simp only [after, Spares, done]
    generalize state'.tree.file? = files at outcome
    cases outcome with
    | unopened failure closed => exact iff_of_true rfl fun opens => absurd opens closed
    | brokenOff failure opens stopped => simp [opens, stopped, eq_comm]
    | completed object opens ran => simp [opens, ran, ne, eq_comm]
  | deleteObject =>
    exact iff_of_true ((deleteObject_effect bucket key state).2 _ ne) trivial

/-- A call on one key leaves the object of another key alone exactly when that key is not
the name of its temporary file, or nothing there can be harmed. -/
theorem other_key_kept_iff (sha256 : Bytes → String) (state : LocalState) (bucket : String)
    (key key' : ObjectKey) (different : key' ≠ key) (call : ObjectCall) :
    view.object? (call.after sha256 bucket key state) bucket key' =
        view.object? state bucket key' ↔
      (key' = key.temporary → call.Spares bucket key state) := by
  constructor
  · rintro kept rfl
    exact (call.after_temporary sha256 bucket key state).mp kept
  · intro spares
    by_cases beside : key' = key.temporary
    · rw [beside]
      exact (call.after_temporary sha256 bucket key state).mpr (spares beside)
    · exact call.after_other sha256 bucket state different beside

def smallKey : ObjectKey where
  segments := ["a.bin"]
  nonempty := List.cons_ne_nil _ _
  ordinary := by
    intro segment member
    rw [List.mem_singleton.mp member]
    exact ⟨by decide, by decide, by decide, by decide⟩

def otherKey : ObjectKey where
  segments := ["b.bin"]
  nonempty := List.cons_ne_nil _ _
  ordinary := by
    intro segment member
    rw [List.mem_singleton.mp member]
    exact ⟨by decide, by decide, by decide, by decide⟩

/-- A put on `a.bin` leaves the object `b.bin` alone. -/
theorem other_key_kept_small :
    let before := (putObject (fun _ => "") "files" otherKey [3] none none none {}).2
    let call := ObjectCall.putObject [1, 2] none none none
    view.object? (call.after (fun _ => "") "files" smallKey before) "files" smallKey = some [1, 2] ∧
      view.object? (call.after (fun _ => "") "files" smallKey before) "files" otherKey =
        some [3] := by
  intro before call
  have kept := (other_key_kept_iff (fun _ => "") before "files" smallKey otherKey (by decide)
    call).mpr fun same => absurd same (by decide)
  exact ⟨by decide, kept.trans (by decide)⟩

/-- A put on `a.bin` removes the object `a.bin.tmp`. -/
theorem put_removes_temporary_name :
    let before := (putObject (fun _ => "") "files" smallKey.temporary [1] none none none {}).2
    let after := (putObject (fun _ => "") "files" smallKey [2] none none none before).2
    (normalizeRelativePath id 64 1024 "a.bin").toOption = some smallKey ∧
      (normalizeRelativePath id 64 1024 "a.bin.tmp").toOption = some smallKey.temporary ∧
      smallKey.temporary ≠ smallKey ∧
      view.object? before "files" smallKey.temporary = some [1] ∧
      view.object? after "files" smallKey.temporary = none := by
  decide

section FlatMap

/-- The calls of a client that stores, removes and asks for objects. -/
inductive KeyCall
  | putObject (bucket : String) (key : ObjectKey) (stream : Bytes) (contentType : Option String)
      (size : Option Nat) (checksum : Option String)
  | deleteObject (bucket : String) (key : ObjectKey)
  | objectExists (bucket : String) (key : ObjectKey)

namespace KeyCall

def perform (sha256 : Bytes → String) (state : LocalState) : KeyCall → LocalState
  | putObject bucket key stream contentType size checksum =>
    (LocalStorageAdapter.putObject sha256 bucket key stream contentType size checksum state).2
  | deleteObject bucket key => (LocalStorageAdapter.deleteObject bucket key state).2
  | objectExists _ _ => state

/-- The flat map the adapter stands for. -/
def record (objects : String → ObjectKey → Option Bytes) :
    KeyCall → String → ObjectKey → Option Bytes
  | putObject bucket key stream _ _ _, bucket', key' =>
    if bucket' = bucket ∧ key' = key then some stream else objects bucket' key'
  | deleteObject bucket key, bucket', key' =>
    if bucket' = bucket ∧ key' = key then none else objects bucket' key'
  | objectExists _ _, bucket', key' => objects bucket' key'

/-- A put that goes through and finds nothing at the temporary name. -/
def Fits (sha256 : Bytes → String) (state : LocalState) : KeyCall → Prop
  | putObject bucket key stream _ _ checksum =>
    Opens state bucket key ∧ state.tree.node? (objectPath bucket key) ≠ some .directory ∧
      ¬ Mismatched sha256 stream checksum ∧
      state.tree.file? (objectPath bucket key.temporary) = none
  | _ => True

def performAll (sha256 : Bytes → String) (state : LocalState) (calls : List KeyCall) : LocalState :=
  calls.foldl (perform sha256) state

def recordAll (calls : List KeyCall) : String → ObjectKey → Option Bytes :=
  calls.foldl record fun _ _ => none

def EachFits (sha256 : Bytes → String) : LocalState → List KeyCall → Prop
  | _, [] => True
  | state, call :: rest => call.Fits sha256 state ∧ EachFits sha256 (call.perform sha256 state) rest

end KeyCall

private theorem abandonWrite_faults (state : LocalState) (tree : FileTree String Bytes)
    (temporary : List String) : (abandonWrite state tree temporary).2.faults = state.faults := by
  unfold abandonWrite
  split <;> rfl

private theorem KeyCall.perform_quiet (sha256 : Bytes → String) {state : LocalState} (call : KeyCall)
    (quiet : state.faults = []) : (call.perform sha256 state).faults = [] := by
  cases call with
  | putObject bucket key stream contentType size checksum =>
    unfold perform LocalStorageAdapter.putObject
    simp only [takeFault_quiet quiet]
    split
    · exact quiet
    · split
      · rw [abandonWrite_faults, quiet]
      · split
        · split <;> exact quiet
        · rw [abandonWrite_faults, quiet]
  | deleteObject bucket key =>
    unfold perform LocalStorageAdapter.deleteObject
    simp only [takeFault_quiet quiet]
    split <;> exact quiet
  | objectExists bucket key => exact quiet

/-- The object files are those of a flat map. -/
def Flat (state : LocalState) (objects : String → ObjectKey → Option Bytes) : Prop :=
  ∀ bucket key, state.tree.file? (objectPath bucket key) = objects bucket key

private theorem objectPath_eq_iff {bucket bucket' : String} {key key' : ObjectKey} :
    objectPath bucket' key' = objectPath bucket key ↔ bucket' = bucket ∧ key' = key := by
  constructor
  · exact objectPath_injective
  · rintro ⟨rfl, rfl⟩
    rfl

private theorem deleteObject_file? (bucket : String) (key : ObjectKey) {state : LocalState}
    (quiet : state.faults = []) (path : List String) :
    (deleteObject bucket key state).2.tree.file? path =
      if path = objectPath bucket key then none else state.tree.file? path := by
  unfold deleteObject
  simp only [takeFault_quiet quiet]
  split
  · rename_i tree _ unlinked
    exact FileTree.unlink_file? unlinked path
  · rename_i errno _ refused
    have nothing : state.tree.file? (objectPath bucket key) = none := by
      cases stored : state.tree.file? (objectPath bucket key) with
      | none => rfl
      | some content =>
        unfold FileTree.unlink at refused
        rw [FileTree.file?_eq_some.mp stored] at refused
        cases refused
    split
    · rename_i own
      rw [own, nothing]
    · rfl
  · rename_i faulted
    cases faulted

/-- A call that fits acts on the files as it acts on the map. -/
theorem KeyCall.perform_flat {sha256 : Bytes → String} {state : LocalState}
    {objects : String → ObjectKey → Option Bytes} {call : KeyCall} (quiet : state.faults = [])
    (flat : Flat state objects) (fits : call.Fits sha256 state) :
    Flat (call.perform sha256 state) (call.record objects) := by
  intro bucket' key'
  cases call with
  | putObject bucket key stream contentType size checksum =>
    obtain ⟨opens, free, matched, clear⟩ := fits
    obtain ⟨result, state', done, _, outcome⟩ :=
      putObject_outcome sha256 bucket key stream contentType size checksum state
    have ran : ¬ Interrupted state bucket key := by
      rintro (faulted | directory)
      · rw [takeFault_quiet quiet] at faulted
        exact faulted rfl
      · exact free directory
    simp only [perform, record, done]
    generalize state'.tree.file? = files at outcome
    cases outcome with
    | unopened failure closed => exact absurd opens closed
    | interrupted failure opens stopped => exact absurd stopped ran
    | mismatched opens ran mismatch => exact absurd mismatch matched
    | stored object opens ran matched =>
      simp only [objectPath_eq_iff]
      split
      · rfl
      · split
        · rename_i temporary
          rw [← flat, temporary.1, temporary.2, clear]
        · exact flat bucket' key'
  | deleteObject bucket key =>
    simp only [perform, record, deleteObject_file? bucket key quiet, objectPath_eq_iff]
    split
    · rfl
    · exact flat bucket' key'
  | objectExists bucket key => exact flat bucket' key'

private theorem KeyCall.performAll_flat {sha256 : Bytes → String} {state : LocalState}
    {objects : String → ObjectKey → Option Bytes} {calls : List KeyCall}
    (quiet : state.faults = []) (flat : Flat state objects)
    (fits : EachFits sha256 state calls) :
    Flat (performAll sha256 state calls) (calls.foldl record objects) := by
  induction calls generalizing state objects with
  | nil => exact flat
  | cons call rest ih =>
    have next := perform_flat quiet flat fits.1
    exact ih (perform_quiet sha256 call quiet) next fits.2

/-- After calls that fit, an object exists exactly when the map has it, unless a directory
bears its name: then the answer is always yes. -/
theorem exists_agrees_iff_no_directory (sha256 : Bytes → String) (start : LocalState)
    (vacant : ∀ bucket key, view.object? start bucket key = none) (quiet : start.faults = [])
    (calls : List KeyCall) (fits : KeyCall.EachFits sha256 start calls) (bucket : String)
    (key : ObjectKey) :
    objectExists bucket key (KeyCall.performAll sha256 start calls) =
        .ok (KeyCall.recordAll calls bucket key).isSome ↔
      (KeyCall.performAll sha256 start calls).tree.isDirectory (objectPath bucket key) = false := by
  have flat : Flat (KeyCall.performAll sha256 start calls) (KeyCall.recordAll calls) :=
    KeyCall.performAll_flat quiet vacant fits
  rw [← flat bucket key]
  unfold objectExists FileTree.exists? FileTree.isDirectory FileTree.file?
  rcases (KeyCall.performAll sha256 start calls).tree.node? (objectPath bucket key) with
    _ | _ | content
  · simp
  · simp
  · simp

theorem smallPut_agrees :
    objectExists "files" smallKey (KeyCall.performAll (fun _ => "") {}
        [.putObject "files" smallKey [1] none none none]) =
        .ok (KeyCall.recordAll [.putObject "files" smallKey [1] none none none]
          "files" smallKey).isSome ↔
      (KeyCall.performAll (fun _ => "") {}
        [.putObject "files" smallKey [1] none none none]).tree.isDirectory
          (objectPath "files" smallKey) = false :=
  exists_agrees_iff_no_directory (fun _ => "") {} (fun _ _ => by rfl) rfl
    [.putObject "files" smallKey [1] none none none]
    ⟨⟨⟨⟨_, rfl⟩, by decide⟩, by decide, fun mismatch => mismatch.1 rfl, by decide⟩, trivial⟩
    "files" smallKey

def nestedKey : ObjectKey where
  segments := ["a.bin", "b"]
  nonempty := by simp
  ordinary := by simp [OrdinarySegment]

/-- A key that was never put exists, as a directory, before and after the deletion of the
object below it. -/
theorem directory_counts_as_object :
    let put := KeyCall.putObject "files" nestedKey [1] none none none
    let delete := KeyCall.deleteObject "files" nestedKey
    (KeyCall.recordAll [put] "files" smallKey, KeyCall.recordAll [put, delete] "files" smallKey) =
        (none, none) ∧
      (objectExists "files" smallKey (KeyCall.performAll (fun _ => "") {} [put])).toOption =
        some true ∧
      (objectExists "files" smallKey
        (KeyCall.performAll (fun _ => "") {} [put, delete])).toOption = some true := by
  decide

end FlatMap

end LocalStorageAdapter

end PyUploadX
