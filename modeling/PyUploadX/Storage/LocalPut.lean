import PyUploadX.Storage.Local

/-! How `put_object` ends: an object is written to a temporary file beside its own, and the
name of that file is an ordinary key too. -/
namespace PyUploadX

open Kit

namespace ObjectKey

theorem OrdinarySegment.temporary {segment : String} (ordinary : OrdinarySegment segment) :
    OrdinarySegment (segment ++ ".tmp") := by
  obtain ⟨_, _, _, unslashed⟩ := ordinary
  have text : (segment ++ ".tmp").toList = segment.toList ++ ['.', 't', 'm', 'p'] := by simp
  have short : ∀ other : String, other.toList.length < 4 → segment ++ ".tmp" ≠ other := by
    rintro other bound same
    have lengths := congrArg List.length text
    rw [same, List.length_append] at lengths
    simp only [List.length_cons, List.length_nil] at lengths
    omega
  exact ⟨short "" (by decide), short "." (by decide), short ".." (by decide),
    by rw [text]; simp [unslashed]⟩

private theorem temporaryPath_ordinary {segments : List String}
    (ordinary : ∀ segment ∈ segments, OrdinarySegment segment) :
    ∀ segment ∈ LocalStorageAdapter.temporaryPath segments, OrdinarySegment segment := by
  induction segments with
  | nil => simp [LocalStorageAdapter.temporaryPath]
  | cons name rest ih =>
    cases rest with
    | nil =>
      simpa [LocalStorageAdapter.temporaryPath] using
        OrdinarySegment.temporary (ordinary name (by simp))
    | cons next others =>
      intro segment member
      rcases List.mem_cons.mp member with head | tail
      · rw [head]
        exact ordinary name (by simp)
      · exact ih (fun other inside => ordinary other (List.mem_cons_of_mem name inside)) segment tail

/-- The key whose object lies where this key's temporary file does. -/
def temporary (key : ObjectKey) : ObjectKey where
  segments := LocalStorageAdapter.temporaryPath key.segments
  nonempty := by
    cases segments : key.segments with
    | nil => exact absurd segments key.nonempty
    | cons name rest => cases rest <;> simp [LocalStorageAdapter.temporaryPath]
  ordinary := temporaryPath_ordinary key.ordinary

end ObjectKey

namespace LocalStorageAdapter

theorem objectPath_ne_nil (bucket : String) (key : ObjectKey) : objectPath bucket key ≠ [] :=
  List.cons_ne_nil _ _

theorem temporaryPath_objectPath (bucket : String) (key : ObjectKey) :
    temporaryPath (objectPath bucket key) = objectPath bucket key.temporary := by
  cases segments : key.segments with
  | nil => exact absurd segments key.nonempty
  | cons name rest => simp [objectPath, ObjectKey.temporary, segments, temporaryPath]

theorem objectPath_injective {bucket bucket' : String} {key key' : ObjectKey}
    (same : objectPath bucket' key' = objectPath bucket key) : bucket' = bucket ∧ key' = key := by
  obtain ⟨sameBucket, sameKey⟩ := List.cons_eq_cons.mp same
  exact ⟨sameBucket, ObjectKey.ext_segments sameKey⟩

private theorem temporaryPath_ne {path : List String} (inside : path ≠ []) : temporaryPath path ≠ path := by
  induction path with
  | nil => exact absurd rfl inside
  | cons name rest ih =>
    cases rest with
    | nil =>
      intro same
      have names : name ++ ".tmp" = name := (List.cons_eq_cons.mp same).1
      have lengths := congrArg String.length names
      simp at lengths
    | cons next others =>
      intro same
      exact ih (List.cons_ne_nil _ _) (List.cons_eq_cons.mp same).2

private theorem temporaryPath_cons_cons (name next : String) (others : List String) :
    temporaryPath (name :: next :: others) = name :: temporaryPath (next :: others) := rfl

private theorem temporaryPath_dropLast (path : List String) :
    (temporaryPath path).dropLast = path.dropLast := by
  induction path with
  | nil => rfl
  | cons name rest ih =>
    cases rest with
    | nil => rfl
    | cons next others =>
      have kept : temporaryPath (next :: others) ≠ [] := by cases others <;> simp [temporaryPath]
      rw [temporaryPath_cons_cons, List.dropLast_cons_of_ne_nil kept, ih,
        List.dropLast_cons_of_ne_nil (List.cons_ne_nil _ _)]

theorem temporaryPath_length (path : List String) : (temporaryPath path).length = path.length := by
  induction path with
  | nil => rfl
  | cons name rest ih =>
    cases rest with
    | nil => rfl
    | cons next others => simp only [temporaryPath_cons_cons, List.length_cons, ih]

/-- The directory of an object is shorter than its path and than its temporary path. -/
theorem dropLast_objectPath_length (bucket : String) (key : ObjectKey) :
    (objectPath bucket key).dropLast.length < (objectPath bucket key).length ∧
      (objectPath bucket key).dropLast.length < (objectPath bucket key.temporary).length := by
  rw [← temporaryPath_objectPath, temporaryPath_length, List.length_dropLast]
  have positive := List.length_pos_iff.mpr (objectPath_ne_nil bucket key)
  omega

theorem temporary_ne (bucket : String) (key : ObjectKey) :
    objectPath bucket key.temporary ≠ objectPath bucket key := by
  rw [← temporaryPath_objectPath]
  exact temporaryPath_ne (objectPath_ne_nil bucket key)

theorem takeFault_tree (state : LocalState) : (takeFault state).2.tree = state.tree := by
  unfold takeFault; split <;> rfl

theorem takeFault_staging (state : LocalState) : (takeFault state).2.staging = state.staging := by
  unfold takeFault; split <;> rfl

theorem takeFault_quiet {state : LocalState} (quiet : state.faults = []) :
    takeFault state = (none, state) := by
  unfold takeFault
  rw [quiet]

/-- The temporary file of an object can be opened. -/
def Opens (state : LocalState) (bucket : String) (key : ObjectKey) : Prop :=
  (∃ tree, state.tree.mkdirParents (objectPath bucket key).dropLast = .ok tree) ∧
    state.tree.node? (objectPath bucket key.temporary) ≠ some .directory

/-- An I/O error stops the copy, or the object's name belongs to a directory. -/
def Interrupted (state : LocalState) (bucket : String) (key : ObjectKey) : Prop :=
  (takeFault state).1 ≠ none ∨ state.tree.node? (objectPath bucket key) = some .directory

/-- The files after a put, for each way it ends. -/
inductive PutOutcome (sha256 : Bytes → String) (bucket : String) (key : ObjectKey)
    (stream : Bytes) (checksum : Option String) (state : LocalState) :
    Except Failure StoredObject → (List String → Option Bytes) → Prop
  | unopened (failure : Failure) (closed : ¬ Opens state bucket key) :
      PutOutcome sha256 bucket key stream checksum state (.error failure) state.tree.file?
  | interrupted (failure : Failure) (opens : Opens state bucket key)
      (stopped : Interrupted state bucket key) :
      PutOutcome sha256 bucket key stream checksum state (.error failure) fun path =>
        if path = objectPath bucket key.temporary then none else state.tree.file? path
  | mismatched (opens : Opens state bucket key) (ran : ¬ Interrupted state bucket key)
      (mismatch : Mismatched sha256 stream checksum) :
      PutOutcome sha256 bucket key stream checksum state (.error (.api .checksumMismatch))
        fun path =>
          if path = objectPath bucket key ∨ path = objectPath bucket key.temporary then none
          else state.tree.file? path
  | stored (object : StoredObject) (opens : Opens state bucket key)
      (ran : ¬ Interrupted state bucket key) (matched : ¬ Mismatched sha256 stream checksum) :
      PutOutcome sha256 bucket key stream checksum state (.ok object) fun path =>
        if path = objectPath bucket key then some stream
        else if path = objectPath bucket key.temporary then none else state.tree.file? path

/-- Whether or not the unlink succeeds, no file is left at the temporary name. -/
theorem abandonWrite_files (state : LocalState) (tree : FileTree String Bytes)
    (temporary : List String) :
    ∃ failure state', abandonWrite state tree temporary = (.error failure, state') ∧
      state'.staging = state.staging ∧
      ∀ path, state'.tree.file? path = if path = temporary then none else tree.file? path := by
  unfold abandonWrite
  split
  · rename_i removed unlinked
    exact ⟨_, _, rfl, rfl, FileTree.unlink_file? unlinked⟩
  · rename_i errno refused
    refine ⟨_, _, rfl, rfl, fun path => ?_⟩
    have absent : tree.file? temporary = none := by
      unfold FileTree.unlink at refused
      rw [FileTree.file?_eq_none]
      split at refused
      · cases refused
      · rename_i directory; exact .inr directory
      · rename_i missing; exact .inl missing
    by_cases same : path = temporary
    · rw [if_pos same, same, absent]
    · rw [if_neg same]

theorem opens_iff_writeFile {state : LocalState} {bucket : String} {key : ObjectKey}
    {tree : FileTree String Bytes} (content : Bytes)
    (made : state.tree.mkdirParents (objectPath bucket key).dropLast = .ok tree) :
    Opens state bucket key ↔ ∃ opened,
      tree.writeFile (objectPath bucket key.temporary) content = .ok opened := by
  have node : tree.node? (objectPath bucket key.temporary) =
      state.tree.node? (objectPath bucket key.temporary) :=
    FileTree.mkdirParents_deeper made (dropLast_objectPath_length bucket key).2
  have parent : tree.node? (objectPath bucket key.temporary).dropLast = some .directory := by
    rw [← temporaryPath_objectPath, temporaryPath_dropLast]
    exact FileTree.mkdirParents_directory made
  unfold Opens
  simp only [FileTree.writeFile_eq_ok, node, parent]
  constructor
  · rintro ⟨_, free⟩
    exact ⟨_, free, trivial, rfl⟩
  · rintro ⟨_, free, _, _⟩
    exact ⟨⟨tree, made⟩, free⟩

private theorem file?_of_closed {state : LocalState} {bucket : String} {key : ObjectKey}
    {tree : FileTree String Bytes}
    (made : state.tree.mkdirParents (objectPath bucket key).dropLast = .ok tree)
    (closed : ¬ Opens state bucket key) :
    state.tree.file? (objectPath bucket key.temporary) = none := by
  by_contra stored
  refine closed ⟨⟨tree, made⟩, fun directory => stored ?_⟩
  exact FileTree.file?_eq_none.mpr (.inr directory)

/-- Every put ends in one of the four ways. -/
theorem putObject_outcome (sha256 : Bytes → String) (bucket : String) (key : ObjectKey)
    (stream : Bytes) (contentType : Option String) (size : Option Nat)
    (checksum : Option String) (state : LocalState) :
    ∃ result state',
      putObject sha256 bucket key stream contentType size checksum state = (result, state') ∧
      state'.staging = state.staging ∧
      PutOutcome sha256 bucket key stream checksum state result state'.tree.file? := by
  have ne := temporary_ne bucket key
  unfold putObject
  simp only [copyStream_eq, temporaryPath_objectPath]
  split
  · rename_i errno refused
    refine ⟨_, _, rfl, rfl, .unopened _ fun opens => ?_⟩
    obtain ⟨⟨tree, made⟩, _⟩ := opens
    rw [refused] at made
    cases made
  · rename_i tree made
    have directories := FileTree.mkdirParents_file? made
    split
    · rename_i errno refused
      obtain ⟨failure, state', abandoned, staging, files⟩ := abandonWrite_files
        (takeFault state).2 tree (objectPath bucket key.temporary)
      refine ⟨_, _, abandoned, staging.trans (takeFault_staging state), ?_⟩
      have closed : ¬ Opens state bucket key := by
        rw [opens_iff_writeFile _ made]
        rintro ⟨opened, written⟩
        rw [refused] at written
        cases written
      have same : state'.tree.file? = state.tree.file? := by
        funext path
        rw [files, directories]
        split
        · rename_i temporary
          rw [temporary]
          exact (file?_of_closed made closed).symm
        · rfl
      rw [same]
      exact .unopened failure closed
    · rename_i opened written
      have opens := (opens_iff_writeFile _ made).mpr ⟨opened, written⟩
      obtain ⟨_, _, rfl⟩ := FileTree.writeFile_eq_ok.mp written
      have inside := objectPath_ne_nil bucket key.temporary
      have own : ∀ content, (tree.set (objectPath bucket key.temporary) (.file content)).node?
          (objectPath bucket key) = state.tree.node? (objectPath bucket key) := by
        intro content
        rw [FileTree.node?_set_of_ne _ ne.symm]
        exact FileTree.mkdirParents_deeper made (dropLast_objectPath_length bucket key).1
      have others : ∀ content path, path ≠ objectPath bucket key.temporary →
          (tree.set (objectPath bucket key.temporary) (.file content)).file? path =
            state.tree.file? path := by
        intro content path different
        rw [FileTree.file?_set_of_ne _ different, directories]
      split
      · rename_i replaced unfaulted moved
        obtain ⟨content, source, free, rfl⟩ := FileTree.replace_eq_ok.mp moved
        rw [FileTree.node?_set_self _ inside] at source
        cases source
        rw [own] at free
        have ran : ¬ Interrupted state bucket key := by
          rintro (faulted | directory)
          · exact faulted unfaulted
          · exact free directory
        have whole : (Copied.write {} stream).out.take
            ((takeFault state).1.getD (Copied.write {} stream).out.length) = stream := by
          rw [unfaulted]
          simp [Copied.write]
        rw [whole]
        have moves : ∀ path, (((tree.set (objectPath bucket key.temporary) (.file stream)).remove
            (objectPath bucket key.temporary)).set (objectPath bucket key) (.file stream)).file?
              path = if path = objectPath bucket key then some stream
                else if path = objectPath bucket key.temporary then none
                else state.tree.file? path := by
          intro path
          by_cases object : path = objectPath bucket key
          · rw [if_pos object, object]
            exact FileTree.file?_set_file _ (objectPath_ne_nil bucket key) _
          · rw [if_neg object, FileTree.file?_set_of_ne _ object]
            by_cases temporary : path = objectPath bucket key.temporary
            · rw [if_pos temporary, temporary, FileTree.file?_remove_self]
            · rw [if_neg temporary, FileTree.file?_remove_of_ne _ temporary, others _ _ temporary]
        split
        · rename_i mismatch
          refine ⟨_, _, rfl, takeFault_staging state, ?_⟩
          have removes : ((((tree.set (objectPath bucket key.temporary) (.file stream)).remove
              (objectPath bucket key.temporary)).set (objectPath bucket key)
                (.file stream)).remove (objectPath bucket key)).file? = fun path =>
                if path = objectPath bucket key ∨ path = objectPath bucket key.temporary then none
                else state.tree.file? path := by
            funext path
            by_cases object : path = objectPath bucket key
            · rw [if_pos (.inl object), object, FileTree.file?_remove_self]
            · rw [FileTree.file?_remove_of_ne _ object, moves, if_neg object]
              simp only [object, false_or]
          simp only
          rw [removes]
          exact .mismatched opens ran (by simpa [Mismatched, Copied.write] using mismatch)
        · rename_i matched
          refine ⟨_, _, rfl, takeFault_staging state, ?_⟩
          simp only
          rw [funext moves]
          exact .stored _ opens ran (by simpa [Mismatched, Copied.write] using matched)
      · rename_i stopped
        obtain ⟨failure, state', abandoned, staging, files⟩ := abandonWrite_files
          (takeFault state).2 (tree.set (objectPath bucket key.temporary) _)
          (objectPath bucket key.temporary)
        refine ⟨_, _, abandoned, staging.trans (takeFault_staging state), ?_⟩
        have same : state'.tree.file? = fun path =>
            if path = objectPath bucket key.temporary then none else state.tree.file? path := by
          funext path
          rw [files]
          split
          · rfl
          · rename_i different
            exact others _ path different
        rw [same]
        refine .interrupted failure opens ?_
        by_contra ran
        obtain ⟨unfaulted, free⟩ := not_or.mp ran
        refine stopped _ (not_not.mp unfaulted) (FileTree.replace_eq_ok.mpr
          ⟨_, FileTree.node?_set_self _ inside _, ?_, rfl⟩)
        rw [own]
        exact free

end LocalStorageAdapter

end PyUploadX
