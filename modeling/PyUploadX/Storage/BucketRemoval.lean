import PyUploadX.Kit.TreeRemoval
import PyUploadX.Storage.Local

/-! The deletion of a local bucket, call by call: the look for files below it, and its removal. -/
namespace PyUploadX

open Kit

abbrev LocalDisk := Disk String Bytes Nat

namespace LocalState

/-- The part of the state that system calls work on. -/
def disk (state : LocalState) : LocalDisk := ⟨state.tree, state.faults⟩

def withDisk (state : LocalState) (disk : LocalDisk) : LocalState :=
  { state with tree := disk.tree, faults := disk.faults }

end LocalState

namespace LocalStorageAdapter

/-- So many nested calls fit on Python's stack, in the two recursions of `delete_bucket`. -/
structure CallLimits where
  emptiness : Nat
  removal : Nat

/-- `_is_empty_dir`. -/
def isEmptyDir : Nat → List String → LocalDisk → Except WalkError Bool × LocalDisk
  | 0, _, disk => (.error .recursion, disk)
  | limit + 1, path, disk =>
    match Disk.readdir path disk with
    | (.error error, disk) => (.error error, disk)
    | (.ok found, disk) =>
      Disk.everyOf (fun child disk => if disk.tree.isDirectory child then isEmptyDir limit child disk
        else (.ok false, disk)) found disk

/-- An error that leaves the adapter as it is. -/
def walkFailure : WalkError → Failure
  | .os errno => .os errno
  | .recursion => .overflow "maximum recursion depth exceeded"

/-- `except OSError` around the removal. -/
def removalFailure : WalkError → Failure
  | .os _ => .api (.storageUnavailable "local bucket delete failed")
  | .recursion => walkFailure .recursion

/-- `delete_bucket`, with its system calls one by one. -/
def deleteBucketStepwise (limits : CallLimits) (bucket : String) (state : LocalState) :
    Except Failure Unit × LocalState :=
  if state.tree.isDirectory [bucket] = false then (.ok (), state)
  else
    match isEmptyDir limits.emptiness [bucket] state.disk with
    | (.error error, disk) => (.error (walkFailure error), state.withDisk disk)
    | (.ok false, disk) => (.error (.api (.bucketNotEmpty bucket)), state.withDisk disk)
    | (.ok true, disk) =>
      match Disk.rmtree limits.removal [bucket] disk with
      | (.ok (), disk) => (.ok (), state.withDisk disk)
      | (.error error, disk) => (.error (removalFailure error), state.withDisk disk)

end LocalStorageAdapter

open LocalStorageAdapter in
/-- The local adapter, where the deletion of a bucket is not taken as one step. -/
def LocalStorageAdapter.stepwise (sha256 : Bytes → String) (limits : CallLimits) :
    StorageAdapter LocalState :=
  { LocalStorageAdapter sha256 with deleteBucket := deleteBucketStepwise limits }

namespace LocalStorageAdapter

section Emptiness

/-- No regular file at the path, nor at any depth below it. -/
def NoFiles (tree : FileTree String Bytes) (path : List String) : Prop :=
  ∀ below, path <+: below → tree.file? below = none

/-- One entry of a directory that is looked at. -/
def isEmptyEntry (limit : Nat) (child : List String) (disk : LocalDisk) :
    Except WalkError Bool × LocalDisk :=
  if disk.tree.isDirectory child then isEmptyDir limit child disk else (.ok false, disk)

private theorem isEmptyDir_succ (limit : Nat) (path : List String) (disk : LocalDisk) :
    isEmptyDir (limit + 1) path disk =
      match Disk.readdir path disk with
      | (.error error, disk) => (.error error, disk)
      | (.ok found, disk) => Disk.everyOf (isEmptyEntry limit) found disk :=
  rfl

theorem isEmptyDir_tree (limit : Nat) (path : List String) (disk : LocalDisk) :
    (isEmptyDir limit path disk).2.tree = disk.tree := by
  induction limit generalizing path disk with
  | zero => rfl
  | succ limit ih =>
    have read := Disk.readdir_tree path disk
    rw [isEmptyDir_succ]
    split
    · rename_i failed
      rwa [failed] at read
    · rename_i listed
      rw [listed] at read
      rw [← read]
      refine Disk.everyOf_tree (fun child later => ?_) _ _
      unfold isEmptyEntry
      split
      · exact ih child later
      · rfl

private theorem isEmptyEntry_tree (limit : Nat) (child : List String) (disk : LocalDisk) :
    (isEmptyEntry limit child disk).2.tree = disk.tree := by
  unfold isEmptyEntry
  split
  · exact isEmptyDir_tree limit child disk
  · rfl

/-- A directory that is found empty has no file at any depth. -/
theorem isEmptyDir_true {limit : Nat} {path : List String} {disk : LocalDisk}
    (rooted : disk.tree.Rooted) (yes : (isEmptyDir limit path disk).1 = .ok true) :
    NoFiles disk.tree path := by
  induction limit generalizing path disk with
  | zero => cases yes
  | succ limit ih =>
    have read := Disk.readdir_tree path disk
    rw [isEmptyDir_succ] at yes
    split at yes
    · cases yes
    · rename_i found after listed
      obtain ⟨directory, rfl⟩ := Disk.readdir_eq_ok (congrArg Prod.fst listed)
      rw [listed] at read
      rintro _ ⟨rest, rfl⟩
      cases rest with
      | nil =>
        rw [List.append_nil]
        exact FileTree.file?_eq_none.mpr (.inr directory)
      | cons name later =>
        -- a file this deep lies at an entry of the directory, or below it
        rw [FileTree.file?_eq_none]
        by_contra! there
        have split : path ++ name :: later = (path ++ [name]) ++ later := by simp
        have child : disk.tree.node? (path ++ [name]) ≠ none := by
          by_cases last : later = []
          · subst last
            exact there.1
          · rw [split] at there
            rw [rooted.above last there.1]
            simp
        have listed := FileTree.mem_children.mpr
          ⟨List.append_ne_nil_of_right_ne_nil _ (List.cons_ne_nil _ _), List.dropLast_concat, child⟩
        obtain ⟨asked, same, answered⟩ := Disk.everyOf_true (isEmptyEntry_tree limit) yes listed
        unfold isEmptyEntry at answered
        split at answered
        · have deeper := ih (same.trans read ▸ rooted) answered
          have none_ := deeper (path ++ name :: later) ⟨later, split.symm⟩
          rw [same, read, FileTree.file?_eq_none] at none_
          exact none_.elim there.1 there.2
        · cases answered

private theorem isEmptyDir_false {limit : Nat} {path : List String} {disk : LocalDisk}
    (no : (isEmptyDir limit path disk).1 = .ok false) : ¬ NoFiles disk.tree path := by
  induction limit generalizing path disk with
  | zero => cases no
  | succ limit ih =>
    have read := Disk.readdir_tree path disk
    rw [isEmptyDir_succ] at no
    split at no
    · cases no
    · rename_i found after listed
      obtain ⟨_, rfl⟩ := Disk.readdir_eq_ok (congrArg Prod.fst listed)
      rw [listed] at read
      obtain ⟨child, entry, asked, same, answered⟩ :=
        Disk.everyOf_false (isEmptyEntry_tree limit) no
      obtain ⟨_, rfl, there⟩ := FileTree.mem_children.mp entry
      have tree := same.trans read
      intro none_
      unfold isEmptyEntry at answered
      split at answered
      · refine ih answered ?_
        rw [tree]
        exact fun below within => none_ below ((List.dropLast_prefix child).trans within)
      · rename_i plain
        rw [tree, FileTree.isDirectory_iff] at plain
        rcases FileTree.file?_eq_none.mp (none_ child (List.dropLast_prefix child)) with gone | dir
        · exact there gone
        · exact plain dir

end Emptiness

section Deletion

variable {limits : CallLimits} {bucket : String} {state state' : LocalState}

private theorem isEmptyDir_answer_tree {limit : Nat} {path : List String} {disk after : LocalDisk}
    {answer : Except WalkError Bool} (asked : isEmptyDir limit path disk = (answer, after)) :
    after.tree = disk.tree := by
  have kept := isEmptyDir_tree limit path disk
  rwa [asked] at kept

/-- The bucket that was deleted had no files. -/
theorem deleteBucketStepwise_ok (rooted : state.tree.Rooted)
    (there : state.tree.isDirectory [bucket] = true)
    (done : (deleteBucketStepwise limits bucket state).1 = .ok ()) :
    NoFiles state.tree [bucket] := by
  unfold deleteBucketStepwise at done
  rw [if_neg (by rw [there]; decide)] at done
  split at done
  · cases done
  · cases done
  · rename_i after asked
    exact isEmptyDir_true rooted (congrArg Prod.fst asked)

/-- Nothing is removed unless the bucket has no files; then only what lies in it. -/
theorem deleteBucketStepwise_tree (limits : CallLimits) (bucket : String) (state : LocalState) :
    (deleteBucketStepwise limits bucket state).2.tree = state.tree ∨
      (isEmptyDir limits.emptiness [bucket] state.disk).1 = .ok true ∧
        Disk.Cleared [bucket] state.tree (deleteBucketStepwise limits bucket state).2.tree := by
  unfold deleteBucketStepwise
  split
  · exact .inl rfl
  · split
    · rename_i asked
      exact .inl (isEmptyDir_answer_tree asked)
    · rename_i asked
      exact .inl (isEmptyDir_answer_tree asked)
    · rename_i disk asked
      have kept : disk.tree = state.tree := isEmptyDir_answer_tree asked
      have cleared := Disk.rmtree_cleared limits.removal [bucket] disk
      rw [kept] at cleared
      refine .inr ⟨by rw [asked], ?_⟩
      split
      · rename_i removed
        rwa [removed] at cleared
      · rename_i failed
        rwa [failed] at cleared

/-- No file of any bucket is lost, however the call ends. -/
theorem deleteBucketStepwise_file? (rooted : state.tree.Rooted) (path : List String) :
    (deleteBucketStepwise limits bucket state).2.tree.file? path = state.tree.file? path := by
  rcases deleteBucketStepwise_tree limits bucket state with same | ⟨empty, cleared⟩
  · rw [same]
  · exact cleared.pruned.file? (isEmptyDir_true rooted empty) path

theorem deleteBucketStepwise_staging (limits : CallLimits) (bucket : String) (state : LocalState) :
    (deleteBucketStepwise limits bucket state).2.staging = state.staging := by
  unfold deleteBucketStepwise
  split
  · rfl
  · split
    · rfl
    · rfl
    · split
      · rfl
      · rfl

/-- An error other than one of the removal leaves the tree as it was. -/
theorem deleteBucketStepwise_refused {failure : Failure}
    (failed : deleteBucketStepwise limits bucket state = (.error failure, state'))
    (before : ∀ error, failure ≠ removalFailure error) : state'.tree = state.tree := by
  unfold deleteBucketStepwise at failed
  split at failed
  · cases failed
  · split at failed
    · rename_i asked
      cases failed
      exact isEmptyDir_answer_tree asked
    · rename_i asked
      cases failed
      exact isEmptyDir_answer_tree asked
    · split at failed
      · cases failed
      · rename_i error _ _
        cases failed
        exact absurd rfl (before error)

/-- The deletion in one step, which requests run against, is this one where no error stops it: both
leave the same tree. -/
theorem deleteBucketStepwise_agrees (rooted : state.tree.Rooted)
    (done : (deleteBucketStepwise limits bucket state).1 = .ok ()) :
    (deleteBucket bucket state).1 = .ok () ∧
      ∀ path, (deleteBucketStepwise limits bucket state).2.tree.node? path =
        (deleteBucket bucket state).2.tree.node? path := by
  unfold deleteBucket
  by_cases there : state.tree.isDirectory [bucket] = true
  · have empty := deleteBucketStepwise_ok rooted there done
    have unfilled : ¬ state.tree.hasFileBelow [bucket] = true := by
      rw [FileTree.hasFileBelow_iff (List.cons_ne_nil _ _)]
      rintro ⟨other, below, file⟩
      exact file (empty other below)
    rw [if_neg (by rw [there]; decide), if_neg unfilled]
    refine ⟨rfl, fun path => ?_⟩
    rw [FileTree.node?_removeTree _ (List.cons_ne_nil _ _)]
    unfold deleteBucketStepwise at done ⊢
    rw [if_neg (by rw [there]; decide)] at done ⊢
    split at done
    · cases done
    · cases done
    · rename_i disk asked
      have kept : disk.tree = state.tree := isEmptyDir_answer_tree asked
      have cleared := Disk.rmtree_cleared limits.removal [bucket] disk
      split at done
      · rename_i after removed
        have gone : [bucket] <+: path →
            (Disk.rmtree limits.removal [bucket] disk).2.tree.node? path = none :=
          fun below => Disk.rmtree_gone (kept ▸ rooted) (congrArg Prod.fst removed) below
        rw [removed] at cleared gone
        change after.tree.node? path = _
        split
        · rename_i below
          exact gone below
        · rename_i beside
          rcases cleared.pruned path with same | ⟨below, _⟩
          · rw [same, kept]
          · exact absurd below beside
      · cases done
  · have absent : state.tree.isDirectory [bucket] = false := Bool.eq_false_iff.mpr there
    unfold deleteBucketStepwise
    rw [if_pos absent, if_pos absent]
    exact ⟨rfl, fun _ => rfl⟩

/-- What the steps find in use, the deletion in one step refuses too. -/
theorem deleteBucketStepwise_notEmpty
    (refused : (deleteBucketStepwise limits bucket state).1 = .error (.api (.bucketNotEmpty bucket))) :
    (deleteBucket bucket state).1 = .error (.api (.bucketNotEmpty bucket)) := by
  unfold deleteBucketStepwise at refused
  split at refused
  · cases refused
  · rename_i there
    split at refused
    · rename_i error _ _
      cases error <;> cases refused
    · rename_i after asked
      have filled : state.tree.hasFileBelow [bucket] = true := by
        have some_ := isEmptyDir_false (congrArg Prod.fst asked)
        rw [FileTree.hasFileBelow_iff (List.cons_ne_nil _ _)]
        by_contra none_
        refine some_ fun below within => ?_
        by_contra file
        exact none_ ⟨below, within, file⟩
      rw [deleteBucket, if_neg there, if_pos filled]
    · split at refused
      · cases refused
      · rename_i error _ _
        cases error <;> cases refused

end Deletion

end LocalStorageAdapter

end PyUploadX
