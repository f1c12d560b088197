import Mathlib.Data.List.Induction
import PyUploadX.Kit.FileTree

/-! A directory tree read and removed by recursion over its entries, where every system call on
the way may fail. -/
namespace Kit

namespace FileTree

variable {κ β : Type} [DecidableEq κ]

/-- The entries of a directory, by their paths. -/
def children (tree : FileTree κ β) (path : List κ) : List (List κ) :=
  tree.entries.keys.filter fun key => decide (key ≠ [] ∧ key.dropLast = path)

/-- Whatever exists lies in a directory. -/
def Rooted (tree : FileTree κ β) : Prop :=
  ∀ path, path ≠ [] → tree.node? path ≠ none → tree.node? path.dropLast = some .directory

/-- `os.scandir`. -/
def readdir (tree : FileTree κ β) (path : List κ) : Except Errno (List (List κ)) :=
  match tree.node? path with
  | some .directory => .ok (tree.children path)
  | some (.file _) => .error .notDirectory
  | none => .error .noEntry

/-- `os.rmdir`, which takes an empty directory only. -/
def rmdir (tree : FileTree κ β) (path : List κ) : Except Errno (FileTree κ β) :=
  match tree.node? path with
  | some .directory =>
    if path = [] ∨ tree.children path ≠ [] then .error .exists else .ok (tree.remove path)
  | some (.file _) => .error .notDirectory
  | none => .error .noEntry

theorem mem_children {tree : FileTree κ β} {path child : List κ} :
    child ∈ tree.children path ↔
      child ≠ [] ∧ child.dropLast = path ∧ tree.node? child ≠ none := by
  unfold children node?
  rw [List.mem_filter, decide_eq_true_eq]
  constructor
  · rintro ⟨listed, inside, parent⟩
    rw [if_neg inside]
    exact ⟨inside, parent, Option.isSome_iff_ne_none.mp (AList.lookup_isSome.mpr listed)⟩
  · rintro ⟨inside, parent, there⟩
    rw [if_neg inside] at there
    exact ⟨AList.lookup_isSome.mp (Option.isSome_iff_ne_none.mpr there), inside, parent⟩

theorem readdir_eq_ok {tree : FileTree κ β} {path : List κ} {found : List (List κ)} :
    tree.readdir path = .ok found ↔
      tree.node? path = some .directory ∧ found = tree.children path := by
  unfold readdir
  rcases tree.node? path with _ | _ | _ <;> simp [eq_comm]

theorem rmdir_eq_ok {tree tree' : FileTree κ β} {path : List κ} :
    tree.rmdir path = .ok tree' ↔
      tree.node? path = some .directory ∧ path ≠ [] ∧ tree.children path = [] ∧
        tree' = tree.remove path := by
  unfold rmdir
  rcases tree.node? path with _ | _ | _
  · simp
  · simp only
    split_ifs with kept
    · simp only [false_iff, not_and]
      intro _ inside empty
      rcases kept with root | filled
      · exact absurd root inside
      · exact absurd empty filled
    · obtain ⟨inside, empty⟩ := not_or.mp kept
      simp [inside, not_not.mp empty, eq_comm]
  · simp

theorem isDirectory_iff {tree : FileTree κ β} {path : List κ} :
    tree.isDirectory path = true ↔ tree.node? path = some .directory := by
  unfold isDirectory
  rcases tree.node? path with _ | _ | _ <;> simp

namespace Rooted

variable {tree : FileTree κ β}

/-- Above whatever exists there are directories all the way. -/
theorem above (rooted : tree.Rooted) {path rest : List κ} (below : rest ≠ [])
    (there : tree.node? (path ++ rest) ≠ none) : tree.node? path = some .directory := by
  induction rest using List.reverseRecOn with
  | nil => exact absurd rfl below
  | append_singleton front last ih =>
    have parent := rooted (path ++ (front ++ [last])) (by simp) there
    rw [← List.append_assoc, List.dropLast_concat] at parent
    by_cases direct : front = []
    · rwa [direct, List.append_nil] at parent
    · exact ih direct (by rw [parent]; simp)

/-- Below a directory without entries there is nothing. -/
theorem childless (rooted : tree.Rooted) {path : List κ} (empty : tree.children path = [])
    {rest : List κ} (below : rest ≠ []) : tree.node? (path ++ rest) = none := by
  obtain ⟨name, later, rfl⟩ := List.exists_cons_of_ne_nil below
  by_contra there
  have split : path ++ name :: later = (path ++ [name]) ++ later := by simp
  have child : tree.node? (path ++ [name]) ≠ none := by
    by_cases last : later = []
    · rwa [last] at there
    · rw [split] at there
      rw [rooted.above last there]
      simp
  have listed : path ++ [name] ∈ tree.children path :=
    mem_children.mpr ⟨by simp, List.dropLast_concat, child⟩
  rw [empty] at listed
  cases listed

theorem remove (rooted : tree.Rooted) {path : List κ}
    (empty : tree.children path = []) : (tree.remove path).Rooted := by
  intro other inside there
  by_cases same : other = path
  · subst same
    exact absurd (node?_remove_self tree inside) there
  · rw [node?_remove_of_ne _ same] at there
    have parent := rooted other inside there
    by_cases direct : other.dropLast = path
    · have listed := mem_children.mpr ⟨inside, direct, there⟩
      rw [empty] at listed
      cases listed
    · rwa [node?_remove_of_ne _ direct]

theorem empty : (FileTree.empty : FileTree κ β).Rooted := by
  intro path inside there
  exact absurd (if_neg inside) there

theorem addDirectory (rooted : tree.Rooted) {path : List κ} (inside : path ≠ [])
    (parent : tree.node? path.dropLast = some .directory) :
    (tree.set path .directory).Rooted := by
  have kept : ∀ other, tree.node? other = some .directory →
      (tree.set path .directory).node? other = some .directory := by
    intro other directory
    by_cases same : other = path
    · rw [same, node?_set_self _ inside]
    · rwa [node?_set_of_ne _ same]
  intro other deeper there
  by_cases same : other = path
  · subst same
    exact kept _ parent
  · rw [node?_set_of_ne _ same] at there
    exact kept _ (rooted other deeper there)

theorem file_childless (rooted : tree.Rooted) {path : List κ} {content : β}
    (file : tree.node? path = some (.file content)) : tree.children path = [] := by
  rw [List.eq_nil_iff_forall_not_mem]
  intro child listed
  obtain ⟨inside, rfl, there⟩ := mem_children.mp listed
  rw [rooted child inside there] at file
  cases file

end Rooted

/-- Nodes at the path and below it are gone; nothing else has changed. -/
def Pruned (path : List κ) (before after : FileTree κ β) : Prop :=
  ∀ other, after.node? other = before.node? other ∨ (path <+: other ∧ after.node? other = none)

namespace Pruned

variable {path : List κ} {first second third : FileTree κ β}

theorem refl (path : List κ) (tree : FileTree κ β) : Pruned path tree tree := fun _ => .inl rfl

theorem trans (before : Pruned path first second) (after : Pruned path second third) :
    Pruned path first third := by
  intro other
  rcases after other with same | gone
  · rcases before other with same_ | gone
    · exact .inl (same.trans same_)
    · exact .inr ⟨gone.1, same.trans gone.2⟩
  · exact .inr gone

theorem widen {inner : List κ} (pruned : Pruned inner first second) (within : path <+: inner) :
    Pruned path first second :=
  fun other => (pruned other).imp_right fun gone => ⟨within.trans gone.1, gone.2⟩

theorem remove (tree : FileTree κ β) {path : List κ} (inside : path ≠ []) :
    Pruned path tree (tree.remove path) := by
  intro other
  by_cases same : other = path
  · subst same
    exact .inr ⟨List.prefix_rfl, node?_remove_self tree inside⟩
  · exact .inl (node?_remove_of_ne tree same)

/-- Where there were no files, none is lost. -/
theorem file? (pruned : Pruned path first second)
    (empty : ∀ other, path <+: other → first.file? other = none) (other : List κ) :
    second.file? other = first.file? other := by
  rcases pruned other with same | ⟨below, gone⟩
  · exact file?_congr same
  · rw [empty other below]
    exact file?_eq_none.mpr (.inl gone)

end Pruned

theorem hasFileBelow_iff {tree : FileTree κ β} {path : List κ} (inside : path ≠ []) :
    tree.hasFileBelow path = true ↔ ∃ other, path <+: other ∧ tree.file? other ≠ none := by
  have stored : ∀ other content, path <+: other →
      (tree.file? other = some content ↔ ⟨other, .file content⟩ ∈ tree.entries.entries) := by
    intro other content below
    have deeper : other ≠ [] := by
      rintro rfl
      exact inside (List.prefix_nil.mp below)
    rw [file?_eq_some, node?, if_neg deeper, ← AList.mem_lookup_iff]
    rfl
  unfold hasFileBelow
  rw [List.any_eq_true]
  constructor
  · rintro ⟨⟨other, node⟩, listed, found⟩
    obtain ⟨below, file⟩ := Bool.and_eq_true_iff.mp found
    have within := List.isPrefixOf_iff_prefix.mp below
    cases node with
    | directory => cases file
    | file content =>
      refine ⟨other, within, ?_⟩
      rw [(stored other content within).mpr listed]
      simp
  · rintro ⟨other, below, there⟩
    obtain ⟨content, file⟩ := Option.ne_none_iff_exists'.mp there
    refine ⟨⟨other, .file content⟩, (stored other content below).mp file, ?_⟩
    rw [List.isPrefixOf_iff_prefix.mpr below]
    rfl

theorem node?_removeTree (tree : FileTree κ β) {path : List κ} (inside : path ≠ [])
    (other : List κ) :
    (tree.removeTree path).node? other = if path <+: other then none else tree.node? other := by
  by_cases root : other = []
  · subst root
    rw [if_neg fun below => inside (List.prefix_nil.mp below)]
    rfl
  · simp only [node?, removeTree, if_neg root]
    rw [removeTree_lookup]
    by_cases below : path <+: other
    · rw [if_pos below]
      split
      · rfl
      · rename_i unlisted
        have absent : other ∉ tree.entries.keys := fun listed =>
          unlisted (List.mem_filter.mpr ⟨listed, List.isPrefixOf_iff_prefix.mpr below⟩)
        exact AList.lookup_eq_none.mpr absent
    · rw [if_neg below, if_neg]
      intro listed
      exact below (List.isPrefixOf_iff_prefix.mp (List.mem_filter.mp listed).2)

end FileTree

inductive WalkError
  | os (errno : Errno)
  /-- More nested calls than fit on the stack. -/
  | recursion
  deriving DecidableEq, Repr

/-- A tree, and the errors to come: one entry for every system call, `some` if it fails. When the
list is used up, no more errors occur. -/
structure Disk (κ β φ : Type) where
  tree : FileTree κ β
  faults : List (Option φ)

namespace Disk

variable {κ β φ α : Type} [DecidableEq κ]

/-- A system call, which may fail and then has no effect. -/
def call (act : FileTree κ β → Except Errno (α × FileTree κ β)) (disk : Disk κ β φ) :
    Except WalkError α × Disk κ β φ :=
  match disk.faults with
  | some _ :: rest => (.error (.os .io), { disk with faults := rest })
  | faults =>
    match act disk.tree with
    | .error errno => (.error (.os errno), { disk with faults := faults.tail })
    | .ok (value, tree) => (.ok value, { tree, faults := faults.tail })

/-- Ask a question of each path in turn, up to the first that is not answered with yes. -/
def everyOf (check : List κ → Disk κ β φ → Except WalkError Bool × Disk κ β φ) :
    List (List κ) → Disk κ β φ → Except WalkError Bool × Disk κ β φ
  | [], disk => (.ok true, disk)
  | path :: rest, disk =>
    match check path disk with
    | (.ok true, disk) => everyOf check rest disk
    | stopped => stopped

/-- Do something at each path in turn, up to the first error. -/
def forEach (act : List κ → Disk κ β φ → Except WalkError Unit × Disk κ β φ) :
    List (List κ) → Disk κ β φ → Except WalkError Unit × Disk κ β φ
  | [], disk => (.ok (), disk)
  | path :: rest, disk =>
    match act path disk with
    | (.ok (), disk) => forEach act rest disk
    | stopped => stopped

def readdir (path : List κ) : Disk κ β φ → Except WalkError (List (List κ)) × Disk κ β φ :=
  call fun tree => (tree.readdir path).map fun found => (found, tree)

def unlink (path : List κ) : Disk κ β φ → Except WalkError Unit × Disk κ β φ :=
  call fun tree => (tree.unlink path).map fun tree => ((), tree)

def rmdir (path : List κ) : Disk κ β φ → Except WalkError Unit × Disk κ β φ :=
  call fun tree => (tree.rmdir path).map fun tree => ((), tree)

/-- `shutil.rmtree`: what is in the directory first, then the directory. So many nested calls
fit on the stack. -/
def rmtree : Nat → List κ → Disk κ β φ → Except WalkError Unit × Disk κ β φ
  | 0, _, disk => (.error .recursion, disk)
  | limit + 1, path, disk =>
    match readdir path disk with
    | (.error error, disk) => (.error error, disk)
    | (.ok found, disk) =>
      match forEach (fun child disk => if disk.tree.isDirectory child then rmtree limit child disk
          else unlink child disk) found disk with
      | (.error error, disk) => (.error error, disk)
      | (.ok (), disk) => rmdir path disk

section Calls

variable {act : FileTree κ β → Except Errno (α × FileTree κ β)} {disk : Disk κ β φ}

omit [DecidableEq κ] in
theorem call_eq_ok {value : α} (done : (call act disk).1 = .ok value) :
    act disk.tree = .ok (value, (call act disk).2.tree) := by
  unfold call at done ⊢
  split at done
  · cases done
  · rename_i faults calm
    split at done
    · cases done
    · rename_i found tree ran
      cases done
      simp only [ran]

omit [DecidableEq κ] in
theorem call_error {error : WalkError} (failed : (call act disk).1 = .error error) :
    (call act disk).2.tree = disk.tree := by
  unfold call at failed ⊢
  split
  · rfl
  · split
    · rfl
    · rename_i ran
      simp only [ran] at failed
      cases failed

omit [DecidableEq κ] in
/-- A system call changes the tree as it says, or not at all. -/
theorem call_tree (act : FileTree κ β → Except Errno (α × FileTree κ β)) (disk : Disk κ β φ) :
    (call act disk).2.tree = disk.tree ∨
      ∃ value, act disk.tree = .ok (value, (call act disk).2.tree) := by
  cases outcome : (call act disk).1 with
  | error error => exact .inl (call_error outcome)
  | ok value => exact .inr ⟨value, call_eq_ok outcome⟩

theorem readdir_tree (path : List κ) (disk : Disk κ β φ) :
    (readdir path disk).2.tree = disk.tree := by
  rcases call_tree (fun tree : FileTree κ β => (tree.readdir path).map fun found => (found, tree))
    disk with same | ⟨found, ran⟩
  · exact same
  · cases listed : disk.tree.readdir path with
    | error errno =>
      rw [listed] at ran
      cases ran
    | ok found_ =>
      rw [listed] at ran
      exact ((Prod.mk.inj (Except.ok.inj ran)).2).symm

theorem readdir_eq_ok {path : List κ} {found : List (List κ)}
    (done : (readdir path disk).1 = .ok found) :
    disk.tree.node? path = some .directory ∧ found = disk.tree.children path := by
  have ran := call_eq_ok done
  cases listed : disk.tree.readdir path with
  | error errno =>
    rw [listed] at ran
    cases ran
  | ok found_ =>
    rw [listed] at ran
    cases (Prod.mk.inj (Except.ok.inj ran)).1
    exact FileTree.readdir_eq_ok.mp listed

theorem rmdir_eq_ok {path : List κ} (done : (rmdir path disk).1 = .ok ()) :
    disk.tree.rmdir path = .ok (rmdir path disk).2.tree := by
  have ran := call_eq_ok done
  cases removed : disk.tree.rmdir path with
  | error errno =>
    rw [removed] at ran
    cases ran
  | ok tree =>
    rw [removed] at ran
    exact congrArg Except.ok (Prod.mk.inj (Except.ok.inj ran)).2

end Calls

section Loops

variable {check : List κ → Disk κ β φ → Except WalkError Bool × Disk κ β φ}
  {act : List κ → Disk κ β φ → Except WalkError Unit × Disk κ β φ}

omit [DecidableEq κ] in
theorem everyOf_tree (reads : ∀ path disk, (check path disk).2.tree = disk.tree)
    (paths : List (List κ)) (disk : Disk κ β φ) :
    (everyOf check paths disk).2.tree = disk.tree := by
  induction paths generalizing disk with
  | nil => rfl
  | cons path rest ih =>
    have first := reads path disk
    unfold everyOf
    split
    · rename_i asked answer
      rw [answer] at first
      rw [ih, first]
    · exact first

omit [DecidableEq κ] in
/-- Each path was asked about, in the tree as it was. -/
theorem everyOf_true (reads : ∀ path disk, (check path disk).2.tree = disk.tree)
    {paths : List (List κ)} {disk : Disk κ β φ} (yes : (everyOf check paths disk).1 = .ok true)
    {path : List κ} (member : path ∈ paths) :
    ∃ asked : Disk κ β φ, asked.tree = disk.tree ∧ (check path asked).1 = .ok true := by
  induction paths generalizing disk with
  | nil => cases member
  | cons first rest ih =>
    have kept := reads first disk
    unfold everyOf at yes
    split at yes
    · rename_i after answer
      rw [answer] at kept
      rcases List.mem_cons.mp member with rfl | later
      · exact ⟨disk, rfl, by rw [answer]⟩
      · obtain ⟨asked, same, answered⟩ := ih yes later
        exact ⟨asked, same.trans kept, answered⟩
    · rename_i other
      exact (other _ (Prod.ext yes rfl)).elim

omit [DecidableEq κ] in
theorem everyOf_false (reads : ∀ path disk, (check path disk).2.tree = disk.tree)
    {paths : List (List κ)} {disk : Disk κ β φ} (no : (everyOf check paths disk).1 = .ok false) :
    ∃ path ∈ paths, ∃ asked : Disk κ β φ, asked.tree = disk.tree ∧
      (check path asked).1 = .ok false := by
  induction paths generalizing disk with
  | nil => cases no
  | cons first rest ih =>
    have kept := reads first disk
    unfold everyOf at no
    split at no
    · rename_i after answer
      rw [answer] at kept
      obtain ⟨path, later, asked, same, answered⟩ := ih no
      exact ⟨path, List.mem_cons_of_mem _ later, asked, same.trans kept, answered⟩
    · exact ⟨first, List.mem_cons_self, disk, rfl, no⟩

omit [DecidableEq κ] in
/-- What each action preserves, the loop preserves. -/
theorem forEach_preserves (holds : Disk κ β φ → Prop) {paths : List (List κ)}
    (step : ∀ path ∈ paths, ∀ disk, holds disk → holds (act path disk).2) {disk : Disk κ β φ}
    (start : holds disk) : holds (forEach act paths disk).2 := by
  induction paths generalizing disk with
  | nil => exact start
  | cons path rest ih =>
    have next := step path List.mem_cons_self disk start
    unfold forEach
    split
    · rename_i after done
      rw [done] at next
      exact ih (fun path member => step path (List.mem_cons_of_mem _ member)) next
    · exact next

end Loops

section Removal

/-- The tree has lost nodes at the path and below it only, and is a tree still. -/
structure Cleared (path : List κ) (before after : FileTree κ β) : Prop where
  pruned : FileTree.Pruned path before after
  rooted : before.Rooted → after.Rooted

namespace Cleared

variable {path : List κ} {first second third : FileTree κ β}

theorem refl (path : List κ) (tree : FileTree κ β) : Cleared path tree tree :=
  ⟨.refl path tree, id⟩

theorem trans (before : Cleared path first second) (after : Cleared path second third) :
    Cleared path first third :=
  ⟨before.pruned.trans after.pruned, fun rooted => after.rooted (before.rooted rooted)⟩

theorem widen {inner : List κ} (cleared : Cleared inner first second) (within : path <+: inner) :
    Cleared path first second :=
  ⟨cleared.pruned.widen within, cleared.rooted⟩

theorem unlink {tree tree' : FileTree κ β} (done : tree.unlink path = .ok tree') :
    Cleared path tree tree' := by
  unfold FileTree.unlink at done
  split at done
  · rename_i content file
    have inside : path ≠ [] := by
      rintro rfl
      cases file
    cases done
    exact ⟨.remove tree inside, fun rooted => rooted.remove (rooted.file_childless file)⟩
  · cases done
  · split at done
    · cases done
    · cases done
      exact .refl path tree

theorem rmdir {tree tree' : FileTree κ β} (done : tree.rmdir path = .ok tree') :
    Cleared path tree tree' := by
  obtain ⟨_, inside, empty, rfl⟩ := FileTree.rmdir_eq_ok.mp done
  exact ⟨.remove tree inside, fun rooted => rooted.remove empty⟩

theorem of_call {act : FileTree κ β → Except Errno (FileTree κ β)}
    (effect : ∀ tree tree', act tree = .ok tree' → Cleared path tree tree') (disk : Disk κ β φ) :
    Cleared path disk.tree
      (call (fun tree => (act tree).map fun tree => ((), tree)) disk).2.tree := by
  rcases call_tree (fun tree => (act tree).map fun tree => ((), tree)) disk with same | ⟨_, ran⟩
  · rw [same]
    exact .refl path disk.tree
  · cases outcome : act disk.tree with
    | error errno =>
      rw [outcome] at ran
      cases ran
    | ok tree =>
      rw [outcome] at ran
      have reached := (Prod.mk.inj (Except.ok.inj ran)).2
      rw [← reached]
      exact effect _ _ outcome

end Cleared

/-- One entry of a directory that is being removed. -/
def removeEntry (limit : Nat) (child : List κ) (disk : Disk κ β φ) :
    Except WalkError Unit × Disk κ β φ :=
  if disk.tree.isDirectory child then rmtree limit child disk else unlink child disk

theorem rmtree_succ (limit : Nat) (path : List κ) (disk : Disk κ β φ) :
    rmtree (limit + 1) path disk =
      match readdir path disk with
      | (.error error, disk) => (.error error, disk)
      | (.ok found, disk) =>
        match forEach (removeEntry limit) found disk with
        | (.error error, disk) => (.error error, disk)
        | (.ok (), disk) => rmdir path disk :=
  rfl

theorem entries_cleared {limit : Nat}
    (deeper : ∀ child (disk : Disk κ β φ), Cleared child disk.tree (rmtree limit child disk).2.tree)
    {path : List κ} {found : List (List κ)} (names : ∀ child ∈ found, path <+: child)
    (disk : Disk κ β φ) :
    Cleared path disk.tree (forEach (removeEntry limit) found disk).2.tree := by
  refine forEach_preserves (fun later => Cleared path disk.tree later.tree) ?_
    (Cleared.refl path disk.tree)
  intro child member later before
  refine before.trans ?_
  unfold removeEntry
  split
  · exact (deeper child later).widen (names child member)
  · exact (Cleared.of_call (fun _ _ => .unlink) later).widen (names child member)

theorem readdir_below {path : List κ} {found : List (List κ)} {disk after : Disk κ β φ}
    (listed : readdir path disk = (.ok found, after)) : ∀ child ∈ found, path <+: child := by
  intro child member
  rw [(readdir_eq_ok (congrArg Prod.fst listed)).2] at member
  obtain ⟨_, rfl, _⟩ := FileTree.mem_children.mp member
  exact List.dropLast_prefix child

/-- Whether it succeeds or fails half way, `shutil.rmtree` stays below its directory. -/
theorem rmtree_cleared (limit : Nat) (path : List κ) (disk : Disk κ β φ) :
    Cleared path disk.tree (rmtree limit path disk).2.tree := by
  induction limit generalizing path disk with
  | zero => exact .refl path disk.tree
  | succ limit ih =>
    have read := readdir_tree path disk
    rw [rmtree_succ]
    split
    · rename_i failed
      rw [failed] at read
      rw [read]
      exact .refl path disk.tree
    · rename_i found after listed
      have emptied := entries_cleared ih (readdir_below listed) after
      rw [listed] at read
      rw [read] at emptied
      split
      · rename_i failed
        rwa [failed] at emptied
      · rename_i done
        rw [done] at emptied
        exact emptied.trans (.of_call (fun _ _ => .rmdir) _)

/-- A directory that has been removed leaves nothing below it. -/
theorem rmtree_gone {limit : Nat} {path : List κ} {disk : Disk κ β φ} (rooted : disk.tree.Rooted)
    (done : (rmtree limit path disk).1 = .ok ()) {other : List κ} (below : path <+: other) :
    (rmtree limit path disk).2.tree.node? other = none := by
  cases limit with
  | zero => cases done
  | succ limit =>
    have read := readdir_tree path disk
    rw [rmtree_succ] at done ⊢
    split at done
    · cases done
    · rename_i found after listed
      have emptied := entries_cleared (rmtree_cleared limit) (readdir_below listed) after
      rw [listed] at read
      rw [read] at emptied
      split at done
      · cases done
      · rename_i last looped
        rw [looped] at emptied
        obtain ⟨_, inside, empty, removed⟩ := FileTree.rmdir_eq_ok.mp (rmdir_eq_ok done)
        rw [removed]
        obtain ⟨rest, rfl⟩ := below
        by_cases top : rest = []
        · rw [top, List.append_nil]
          exact FileTree.node?_remove_self _ inside
        · rw [FileTree.node?_remove_of_ne _ (by simpa using top)]
          exact (emptied.rooted rooted).childless empty top

end Removal

end Disk

end Kit
