import Mathlib.Data.List.AList
import Mathlib.Tactic.Common

/-! A finite tree of directories and regular files without links, with the
system calls `mkdir -p`, `open(…, "wb")`, `rename` and `unlink`. -/
namespace Kit

inductive Errno
  | noEntry
  | exists
  | notDirectory
  | isDirectory
  | io
  deriving DecidableEq, Repr

inductive Node (β : Type)
  | directory
  | file (content : β)
  deriving DecidableEq, Repr

/-- Paths are the names from the root down; the root itself always exists. -/
structure FileTree (κ β : Type) where
  entries : AList (fun _ : List κ => Node β)

namespace FileTree

variable {κ β : Type} [DecidableEq κ]

def empty : FileTree κ β := ⟨∅⟩

def node? (tree : FileTree κ β) (path : List κ) : Option (Node β) :=
  if path = [] then some .directory else tree.entries.lookup path

def file? (tree : FileTree κ β) (path : List κ) : Option β :=
  match tree.node? path with
  | some (.file content) => some content
  | _ => none

def isDirectory (tree : FileTree κ β) (path : List κ) : Bool :=
  match tree.node? path with
  | some .directory => true
  | _ => false

def set (tree : FileTree κ β) (path : List κ) (node : Node β) : FileTree κ β :=
  ⟨tree.entries.insert path node⟩

def remove (tree : FileTree κ β) (path : List κ) : FileTree κ β :=
  ⟨tree.entries.erase path⟩

/-- `os.stat` succeeds: files and directories alike. -/
def exists? (tree : FileTree κ β) (path : List κ) : Bool := (tree.node? path).isSome

/-- `Path.mkdir(parents=True, exist_ok=True)`, from the outermost name inwards. -/
def mkdirFrom (tree : FileTree κ β) (base : List κ) : List κ → Except Errno (FileTree κ β)
  | [] => .ok tree
  | name :: rest =>
    match tree.node? (base ++ [name]) with
    | none => mkdirFrom (tree.set (base ++ [name]) .directory) (base ++ [name]) rest
    | some .directory => mkdirFrom tree (base ++ [name]) rest
    | some (.file _) => .error (if rest = [] then .exists else .notDirectory)

def mkdirParents (tree : FileTree κ β) (path : List κ) : Except Errno (FileTree κ β) :=
  tree.mkdirFrom [] path

/-- Create or truncate a regular file and fill it. -/
def writeFile (tree : FileTree κ β) (path : List κ) (content : β) :
    Except Errno (FileTree κ β) :=
  match tree.node? path with
  | some .directory => .error .isDirectory
  | _ =>
    match tree.node? path.dropLast with
    | some .directory => .ok (tree.set path (.file content))
    | some (.file _) => .error .notDirectory
    | none => .error .noEntry

/-- `os.replace` of a regular file. -/
def replace (tree : FileTree κ β) (source target : List κ) : Except Errno (FileTree κ β) :=
  match tree.node? source with
  | some (.file content) =>
    match tree.node? target with
    | some .directory => .error .isDirectory
    | _ => .ok ((tree.remove source).set target (.file content))
  | some .directory => .error .isDirectory
  | none => .error .noEntry

/-- Some proper prefix of the path is a regular file. -/
def blocked (tree : FileTree κ β) (path : List κ) : Bool :=
  path.dropLast.inits.any fun ancestor => (tree.file? ancestor).isSome

/-- `Path.unlink(missing_ok=True)`. -/
def unlink (tree : FileTree κ β) (path : List κ) : Except Errno (FileTree κ β) :=
  match tree.node? path with
  | some (.file _) => .ok (tree.remove path)
  | some .directory => .error .isDirectory
  | none => if tree.blocked path then .error .notDirectory else .ok tree

/-- A regular file at the path or anywhere below it. -/
def hasFileBelow (tree : FileTree κ β) (path : List κ) : Bool :=
  tree.entries.entries.any fun entry =>
    path.isPrefixOf entry.1 && match entry.2 with
      | .file _ => true
      | .directory => false

/-- `shutil.rmtree`. -/
def removeTree (tree : FileTree κ β) (path : List κ) : FileTree κ β :=
  ⟨(tree.entries.keys.filter path.isPrefixOf).foldl (fun entries key => entries.erase key)
    tree.entries⟩

/-! Lookups after an update. -/

theorem node?_set_self (tree : FileTree κ β) {path : List κ} (inside : path ≠ []) (node : Node β) :
    (tree.set path node).node? path = some node := by
  simp [node?, set, inside]

theorem node?_set_of_ne (tree : FileTree κ β) {path other : List κ} (different : other ≠ path)
    (node : Node β) : (tree.set path node).node? other = tree.node? other := by
  simp [node?, set, AList.lookup_insert_ne different]

theorem node?_remove_self (tree : FileTree κ β) {path : List κ} (inside : path ≠ []) :
    (tree.remove path).node? path = none := by
  simp [node?, remove, inside]

theorem node?_remove_of_ne (tree : FileTree κ β) {path other : List κ} (different : other ≠ path) :
    (tree.remove path).node? other = tree.node? other := by
  simp [node?, remove, AList.lookup_erase_ne different]

theorem file?_congr {tree tree' : FileTree κ β} {path : List κ}
    (same : tree'.node? path = tree.node? path) : tree'.file? path = tree.file? path := by
  simp [file?, same]

theorem file?_eq_some {tree : FileTree κ β} {path : List κ} {content : β} :
    tree.file? path = some content ↔ tree.node? path = some (.file content) := by
  unfold file?
  split <;> simp_all

theorem file?_eq_none {tree : FileTree κ β} {path : List κ} :
    tree.file? path = none ↔ tree.node? path = none ∨ tree.node? path = some .directory := by
  unfold file?
  rcases tree.node? path with _ | _ | _ <;> simp

theorem file?_set_file (tree : FileTree κ β) {path : List κ} (inside : path ≠ []) (content : β) :
    (tree.set path (.file content)).file? path = some content :=
  file?_eq_some.mpr (tree.node?_set_self inside _)

theorem file?_set_of_ne (tree : FileTree κ β) {path other : List κ} (different : other ≠ path)
    (node : Node β) : (tree.set path node).file? other = tree.file? other :=
  file?_congr (tree.node?_set_of_ne different node)

theorem file?_remove_of_ne (tree : FileTree κ β) {path other : List κ} (different : other ≠ path) :
    (tree.remove path).file? other = tree.file? other :=
  file?_congr (tree.node?_remove_of_ne different)

theorem file?_remove_self (tree : FileTree κ β) (path : List κ) :
    (tree.remove path).file? path = none := by
  by_cases root : path = []
  · subst root; rfl
  · exact file?_eq_none.mpr (.inl (tree.node?_remove_self root))

theorem exists?_of_file {tree : FileTree κ β} {path : List κ} {content : β}
    (stored : tree.file? path = some content) : tree.exists? path = true := by
  simp [exists?, file?_eq_some.mp stored]

/-! What each system call changes. -/

/-- `mkdir -p` only fills in missing names, none of them longer than the path asked for. -/
theorem mkdirFrom_node? {names base : List κ} {tree tree' : FileTree κ β}
    (made : tree.mkdirFrom base names = .ok tree') (path : List κ) :
    tree'.node? path = tree.node? path ∨
      (tree.node? path = none ∧ tree'.node? path = some .directory ∧
        path.length ≤ base.length + names.length) := by
  induction names generalizing base tree with
  | nil => cases made; exact .inl rfl
  | cons name rest ih =>
    have shift : (base ++ [name]).length + rest.length = base.length + (name :: rest).length := by
      simp only [List.length_append, List.length_cons, List.length_nil]; omega
    unfold mkdirFrom at made
    split at made
    · rename_i missing
      have inside : base ++ [name] ≠ [] := by simp
      have kept := ih made
      rw [shift] at kept
      by_cases same : path = base ++ [name]
      · subst same
        rw [node?_set_self _ inside] at kept
        rcases kept with kept | ⟨absurd', _, _⟩
        · refine .inr ⟨missing, kept, ?_⟩
          simp only [List.length_append, List.length_cons, List.length_nil]; omega
        · cases absurd'
      · rwa [node?_set_of_ne _ same] at kept
    · have kept := ih made
      rwa [shift] at kept
    · cases made

theorem mkdirParents_file? {tree tree' : FileTree κ β} {target : List κ}
    (made : tree.mkdirParents target = .ok tree') (path : List κ) :
    tree'.file? path = tree.file? path := by
  rcases mkdirFrom_node? made path with same | ⟨missing, directory, _⟩
  · exact file?_congr same
  · rw [file?_eq_none.mpr (.inl missing), file?_eq_none.mpr (.inr directory)]

theorem mkdirParents_deeper {tree tree' : FileTree κ β} {target path : List κ}
    (made : tree.mkdirParents target = .ok tree') (deeper : target.length < path.length) :
    tree'.node? path = tree.node? path := by
  rcases mkdirFrom_node? made path with same | ⟨_, _, bounded⟩
  · exact same
  · simp only [List.length_nil, Nat.zero_add] at bounded; omega

theorem mkdirFrom_directory {names base : List κ} {tree tree' : FileTree κ β}
    (made : tree.mkdirFrom base names = .ok tree') (start : tree.node? base = some .directory) :
    tree'.node? (base ++ names) = some .directory := by
  induction names generalizing base tree with
  | nil => cases made; simpa using start
  | cons name rest ih =>
    unfold mkdirFrom at made
    split at made
    · simpa using ih made (node?_set_self _ (by simp) _)
    · rename_i there
      simpa using ih made there
    · cases made

theorem mkdirParents_directory {tree tree' : FileTree κ β} {target : List κ}
    (made : tree.mkdirParents target = .ok tree') : tree'.node? target = some .directory := by
  simpa using mkdirFrom_directory made (by simp [node?])

theorem writeFile_eq_ok {tree tree' : FileTree κ β} {path : List κ} {content : β} :
    tree.writeFile path content = .ok tree' ↔
      tree.node? path ≠ some .directory ∧ tree.node? path.dropLast = some .directory ∧
        tree' = tree.set path (.file content) := by
  unfold writeFile
  rcases tree.node? path with _ | _ | _ <;>
    rcases tree.node? path.dropLast with _ | _ | _ <;> simp [eq_comm]

theorem replace_eq_ok {tree tree' : FileTree κ β} {source target : List κ} :
    tree.replace source target = .ok tree' ↔
      ∃ content, tree.node? source = some (.file content) ∧
        tree.node? target ≠ some .directory ∧
        tree' = (tree.remove source).set target (.file content) := by
  unfold replace
  rcases tree.node? source with _ | _ | _ <;>
    rcases tree.node? target with _ | _ | _ <;> simp [eq_comm]

theorem unlink_file? {tree tree' : FileTree κ β} {path : List κ}
    (done : tree.unlink path = .ok tree') (other : List κ) :
    tree'.file? other = if other = path then none else tree.file? other := by
  unfold unlink at done
  split at done
  · cases done
    by_cases same : other = path
    · simp [same, file?_remove_self]
    · simp [same, file?_remove_of_ne tree same]
  · cases done
  · rename_i missing
    split at done
    · cases done
    · cases done
      by_cases same : other = path
      · simp [same, file?_eq_none.mpr (.inl missing)]
      · simp [same]

theorem writeFile_file? {tree tree' : FileTree κ β} {path : List κ} {content : β}
    (written : tree.writeFile path content = .ok tree') {other : List κ}
    (different : other ≠ path) : tree'.file? other = tree.file? other := by
  obtain ⟨_, _, rfl⟩ := writeFile_eq_ok.mp written
  exact file?_set_of_ne tree different _

theorem replace_file? {tree tree' : FileTree κ β} {source target : List κ}
    (replaced : tree.replace source target = .ok tree') {other : List κ}
    (notSource : other ≠ source) (notTarget : other ≠ target) :
    tree'.file? other = tree.file? other := by
  obtain ⟨content, _, _, rfl⟩ := replace_eq_ok.mp replaced
  rw [file?_set_of_ne _ notTarget, file?_remove_of_ne _ notSource]

theorem removeTree_lookup (keys : List (List κ)) (entries : AList fun _ : List κ => Node β)
    (other : List κ) :
    (keys.foldl (fun entries key => entries.erase key) entries).lookup other =
      if other ∈ keys then none else entries.lookup other := by
  induction keys generalizing entries with
  | nil => simp
  | cons key rest ih =>
    rw [List.foldl_cons, ih]
    by_cases same : other = key
    · subst same
      simp
    · simp [same, AList.lookup_erase_ne same]

/-- A directory without files can go: no file is lost. -/
theorem removeTree_file? {tree : FileTree κ β} {path : List κ}
    (empty : tree.hasFileBelow path = false) (other : List κ) :
    (tree.removeTree path).file? other = tree.file? other := by
  by_cases root : other = []
  · subst root; rfl
  · by_cases inside : other ∈ tree.entries.keys.filter path.isPrefixOf
    · have gone : (tree.removeTree path).node? other = none := by
        simp only [node?, removeTree, if_neg root]
        rw [removeTree_lookup, if_pos inside]
      rw [file?_eq_none.mpr (.inl gone)]
      symm
      cases stored : tree.file? other with
      | none => rfl
      | some content =>
        have node := file?_eq_some.mp stored
        simp only [node?, if_neg root] at node
        have member := AList.mem_lookup_iff.mp node
        obtain ⟨_, below⟩ := List.mem_filter.mp inside
        have found : tree.hasFileBelow path = true :=
          List.any_eq_true.mpr ⟨_, member, by simpa using below⟩
        rw [empty] at found
        cases found
    · have kept : (tree.removeTree path).node? other = tree.node? other := by
        simp only [node?, removeTree, if_neg root]
        rw [removeTree_lookup, if_neg inside]
      exact file?_congr kept

end FileTree

end Kit
