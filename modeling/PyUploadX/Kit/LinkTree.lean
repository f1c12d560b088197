import Mathlib.Data.List.AList
import Mathlib.Data.List.Sort
import Mathlib.Tactic.Common

/-! A finite tree of directories, files and symbolic links, and the two ways a path is
followed in it: `realpath`, and the kernel's walk with its limit on links. -/
namespace Kit

/-- One component of a path as it is written; `here` is `.`, a doubled or a trailing slash. -/
inductive PathStep (κ : Type)
  | here
  | up
  | down (name : κ)
  deriving DecidableEq, Repr

/-- What `readlink` gives. -/
structure LinkTarget (κ : Type) where
  absolute : Bool
  steps : List (PathStep κ)
  deriving DecidableEq, Repr

/-- The directory a link's target is counted from. -/
def LinkTarget.start {κ : Type} (target : LinkTarget κ) (base : List κ) : List κ :=
  if target.absolute then [] else base

inductive LinkNode (κ β : Type)
  | directory
  | file (content : β)
  | link (target : LinkTarget κ)
  deriving DecidableEq, Repr

/-- Entries stand at their own paths, the names from the root down that no link is on; the
root itself always exists. -/
structure LinkTree (κ β : Type) where
  entries : AList (fun _ : List κ => LinkNode κ β)

namespace LinkTree

variable {κ β : Type} [DecidableEq κ]

/-- `lstat` of an entry's own path. -/
def node? (tree : LinkTree κ β) (path : List κ) : Option (LinkNode κ β) :=
  if path = [] then some .directory else tree.entries.lookup path

def link? (tree : LinkTree κ β) (path : List κ) : Option (LinkTarget κ) :=
  match tree.node? path with
  | some (.link target) => some target
  | _ => none

/-- The names in a directory. -/
def children (tree : LinkTree κ β) (directory : List κ) : List κ :=
  tree.entries.keys.filterMap fun path =>
    if path.dropLast = directory then path.getLast? else none

/-- The end of a path whose links are resolved by `enter`. A name with no entry stays as it is. -/
def resolveWith (tree : LinkTree κ β)
    (enter : List κ → List (PathStep κ) → Option (List κ)) :
    List κ → List (PathStep κ) → Option (List κ)
  | base, [] => some base
  | base, .here :: rest => resolveWith tree enter base rest
  | base, .up :: rest => resolveWith tree enter base.dropLast rest
  | base, .down name :: rest =>
    match tree.link? (base ++ [name]) with
    | none => resolveWith tree enter (base ++ [name]) rest
    | some target => do
      let middle ← enter (target.start base) target.steps
      resolveWith tree enter middle rest

/-- At most so many resolutions one inside the other, the outermost included. -/
def resolveWithin (tree : LinkTree κ β) : Nat → List κ → List (PathStep κ) → Option (List κ)
  | 0 => fun _ _ => none
  | depth + 1 => tree.resolveWith (tree.resolveWithin depth)

/-- `os.path.realpath` of an absolute path, where `none` is a loop: a link met inside its own
resolution. The others are at most as deep as there are entries. -/
def realpath (tree : LinkTree κ β) (steps : List (PathStep κ)) : Option (List κ) :=
  tree.resolveWithin (tree.entries.keys.length + 1) [] steps

/-- One stretch of the kernel's walk: it needs a directory at every component but the last, and
hands what is left over to `enter` at the first link. -/
def followWith (tree : LinkTree κ β)
    (enter : List κ → List (PathStep κ) → Option (List κ)) :
    List κ → List (PathStep κ) → Option (List κ)
  | base, [] => some base
  | base, .here :: rest => followWith tree enter base rest
  | base, .up :: rest => followWith tree enter base.dropLast rest
  | base, .down name :: rest =>
    match tree.node? (base ++ [name]) with
    | none => none
    | some .directory => followWith tree enter (base ++ [name]) rest
    | some (.file _) => if rest = [] then some (base ++ [name]) else none
    | some (.link target) => enter (target.start base) (target.steps ++ rest)

/-- The kernel's walk through at most so many links, where `ELOOP` and the other errors are
`none`. -/
def follow (tree : LinkTree κ β) : Nat → List κ → List (PathStep κ) → Option (List κ)
  | 0 => tree.followWith fun _ _ => none
  | links + 1 => tree.followWith (tree.follow links)

/-- The path leads from the directory to the real location. -/
inductive Resolves (tree : LinkTree κ β) : List κ → List (PathStep κ) → List κ → Prop
  | done {base : List κ} : Resolves tree base [] base
  | here {base real : List κ} {rest : List (PathStep κ)} :
      Resolves tree base rest real → Resolves tree base (.here :: rest) real
  | up {base real : List κ} {rest : List (PathStep κ)} :
      Resolves tree base.dropLast rest real → Resolves tree base (.up :: rest) real
  | plain {base real : List κ} {name : κ} {rest : List (PathStep κ)} :
      tree.link? (base ++ [name]) = none → Resolves tree (base ++ [name]) rest real →
      Resolves tree base (.down name :: rest) real
  | link {base middle real : List κ} {name : κ} {rest : List (PathStep κ)}
      {target : LinkTarget κ} :
      tree.link? (base ++ [name]) = some target →
      Resolves tree (target.start base) target.steps middle → Resolves tree middle rest real →
      Resolves tree base (.down name :: rest) real

/-- No link on the way to the path, nor at it. -/
def LinkFree (tree : LinkTree κ β) (path : List κ) : Prop :=
  ∀ leading, leading <+: path → tree.link? leading = none

variable {tree : LinkTree κ β}

section Links

theorem node?_of_link? {path : List κ} {target : LinkTarget κ}
    (link : tree.link? path = some target) : tree.node? path = some (.link target) := by
  unfold link? at link
  split at link
  · rename_i other found
    rw [found, Option.some.inj link]
  · cases link

theorem link?_of_node? {path : List κ} {node : LinkNode κ β} (found : tree.node? path = some node)
    (plain : ∀ target, node ≠ .link target) : tree.link? path = none := by
  unfold link?
  rw [found]
  cases node with
  | link target => exact absurd rfl (plain target)
  | directory => rfl
  | file content => rfl

theorem mem_keys_of_node? {path : List κ} {node : LinkNode κ β} (filled : path ≠ [])
    (found : tree.node? path = some node) : path ∈ tree.entries.keys := by
  unfold node? at found
  rw [if_neg filled] at found
  apply AList.lookup_isSome.mp
  rw [found]
  rfl

theorem mem_keys_of_link? {path : List κ} {target : LinkTarget κ}
    (link : tree.link? path = some target) : path ∈ tree.entries.keys := by
  have found := node?_of_link? link
  refine mem_keys_of_node? ?_ found
  rintro rfl
  unfold node? at found
  rw [if_pos rfl] at found
  cases found

theorem node?_of_mem_keys {path : List κ} (member : path ∈ tree.entries.keys) :
    ∃ node, tree.node? path = some node := by
  unfold node?
  split
  · exact ⟨.directory, rfl⟩
  · exact Option.isSome_iff_exists.mp (AList.lookup_isSome.mpr member)

theorem mem_children {directory : List κ} {name : κ} :
    name ∈ tree.children directory ↔ directory ++ [name] ∈ tree.entries.keys := by
  unfold children
  rw [List.mem_filterMap]
  constructor
  · rintro ⟨path, present, last⟩
    split at last
    · rename_i above
      obtain ⟨front, rfl⟩ := List.getLast?_eq_some_iff.mp last
      rw [List.dropLast_concat] at above
      rwa [← above]
    · cases last
  · intro present
    refine ⟨directory ++ [name], present, ?_⟩
    rw [if_pos List.dropLast_concat, List.getLast?_concat]

theorem nodup_children (tree : LinkTree κ β) (directory : List κ) :
    (tree.children directory).Nodup := by
  refine (AList.keys_nodup tree.entries).filterMap ?_
  intro path other name first second
  split at first
  · rename_i above
    split at second
    · rename_i beside
      obtain ⟨front, rfl⟩ := List.getLast?_eq_some_iff.mp first
      obtain ⟨behind, rfl⟩ := List.getLast?_eq_some_iff.mp second
      rw [List.dropLast_concat] at above beside
      rw [above, beside]
    · cases second
  · cases first

/-- No link is found where no entry is one. -/
theorem linkless_of_keys (each : ∀ path ∈ tree.entries.keys, tree.link? path = none)
    (path : List κ) : tree.link? path = none := by
  cases link : tree.link? path with
  | none => rfl
  | some target =>
    rw [← link]
    exact each path (mem_keys_of_link? link)

theorem link?_nil : tree.link? [] = none := by
  unfold link? node?
  rw [if_pos rfl]

theorem linkFree_nil : tree.LinkFree [] := by
  intro leading inside
  rw [List.prefix_nil.mp inside]
  exact link?_nil

theorem LinkFree.of_prefix {path leading : List κ} (free : tree.LinkFree path)
    (inside : leading <+: path) : tree.LinkFree leading :=
  fun _ before => free _ (before.trans inside)

theorem LinkFree.snoc {path : List κ} {name : κ} (free : tree.LinkFree path)
    (plain : tree.link? (path ++ [name]) = none) : tree.LinkFree (path ++ [name]) := by
  intro leading inside
  rcases List.prefix_concat_iff.mp inside with rfl | before
  · exact plain
  · exact free leading before

theorem LinkFree.start {base : List κ} (free : tree.LinkFree base) (target : LinkTarget κ) :
    tree.LinkFree (target.start base) := by
  unfold LinkTarget.start
  split
  · exact linkFree_nil
  · exact free

end Links

namespace Resolves

variable {base middle real other : List κ} {first second steps : List (PathStep κ)}

/-- No link is left in a real location. -/
theorem linkFree (resolves : tree.Resolves base steps real) (free : tree.LinkFree base) :
    tree.LinkFree real := by
  induction resolves with
  | done => exact free
  | here _ ih => exact ih free
  | up _ ih => exact ih (free.of_prefix (List.dropLast_prefix _))
  | plain absent _ ih => exact ih (free.snoc absent)
  | link _ _ _ into onward => exact onward (into (free.start _))

theorem unique (resolves : tree.Resolves base steps real)
    (again : tree.Resolves base steps other) : real = other := by
  induction resolves generalizing other with
  | done => cases again; rfl
  | here _ ih => cases again with | here again => exact ih again
  | up _ ih => cases again with | up again => exact ih again
  | plain absent _ ih =>
    cases again with
    | plain _ again => exact ih again
    | link present _ _ => rw [absent] at present; cases present
  | link present _ _ into onward =>
    cases again with
    | plain absent _ => rw [absent] at present; cases present
    | link same inner outer =>
      rw [present] at same
      cases same
      cases into inner
      exact onward outer

theorem append (resolves : tree.Resolves base first middle)
    (onward : tree.Resolves middle second real) : tree.Resolves base (first ++ second) real := by
  induction resolves with
  | done => exact onward
  | here _ ih => exact .here (ih onward)
  | up _ ih => exact .up (ih onward)
  | plain absent _ ih => exact .plain absent (ih onward)
  | link present inner _ _ ih => exact .link present inner (ih onward)

/-- A path resolves when what it begins with does. -/
theorem split (resolves : tree.Resolves base (first ++ second) real) :
    ∃ middle, tree.Resolves base first middle ∧ tree.Resolves middle second real := by
  induction first generalizing base with
  | nil => exact ⟨base, .done, resolves⟩
  | cons step rest ih =>
    cases resolves with
    | here resolves =>
      obtain ⟨middle, leading, onward⟩ := ih resolves
      exact ⟨middle, .here leading, onward⟩
    | up resolves =>
      obtain ⟨middle, leading, onward⟩ := ih resolves
      exact ⟨middle, .up leading, onward⟩
    | plain absent resolves =>
      obtain ⟨middle, leading, onward⟩ := ih resolves
      exact ⟨middle, .plain absent leading, onward⟩
    | link present inner resolves =>
      obtain ⟨middle, leading, onward⟩ := ih resolves
      exact ⟨middle, .link present inner leading, onward⟩

end Resolves

theorem LinkFree.resolves {base names : List κ} (free : tree.LinkFree (base ++ names)) :
    tree.Resolves base (names.map .down) (base ++ names) := by
  induction names generalizing base with
  | nil => rw [List.append_nil]; exact .done
  | cons name rest ih =>
    have split : base ++ name :: rest = base ++ [name] ++ rest := by simp
    rw [split] at free ⊢
    exact .plain (free _ (List.prefix_append _ _)) (ih free)

section Sound

variable {enter deeper : List κ → List (PathStep κ) → Option (List κ)} {base real : List κ}
  {steps : List (PathStep κ)} {depth : Nat}

theorem resolveWith_sound
    (inner : ∀ base steps real, enter base steps = some real → tree.Resolves base steps real)
    (found : tree.resolveWith enter base steps = some real) : tree.Resolves base steps real := by
  induction steps generalizing base with
  | nil => cases found; exact .done
  | cons step rest ih =>
    cases step with
    | here => exact .here (ih found)
    | up => exact .up (ih found)
    | down name =>
      unfold resolveWith at found
      split at found
      · rename_i absent
        exact .plain absent (ih found)
      · rename_i target present
        obtain ⟨middle, into, onward⟩ := Option.bind_eq_some_iff.mp found
        exact .link present (inner _ _ _ into) (ih onward)

theorem resolveWithin_sound (found : tree.resolveWithin depth base steps = some real) :
    tree.Resolves base steps real := by
  induction depth generalizing base steps real with
  | zero => cases found
  | succ depth ih => exact resolveWith_sound (fun _ _ _ => ih) found

theorem followWith_sound
    (inner : ∀ base steps real, enter base steps = some real → tree.Resolves base steps real)
    (found : tree.followWith enter base steps = some real) : tree.Resolves base steps real := by
  induction steps generalizing base with
  | nil => cases found; exact .done
  | cons step rest ih =>
    cases step with
    | here => exact .here (ih found)
    | up => exact .up (ih found)
    | down name =>
      unfold followWith at found
      split at found
      · cases found
      · rename_i directory
        exact .plain (link?_of_node? directory (by simp)) (ih found)
      · rename_i content file
        split at found
        · rename_i last
          cases found
          rw [last]
          exact .plain (link?_of_node? file (by simp)) .done
        · cases found
      · rename_i target link
        have present : tree.link? (base ++ [name]) = some target := by
          unfold link?
          rw [link]
        obtain ⟨middle, into, onward⟩ := (inner _ _ _ found).split
        exact .link present into onward

/-- Where the kernel arrives is where the path really leads. -/
theorem follow_sound {links : Nat} (found : tree.follow links base steps = some real) :
    tree.Resolves base steps real := by
  induction links generalizing base steps real with
  | zero =>
    apply followWith_sound _ found
    intro base steps real impossible
    cases impossible
  | succ links ih => exact followWith_sound (fun _ _ _ => ih) found

end Sound

section Complete

variable {enter deeper : List κ → List (PathStep κ) → Option (List κ)} {base real : List κ}
  {steps : List (PathStep κ)} {depth deeperDepth : Nat}

theorem resolveWith_mono
    (inner : ∀ base steps real, enter base steps = some real → deeper base steps = some real)
    (found : tree.resolveWith enter base steps = some real) :
    tree.resolveWith deeper base steps = some real := by
  induction steps generalizing base with
  | nil => exact found
  | cons step rest ih =>
    cases step with
    | here => exact ih found
    | up => exact ih found
    | down name =>
      unfold resolveWith at found ⊢
      split at found
      · exact ih found
      · obtain ⟨middle, into, onward⟩ := Option.bind_eq_some_iff.mp found
        exact Option.bind_eq_some_iff.mpr ⟨middle, inner _ _ _ into, ih onward⟩

theorem resolveWithin_succ (found : tree.resolveWithin depth base steps = some real) :
    tree.resolveWithin (depth + 1) base steps = some real := by
  induction depth generalizing base steps real with
  | zero => cases found
  | succ depth ih => exact resolveWith_mono (fun _ _ _ => ih) found

theorem followWith_mono
    (inner : ∀ base steps real, enter base steps = some real → deeper base steps = some real)
    (found : tree.followWith enter base steps = some real) :
    tree.followWith deeper base steps = some real := by
  induction steps generalizing base with
  | nil => exact found
  | cons step rest ih =>
    cases step with
    | here => exact ih found
    | up => exact ih found
    | down name =>
      unfold followWith at found ⊢
      split at found
      · cases found
      · exact ih found
      · exact found
      · exact inner _ _ _ found

theorem follow_succ {links : Nat} (found : tree.follow links base steps = some real) :
    tree.follow (links + 1) base steps = some real := by
  induction links generalizing base steps real with
  | zero =>
    apply followWith_mono _ found
    intro base steps real impossible
    cases impossible
  | succ links ih => exact followWith_mono (fun _ _ _ => ih) found

/-- One name further, where no link can be met. -/
theorem followWith_concat {name : κ} {node : LinkNode κ β}
    (linkless : ∀ path, tree.link? path = none)
    (found : tree.followWith enter base steps = some real)
    (directory : tree.node? real = some .directory)
    (present : tree.node? (real ++ [name]) = some node) :
    tree.followWith enter base (steps ++ [.down name]) = some (real ++ [name]) := by
  induction steps generalizing base with
  | nil =>
    cases found
    rw [List.nil_append]
    unfold followWith
    rw [present]
    cases node with
    | directory => rfl
    | file content => exact if_pos rfl
    | link target =>
      have absent := linkless (real ++ [name])
      unfold link? at absent
      rw [present] at absent
      cases absent
  | cons step rest ih =>
    cases step with
    | here => exact ih found
    | up => exact ih found
    | down next =>
      rw [List.cons_append]
      unfold followWith at found ⊢
      split at found
      · cases found
      · exact ih found
      · rename_i content file
        split at found
        · cases found
          rw [file] at directory
          cases directory
        · cases found
      · rename_i target link
        have absent := linkless (base ++ [next])
        unfold link? at absent
        rw [link] at absent
        cases absent

/-- The directories on the way to what a path without links leads to. -/
theorem followWith_front {front rest : List κ} {name : κ}
    (free : tree.LinkFree (base ++ (front ++ name :: rest)))
    (directory : tree.node? base = some .directory)
    (found : tree.followWith enter base ((front ++ name :: rest).map .down) = some real) :
    tree.followWith deeper base (front.map .down) = some (base ++ front) ∧
      tree.node? (base ++ front) = some .directory ∧
      ∃ node, tree.node? (base ++ front ++ [name]) = some node := by
  induction front generalizing base with
  | nil =>
    rw [List.append_nil]
    refine ⟨rfl, directory, ?_⟩
    rw [List.nil_append, List.map_cons] at found
    unfold followWith at found
    cases present : tree.node? (base ++ [name]) with
    | none => rw [present] at found; cases found
    | some node => exact ⟨node, rfl⟩
  | cons next others ih =>
    have split : ∀ names : List κ, base ++ next :: names = base ++ [next] ++ names := by simp
    rw [List.cons_append, List.map_cons] at found
    rw [List.cons_append, split] at free
    rw [split, List.map_cons]
    unfold followWith at found ⊢
    cases present : tree.node? (base ++ [next]) with
    | none => rw [present] at found; cases found
    | some node =>
      rw [present] at found
      cases node with
      | directory => exact ih free present found
      | file content =>
        rw [if_neg (by simp)] at found
        cases found
      | link target =>
        have plain := free (base ++ [next]) (List.prefix_append _ _)
        unfold link? at plain
        rw [present] at plain
        cases plain

theorem resolveWithin_mono (within : depth ≤ deeperDepth)
    (found : tree.resolveWithin depth base steps = some real) :
    tree.resolveWithin deeperDepth base steps = some real := by
  induction within with
  | refl => exact found
  | step _ ih => exact resolveWithin_succ ih

/-- Every resolution has a depth. -/
theorem Resolves.within (resolves : tree.Resolves base steps real) :
    ∃ depth, tree.resolveWithin (depth + 1) base steps = some real := by
  induction resolves with
  | done => exact ⟨0, rfl⟩
  | here _ ih => exact ih
  | up _ ih => exact ih
  | plain absent _ ih =>
    obtain ⟨depth, found⟩ := ih
    refine ⟨depth, ?_⟩
    unfold resolveWithin resolveWith
    rw [absent]
    exact found
  | link present _ _ into onward =>
    obtain ⟨inner, into⟩ := into
    obtain ⟨outer, onward⟩ := onward
    refine ⟨max (inner + 1) outer, ?_⟩
    unfold resolveWithin resolveWith
    rw [present]
    refine Option.bind_eq_some_iff.mpr ⟨_, resolveWithin_mono (Nat.le_max_left _ _) into, ?_⟩
    exact resolveWithin_mono (Nat.succ_le_succ (Nat.le_max_right _ _)) onward

/-- The resolution needs exactly this depth. -/
def Needs (tree : LinkTree κ β) (depth : Nat) (base : List κ) (steps : List (PathStep κ)) : Prop :=
  tree.resolveWithin depth base steps ≠ none ∧
    ∀ lower < depth, tree.resolveWithin lower base steps = none

/-- What only the deeper of two ways to enter links resolves has a link that only it enters. -/
theorem exists_link_of_resolveWith (found : tree.resolveWith deeper base steps = some real)
    (inner : ∀ base steps real, enter base steps = some real → deeper base steps = some real)
    (missed : tree.resolveWith enter base steps = none) :
    ∃ path target, tree.link? path = some target ∧
      deeper (target.start path.dropLast) target.steps ≠ none ∧
      enter (target.start path.dropLast) target.steps = none := by
  induction steps generalizing base with
  | nil => cases missed
  | cons step rest ih =>
    cases step with
    | here => exact ih found missed
    | up => exact ih found missed
    | down name =>
      unfold resolveWith at found missed
      split at found
      · rename_i absent
        rw [absent] at missed
        exact ih found missed
      · rename_i target present
        rw [present] at missed
        obtain ⟨middle, into, onward⟩ := Option.bind_eq_some_iff.mp found
        cases shallow : enter (target.start base) target.steps with
        | none =>
          refine ⟨base ++ [name], target, present, ?_⟩
          rw [List.dropLast_concat, into]
          exact ⟨Option.some_ne_none _, shallow⟩
        | some reached =>
          have same : middle = reached := Option.some.inj (into.symm.trans (inner _ _ _ shallow))
          apply ih onward
          rw [same]
          simpa [shallow] using missed

/-- Inside a deep resolution some link needs one level less. -/
theorem Needs.exists_link (needs : tree.Needs (depth + 2) base steps) :
    ∃ path target, tree.link? path = some target ∧
      tree.Needs (depth + 1) (target.start path.dropLast) target.steps := by
  obtain ⟨real, found⟩ := Option.ne_none_iff_exists'.mp needs.1
  obtain ⟨path, target, present, reached, missed⟩ := exists_link_of_resolveWith found
    (fun _ _ _ => resolveWithin_succ) (needs.2 (depth + 1) (Nat.lt_succ_self _))
  refine ⟨path, target, present, reached, ?_⟩
  intro lower less
  rw [Option.eq_none_iff_forall_ne_some]
  intro real found
  have deeper := resolveWithin_mono (Nat.le_of_lt_succ less) found
  rw [missed] at deeper
  cases deeper

/-- One link for each level below the first, so all of them different. -/
theorem Needs.links (needs : tree.Needs (depth + 1) base steps) :
    ∃ paths : List (List κ), paths.length = depth ∧ paths.Nodup ∧
      ∀ path ∈ paths, ∃ target level, tree.link? path = some target ∧ level ≤ depth ∧
        tree.Needs level (target.start path.dropLast) target.steps := by
  induction depth generalizing base steps with
  | zero => exact ⟨[], rfl, List.nodup_nil, List.forall_mem_nil _⟩
  | succ depth ih =>
    obtain ⟨path, target, present, below⟩ := needs.exists_link
    obtain ⟨paths, length, nodup, each⟩ := ih below
    refine ⟨path :: paths, congrArg Nat.succ length, ?_, ?_⟩
    · refine List.nodup_cons.mpr ⟨?_, nodup⟩
      intro member
      obtain ⟨again, level, same, less, lower⟩ := each path member
      rw [present] at same
      cases same
      exact lower.1 (below.2 level (Nat.lt_succ_of_le less))
    · intro other member
      rcases List.mem_cons.mp member with rfl | later
      · exact ⟨target, depth + 1, present, Nat.le_refl _, below⟩
      · obtain ⟨again, level, present, less, lower⟩ := each other later
        exact ⟨again, level, present, Nat.le_succ_of_le less, lower⟩

/-- No resolution is deeper than there are entries. -/
theorem Needs.le_length (needs : tree.Needs (depth + 1) base steps) :
    depth ≤ tree.entries.keys.length := by
  obtain ⟨paths, length, nodup, each⟩ := needs.links
  rw [← length]
  apply List.Subperm.length_le
  apply List.subperm_of_subset nodup
  intro path member
  obtain ⟨target, level, present, _⟩ := each path member
  exact mem_keys_of_link? present

/-- `realpath` misses nothing but loops. -/
theorem realpath_eq_some : tree.realpath steps = some real ↔ tree.Resolves [] steps real := by
  constructor
  · exact resolveWithin_sound
  · intro resolves
    obtain ⟨depth, found⟩ := resolves.within
    have reached : ∃ depth, tree.resolveWithin (depth + 1) [] steps ≠ none := by
      refine ⟨depth, ?_⟩
      rw [found]
      exact Option.some_ne_none _
    classical
    have needs : tree.Needs (Nat.find reached + 1) [] steps := by
      refine ⟨Nat.find_spec reached, ?_⟩
      intro lower less
      cases lower with
      | zero => rfl
      | succ lower => exact not_not.mp (Nat.find_min reached (Nat.lt_of_succ_lt_succ less))
    obtain ⟨other, least⟩ := Option.ne_none_iff_exists'.mp needs.1
    have enough := resolveWithin_mono (Nat.succ_le_succ needs.le_length) least
    rw [resolves.unique (resolveWithin_sound enough)]
    exact enough

end Complete

end LinkTree

end Kit
