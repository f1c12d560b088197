import PyUploadX.Sdk.Readings

/-! What a walk lists: all that is kept, and nothing twice. -/
namespace PyUploadX.Sdk

open Kit

namespace Host

variable {host : Host} {path real : List String} {name : String}

/-- In a tree without links a child is below its directory. -/
theorem arrives_child {node : LinkNode String FileData}
    (linkless : ∀ path, host.tree.link? path = none) (arrives : host.arrives path = some real)
    (directory : host.tree.node? real = some .directory)
    (present : host.tree.node? (real ++ [name]) = some node) :
    host.arrives (path ++ [name]) = some (real ++ [name]) := by
  unfold Host.arrives at arrives ⊢
  rw [downSteps_concat]
  cases limit : host.linkLimit with
  | zero =>
    rw [limit] at arrives
    exact LinkTree.followWith_concat linkless arrives directory present
  | succ links =>
    rw [limit] at arrives
    exact LinkTree.followWith_concat linkless arrives directory present

end Host

namespace Walker

variable {walker : Walker}

section Locations

variable {calls : Nat} {current : List String} {relative name : String} {found below : List Found}
  {names : List String} {normalized : ObjectKey}

/-- All of them below the directory, at different places. -/
structure Spread (current : List String) (found : List Found) : Prop where
  inside : ∀ item ∈ found, ∃ name rest, item.location = current ++ name :: rest
  apart : (found.map (·.location)).Nodup

theorem Spread.nil : Spread current [] := ⟨List.forall_mem_nil _, List.nodup_nil⟩

/-- A child, with what is below it. -/
theorem Spread.child {item : Found} (own : item.location = current ++ [name])
    (spread : Spread (current ++ [name]) below) :
    ((item :: below).map (·.location)).Nodup ∧
      ∀ other ∈ item :: below, ∃ rest, other.location = current ++ name :: rest := by
  constructor
  · rw [List.map_cons, List.nodup_cons]
    refine ⟨?_, spread.apart⟩
    intro again
    obtain ⟨other, member, same⟩ := List.mem_map.mp again
    obtain ⟨next, rest, deeper⟩ := spread.inside other member
    rw [own, deeper] at same
    exact absurd (List.append_right_eq_self.mp same) (List.cons_ne_nil _ _)
  · intro other member
    rcases List.mem_cons.mp member with rfl | later
    · exact ⟨[], own⟩
    · obtain ⟨next, rest, deeper⟩ := spread.inside other later
      exact ⟨next :: rest, deeper.trans (List.append_assoc _ _ _)⟩

private theorem enter_spread {descend : List String → String → Except WalkError (List Found)}
    (each : ∀ child relative below, descend child relative = .ok below → Spread child below)
    (entered : walker.enter descend (current ++ [name]) normalized = .ok found) :
    (found.map (·.location)).Nodup ∧
      ∀ item ∈ found, ∃ rest, item.location = current ++ name :: rest := by
  unfold enter at entered
  split at entered
  · split at entered
    · cases descended : descend (current ++ [name]) normalized.text with
      | error stopped => rw [descended] at entered; cases entered
      | ok below =>
        rw [descended] at entered
        cases entered
        exact Spread.child rfl (each _ _ _ descended)
    · cases entered
      exact Spread.child rfl .nil
  · split at entered
    · cases entered
      exact Spread.child rfl .nil
    · cases entered
      exact ⟨List.nodup_nil, List.forall_mem_nil _⟩

private theorem visit_spread {descend : List String → String → Except WalkError (List Found)}
    (each : ∀ child relative below, descend child relative = .ok below → Spread child below)
    (visited : walker.visit descend current relative name = .ok found) :
    (found.map (·.location)).Nodup ∧
      ∀ item ∈ found, ∃ rest, item.location = current ++ name :: rest := by
  have nothing : (([] : List Found).map (·.location)).Nodup ∧
      ∀ item ∈ ([] : List Found), ∃ rest, item.location = current ++ name :: rest :=
    ⟨List.nodup_nil, List.forall_mem_nil _⟩
  unfold visit at visited
  split at visited
  · cases visited
    exact nothing
  · split_ifs at visited
    · cases visited
      exact nothing
    · cases visited
      exact nothing
    · obtain ⟨goesOn, _, entered⟩ := except_bind_eq_ok.mp visited
      cases goesOn with
      | false =>
        cases entered
        exact nothing
      | true => exact enter_spread each entered

theorem visits_spread {visit : String → Except WalkError (List Found)} {results : List (List Found)}
    (each : ∀ name found, visit name = .ok found → (found.map (·.location)).Nodup ∧
      ∀ item ∈ found, ∃ rest, item.location = current ++ name :: rest)
    (distinct : names.Nodup) (visited : names.mapM visit = .ok results) :
    (results.flatten.map (·.location)).Nodup ∧
      ∀ item ∈ results.flatten, ∃ name ∈ names, ∃ rest, item.location = current ++ name :: rest := by
  induction names generalizing results with
  | nil =>
    cases visited
    exact ⟨List.nodup_nil, List.forall_mem_nil _⟩
  | cons name names ih =>
    obtain ⟨first, others, own, later, rfl⟩ := except_mapM_cons_ok visited
    obtain ⟨absent, distinct⟩ := List.nodup_cons.mp distinct
    obtain ⟨nodup, inside⟩ := each name first own
    obtain ⟨nodupOthers, insideOthers⟩ := ih distinct later
    rw [List.flatten_cons]
    constructor
    · rw [List.map_append, List.nodup_append]
      refine ⟨nodup, nodupOthers, ?_⟩
      intro place among other beside same
      obtain ⟨item, member, rfl⟩ := List.mem_map.mp among
      obtain ⟨another, elsewhere, rfl⟩ := List.mem_map.mp beside
      obtain ⟨rest, location⟩ := inside item member
      obtain ⟨sibling, present, ending, place⟩ := insideOthers another elsewhere
      rw [location, place] at same
      cases List.append_cancel_left same
      exact absent present
    · intro item member
      rcases List.mem_append.mp member with first | later
      · obtain ⟨rest, location⟩ := inside item first
        exact ⟨name, List.mem_cons_self, rest, location⟩
      · obtain ⟨sibling, present, rest, location⟩ := insideOthers item later
        exact ⟨sibling, List.mem_cons_of_mem _ present, rest, location⟩

private theorem nodup_listing {host : Host} (listed : host.listing current = some names) : names.Nodup := by
  unfold Host.listing at listed
  split at listed
  · cases listed
  · split at listed
    · cases listed
      exact (List.perm_insertionSort _ _).nodup_iff.mpr (LinkTree.nodup_children _ _)
    · cases listed

theorem walk_spread (walked : walker.walk calls current relative = .ok found) :
    Spread current found := by
  induction calls generalizing current relative found with
  | zero => cases walked
  | succ calls ih =>
    obtain ⟨fewer, names, results, same, listed, visited, rfl⟩ := walk_ok walked
    cases same
    obtain ⟨apart, inside⟩ := visits_spread (fun name found visit =>
      visit_spread (fun child relative below walked => ih walked) visit) (nodup_listing listed) visited
    refine ⟨?_, apart⟩
    intro item member
    obtain ⟨name, _, rest, location⟩ := inside item member
    exact ⟨name, rest, location⟩

end Locations

section Complete

variable {found : List Found} {item : Found}

private theorem isDir_of_file? {host : Host} {path : List String} {file : FileData}
    (opened : host.file? path = some file) : host.isDir path = false := by
  unfold Host.file? at opened
  unfold Host.isDir
  split at opened
  · rename_i node
    rw [node]
  · cases opened

/-- Nothing that is kept is missing. -/
theorem Emits.mem (walked : walker.run = .ok found) (emits : walker.Emits item) : item ∈ found := by
  obtain ⟨depth, current, relative, name, normalized, reaches, keeps, passed, own, entry⟩ := emits
  obtain ⟨calls, below, _, inner, within⟩ := reaches.walked walked
  obtain ⟨fewer, goesOn, rfl, checked, entered⟩ := walk_visits inner keeps
  cases passed.symm.trans checked
  obtain ⟨result, entered, among⟩ := entered rfl
  apply within
  apply among
  have same : item = ⟨current ++ [name], item.entry⟩ := by rw [← own]
  rw [own] at entry
  unfold enter at entered
  rcases entry with ⟨directory, described⟩ | ⟨file, opened, described⟩
  · rw [if_pos directory] at entered
    obtain ⟨deeper, _, rfl⟩ := except_map_eq_ok.mp entered
    rw [same, described]
    exact List.mem_cons_self
  · rw [isDir_of_file? opened, if_neg Bool.false_ne_true, opened] at entered
    cases entered
    rw [same, described]
    exact List.mem_cons_self

/-- An emitted entry is a file where there is one. -/
theorem Emits.isFile (emits : walker.Emits item) :
    item.entry.entryType = .file ↔ walker.host.file? item.location ≠ none := by
  obtain ⟨_, _, _, _, normalized, _, _, _, _, entry⟩ := emits
  rcases entry with ⟨directory, described⟩ | ⟨file, opened, described⟩
  · rw [described]
    apply iff_of_false (by simp [directoryEntry])
    intro some
    obtain ⟨file, opened⟩ := Option.ne_none_iff_exists'.mp some
    rw [isDir_of_file? opened] at directory
    cases directory
  · rw [described, opened]
    exact iff_of_true rfl (Option.some_ne_none file)

theorem mem_files {files directories : List Found}
    (same : filesAndDirectories found = (files, directories)) :
    item ∈ files ↔ item ∈ found ∧ item.entry.entryType = .file := by
  cases same
  rw [List.mem_filter, decide_eq_true_eq]

theorem mem_files_or_directories {files directories : List Found}
    (same : filesAndDirectories found = (files, directories)) :
    item ∈ files ++ directories ↔ item ∈ found := by
  cases same
  rw [List.mem_append, List.mem_filter, List.mem_filter, ← and_or_left, and_iff_left_iff_imp]
  intro _
  cases item.entry.entryType with
  | file => exact .inl rfl
  | directory => exact .inr rfl

theorem nodup_files_append {files directories : List Found}
    (same : filesAndDirectories found = (files, directories)) (nodup : found.Nodup) :
    (files ++ directories).Nodup := by
  cases same
  refine List.nodup_append.mpr ⟨nodup.filter _, nodup.filter _, ?_⟩
  intro item file other directory alike
  have first := of_decide_eq_true (List.mem_filter.mp file).2
  have second := of_decide_eq_true (List.mem_filter.mp directory).2
  rw [alike, second] at first
  cases first

end Complete

/-- The names below the root of an entry that is neither skipped nor ignored, nor is a directory
above it. -/
def Kept (walker : Walker) (names : List String) : Prop :=
  ∃ depth parents relative name normalized, names = parents ++ [name] ∧
    walker.Reaches depth (walker.root ++ parents) relative ∧
    walker.Keeps (walker.root ++ parents) relative name normalized

section Kept

variable {item : Found} {names : List String}

/-- An emitted entry is at its names below the root, and its path is what they read as. -/
theorem Emits.kept (forms : NormalForms walker.host.nfc) (emits : walker.Emits item) :
    ∃ names, item.location = walker.root ++ names ∧ walker.Kept names ∧
      item.entry.path.segments = reading walker.host.nfc names := by
  obtain ⟨depth, current, relative, name, normalized, reaches, keeps, _, own, entry⟩ := emits
  obtain ⟨parents, rfl, _, _, spells⟩ := reaches.names forms
  refine ⟨parents ++ [name], own.trans (List.append_assoc _ _ _),
    ⟨depth, parents, relative, name, normalized, rfl, reaches, keeps⟩, ?_⟩
  have path : item.entry.path = normalized := by
    rcases entry with ⟨_, same⟩ | ⟨file, _, same⟩ <;> rw [same] <;> rfl
  rw [path]
  exact (spells.child forms keeps.normalizes).1

/-- The names are those of entries. -/
theorem Kept.present (forms : NormalForms walker.host.nfc) (kept : walker.Kept names) :
    ∀ name ∈ names, ∃ above, above ++ [name] ∈ walker.host.tree.entries.keys := by
  obtain ⟨depth, parents, relative, name, normalized, rfl, reaches, keeps⟩ := kept
  obtain ⟨others, same, _, present, _⟩ := reaches.names forms
  cases List.append_cancel_left same
  intro other member
  rcases List.mem_append.mp member with before | last
  · exact present other before
  · rw [List.mem_singleton.mp last]
    obtain ⟨real, _, _, entry⟩ := keeps.present
    exact ⟨real, entry⟩

section Linkless

variable (linkless : ∀ path, walker.host.tree.link? path = none)

include linkless

private theorem isSymlink_linkless (current : List String) (name : String) :
    walker.host.isSymlink current name = false := by
  unfold Host.isSymlink
  split
  · rw [linkless]
    rfl
  · rfl

theorem Kept.emits (kept : walker.Kept names) :
    ∃ item, walker.Emits item ∧ item.location = walker.root ++ names := by
  obtain ⟨depth, parents, relative, name, normalized, rfl, reaches, keeps⟩ := kept
  have passed := checkLink_plain (isSymlink_linkless linkless (walker.root ++ parents) name)
  obtain ⟨real, arrives, directory, entry⟩ := keeps.present
  obtain ⟨node, present⟩ := LinkTree.node?_of_mem_keys entry
  have child := Host.arrives_child linkless arrives directory present
  have location : walker.root ++ (parents ++ [name]) = walker.root ++ parents ++ [name] :=
    (List.append_assoc _ _ _).symm
  rw [location]
  cases node with
  | directory =>
    refine ⟨⟨_, directoryEntry normalized⟩, ⟨depth, _, relative, name, normalized, reaches, keeps,
      passed, rfl, .inl ⟨?_, rfl⟩⟩, rfl⟩
    unfold Host.isDir
    rw [child, Option.bind_some, present]
  | file content =>
    refine ⟨⟨_, fileEntry walker.host.sha256 normalized content⟩, ⟨depth, _, relative, name,
      normalized, reaches, keeps, passed, rfl, .inr ⟨content, ?_, rfl⟩⟩, rfl⟩
    unfold Host.file?
    rw [child, Option.bind_some, present]
  | link target =>
    have absent := linkless (real ++ [name])
    unfold LinkTree.link? at absent
    rw [present] at absent
    cases absent

end Linkless

end Kept

end Walker

end PyUploadX.Sdk
