import PyUploadX.Sdk.Directory

/-! Where a walk goes with symbolic links in the tree, and when all it emits is inside the
directory. -/
namespace PyUploadX.Sdk

open Kit

namespace Host

variable {host : Host} {path real : List String} {name : String}

theorem arrives_sound (arrives : host.arrives path = some real) :
    host.tree.Resolves [] (downSteps path) real :=
  LinkTree.follow_sound arrives

private theorem resolves_of_isDir (directory : host.isDir path = true) :
    ∃ real, host.tree.Resolves [] (downSteps path) real := by
  unfold isDir at directory
  cases arrives : host.arrives path with
  | none => rw [arrives] at directory; cases directory
  | some real => exact ⟨real, arrives_sound arrives⟩

private theorem resolves_of_file? {file : FileData} (found : host.file? path = some file) :
    ∃ real, host.tree.Resolves [] (downSteps path) real := by
  unfold file? at found
  cases arrives : host.arrives path with
  | none => rw [arrives] at found; cases found
  | some real => exact ⟨real, arrives_sound arrives⟩

private theorem arrives_of_listing {names : List String} (listed : host.listing path = some names) :
    ∃ real, host.arrives path = some real := by
  unfold listing at listed
  split at listed
  · cases listed
  · rename_i real arrives
    exact ⟨real, arrives⟩

private theorem listing_of_isDir (directory : host.isDir path = true) : host.listing path ≠ none := by
  unfold isDir at directory
  unfold listing
  cases arrives : host.arrives path with
  | none => rw [arrives] at directory; cases directory
  | some real =>
    rw [arrives, Option.bind_some] at directory
    intro absent
    dsimp only at absent
    split at directory
    · rename_i found
      rw [found] at absent
      cases absent
    · cases directory

theorem child_of_plain (listed : host.listing path ≠ none) (plain : host.isSymlink path name = false) :
    ∃ real, host.tree.Resolves [] (downSteps path) real ∧
      host.tree.link? (real ++ [name]) = none := by
  obtain ⟨names, listed⟩ := Option.ne_none_iff_exists'.mp listed
  obtain ⟨real, arrives⟩ := arrives_of_listing listed
  refine ⟨real, arrives_sound arrives, ?_⟩
  unfold isSymlink at plain
  rw [arrives] at plain
  simpa using plain

end Host

theorem downSteps_concat (path : List String) (name : String) :
    downSteps (path ++ [name]) = downSteps path ++ [.down name] := by
  unfold downSteps
  rw [List.map_append]
  rfl

namespace Walker

variable (walker : Walker)

/-- Every setting but `ignore` and `error`. -/
def Follows : Prop := walker.symlinkPolicy ≠ "ignore" ∧ walker.symlinkPolicy ≠ "error"

/-- The walk over `current` neither skips nor ignores the child. -/
structure Keeps (current : List String) (relative name : String) (normalized : ObjectKey) :
    Prop where
  listed : ∃ names, walker.host.listing current = some names ∧ name ∈ names
  normalizes :
    normalizeRelativePath walker.host.nfc (childRelative relative name) = .ok normalized
  ordinary : name ≠ walker.rules.ignoreFileName
  kept : walker.rules.isIgnored normalized.text = false

/-- The directories below the root that are kept, with links where links are followed. -/
inductive Reaches : Nat → List String → String → Prop
  | root : Reaches 0 walker.root ""
  | step {depth : Nat} {current : List String} {relative name : String}
      {normalized : ObjectKey} :
      Reaches depth current relative → walker.Keeps current relative name normalized →
      (walker.host.isSymlink current name = true → walker.Follows) →
      walker.host.isDir (current ++ [name]) = true → walker.isRecursive = true →
      Reaches (depth + 1) (current ++ [name]) normalized.text

/-- A link in a directory the walk is in that is not ignored. -/
def ComesUpon (link : List String) : Prop :=
  ∃ depth current relative name normalized, link = current ++ [name] ∧
    walker.Reaches depth current relative ∧ walker.Keeps current relative name normalized ∧
    walker.host.isSymlink current name = true

def LeadsOutside (path : List String) : Prop :=
  ∃ target, walker.host.tree.Resolves [] (downSteps path) target ∧ ¬ walker.root <+: target

def StaysInside (path : List String) : Prop :=
  ∃ target, walker.host.tree.Resolves [] (downSteps path) target ∧ walker.root <+: target

/-- A directory too deep for the stack, or a link that resolves to itself. -/
def Stops : Prop :=
  (∃ current relative, walker.Reaches walker.host.recursionLimit current relative) ∨
    ∃ link, walker.ComesUpon link ∧ ∀ target, ¬ walker.host.tree.Resolves [] (downSteps link) target

/-- Where an item of the result comes from. -/
def Emits (item : Found) : Prop :=
  ∃ depth current relative name normalized, walker.Reaches depth current relative ∧
    walker.Keeps current relative name normalized ∧
    walker.checkLink current name = .ok true ∧ item.location = current ++ [name] ∧
    ((walker.host.isDir item.location = true ∧ item.entry = directoryEntry normalized) ∨
      ∃ file, walker.host.file? item.location = some file ∧
        item.entry = fileEntry walker.host.sha256 normalized file)

variable {walker}

section Links

variable {current : List String} {name : String} {raised : WalkError}

private theorem checkLink_ok {goesOn : Bool} (checked : walker.checkLink current name = .ok goesOn)
    (link : walker.host.isSymlink current name = true) (follows : walker.Follows) :
    goesOn = true ∧ ∃ target,
      walker.host.tree.Resolves [] (downSteps (current ++ [name])) target ∧
        (walker.rules.includes = [] → walker.root <+: target) := by
  simp only [checkLink] at checked
  rw [if_pos link, if_neg follows.1, if_neg follows.2] at checked
  split at checked
  · cases checked
  · rename_i target resolves
    split at checked
    · cases checked
    · rename_i allowed
      refine ⟨(Except.ok.inj checked).symm, target, LinkTree.realpath_eq_some.mp resolves, ?_⟩
      intro without
      by_contra outside
      exact allowed ⟨outside, without⟩

/-- Only a followed link is gone through. -/
theorem checkLink_true (checked : walker.checkLink current name = .ok true)
    (link : walker.host.isSymlink current name = true) : walker.Follows := by
  simp only [checkLink] at checked
  rw [if_pos link] at checked
  split at checked
  · cases checked
  · rename_i ignores
    split at checked
    · cases checked
    · rename_i refuses
      exact ⟨ignores, refuses⟩

theorem checkLink_plain (plain : walker.host.isSymlink current name = false) :
    walker.checkLink current name = .ok true := by
  simp only [checkLink]
  rw [if_neg (by rw [plain]; exact Bool.false_ne_true)]

/-- Where a link is followed, a check that passes goes on. -/
theorem checkLink_goes {goesOn : Bool} (checked : walker.checkLink current name = .ok goesOn)
    (follows : walker.host.isSymlink current name = true → walker.Follows) : goesOn = true := by
  cases link : walker.host.isSymlink current name with
  | true => exact (checkLink_ok checked link (follows link)).1
  | false => exact (Except.ok.inj ((checkLink_plain link).symm.trans checked)).symm

private theorem checkLink_error (failed : walker.checkLink current name = .error raised)
    (follows : walker.Follows) (some : walker.rules.includes ≠ []) :
    walker.host.isSymlink current name = true ∧
      ∀ target, ¬ walker.host.tree.Resolves [] (downSteps (current ++ [name])) target := by
  simp only [checkLink] at failed
  split at failed
  · rename_i link
    rw [if_neg follows.1, if_neg follows.2] at failed
    split at failed
    · rename_i loops
      refine ⟨link, ?_⟩
      intro target resolves
      rw [LinkTree.realpath_eq_some.mpr resolves] at loops
      cases loops
    · rw [if_neg fun both => some both.2] at failed
      cases failed
  · cases failed

end Links

section Steps

variable {descend : List String → String → Except WalkError (List Found)}
  {current : List String} {relative name : String} {found : List Found} {raised : WalkError}
  {normalized : ObjectKey}

theorem visit_kept (keeps : walker.Keeps current relative name normalized) :
    walker.visit descend current relative name = (do
      let goesOn ← walker.checkLink current name
      if goesOn then walker.enter descend (current ++ [name]) normalized else return []) := by
  unfold visit
  rw [keeps.normalizes]
  dsimp only
  rw [if_neg keeps.ordinary, if_neg (by rw [keeps.kept]; exact Bool.false_ne_true)]

/-- What the walk does not keep brings nothing. -/
theorem visit_cases {names : List String} (listed : walker.host.listing current = some names)
    (member : name ∈ names) :
    walker.visit descend current relative name = .ok [] ∨
      ∃ normalized, walker.Keeps current relative name normalized := by
  unfold visit
  split
  · exact .inl rfl
  · rename_i normalized normalizes
    split_ifs with ignoreFile ignored
    · exact .inl rfl
    · exact .inl rfl
    · exact .inr ⟨normalized, ⟨names, listed, member⟩, normalizes, ignoreFile,
        Bool.eq_false_of_not_eq_true ignored⟩

private theorem enter_directory (directory : walker.host.isDir (current ++ [name]) = true)
    (recursive : walker.isRecursive = true)
    (entered : walker.enter descend (current ++ [name]) normalized = .ok found) :
    ∃ below, descend (current ++ [name]) normalized.text = .ok below ∧
      found = ⟨current ++ [name], directoryEntry normalized⟩ :: below := by
  unfold enter at entered
  rw [if_pos directory, if_pos recursive] at entered
  cases descended : descend (current ++ [name]) normalized.text with
  | error raised => rw [descended] at entered; cases entered
  | ok below =>
    rw [descended] at entered
    exact ⟨below, rfl, (Except.ok.inj entered).symm⟩

theorem enter_error (failed : walker.enter descend (current ++ [name]) normalized = .error raised) :
    walker.host.isDir (current ++ [name]) = true ∧ walker.isRecursive = true ∧
      descend (current ++ [name]) normalized.text = .error raised := by
  unfold enter at failed
  split at failed
  · rename_i directory
    split at failed
    · rename_i recursive
      refine ⟨directory, recursive, ?_⟩
      cases descended : descend (current ++ [name]) normalized.text with
      | error stopped => rw [descended] at failed; exact failed
      | ok below => rw [descended] at failed; cases failed
    · cases failed
  · split at failed <;> cases failed

theorem enter_mem (entered : walker.enter descend (current ++ [name]) normalized = .ok found)
    {item : Found} (member : item ∈ found) :
    (item.location = current ++ [name] ∧
      ((walker.host.isDir item.location = true ∧ item.entry = directoryEntry normalized) ∨
        ∃ file, walker.host.file? item.location = some file ∧
          item.entry = fileEntry walker.host.sha256 normalized file)) ∨
    (walker.host.isDir (current ++ [name]) = true ∧ walker.isRecursive = true ∧
      ∃ below, descend (current ++ [name]) normalized.text = .ok below ∧ item ∈ below) := by
  unfold enter at entered
  split at entered
  · rename_i directory
    split at entered
    · rename_i recursive
      cases descended : descend (current ++ [name]) normalized.text with
      | error stopped => rw [descended] at entered; cases entered
      | ok below =>
        rw [descended] at entered
        cases entered
        rcases List.mem_cons.mp member with rfl | later
        · exact .inl ⟨rfl, .inl ⟨directory, rfl⟩⟩
        · exact .inr ⟨directory, recursive, below, rfl, later⟩
    · cases entered
      rw [List.mem_singleton.mp member]
      exact .inl ⟨rfl, .inl ⟨directory, rfl⟩⟩
  · split at entered
    · rename_i file opened
      cases entered
      rw [List.mem_singleton.mp member]
      exact .inl ⟨rfl, .inr ⟨file, opened, rfl⟩⟩
    · cases entered
      cases member

end Steps

section Runs

variable {calls depth : Nat} {current : List String} {relative : String} {found : List Found}
  {raised : WalkError}

theorem walk_ok (walked : walker.walk calls current relative = .ok found) :
    ∃ fewer names results, calls = fewer + 1 ∧ walker.host.listing current = some names ∧
      names.mapM (walker.visit (walker.walk fewer) current relative) = .ok results ∧
      found = results.flatten := by
  cases calls with
  | zero => cases walked
  | succ fewer =>
    unfold walk at walked
    split at walked
    · cases walked
    · rename_i names listed
      obtain ⟨results, visited, same⟩ := except_bind_eq_ok.mp walked
      exact ⟨fewer, names, results, rfl, listed, visited, (Except.ok.inj same).symm⟩

/-- In a walk that ends well, a kept child has passed its checks. -/
theorem walk_visits (walked : walker.walk calls current relative = .ok found) {name : String}
    {normalized : ObjectKey} (keeps : walker.Keeps current relative name normalized) :
    ∃ fewer goesOn, calls = fewer + 1 ∧ walker.checkLink current name = .ok goesOn ∧
      (goesOn = true → ∃ below,
        walker.enter (walker.walk fewer) (current ++ [name]) normalized = .ok below ∧
          below ⊆ found) := by
  obtain ⟨fewer, names, results, same, listed, visited, rfl⟩ := walk_ok walked
  obtain ⟨others, again, member⟩ := keeps.listed
  rw [listed] at again
  cases again
  obtain ⟨result, among, visit⟩ := except_mapM_ok visited name member
  rw [visit_kept keeps] at visit
  obtain ⟨goesOn, checked, entered⟩ := except_bind_eq_ok.mp visit
  refine ⟨fewer, goesOn, same, checked, ?_⟩
  rintro rfl
  exact ⟨result, entered, fun item member => List.mem_flatten.mpr ⟨result, among, member⟩⟩

/-- A walk that ends well has ended well in every directory it reaches. -/
theorem Reaches.walked (walked : walker.run = .ok found)
    (reaches : walker.Reaches depth current relative) :
    ∃ calls below, calls + depth = walker.host.recursionLimit ∧
      walker.walk calls current relative = .ok below ∧ below ⊆ found := by
  induction reaches with
  | root => exact ⟨walker.host.recursionLimit, found, rfl, walked, List.Subset.refl found⟩
  | step _ keeps follows directory recursive ih =>
    obtain ⟨calls, below, total, walked, within⟩ := ih
    obtain ⟨fewer, goesOn, rfl, checked, entered⟩ := walk_visits walked keeps
    obtain ⟨inner, entered, among⟩ := entered (checkLink_goes checked follows)
    obtain ⟨descended, walked, rfl⟩ := enter_directory directory recursive entered
    refine ⟨fewer, descended, by omega, walked, ?_⟩
    exact fun item member => within (among (List.mem_cons_of_mem _ member))

/-- Every item comes from a directory the walk reaches. -/
theorem walk_emits (reaches : walker.Reaches depth current relative)
    (walked : walker.walk calls current relative = .ok found) :
    ∀ item ∈ found, walker.Emits item := by
  induction calls generalizing depth current relative found with
  | zero => cases walked
  | succ calls ih =>
    obtain ⟨fewer, names, results, same, listed, visited, rfl⟩ := walk_ok walked
    cases same
    intro item member
    obtain ⟨result, among, inside⟩ := List.mem_flatten.mp member
    obtain ⟨name, present, visit⟩ := except_mapM_mem visited result among
    rcases visit_cases listed present with nothing | ⟨normalized, keeps⟩
    · rw [nothing] at visit
      cases visit
      cases inside
    · rw [visit_kept keeps] at visit
      obtain ⟨goesOn, checked, entered⟩ := except_bind_eq_ok.mp visit
      cases goesOn with
      | false =>
        cases entered
        cases inside
      | true =>
        rcases enter_mem entered inside with ⟨own, entry⟩ | ⟨directory, recursive, below, walked, deeper⟩
        · exact ⟨depth, current, relative, name, normalized, reaches, keeps, checked, own, entry⟩
        · have further := reaches.step keeps (checkLink_true checked) directory recursive
          exact ih further walked item deeper

/-- With links followed and not checked, little else stops a walk. -/
theorem walk_stops (follows : walker.Follows) (some : walker.rules.includes ≠ [])
    (reaches : walker.Reaches depth current relative)
    (total : calls + depth = walker.host.recursionLimit)
    (listed : walker.host.listing current ≠ none)
    (failed : walker.walk calls current relative = .error raised) : walker.Stops := by
  induction calls generalizing depth current relative with
  | zero =>
    rw [Nat.zero_add] at total
    rw [total] at reaches
    exact .inl ⟨current, relative, reaches⟩
  | succ calls ih =>
    obtain ⟨names, listing⟩ := Option.ne_none_iff_exists'.mp listed
    unfold walk at failed
    rw [listing] at failed
    rcases except_bind_eq_error.mp failed with stopped | ⟨_, _, impossible⟩
    · obtain ⟨name, present, visit⟩ := except_mapM_error stopped
      rcases visit_cases listing present with nothing | ⟨normalized, keeps⟩
      · rw [nothing] at visit
        cases visit
      · rw [visit_kept keeps] at visit
        rcases except_bind_eq_error.mp visit with refused | ⟨goesOn, checked, entered⟩
        · obtain ⟨link, loops⟩ := checkLink_error refused follows some
          exact .inr ⟨current ++ [name], ⟨depth, current, relative, name, normalized, rfl,
            reaches, keeps, link⟩, loops⟩
        · cases goesOn with
          | false => cases entered
          | true =>
            obtain ⟨directory, recursive, below⟩ := enter_error entered
            have further := reaches.step keeps (fun _ => follows) directory recursive
            exact ih further (by omega) (Host.listing_of_isDir directory) below
    · cases impossible

end Runs

section Locations

variable {depth : Nat} {current : List String} {relative name : String} {item : Found}

/-- Inside a directory that is inside, what is no link that leads out is inside. -/
theorem staysInside_child (stays : walker.StaysInside current)
    (listed : walker.host.listing current ≠ none)
    (checked : walker.host.isSymlink current name = true →
      ¬ walker.LeadsOutside (current ++ [name]))
    (resolves : ∃ real, walker.host.tree.Resolves [] (downSteps (current ++ [name])) real) :
    walker.StaysInside (current ++ [name]) := by
  cases link : walker.host.isSymlink current name with
  | true =>
    obtain ⟨real, resolves⟩ := resolves
    refine ⟨real, resolves, ?_⟩
    by_contra outside
    exact checked link ⟨real, resolves, outside⟩
  | false =>
    obtain ⟨own, inside, within⟩ := stays
    obtain ⟨real, same, plain⟩ := Host.child_of_plain listed link
    rw [inside.unique same] at within
    refine ⟨real ++ [name], ?_, within.trans (List.prefix_append _ _)⟩
    rw [downSteps_concat]
    exact same.append (.plain plain .done)

private theorem staysInside_root : walker.StaysInside walker.root := by
  have free : walker.host.tree.LinkFree ([] ++ walker.root) := walker.resolved
  exact ⟨walker.root, free.resolves, List.prefix_rfl⟩

theorem Keeps.listing {normalized : ObjectKey}
    (keeps : walker.Keeps current relative name normalized) :
    walker.host.listing current ≠ none := by
  obtain ⟨names, listed, _⟩ := keeps.listed
  rw [listed]
  exact Option.some_ne_none names

/-- Every followed link leads to a place inside. -/
def Checked (walker : Walker) : Prop :=
  walker.Follows → ∀ link, walker.ComesUpon link → ¬ walker.LeadsOutside link

private theorem Reaches.staysInside (checked : walker.Checked)
    (reaches : walker.Reaches depth current relative) : walker.StaysInside current := by
  induction reaches with
  | root => exact staysInside_root
  | step reaches keeps follows directory _ ih =>
    apply staysInside_child ih keeps.listing
    · intro link
      exact checked (follows link) _ ⟨_, _, _, _, _, rfl, reaches, keeps, link⟩
    · exact Host.resolves_of_isDir directory

private theorem Emits.staysInside (checked : walker.Checked) (emits : walker.Emits item) :
    walker.StaysInside item.location := by
  obtain ⟨depth, current, relative, name, normalized, reaches, keeps, passed, own, entry⟩ := emits
  have resolves : ∃ real, walker.host.tree.Resolves [] (downSteps item.location) real := by
    rcases entry with ⟨directory, _⟩ | ⟨file, opened, _⟩
    · exact Host.resolves_of_isDir directory
    · exact Host.resolves_of_file? opened
  rw [own] at resolves ⊢
  apply staysInside_child (reaches.staysInside checked) keeps.listing _ resolves
  intro link
  exact checked (checkLink_true passed link) _ ⟨_, _, _, _, _, rfl, reaches, keeps, link⟩

/-- A child that is no link, in a directory no link leads to. -/
theorem linkFree_child (free : walker.host.tree.LinkFree current)
    (listed : walker.host.listing current ≠ none)
    (plain : walker.host.isSymlink current name = false) :
    walker.host.tree.LinkFree (current ++ [name]) := by
  obtain ⟨real, resolves, absent⟩ := Host.child_of_plain listed plain
  have own : walker.host.tree.Resolves [] (downSteps current) current := by
    have leading : walker.host.tree.LinkFree ([] ++ current) := free
    exact leading.resolves
  rw [← own.unique resolves] at absent
  exact free.snoc absent

theorem Reaches.linkFree (direct : ¬ walker.Follows)
    (reaches : walker.Reaches depth current relative) : walker.host.tree.LinkFree current := by
  induction reaches with
  | root => exact walker.resolved
  | step _ keeps follows _ _ ih =>
    apply linkFree_child ih keeps.listing
    exact Bool.eq_false_of_not_eq_true fun link => direct (follows link)

theorem Emits.linkFree (direct : ¬ walker.Follows) (emits : walker.Emits item) :
    walker.host.tree.LinkFree item.location := by
  obtain ⟨depth, current, relative, name, normalized, reaches, keeps, passed, own, _⟩ := emits
  rw [own]
  apply linkFree_child (reaches.linkFree direct) keeps.listing
  exact Bool.eq_false_of_not_eq_true fun link => direct (checkLink_true passed link)

end Locations

section Refusals

variable {found : List Found} {link : List String}

/-- Without `include`, a walk that ends well has led nowhere outside. -/
theorem checked_of_run (without : walker.rules.includes = []) (walked : walker.run = .ok found) :
    walker.Checked := by
  rintro follows _ ⟨depth, current, relative, name, normalized, rfl, reaches, keeps, link⟩
    ⟨outside, leads, apart⟩
  obtain ⟨calls, below, _, walked, _⟩ := reaches.walked walked
  obtain ⟨_, goesOn, _, passed, _⟩ := walk_visits walked keeps
  obtain ⟨_, target, resolves, inside⟩ := checkLink_ok passed link follows
  rw [leads.unique resolves] at apart
  exact apart (inside without)

theorem Stops.raises (stops : walker.Stops) (follows : walker.Follows) :
    walker.run ≠ .ok found := by
  intro walked
  rcases stops with ⟨current, relative, reaches⟩ | ⟨_, comesUpon, loops⟩
  · obtain ⟨calls, below, total, walked, _⟩ := reaches.walked walked
    obtain ⟨fewer, _, _, rfl, _⟩ := walk_ok walked
    omega
  · obtain ⟨depth, current, relative, name, normalized, rfl, reaches, keeps, link⟩ := comesUpon
    obtain ⟨calls, below, _, walked, _⟩ := reaches.walked walked
    obtain ⟨_, goesOn, _, passed, _⟩ := walk_visits walked keeps
    obtain ⟨_, target, resolves, _⟩ := checkLink_ok passed link follows
    exact loops target resolves

private theorem Reaches.root_listed {depth : Nat} {current : List String} {relative : String}
    (reaches : walker.Reaches depth current relative)
    (listed : walker.host.listing current ≠ none) :
    walker.host.listing walker.root ≠ none := by
  induction reaches with
  | root => exact listed
  | step _ keeps _ _ _ ih => exact ih keeps.listing

/-- With `include`, a walk that raises has stopped. -/
theorem stops_of_run {raised : WalkError} (follows : walker.Follows)
    (some : walker.rules.includes ≠ []) (comesUpon : walker.ComesUpon link)
    (failed : walker.run = .error raised) : walker.Stops := by
  obtain ⟨depth, current, relative, name, normalized, _, reaches, keeps, _⟩ := comesUpon
  exact walk_stops follows some .root rfl (reaches.root_listed keeps.listing) failed

end Refusals

end Walker

section Whole

variable {host : Host} {settings : WalkSettings} {directoryPath : List (PathStep String)}
  {walker : Walker} {files directories : List Found}

private theorem loadIgnoreFile_includes {rules loaded : IgnoreRules} {directory : List String}
    (read : rules.loadIgnoreFile host directory = .ok loaded) :
    loaded.includes = rules.includes := by
  simp only [IgnoreRules.loadIgnoreFile] at read
  split at read
  · cases read
  · split at read <;> cases read <;> rfl

theorem openWalk_ok (opened : openWalk host settings directoryPath = .ok walker) :
    walker.host = host ∧ walker.rules.includes = settings.includes ∧
      walker.symlinkPolicy = settings.symlinkPolicy := by
  unfold openWalk at opened
  split at opened
  · cases opened
  · obtain ⟨rules, read, opened⟩ := except_bind_eq_ok.mp opened
    cases opened
    exact ⟨rfl, loadIgnoreFile_includes read, rfl⟩

private theorem walkDirectory_eq (opened : openWalk host settings directoryPath = .ok walker) :
    walkDirectory host settings directoryPath = walker.run.map filesAndDirectories := by
  unfold walkDirectory
  rw [opened]
  rfl

theorem walkDirectory_ok (opened : openWalk host settings directoryPath = .ok walker)
    (walked : walkDirectory host settings directoryPath = .ok (files, directories)) :
    ∃ found, walker.run = .ok found ∧ filesAndDirectories found = (files, directories) := by
  rw [walkDirectory_eq opened] at walked
  cases ran : walker.run with
  | error raised => rw [ran] at walked; cases walked
  | ok found => rw [ran] at walked; exact ⟨found, rfl, Except.ok.inj walked⟩

private theorem walkDirectory_raises (opened : openWalk host settings directoryPath = .ok walker) :
    (∃ raised, walkDirectory host settings directoryPath = .error raised) ↔
      ∃ raised, walker.run = .error raised := by
  rw [walkDirectory_eq opened]
  cases walker.run with
  | error raised => exact iff_of_true ⟨raised, rfl⟩ ⟨raised, rfl⟩
  | ok found => exact iff_of_false (by rintro ⟨_, impossible⟩; cases impossible) (by simp)

/-- Every listed item was emitted. -/
theorem walkDirectory_emits (opened : openWalk host settings directoryPath = .ok walker)
    (walked : walkDirectory host settings directoryPath = .ok (files, directories)) :
    ∀ item ∈ files ++ directories, walker.Emits item := by
  obtain ⟨found, ran, same⟩ := walkDirectory_ok opened walked
  cases same
  intro item member
  apply Walker.walk_emits .root ran
  rcases List.mem_append.mp member with file | directory
  · exact List.mem_of_mem_filter file
  · exact List.mem_of_mem_filter directory

/-- What is returned is a walk in the sense of the upload. -/
theorem walkDirectory_isWalk
    (walked : walkDirectory host settings directoryPath = .ok (files, directories)) :
    ∃ walk : Walk host.nfc, walk.files = files.map (·.entry) ∧
      walk.directories = directories.map (·.entry) := by
  obtain ⟨walker, opened, ran⟩ := except_bind_eq_ok.mp walked
  have emits := walkDirectory_emits opened walked
  obtain ⟨found, _, same⟩ := walkDirectory_ok opened walked
  obtain ⟨sameHost, _⟩ := openWalk_ok opened
  cases same
  refine ⟨⟨_, _, ?_, ?_, ?_⟩, rfl, rfl⟩
  · intro entry member
    obtain ⟨item, present, rfl⟩ := List.mem_map.mp member
    exact of_decide_eq_true (List.mem_filter.mp present).2
  · intro entry member
    obtain ⟨item, present, rfl⟩ := List.mem_map.mp member
    exact of_decide_eq_true (List.mem_filter.mp present).2
  · intro entry member
    rw [← List.map_append] at member
    obtain ⟨item, present, rfl⟩ := List.mem_map.mp member
    obtain ⟨depth, current, relative, name, normalized, _, keeps, _, _, entry⟩ :=
      emits item (List.mem_append.mpr (List.mem_append.mp present).symm)
    refine ⟨childRelative relative name, ?_⟩
    rw [← sameHost]
    rcases entry with ⟨_, same⟩ | ⟨file, _, same⟩ <;> rw [same] <;> exact keeps.normalizes

/-- What the walk promises about links: no file from outside, nothing reached through a link
where links are not followed, and no silence about one that leads outside. -/
structure Confined (host : Host) (settings : WalkSettings)
    (directoryPath : List (PathStep String)) (walker : Walker) : Prop where
  inside : ∀ files directories,
    walkDirectory host settings directoryPath = .ok (files, directories) →
    ∀ item ∈ files, walker.StaysInside item.location
  direct : ¬ walker.Follows → ∀ files directories,
    walkDirectory host settings directoryPath = .ok (files, directories) →
    ∀ item ∈ files ++ directories, walker.host.tree.LinkFree item.location
  refused : walker.Follows → ∀ link, walker.ComesUpon link → walker.LeadsOutside link →
    ∃ raised, walkDirectory host settings directoryPath = .error raised

/-- Where nothing leads out unseen, whatever comes back is inside. -/
theorem confined_of_checked (opened : openWalk host settings directoryPath = .ok walker)
    (checked : ∀ found, walker.run = .ok found → walker.Checked) :
    Confined host settings directoryPath walker where
  inside := by
    intro files directories walked item member
    obtain ⟨found, ran, _⟩ := walkDirectory_ok opened walked
    have emits := walkDirectory_emits opened walked item (List.mem_append_left _ member)
    exact emits.staysInside (checked found ran)
  direct := by
    intro direct files directories walked item member
    exact (walkDirectory_emits opened walked item member).linkFree direct
  refused := by
    intro follows link comesUpon outside
    rw [walkDirectory_raises opened]
    cases ran : walker.run with
    | error raised => exact ⟨raised, rfl⟩
    | ok found => exact absurd outside (checked found ran follows link comesUpon)

/-- The walk keeps its promise where links are not followed, where `include` is empty, where no
link leads outside, and where it stops for another reason. -/
theorem walk_confined_iff (host : Host) (settings : WalkSettings)
    (directoryPath : List (PathStep String)) :
    (∀ walker, openWalk host settings directoryPath = .ok walker →
      Confined host settings directoryPath walker) ↔
    settings.symlinkPolicy ∈ ["ignore", "error"] ∨ settings.includes = [] ∨
      ∀ walker, openWalk host settings directoryPath = .ok walker →
        (∀ link, walker.ComesUpon link → ¬ walker.LeadsOutside link) ∨ walker.Stops := by
  constructor
  · intro confined
    by_contra fails
    simp only [not_or, not_forall] at fails
    obtain ⟨policy, some, walker, opened, unchecked, goesOn⟩ := fails
    obtain ⟨link, comesUpon, outside⟩ := unchecked
    obtain ⟨_, sameIncludes, samePolicy⟩ := openWalk_ok opened
    have follows : walker.Follows := by
      unfold Walker.Follows
      rw [samePolicy]
      simpa using policy
    rw [← sameIncludes] at some
    have raises := (confined walker opened).refused follows link comesUpon (not_not.mp outside)
    obtain ⟨raised, failed⟩ := (walkDirectory_raises opened).mp raises
    exact goesOn (Walker.stops_of_run follows some comesUpon failed)
  · intro guarded walker opened
    obtain ⟨_, sameIncludes, samePolicy⟩ := openWalk_ok opened
    apply confined_of_checked opened
    intro found ran
    rcases guarded with policy | without | each
    · intro follows
      rw [← samePolicy] at policy
      rcases List.mem_pair.mp policy with ignores | refuses
      · exact absurd ignores follows.1
      · exact absurd refuses follows.2
    · rw [← sameIncludes] at without
      exact Walker.checked_of_run without ran
    · rcases each walker opened with checked | stops
      · exact fun _ => checked
      · exact fun follows => absurd ran (stops.raises follows)

def linkedHost : Host where
  tree := ⟨List.toAList [⟨["secret"], .file ⟨[112, 119], 7⟩⟩, ⟨["share"], .directory⟩,
    ⟨["share", "notes"], .link ⟨true, [.down "secret"]⟩⟩]⟩
  linkLimit := 40
  recursionLimit := 900
  nfc := id
  sha256 := fun _ => ""

def includeAll : WalkSettings := { includes := ["*"], symlinkPolicy := "follow" }

/-- With any `include`, the file outside is emitted as if it were one of the directory. -/
theorem linked_secret_is_emitted :
    ¬ ∀ walker, openWalk linkedHost includeAll [.down "share"] = .ok walker →
      Confined linkedHost includeAll [.down "share"] walker := by
  intro confined
  have roots : (openWalk linkedHost includeAll [.down "share"]).map (·.root) = .ok ["share"] := by
    decide +kernel
  have walked : (walkDirectory linkedHost includeAll [.down "share"]).map
      (fun lists => lists.1.map (·.location)) = .ok [["share", "notes"]] := by decide +kernel
  have real : linkedHost.tree.realpath (downSteps ["share", "notes"]) = some ["secret"] := by
    decide +kernel
  cases opened : openWalk linkedHost includeAll [.down "share"] with
  | error raised => rw [opened] at roots; cases roots
  | ok walker =>
    rw [opened] at roots
    obtain ⟨sameHost, _⟩ := openWalk_ok opened
    cases result : walkDirectory linkedHost includeAll [.down "share"] with
    | error raised => rw [result] at walked; cases walked
    | ok lists =>
      rw [result] at walked
      have locations : lists.1.map (·.location) = [["share", "notes"]] := Except.ok.inj walked
      have member : ["share", "notes"] ∈ lists.1.map (·.location) := by
        rw [locations]
        exact List.mem_singleton_self _
      obtain ⟨item, present, own⟩ := List.mem_map.mp member
      obtain ⟨target, resolves, inside⟩ := (confined walker opened).inside _ _ result item present
      rw [own, sameHost] at resolves
      rw [← (LinkTree.realpath_eq_some.mp real).unique resolves] at inside
      have root : walker.root = ["share"] := Except.ok.inj roots
      rw [root] at inside
      exact absurd inside (by decide)

end Whole

end PyUploadX.Sdk
