import PyUploadX.Kit.Settling
import PyUploadX.Sdk.Readings

/-! A walk that follows links ends, since the paths it makes grow with every directory it enters
and only so many segments are accepted. -/
namespace PyUploadX.Sdk

open Kit Filter

/-- The machine with a stack for so many calls, and with so many links allowed on one path. -/
def Host.limited (host : Host) (linkLimit recursionLimit : Nat) : Host :=
  { host with linkLimit, recursionLimit }

/-- No name is lost in normalization: one name is one segment. -/
structure SegmentNames (host : Host) : Prop where
  names : ∀ path ∈ host.tree.entries.keys, ∀ name ∈ path,
    OrdinarySegment name ∧ '\\' ∉ name.toList
  composed : ∀ segment, OrdinarySegment segment → OrdinarySegment (host.nfc segment)

namespace Walker

section Depth

variable {walker : Walker} {depth calls : Nat} {current : List String} {relative name : String}
  {normalized : ObjectKey} {found : List Found}
  {descend other : List String → String → Except WalkError (List Found)}

theorem Keeps.bounded (keeps : walker.Keeps current relative name normalized) :
    normalized.segments.length ≤ 64 := by
  obtain ⟨accepted, segments⟩ := normalizeRelativePath_iff.mp keeps.normalizes
  rw [segments]
  by_contra deep
  exact accepted (.inr (.inr (.inr (.inr (.inl (Nat.lt_of_not_le deep))))))

/-- One segment more with every directory. -/
theorem Reaches.grows (forms : NormalForms walker.host.nfc) (single : SegmentNames walker.host)
    (reaches : walker.Reaches depth current relative) :
    ∃ names, Spells walker.host.nfc names relative ∧
      (reading walker.host.nfc names).length = depth := by
  obtain ⟨names, _, length, present, spells⟩ := reaches.names forms
  refine ⟨names, spells, ?_⟩
  have each : ∀ name ∈ names, (readName walker.host.nfc name).length = 1 := by
    intro name member
    obtain ⟨above, entry⟩ := present name member
    obtain ⟨ordinary, forward⟩ :=
      single.names _ entry name (List.mem_append_right _ List.mem_cons_self)
    rw [readName_of_forward forward (single.composed name ordinary)]
    rfl
  rw [reading, List.length_flatMap, List.map_congr_left each, List.map_const', List.sum_replicate_nat,
    length, Nat.mul_one]

theorem Reaches.depth_le (forms : NormalForms walker.host.nfc) (single : SegmentNames walker.host)
    (reaches : walker.Reaches depth current relative) : depth ≤ 64 := by
  obtain ⟨names, spells, count⟩ := reaches.grows forms single
  rw [← count]
  cases reaches with
  | root => rw [count]; exact Nat.zero_le 64
  | step _ keeps _ _ _ =>
    rcases spells with ⟨_, empty⟩ | ⟨key, same, segments, _⟩
    · exact absurd empty (ObjectKey.text_ne_empty _)
    · rw [← segments, ← ObjectKey.text_injective same]
      exact keeps.bounded

private theorem enter_congr {child : List String}
    (same : walker.host.isDir child = true → walker.isRecursive = true →
      descend child normalized.text = other child normalized.text) :
    walker.enter descend child normalized = walker.enter other child normalized := by
  unfold enter
  by_cases directory : walker.host.isDir child = true
  · rw [if_pos directory, if_pos directory]
    by_cases recursive : walker.isRecursive = true
    · rw [if_pos recursive, if_pos recursive, same directory recursive]
    · rw [if_neg recursive, if_neg recursive]
  · rw [if_neg directory, if_neg directory]

/-- A visit asks only for the directories the walk reaches. -/
theorem visit_congr (same : ∀ normalized, walker.Keeps current relative name normalized →
      (walker.host.isSymlink current name = true → walker.Follows) →
      walker.host.isDir (current ++ [name]) = true → walker.isRecursive = true →
      descend (current ++ [name]) normalized.text = other (current ++ [name]) normalized.text)
    {names : List String} (listed : walker.host.listing current = some names)
    (member : name ∈ names) :
    walker.visit descend current relative name = walker.visit other current relative name := by
  by_cases kept : ∃ normalized, walker.Keeps current relative name normalized
  · obtain ⟨normalized, keeps⟩ := kept
    rw [visit_kept keeps, visit_kept keeps]
    cases checked : walker.checkLink current name with
    | error raised => rfl
    | ok goesOn =>
      cases goesOn with
      | false => rfl
      | true => exact enter_congr (same normalized keeps (checkLink_true checked))
  · rw [(visit_cases listed member).resolve_right kept, (visit_cases listed member).resolve_right kept]

/-- Below the depth that is reached, one call more makes no difference. -/
theorem walk_succ (bounded : ∀ depth current relative,
      walker.Reaches depth current relative → depth ≤ 64)
    (reaches : walker.Reaches depth current relative) (enough : 64 < calls + depth) :
    walker.walk (calls + 1) current relative = walker.walk calls current relative := by
  induction calls generalizing depth current relative with
  | zero =>
    have limit := bounded depth current relative reaches
    omega
  | succ calls ih =>
    unfold walk
    cases listed : walker.host.listing current with
    | none => rfl
    | some names =>
      have visits : names.mapM (walker.visit (walker.walk (calls + 1)) current relative) =
          names.mapM (walker.visit (walker.walk calls) current relative) := by
        apply except_mapM_congr
        intro name member
        apply visit_congr _ listed member
        intro normalized keeps follows directory recursive
        exact ih (reaches.step keeps follows directory recursive) (by omega)
      exact congrArg (· >>= fun found => pure found.flatten) visits

private theorem walk_bounded (bounded : ∀ depth current relative,
      walker.Reaches depth current relative → depth ≤ 64) (enough : 64 < calls) :
    walker.walk calls walker.root "" = walker.walk 65 walker.root "" := by
  induction calls, enough using Nat.le_induction with
  | base => rfl
  | succ calls within ih =>
    rw [← ih]
    exact walk_succ bounded .root within

private theorem checkLink_ne_recursion : walker.checkLink current name ≠ .error .recursion := by
  intro failed
  simp only [checkLink] at failed
  split_ifs at failed
  · cases failed
  · split at failed
    · cases failed
    · split_ifs at failed
      cases failed

theorem walk_ne_recursion (bounded : ∀ depth current relative,
      walker.Reaches depth current relative → depth ≤ 64)
    (reaches : walker.Reaches depth current relative) (enough : 64 < calls + depth) :
    walker.walk calls current relative ≠ .error .recursion := by
  induction calls generalizing depth current relative with
  | zero =>
    have limit := bounded depth current relative reaches
    omega
  | succ calls ih =>
    intro overflows
    unfold walk at overflows
    split at overflows
    · cases overflows
    · rename_i names listed
      rcases except_bind_eq_error.mp overflows with stopped | ⟨_, _, impossible⟩
      · obtain ⟨name, present, visit⟩ := except_mapM_error stopped
        rcases visit_cases listed present with nothing | ⟨normalized, keeps⟩
        · rw [nothing] at visit
          cases visit
        · rw [visit_kept keeps] at visit
          rcases except_bind_eq_error.mp visit with refused | ⟨goesOn, checked, entered⟩
          · exact checkLink_ne_recursion refused
          · cases goesOn with
            | false => cases entered
            | true =>
              obtain ⟨directory, recursive, below⟩ := enter_error entered
              have further := reaches.step keeps (checkLink_true checked) directory recursive
              exact ih further (by omega) below
      · cases impossible

end Depth

/-- The same walk on the machine with other limits. -/
def limited (walker : Walker) (linkLimit recursionLimit : Nat) : Walker :=
  { walker with host := walker.host.limited linkLimit recursionLimit }

end Walker

section Links

variable (host : Host) (recursionLimit : Nat) (path : List String)

private theorem Host.arrives_settles :
    EventuallyConst (fun links => (host.limited links recursionLimit).arrives path) atTop :=
  settles_of_found fun _ _ found => LinkTree.follow_succ found

private theorem Host.isDir_settles :
    EventuallyConst (fun links => (host.limited links recursionLimit).isDir path) atTop := by
  apply settles_of_eq (host.arrives_settles recursionLimit path)
  intro limit other same
  unfold Host.isDir
  rw [same]
  rfl

private theorem Host.file?_settles :
    EventuallyConst (fun links => (host.limited links recursionLimit).file? path) atTop := by
  apply settles_of_eq (host.arrives_settles recursionLimit path)
  intro limit other same
  unfold Host.file?
  rw [same]
  rfl

private theorem Host.listing_settles :
    EventuallyConst (fun links => (host.limited links recursionLimit).listing path) atTop := by
  apply settles_of_eq (host.arrives_settles recursionLimit path)
  intro limit other same
  unfold Host.listing
  rw [same]
  rfl

private theorem Host.isSymlink_settles (name : String) :
    EventuallyConst (fun links => (host.limited links recursionLimit).isSymlink path name) atTop := by
  apply settles_of_eq (host.arrives_settles recursionLimit path)
  intro limit other same
  unfold Host.isSymlink
  rw [same]
  rfl

private theorem IgnoreRules.loadIgnoreFile_settles (rules : IgnoreRules) :
    EventuallyConst (fun links => rules.loadIgnoreFile (host.limited links recursionLimit) path)
      atTop := by
  apply settles_of_eq (host.arrives_settles recursionLimit (path ++ [rules.ignoreFileName]))
  intro limit other same
  unfold IgnoreRules.loadIgnoreFile Host.isDir Host.file?
  dsimp only
  rw [same]
  rfl

end Links

namespace Walker

variable (walker : Walker) (recursionLimit : Nat) (current : List String)

private theorem checkLink_settles (name : String) :
    EventuallyConst (fun links => (walker.limited links recursionLimit).checkLink current name)
      atTop := by
  apply settles_of_eq (walker.host.isSymlink_settles recursionLimit current name)
  intro limit other same
  unfold checkLink
  change (walker.limited limit recursionLimit).host.isSymlink current name =
    (walker.limited other recursionLimit).host.isSymlink current name at same
  rw [same]
  rfl

private theorem enter_settles {descend : Nat → List String → String → Except WalkError (List Found)}
    (each : ∀ child relative, EventuallyConst (fun links => descend links child relative) atTop)
    (child : List String) (normalized : ObjectKey) :
    EventuallyConst
      (fun links => (walker.limited links recursionLimit).enter (descend links) child normalized)
      atTop := by
  have parts := ((walker.host.isDir_settles recursionLimit child).prodMk
    (walker.host.file?_settles recursionLimit child)).prodMk (each child normalized.text)
  apply settles_of_eq parts
  intro limit other same
  obtain ⟨sameNode, below⟩ := Prod.mk.inj same
  obtain ⟨directory, file⟩ := Prod.mk.inj sameNode
  change (walker.limited limit recursionLimit).host.isDir child =
    (walker.limited other recursionLimit).host.isDir child at directory
  change (walker.limited limit recursionLimit).host.file? child =
    (walker.limited other recursionLimit).host.file? child at file
  unfold enter
  rw [directory, file, below]
  rfl

private theorem visit_settles {descend : Nat → List String → String → Except WalkError (List Found)}
    (each : ∀ child relative, EventuallyConst (fun links => descend links child relative) atTop)
    (relative name : String) :
    EventuallyConst (fun links =>
      (walker.limited links recursionLimit).visit (descend links) current relative name) atTop := by
  cases normalizes : normalizeRelativePath walker.host.nfc (childRelative relative name) with
  | error message =>
    have refused : ∀ links, normalizeRelativePath (walker.limited links recursionLimit).host.nfc
        (childRelative relative name) = .error message := fun _ => normalizes
    apply settles_of_eq (.const () : EventuallyConst (fun _ : Nat => ()) atTop)
    intro limit other _
    unfold visit
    rw [refused, refused]
  | ok normalized =>
    have accepted : ∀ links, normalizeRelativePath (walker.limited links recursionLimit).host.nfc
        (childRelative relative name) = .ok normalized := fun _ => normalizes
    have parts := (walker.checkLink_settles recursionLimit current name).prodMk
      (walker.enter_settles recursionLimit each (current ++ [name]) normalized)
    apply settles_of_eq parts
    intro limit other same
    obtain ⟨checked, entered⟩ := Prod.mk.inj same
    unfold visit
    rw [accepted, accepted]
    dsimp only
    rw [checked, entered]
    rfl

private theorem walk_settles (calls : Nat) (relative : String) :
    EventuallyConst (fun links => (walker.limited links recursionLimit).walk calls current relative)
      atTop := by
  induction calls generalizing current relative with
  | zero => exact .const _
  | succ calls ih =>
    obtain ⟨bound, stays⟩ :=
      eventuallyConst_atTop.mp (walker.host.listing_settles recursionLimit current)
    cases listed : (walker.host.limited bound recursionLimit).listing current with
    | none =>
      have missing : ∀ links, bound ≤ links →
          (walker.limited links recursionLimit).walk (calls + 1) current relative =
            .error .notADirectory := by
        intro links within
        have none : (walker.limited links recursionLimit).host.listing current = none :=
          (stays links within).trans listed
        unfold walk
        rw [none]
      refine eventuallyConst_atTop.mpr ⟨bound, fun links within => ?_⟩
      exact (missing links within).trans (missing bound (le_refl bound)).symm
    | some names =>
      have visits := settles_bind
        (settles_mapM (fun name => walker.visit_settles recursionLimit current ih relative name) names)
        fun found => (.const _ : EventuallyConst
          (fun _ : Nat => (pure found.flatten : Except WalkError (List Found))) atTop)
      apply visits.congr
      refine eventually_atTop.mpr ⟨bound, fun links within => ?_⟩
      have some : (walker.limited links recursionLimit).host.listing current = some names :=
        (stays links within).trans listed
      have step : (walker.limited links recursionLimit).walk (calls + 1) current relative =
          names.mapM ((walker.limited links recursionLimit).visit
            ((walker.limited links recursionLimit).walk calls) current relative) >>=
              fun found => pure found.flatten := by
        conv_lhs => unfold walk
        rw [some]
      exact step.symm

/-- Nothing but the start of a walk asks how many calls there are. -/
theorem limited_walk (links first second calls : Nat) :
    (walker.limited links first).walk calls = (walker.limited links second).walk calls := by
  induction calls with
  | zero => rfl
  | succ calls ih =>
    funext current relative
    unfold walk
    rw [ih]
    rfl

end Walker

section Whole

variable {host : Host} {settings : WalkSettings} {directoryPath : List (PathStep String)}
  {root : List String}

private theorem SegmentNames.limited (single : SegmentNames host) (linkLimit recursionLimit : Nat) :
    SegmentNames (host.limited linkLimit recursionLimit) :=
  ⟨single.names, single.composed⟩

/-- The rules before the ignore file is read. -/
def WalkSettings.rules (settings : WalkSettings) : IgnoreRules :=
  { defaultIgnoreRules with
    includes := settings.includes
    excludes := defaultIgnoreRules.excludes ++ settings.excludes }

def rootedWalker (host : Host) (settings : WalkSettings) (root : List String)
    (resolved : host.tree.LinkFree root) (rules : IgnoreRules) : Walker where
  host
  root
  rules
  isRecursive := settings.isRecursive
  symlinkPolicy := settings.symlinkPolicy
  resolved

theorem walkDirectory_rooted (resolves : host.tree.realpath directoryPath = some root)
    (resolved : host.tree.LinkFree root) :
    walkDirectory host settings directoryPath = (do
      let rules ← settings.rules.loadIgnoreFile host root
      ((rootedWalker host settings root resolved rules).walk host.recursionLimit root "").map
        filesAndDirectories) := by
  unfold walkDirectory openWalk
  split
  · rename_i loops
    rw [resolves] at loops
    cases loops
  · rename_i other found
    cases Option.some.inj (resolves.symm.trans found)
    change (settings.rules.loadIgnoreFile host root >>= fun rules =>
      pure (rootedWalker host settings root resolved rules)) >>=
        (fun walker => walker.run.map filesAndDirectories) = _
    cases settings.rules.loadIgnoreFile host root with
    | error raised => rfl
    | ok rules => rfl

private theorem loadIgnoreFile_ne_recursion {rules : IgnoreRules} {directory : List String} :
    rules.loadIgnoreFile host directory ≠ .error .recursion := by
  intro failed
  simp only [IgnoreRules.loadIgnoreFile] at failed
  split at failed
  · cases failed
  · split at failed <;> cases failed

/-- On a stack that never ends the walk comes to a result, and to the same one with ever more links
allowed on a path. -/
structure Terminates (host : Host) (settings : WalkSettings)
    (directoryPath : List (PathStep String)) : Prop where
  ends : ∀ linkLimit, ∃ result, result ≠ .error .recursion ∧ ∀ recursionLimit > 64,
    walkDirectory (host.limited linkLimit recursionLimit) settings directoryPath = result
  settles : ∃ links, ∀ linkLimit ≥ links, ∀ recursionLimit > 64,
    walkDirectory (host.limited linkLimit recursionLimit) settings directoryPath =
      walkDirectory (host.limited links recursionLimit) settings directoryPath

/-- The walk with 65 calls, which is the walk with more of them. -/
theorem walkDirectory_limited (forms : NormalForms host.nfc) (single : SegmentNames host)
    (resolves : host.tree.realpath directoryPath = some root) (resolved : host.tree.LinkFree root)
    (linkLimit : Nat) {recursionLimit : Nat} (enough : 64 < recursionLimit) :
    walkDirectory (host.limited linkLimit recursionLimit) settings directoryPath = (do
      let rules ← settings.rules.loadIgnoreFile (host.limited linkLimit 65) root
      (((rootedWalker host settings root resolved rules).limited linkLimit 65).walk 65 root "").map
        filesAndDirectories) := by
  have rooted := @walkDirectory_rooted (host.limited linkLimit recursionLimit) settings
    directoryPath root resolves resolved
  have same : ∀ rules, (rootedWalker (host.limited linkLimit recursionLimit) settings root resolved
        rules).walk recursionLimit root "" =
      ((rootedWalker host settings root resolved rules).limited linkLimit 65).walk 65 root "" := by
    intro rules
    let walker := (rootedWalker host settings root resolved rules).limited linkLimit 65
    have stack := Walker.limited_walk (rootedWalker host settings root resolved rules) linkLimit
      recursionLimit 65 recursionLimit
    have bounded : walker.walk recursionLimit walker.root "" = walker.walk 65 walker.root "" :=
      Walker.walk_bounded (fun _ _ _ reaches => reaches.depth_le forms (single.limited linkLimit 65))
        enough
    exact (congrFun (congrFun stack root) "").trans bounded
  rw [rooted]
  exact congrArg (_ >>= ·) (funext fun rules => congrArg (Except.map filesAndDirectories) (same rules))

/-- A link that leads to itself on the way to the root is an end too. -/
theorem terminates_of_loop (loops : host.tree.realpath directoryPath = none) :
    Terminates host settings directoryPath := by
  have raises : ∀ linkLimit recursionLimit,
      walkDirectory (host.limited linkLimit recursionLimit) settings directoryPath =
        .error .symlinkLoop := by
    intro linkLimit recursionLimit
    have opened : openWalk (host.limited linkLimit recursionLimit) settings directoryPath =
        .error .symlinkLoop := by
      unfold openWalk
      split
      · rfl
      · rename_i root found
        cases loops.symm.trans found
    unfold walkDirectory
    rw [opened]
    rfl
  constructor
  · intro linkLimit
    refine ⟨.error .symlinkLoop, ?_, fun recursionLimit _ => raises linkLimit recursionLimit⟩
    intro same
    cases same
  · exact ⟨0, fun linkLimit _ recursionLimit _ => (raises _ _).trans (raises _ _).symm⟩

private theorem terminates_of_root (forms : NormalForms host.nfc) (single : SegmentNames host)
    (resolves : host.tree.realpath directoryPath = some root) :
    Terminates host settings directoryPath := by
  have resolved : host.tree.LinkFree root :=
    (LinkTree.realpath_eq_some.mp resolves).linkFree LinkTree.linkFree_nil
  constructor
  · intro linkLimit
    refine ⟨_, ?_, fun recursionLimit enough =>
      walkDirectory_limited forms single resolves resolved linkLimit enough⟩
    intro overflows
    rcases except_bind_eq_error.mp overflows with stopped | ⟨rules, _, stopped⟩
    · exact loadIgnoreFile_ne_recursion stopped
    · let walker := (rootedWalker host settings root resolved rules).limited linkLimit 65
      have walks : walker.walk 65 walker.root "" ≠ .error .recursion :=
        Walker.walk_ne_recursion
          (fun _ _ _ reaches => reaches.depth_le forms (single.limited linkLimit 65)) .root
          (Nat.lt_succ_self 64)
      change (walker.walk 65 walker.root "").map filesAndDirectories = _ at stopped
      cases walked : walker.walk 65 walker.root "" with
      | error raised =>
        rw [walked] at walks stopped
        cases stopped
        exact walks rfl
      | ok found =>
        rw [walked] at stopped
        cases stopped
  · have settles := settles_bind (settings.rules.loadIgnoreFile_settles host 65 root) fun rules =>
      ((rootedWalker host settings root resolved rules).walk_settles 65 root 65 "").comp
        (Except.map filesAndDirectories)
    obtain ⟨links, stays⟩ := eventuallyConst_atTop.mp settles
    refine ⟨links, fun linkLimit within recursionLimit enough => ?_⟩
    rw [walkDirectory_limited forms single resolves resolved linkLimit enough,
      walkDirectory_limited forms single resolves resolved links enough]
    exact stays linkLimit within

theorem Walker.Emits.bounded {walker : Walker} {item : Found} (emits : walker.Emits item) :
    item.entry.path.segments.length ≤ 64 := by
  obtain ⟨_, _, _, _, normalized, _, keeps, _, _, entry⟩ := emits
  have path : item.entry.path = normalized := by
    rcases entry with ⟨_, same⟩ | ⟨file, _, same⟩ <;> rw [same] <;> rfl
  rw [path]
  exact keeps.bounded

end Whole

/-- Wherever links lead back to: where one name is one segment the walk ends, and no path in its
result has more than 64 segments. -/
theorem walk_terminates (host : Host) (settings : WalkSettings)
    (directoryPath : List (PathStep String)) (forms : NormalForms host.nfc)
    (single : SegmentNames host) :
    Terminates host settings directoryPath ∧
      ∀ files directories, walkDirectory host settings directoryPath = .ok (files, directories) →
        ∀ item ∈ files ++ directories, item.entry.path.segments.length ≤ 64 := by
  constructor
  · cases resolves : host.tree.realpath directoryPath with
    | none => exact terminates_of_loop resolves
    | some root => exact terminates_of_root forms single resolves
  · intro files directories walked item member
    obtain ⟨walker, opened, _⟩ := except_bind_eq_ok.mp walked
    exact (walkDirectory_emits opened walked item member).bounded

def loopingHost : Host where
  tree := ⟨List.toAList [⟨["share"], .directory⟩, ⟨["share", "again"], .link ⟨false, [.here]⟩⟩]⟩
  linkLimit := 40
  recursionLimit := 900
  nfc := id
  sha256 := fun _ => ""

theorem looping_walk_terminates :
    Terminates loopingHost { symlinkPolicy := "follow" } [.down "share"] ∧
      ∀ files directories, walkDirectory loopingHost { symlinkPolicy := "follow" } [.down "share"] =
          .ok (files, directories) →
        ∀ item ∈ files ++ directories, item.entry.path.segments.length ≤ 64 :=
  walk_terminates loopingHost { symlinkPolicy := "follow" } [.down "share"] normalForms_id
    ⟨by decide +kernel, fun _ ordinary => ordinary⟩

end PyUploadX.Sdk
