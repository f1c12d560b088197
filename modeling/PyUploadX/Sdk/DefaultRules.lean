import PyUploadX.Sdk.Addresses
import PyUploadX.Sdk.Patterns

/-! What the default rules keep out of a walk, and what they let through. -/
namespace PyUploadX.Sdk

open Kit

def AsciiText (text : String) : Prop := ∀ char ∈ text.toList, char.toNat < 128

instance (text : String) : Decidable (AsciiText text) := List.decidableBAll _ text.toList

/-- What Unicode normalization does to ASCII: no character of it is composed with what stands
before it. -/
structure AsciiForms (nfc : String → String) : Prop where
  blank : nfc "" = ""
  behind : ∀ text suffix, AsciiText suffix → nfc (text ++ suffix) = nfc text ++ suffix

/-- The path that a walk makes of the names is accepted, and no rule excludes it. -/
def Passes (nfc : String → String) (names path : List String) : Prop :=
  ∃ parents name key, path = parents ++ [name] ∧
    normalizeRelativePath nfc (childRelative ("/".intercalate (reading nfc parents)) name) = .ok key ∧
    ¬ Excluded names key.segments

/-- Nothing on the way is skipped. -/
def Clear (nfc : String → String) (names path : List String) : Prop :=
  ".uploadignore" ∉ path ∧ ∀ front, front ≠ [] → front <+: path → Passes nfc names front

section Names

variable {nfc : String → String} {name : String} {names path : List String} {relative : String}

theorem AsciiForms.plain (forms : AsciiForms nfc) (ascii : AsciiText name)
    (forward : '\\' ∉ name.toList) : PlainName nfc name := by
  have whole := forms.behind "" name ascii
  rw [String.empty_append, forms.blank, String.empty_append] at whole
  exact ⟨whole, forward⟩

/-- What ends in `.tmp` is read as segments the last of which does. -/
theorem readName_tmp (forms : AsciiForms nfc) (stem : String) :
    ∃ above last, readName nfc (stem ++ ".tmp") = above ++ [last ++ ".tmp"] := by
  have slashed : forwardSlashes ".tmp" = ".tmp" := by decide +kernel
  obtain ⟨front, last, _, pieces⟩ :=
    @splitPath_append (nfc (forwardSlashes stem)) ".tmp" (by decide +kernel)
  have long : 4 ≤ (last ++ ".tmp").toList.length := by
    rw [String.toList_append, List.length_append]
    exact Nat.le_add_left 4 _
  have counts : ¬ (last ++ ".tmp" = "" ∨ last ++ ".tmp" = ".") := by
    rintro (blank | dot)
    · rw [blank] at long
      exact absurd long (by decide +kernel)
    · rw [dot] at long
      exact absurd long (by decide +kernel)
  refine ⟨meaningful front, last, ?_⟩
  unfold readName
  rw [forwardSlashes_append, slashed, forms.behind _ _ (by decide +kernel), pieces, meaningful_append,
    meaningful_cons counts]
  rfl

private theorem Spells.relative_eq (spells : Spells nfc path relative) :
    relative = "/".intercalate (reading nfc path) := by
  rcases spells with ⟨rfl, rfl⟩ | ⟨key, rfl, segments, _⟩
  · rfl
  · rw [← segments]
    rfl

/-- A directory below the root has a path. -/
theorem Spells.filled (spells : Spells nfc path relative) (below : path ≠ []) :
    reading nfc path ≠ [] := by
  rcases spells with ⟨empty, _⟩ | ⟨key, _, segments, _⟩
  · exact absurd empty below
  · rw [← segments]
    exact key.nonempty

theorem Clear.nil : Clear nfc names [] :=
  ⟨List.not_mem_nil, fun _ filled before => absurd (List.prefix_nil.mp before) filled⟩

theorem Clear.concat (clear : Clear nfc names path) (ordinary : name ≠ ".uploadignore")
    (passes : Passes nfc names (path ++ [name])) : Clear nfc names (path ++ [name]) := by
  constructor
  · intro member
    rcases List.mem_append.mp member with before | last
    · exact clear.1 before
    · exact ordinary (List.mem_singleton.mp last).symm
  · intro front filled before
    rcases List.prefix_concat_iff.mp before with rfl | before
    · exact passes
    · exact clear.2 front filled before

theorem Clear.of_prefix {front : List String} (clear : Clear nfc names path)
    (before : front <+: path) : Clear nfc names front :=
  ⟨fun member => clear.1 (before.subset member),
    fun leading filled inside => clear.2 leading filled (inside.trans before)⟩

theorem Clear.spells (forms : NormalForms nfc) (clear : Clear nfc names path) :
    Spells nfc path ("/".intercalate (reading nfc path)) := by
  induction path using List.reverseRecOn with
  | nil => exact .inl ⟨rfl, rfl⟩
  | append_singleton path name ih =>
    obtain ⟨parents, last, key, same, normalizes, _⟩ :=
      clear.2 (path ++ [name]) (by simp) List.prefix_rfl
    obtain ⟨rfl, single⟩ := List.append_inj' same rfl
    cases single
    have child := ((ih (clear.of_prefix (List.prefix_append _ _))).child forms normalizes).2
    rwa [← child.relative_eq]

private theorem Clear.not_excluded (forms : NormalForms nfc) (clear : Clear nfc names path)
    (filled : path ≠ []) : ¬ Excluded names (reading nfc path) := by
  obtain ⟨parents, name, key, rfl, normalizes, allowed⟩ := clear.2 path filled List.prefix_rfl
  have above := (clear.of_prefix (List.prefix_append parents [name])).spells forms
  rwa [← (above.child forms normalizes).1]

/-- A directory on the way has a path. -/
theorem Clear.filled (forms : NormalForms nfc) {front : List String} (clear : Clear nfc names path)
    (before : front <+: path) (below : front ≠ []) : reading nfc front ≠ [] :=
  ((clear.of_prefix before).spells forms).filled below

end Names

section Acceptance

variable {nfc : String → String} {names front rest : List String} {name : String}

private theorem childRelative_intercalate (ordinary : ∀ part ∈ front, OrdinarySegment part) :
    childRelative ("/".intercalate front) name = "/".intercalate (front ++ [name]) := by
  by_cases top : front = []
  · rw [top]
    exact (if_pos rfl).trans String.intercalate_singleton.symm
  · have filled : "/".intercalate front ≠ "" := ObjectKey.text_ne_empty ⟨front, top, ordinary⟩
    unfold childRelative
    rw [if_neg filled, String.intercalate_append_of_ne_nil top (List.cons_ne_nil _ _),
      String.intercalate_singleton]

/-- What an accepted path begins with is accepted, where it stays as it is. -/
theorem normalize_front (forms : NormalForms nfc) (filled : front ≠ [])
    (plain : ∀ part ∈ front, PlainName nfc part) (ordinary : ∀ part ∈ front, OrdinarySegment part)
    {whole : ObjectKey}
    (accepted : normalizeRelativePath nfc ("/".intercalate (front ++ rest)) = .ok whole) :
    normalizeRelativePath nfc ("/".intercalate front) = .ok ⟨front, filled, ordinary⟩ := by
  have same : nfc (forwardSlashes ("/".intercalate front)) = "/".intercalate front :=
    @Spells.text_eq nfc forms ⟨front, filled, ordinary⟩ plain
  have pieces : splitPath ("/".intercalate front) = front :=
    splitPath_text ⟨front, filled, ordinary⟩
  have counted : meaningful (splitPath ("/".intercalate front)) = front := by
    rw [pieces, meaningful_ordinary ordinary]
  refine normalizeRelativePath_iff.mpr ⟨?_, by rw [same, counted]⟩
  rw [same]
  intro refused
  by_cases last : rest = []
  · rw [last, List.append_nil] at accepted
    exact (normalizeRelativePath_iff.mp accepted).1 (by rwa [same])
  · rw [String.intercalate_append_of_ne_nil filled last] at accepted
    apply (normalizeRelativePath_iff.mp accepted).1
    rw [forwardSlashes_join, forms.join, same]
    exact refused.join (by rwa [counted]) _

end Acceptance

namespace Walker

variable {walker : Walker} {names path : List String}

/-- An entry is emitted for the names below the root. -/
def Lists (walker : Walker) (path : List String) : Prop :=
  ∃ item, walker.Emits item ∧ item.location = walker.root ++ path

/-- A regular file that no rule is about, nor about a directory above it. -/
structure Wanted (walker : Walker) (names path : List String) : Prop where
  regular : walker.host.file? (walker.root ++ path) ≠ none
  direct : walker.host.tree.LinkFree (walker.root ++ path)
  acceptable : ∃ key, normalizeRelativePath walker.host.nfc ("/".intercalate path) = .ok key
  named : ∃ parents name, path = parents ++ [name] ∧ name ≠ ".uploadignore" ∧
    ¬ BannedName names name ∧
    ∀ parent ∈ parents, parent ≠ ".git" ∧ parent ≠ "__pycache__" ∧ ¬ BannedName names parent

/-- What the rules are for: no file of a banned name, nothing below the two directories, and every
other file once. -/
structure Filtered (walker : Walker) (names : List String) (files directories : List Found) :
    Prop where
  banned : ∀ item ∈ files, ∀ above name, item.location = walker.root ++ (above ++ [name]) →
    ¬ BannedName names name
  hidden : ∀ item ∈ files ++ directories, ∀ above name below, below ≠ [] →
    item.location = walker.root ++ (above ++ name :: below) → name ≠ ".git" ∧ name ≠ "__pycache__"
  complete : ∀ path, walker.Wanted names path →
    (files.map (·.location)).count (walker.root ++ path) = 1

/-- The names lead through directories of the tree; nothing on the way is skipped, and a link is on
it only where links are followed. -/
structure Way (walker : Walker) (names path : List String) : Prop where
  clear : Clear walker.host.nfc names path
  listed : ∀ front name, front ++ [name] <+: path →
    ∃ others, walker.host.listing (walker.root ++ front) = some others ∧ name ∈ others
  followed : ∀ front name, front ++ [name] <+: path →
    walker.host.isSymlink (walker.root ++ front) name = true → walker.Follows

/-- A file or a directory that a walk comes by. -/
structure Shown (walker : Walker) (names path : List String) : Prop where
  filled : path ≠ []
  way : walker.Way names path
  stands : walker.host.isDir (walker.root ++ path) = true ∨
    walker.host.file? (walker.root ++ path) ≠ none

/-- Nothing stands where the patterns do not reach, or reach too far. -/
structure Tame (walker : Walker) (names : List String) : Prop where
  /-- Directly under the root there is no slash to match. -/
  top : ∀ name, walker.Shown names [name] → walker.host.file? (walker.root ++ [name]) ≠ none →
    ¬ BannedName names name
  cache : ∀ below, walker.Shown names ("__pycache__" :: below) → below = []
  /-- A name of the user that is not spelled as in a path matches none. -/
  spelled : ∀ above name, walker.Shown names (above ++ [name]) →
    walker.host.file? (walker.root ++ (above ++ [name])) ≠ none → name ∈ names →
    PlainName walker.host.nfc name
  /-- Names of backslashes and dots leave a path as it is. -/
  silent : ∀ above name below, below ≠ [] → name ∈ [".git", "__pycache__"] →
    walker.Shown names (above ++ name :: below) → reading walker.host.nfc below ≠ []
  unskipped : ∀ path, walker.Wanted names path → ".uploadignore" ∉ path
  /-- Other names are read as paths that are refused or excluded. -/
  read : ∀ path, walker.Wanted names path → ∀ front, front ≠ [] → front <+: path →
    (∃ name ∈ front, ¬ PlainName walker.host.nfc name) → Passes walker.host.nfc names front

theorem Way.of_prefix {front : List String} (way : walker.Way names path) (before : front <+: path) :
    walker.Way names front where
  clear := way.clear.of_prefix before
  listed above name inside := way.listed above name (inside.trans before)
  followed above name inside := way.followed above name (inside.trans before)

/-- The names are those of entries. -/
theorem Way.present (way : walker.Way names path) :
    ∀ name ∈ path, ∃ above, above ++ [name] ∈ walker.host.tree.entries.keys := by
  intro name member
  obtain ⟨front, behind, rfl⟩ := List.append_of_mem member
  obtain ⟨others, listed, inside⟩ := way.listed front name ⟨behind, by simp⟩
  obtain ⟨real, _, _, entry⟩ := Host.mem_listing listed inside
  exact ⟨real, entry⟩

theorem Way.isDir {front : List String} {name : String} (way : walker.Way names (front ++ [name])) :
    walker.host.isDir (walker.root ++ front) = true := by
  obtain ⟨others, listed, inside⟩ := way.listed front name List.prefix_rfl
  obtain ⟨real, arrives, directory, _⟩ := Host.mem_listing listed inside
  unfold Host.isDir
  rw [arrives, Option.bind_some, directory]

section Exclusion

variable (forms : NormalForms walker.host.nfc) (rules : walker.rules = rulesFor names)
  (plain : ∀ name ∈ names, name ≠ "" ∧ PlainPattern name ∧ '/' ∉ name.toList)

include rules plain

theorem Keeps.clear {parents : List String} {relative name : String} {normalized : ObjectKey}
    (spells : Spells walker.host.nfc parents relative)
    (clear : Clear walker.host.nfc names parents)
    (keeps : walker.Keeps (walker.root ++ parents) relative name normalized) :
    Clear walker.host.nfc names (parents ++ [name]) := by
  have ordinary := keeps.ordinary
  rw [rules] at ordinary
  refine clear.concat ordinary ⟨parents, name, normalized, rfl, ?_, ?_⟩
  · rw [← spells.relative_eq]
    exact keeps.normalizes
  · intro excluded
    have ignored := (isIgnored_rulesFor plain).mpr excluded
    rw [← rules, keeps.kept] at ignored
    cases ignored

/-- A walk that keeps a child goes on along the way. -/
theorem Way.concat {parents : List String} {relative name : String} {normalized : ObjectKey}
    (way : walker.Way names parents) (spells : Spells walker.host.nfc parents relative)
    (keeps : walker.Keeps (walker.root ++ parents) relative name normalized)
    (follows : walker.host.isSymlink (walker.root ++ parents) name = true → walker.Follows) :
    walker.Way names (parents ++ [name]) where
  clear := keeps.clear rules plain spells way.clear
  listed := by
    intro front last before
    rcases List.prefix_concat_iff.mp before with same | before
    · obtain ⟨rfl, single⟩ := List.append_inj' same rfl
      cases single
      exact keeps.listed
    · exact way.listed front last before
  followed := by
    intro front last before
    rcases List.prefix_concat_iff.mp before with same | before
    · obtain ⟨rfl, single⟩ := List.append_inj' same rfl
      cases single
      exact follows
    · exact way.followed front last before

include forms

theorem Reaches.way {depth : Nat} {current : List String} {relative : String}
    (reaches : walker.Reaches depth current relative) :
    ∃ path, current = walker.root ++ path ∧ Spells walker.host.nfc path relative ∧
      walker.Way names path := by
  induction reaches with
  | root =>
    refine ⟨[], (List.append_nil _).symm, .inl ⟨rfl, rfl⟩, .nil, ?_, ?_⟩ <;>
    · intro front name before
      exact absurd (List.prefix_nil.mp before) (by simp)
  | @step depth current relative name normalized _ keeps follows _ _ ih =>
    obtain ⟨path, rfl, spells, way⟩ := ih
    exact ⟨path ++ [name], List.append_assoc _ _ _, (spells.child forms keeps.normalizes).2,
      way.concat rules plain spells keeps follows⟩

/-- What is emitted stands on the tree where a walk comes by. -/
theorem Lists.shown (lists : walker.Lists path) : walker.Shown names path := by
  obtain ⟨item, ⟨depth, current, relative, name, normalized, reaches, keeps, passed, own, entry⟩,
    location⟩ := lists
  obtain ⟨parents, rfl, spells, way⟩ := reaches.way forms rules plain
  have same := own.symm.trans location
  rw [List.append_assoc] at same
  cases List.append_cancel_left same
  refine ⟨by simp, way.concat rules plain spells keeps (checkLink_true passed), ?_⟩
  rw [← location]
  rcases entry with ⟨directory, _⟩ | ⟨file, opened, _⟩
  · exact .inl directory
  · exact .inr (opened ▸ Option.some_ne_none file)

/-- The next name of a way is kept. -/
theorem Way.keeps {front : List String} {name relative : String}
    (way : walker.Way names (front ++ [name])) (spells : Spells walker.host.nfc front relative) :
    ∃ normalized, walker.Keeps (walker.root ++ front) relative name normalized ∧
      Spells walker.host.nfc (front ++ [name]) normalized.text := by
  obtain ⟨parents, last, key, same, normalizes, allowed⟩ :=
    way.clear.2 (front ++ [name]) (by simp) List.prefix_rfl
  obtain ⟨rfl, single⟩ := List.append_inj' same rfl
  cases single
  rw [← spells.relative_eq] at normalizes
  have ordinary : name ≠ walker.rules.ignoreFileName := by
    rw [rules]
    rintro rfl
    exact way.clear.1 (List.mem_append_right _ List.mem_cons_self)
  have kept : walker.rules.isIgnored key.text = false := by
    rw [rules]
    refine Bool.eq_false_of_not_eq_true fun ignored => ?_
    exact allowed ((isIgnored_rulesFor plain).mp ignored)
  exact ⟨key, ⟨way.listed front name List.prefix_rfl, normalizes, ordinary, kept⟩,
    (spells.child forms normalizes).2⟩

theorem Way.reaches (recursive : walker.isRecursive = true) (way : walker.Way names path)
    (directory : walker.host.isDir (walker.root ++ path) = true) :
    ∃ relative, walker.Reaches path.length (walker.root ++ path) relative ∧
      Spells walker.host.nfc path relative := by
  induction path using List.reverseRecOn with
  | nil =>
    rw [List.append_nil]
    exact ⟨"", .root, .inl ⟨rfl, rfl⟩⟩
  | append_singleton front name ih =>
    obtain ⟨relative, reaches, spells⟩ := ih (way.of_prefix (List.prefix_append _ _)) way.isDir
    obtain ⟨normalized, keeps, child⟩ := way.keeps forms rules plain spells
    refine ⟨normalized.text, ?_, child⟩
    rw [← List.append_assoc] at directory ⊢
    rw [List.length_append]
    exact reaches.step keeps (way.followed front name List.prefix_rfl) directory recursive

/-- In a walk that returns, what it comes by is emitted. -/
theorem Shown.lists {found : List Found} (recursive : walker.isRecursive = true)
    (ran : walker.run = .ok found) (shown : walker.Shown names path) : walker.Lists path := by
  obtain ⟨front, name, rfl⟩ : ∃ front name, path = front ++ [name] :=
    ⟨_, _, (List.dropLast_concat_getLast shown.filled).symm⟩
  obtain ⟨relative, reaches, spells⟩ := (shown.way.of_prefix (List.prefix_append _ _)).reaches forms
    rules plain recursive shown.way.isDir
  obtain ⟨normalized, keeps, _⟩ := shown.way.keeps forms rules plain spells
  obtain ⟨calls, below, _, walked, _⟩ := reaches.walked ran
  obtain ⟨fewer, goesOn, _, checked, _⟩ := walk_visits walked keeps
  obtain rfl := checkLink_goes checked (shown.way.followed front name List.prefix_rfl)
  have location : walker.root ++ (front ++ [name]) = walker.root ++ front ++ [name] :=
    (List.append_assoc _ _ _).symm
  have stands := shown.stands
  rw [location] at stands
  unfold Lists
  rw [location]
  rcases stands with directory | file
  · exact ⟨⟨_, directoryEntry normalized⟩, ⟨_, _, relative, name, normalized, reaches, keeps, checked,
      rfl, .inl ⟨directory, rfl⟩⟩, rfl⟩
  · obtain ⟨file, opened⟩ := Option.ne_none_iff_exists'.mp file
    exact ⟨⟨_, fileEntry walker.host.sha256 normalized file⟩, ⟨_, _, relative, name, normalized,
      reaches, keeps, checked, rfl, .inr ⟨file, opened, rfl⟩⟩, rfl⟩

variable (ascii : AsciiForms walker.host.nfc)
  (named : ∀ path ∈ walker.host.tree.entries.keys, ∀ name ∈ path, OrdinarySegment name)

omit rules plain

include ascii named

/-- Below the root the patterns find every banned name that is spelled as in a path. -/
theorem Way.not_banned {above : List String} {name : String}
    (way : walker.Way names (above ++ [name])) (below : above ≠ [])
    (spelled : name ∈ names → PlainName walker.host.nfc name) : ¬ BannedName names name := by
  have clear := way.clear
  have deep := clear.filled forms (List.prefix_append above [name]) below
  have allowed := clear.not_excluded forms (by simp)
  rw [reading_concat] at allowed
  have alone : PlainName walker.host.nfc name → BannedName names name → False := by
    intro own banned
    obtain ⟨parents, entry⟩ := way.present name (List.mem_append_right _ List.mem_cons_self)
    have ordinary := named _ entry name (List.mem_append_right _ List.mem_cons_self)
    rw [readName_plain own ordinary] at allowed
    exact allowed (.inr (.inr ⟨_, name, deep, banned, rfl⟩))
  rintro (rfl | ⟨stem, rfl⟩ | own)
  · exact alone (ascii.plain (by decide +kernel) (by decide +kernel)) (.inl rfl)
  · obtain ⟨between, last, read⟩ := readName_tmp ascii stem
    rw [read, ← List.append_assoc] at allowed
    refine allowed (.inr (.inr ⟨_, _, ?_, .inr (.inl ⟨last, rfl⟩), rfl⟩))
    exact fun empty => deep (List.append_eq_nil_iff.mp empty).1
  · exact alone (spelled own) (.inr (.inr own))

/-- No way leads to what has a name of its own below the two directories. -/
theorem Way.not_hidden {above below : List String} {name : String}
    (way : walker.Way names (above ++ name :: below)) (filled : reading walker.host.nfc below ≠ []) :
    name ≠ ".git" ∧ (name = "__pycache__" → above = []) := by
  have clear := way.clear
  have allowed := clear.not_excluded forms (by simp)
  have read : PlainName walker.host.nfc name →
      reading walker.host.nfc (above ++ name :: below) =
        reading walker.host.nfc above ++ name :: reading walker.host.nfc below := by
    intro own
    obtain ⟨parents, entry⟩ := way.present name (List.mem_append_right _ List.mem_cons_self)
    have ordinary := named _ entry name (List.mem_append_right _ List.mem_cons_self)
    rw [reading_append]
    conv_lhs => rw [reading, reading, List.flatMap_cons, readName_plain own ordinary]
    rfl
  constructor
  · rintro rfl
    rw [read (ascii.plain (by decide +kernel) (by decide +kernel))] at allowed
    exact allowed (.inl ⟨_, _, filled, rfl⟩)
  · rintro rfl
    by_contra deeper
    rw [read (ascii.plain (by decide +kernel) (by decide +kernel))] at allowed
    have deep := clear.filled forms (List.prefix_append above ("__pycache__" :: below)) deeper
    exact allowed (.inr (.inl ⟨_, _, deep, filled, rfl⟩))

end Exclusion

section Direct

variable {front rest : List String} {name : String}

/-- The directories on the way to a file that no link is on the way to. -/
theorem Host.arrives_front {host : Host} {real : List String}
    (free : host.tree.LinkFree (front ++ name :: rest))
    (arrives : host.arrives (front ++ name :: rest) = some real) :
    host.arrives front = some front ∧ host.tree.node? front = some .directory ∧
      ∃ node, host.tree.node? (front ++ [name]) = some node := by
  have base : host.tree.node? [] = some .directory := if_pos rfl
  unfold Host.arrives downSteps at arrives ⊢
  cases limit : host.linkLimit with
  | zero =>
    rw [limit] at arrives
    exact LinkTree.followWith_front free base arrives
  | succ links =>
    rw [limit] at arrives
    exact LinkTree.followWith_front free base arrives

theorem Wanted.arrives (wanted : walker.Wanted names path) :
    walker.host.arrives (walker.root ++ path) = some (walker.root ++ path) ∧
      ∃ file, walker.host.tree.node? (walker.root ++ path) = some (.file file) := by
  obtain ⟨file, opened⟩ := Option.ne_none_iff_exists'.mp wanted.regular
  unfold Host.file? at opened
  split at opened
  · rename_i content found
    obtain ⟨real, arrives, node⟩ := Option.bind_eq_some_iff.mp found
    have free : walker.host.tree.LinkFree ([] ++ (walker.root ++ path)) := wanted.direct
    cases free.resolves.unique (Host.arrives_sound arrives)
    exact ⟨arrives, content, node⟩
  · cases opened

/-- On the way to a wanted file are directories, and no links. -/
theorem Wanted.direct_way (wanted : walker.Wanted names path)
    (before : front ++ [name] <+: path) :
    (∃ others, walker.host.listing (walker.root ++ front) = some others ∧ name ∈ others) ∧
      walker.host.isSymlink (walker.root ++ front) name = false := by
  obtain ⟨rest, split⟩ := before
  have whole : walker.root ++ path = walker.root ++ front ++ name :: rest := by
    rw [← split]
    simp
  have free := wanted.direct
  obtain ⟨arrives, _⟩ := wanted.arrives
  rw [whole] at arrives free
  obtain ⟨own, directory, node, present⟩ := Host.arrives_front free arrives
  constructor
  · have listed : walker.host.listing (walker.root ++ front) =
        some ((walker.host.tree.children (walker.root ++ front)).insertionSort (· ≤ ·)) := by
      unfold Host.listing
      rw [own]
      dsimp only
      rw [directory]
    have entry : walker.root ++ front ++ [name] ∈ walker.host.tree.entries.keys :=
      LinkTree.mem_keys_of_node? (List.append_ne_nil_of_right_ne_nil _ (List.cons_ne_nil _ _)) present
    refine ⟨_, listed, ?_⟩
    rw [List.mem_insertionSort]
    exact LinkTree.mem_children.mpr entry
  · have absent := free (walker.root ++ front ++ [name]) (by simp)
    unfold Host.isSymlink
    rw [own]
    dsimp only
    rw [absent]
    rfl

end Direct

section Letting

variable (forms : NormalForms walker.host.nfc)
  (named : ∀ path ∈ walker.host.tree.entries.keys, ∀ name ∈ path, OrdinarySegment name)

theorem Wanted.filled (wanted : walker.Wanted names path) : path ≠ [] := by
  obtain ⟨parents, name, rfl, _⟩ := wanted.named
  simp

/-- No rule is about the file, nor about what is above it. -/
theorem Wanted.not_excluded (wanted : walker.Wanted names path) {front : List String}
    (before : front <+: path) : ¬ Excluded names front := by
  obtain ⟨parents, name, rfl, _, allowed, above⟩ := wanted.named
  have parent : ∀ leading part below, below ≠ [] → front = leading ++ part :: below →
      part ∈ parents := by
    rintro leading part below filled rfl
    obtain ⟨behind, whole⟩ := before
    have inside : leading ++ [part] <+: parents := by
      have through : leading ++ [part] <+: parents ++ [name] := by
        rw [← whole]
        exact ⟨below ++ behind, by simp⟩
      rcases List.prefix_concat_iff.mp through with same | within
      · have sizes := congrArg List.length whole
        have last := congrArg List.length same
        have some := List.length_pos_iff.mpr filled
        simp only [List.length_append, List.length_cons, List.length_nil] at sizes last
        omega
      · exact within
    exact inside.subset (List.mem_append_right _ List.mem_cons_self)
  rintro (⟨leading, below, filled, same⟩ | ⟨leading, below, _, filled, same⟩ |
    ⟨leading, last, _, banned, same⟩)
  · exact (above ".git" (parent _ _ _ filled same)).1 rfl
  · exact (above "__pycache__" (parent _ _ _ filled same)).2.1 rfl
  · subst same
    rcases List.prefix_concat_iff.mp before with whole | within
    · obtain ⟨_, single⟩ := List.append_inj' whole rfl
      cases single
      exact allowed banned
    · exact (above last (within.subset (List.mem_append_right _ List.mem_cons_self))).2.2 banned

include named

theorem Wanted.ordinary (wanted : walker.Wanted names path) :
    ∀ name ∈ path, OrdinarySegment name := by
  obtain ⟨_, file, node⟩ := wanted.arrives
  have entry := LinkTree.mem_keys_of_node?
    (List.append_ne_nil_of_right_ne_nil _ wanted.filled) node
  exact fun name member => named _ entry name (List.mem_append_right _ member)

include forms

theorem Wanted.passes (wanted : walker.Wanted names path) (tame : walker.Tame names)
    {front : List String} (filled : front ≠ []) (before : front <+: path) :
    Passes walker.host.nfc names front := by
  by_cases plain : ∀ name ∈ front, PlainName walker.host.nfc name
  · have ordinary : ∀ name ∈ front, OrdinarySegment name :=
      fun name member => wanted.ordinary named name (before.subset member)
    obtain ⟨key, accepted⟩ := wanted.acceptable
    obtain ⟨rest, rfl⟩ := before
    have own := normalize_front forms filled plain ordinary accepted
    obtain ⟨parents, name, rfl⟩ : ∃ parents name, front = parents ++ [name] :=
      ⟨_, _, (List.dropLast_concat_getLast filled).symm⟩
    have above : ∀ part ∈ parents, part ∈ parents ++ [name] :=
      fun part member => List.mem_append_left _ member
    refine ⟨parents, name, ⟨_, filled, ordinary⟩, rfl, ?_,
      wanted.not_excluded (List.prefix_append (parents ++ [name]) rest)⟩
    rw [reading_plain (fun part member => plain part (above part member))
        (fun part member => ordinary part (above part member)),
      childRelative_intercalate fun part member => ordinary part (above part member)]
    exact own
  · simp only [not_forall, exists_prop] at plain
    exact tame.read path wanted front filled before plain

/-- A walk comes by a wanted file where nothing is in its way. -/
theorem Wanted.shown (wanted : walker.Wanted names path) (tame : walker.Tame names) :
    walker.Shown names path where
  filled := wanted.filled
  way := {
    clear := ⟨tame.unskipped path wanted,
      fun _ filled before => wanted.passes forms named tame filled before⟩
    listed := fun _ _ before => (wanted.direct_way before).1
    followed := by
      intro front name before link
      rw [(wanted.direct_way before).2] at link
      cases link }
  stands := .inr wanted.regular

end Letting

section Filtering

variable {found files directories : List Found} (forms : NormalForms walker.host.nfc)
  (named : ∀ path ∈ walker.host.tree.entries.keys, ∀ name ∈ path, OrdinarySegment name)
  (rules : walker.rules = rulesFor names)
  (plain : ∀ name ∈ names, name ≠ "" ∧ PlainPattern name ∧ '/' ∉ name.toList)
  (recursive : walker.isRecursive = true) (ran : walker.run = .ok found)
  (same : filesAndDirectories found = (files, directories))

include ran same

/-- A file in the result, by the names it has below the root. -/
theorem Lists.file (lists : walker.Lists path)
    (file : walker.host.file? (walker.root ++ path) ≠ none) :
    ∃ item ∈ files, item.location = walker.root ++ path := by
  obtain ⟨item, emits, location⟩ := lists
  rw [← location] at file
  exact ⟨item, (mem_files same).mpr ⟨emits.mem ran, emits.isFile.mpr file⟩, location⟩

private theorem lists_of_mem {item : Found} (member : item ∈ files) (location : item.location = walker.root ++ path) :
    walker.Lists path ∧ walker.host.file? (walker.root ++ path) ≠ none := by
  obtain ⟨among, isFile⟩ := (mem_files same).mp member
  have emits := walk_emits .root ran item among
  refine ⟨⟨item, emits, location⟩, ?_⟩
  rw [← location]
  exact emits.isFile.mp isFile

private theorem nodup_locations : (files.map (·.location)).Nodup := by
  cases same
  exact (walk_spread ran).apart.sublist (List.filter_sublist.map _)

include forms rules plain

theorem Wanted.clear (filtered : walker.Filtered names files directories)
    (wanted : walker.Wanted names path) : Clear walker.host.nfc names path := by
  have once := filtered.complete path wanted
  have present : walker.root ++ path ∈ files.map (·.location) := by
    rw [← List.count_pos_iff, once]
    exact Nat.one_pos
  obtain ⟨item, member, location⟩ := List.mem_map.mp present
  exact ((lists_of_mem ran same member location).1.shown forms rules plain).way.clear

include recursive

private theorem tame_of_filtered (filtered : walker.Filtered names files directories) : walker.Tame names where
  top := by
    intro name shown file
    obtain ⟨item, member, location⟩ :=
      (shown.lists forms rules plain recursive ran).file ran same file
    exact filtered.banned item member [] name location
  cache := by
    intro below shown
    obtain ⟨item, emits, location⟩ := shown.lists forms rules plain recursive ran
    by_contra filled
    have member := (mem_files_or_directories same).mpr (emits.mem ran)
    exact (filtered.hidden item member [] _ below filled location).2 rfl
  spelled := by
    intro above name shown file own
    obtain ⟨item, member, location⟩ :=
      (shown.lists forms rules plain recursive ran).file ran same file
    exact absurd (.inr (.inr own)) (filtered.banned item member above name location)
  silent := by
    intro above name below filled hidden shown
    obtain ⟨item, emits, location⟩ := shown.lists forms rules plain recursive ran
    have member := (mem_files_or_directories same).mpr (emits.mem ran)
    obtain ⟨git, cache⟩ := filtered.hidden item member above name below filled location
    rcases List.mem_pair.mp hidden with rfl | rfl
    · exact absurd rfl git
    · exact absurd rfl cache
  unskipped := fun path wanted => (wanted.clear forms rules plain ran same filtered).1
  read := fun path wanted front filled before _ =>
    (wanted.clear forms rules plain ran same filtered).2 front filled before

variable (ascii : AsciiForms walker.host.nfc)

include named ascii

private theorem filtered_of_tame (tame : walker.Tame names) : walker.Filtered names files directories where
  banned := by
    intro item member above name location banned
    obtain ⟨lists, file⟩ := lists_of_mem ran same member location
    have shown := lists.shown forms rules plain
    by_cases top : above = []
    · subst top
      exact tame.top name shown file banned
    · exact shown.way.not_banned forms ascii named top (tame.spelled above name shown file) banned
  hidden := by
    intro item member above name below filled location
    have emits := walk_emits .root ran item ((mem_files_or_directories same).mp member)
    have shown : walker.Shown names (above ++ name :: below) :=
      Lists.shown forms rules plain ⟨item, emits, location⟩
    by_contra either
    have hidden : name ∈ [".git", "__pycache__"] := by
      rw [List.mem_pair]
      by_contra neither
      exact either (not_or.mp neither)
    have said := tame.silent above name below filled hidden shown
    obtain ⟨git, cache⟩ := shown.way.not_hidden forms ascii named said
    refine either ⟨git, fun own => ?_⟩
    subst own
    rw [cache rfl] at shown
    exact filled (tame.cache below shown)
  complete := by
    intro path wanted
    have lists := (wanted.shown forms named tame).lists forms rules plain recursive ran
    obtain ⟨item, member, location⟩ := lists.file ran same wanted.regular
    have present : walker.root ++ path ∈ files.map (·.location) := by
      rw [← location]
      exact List.mem_map_of_mem member
    exact List.count_eq_one_of_mem (nodup_locations ran same) present

end Filtering

end Walker

/-- The default rules, and patterns `**/` before a name, do what they are for exactly in a tame
directory. -/
theorem default_rules_filter_iff {host : Host} {settings : WalkSettings}
    {directoryPath : List (PathStep String)} {walker : Walker} {files directories : List Found}
    {names : List String} (forms : NormalForms host.nfc) (ascii : AsciiForms host.nfc)
    (named : ∀ path ∈ host.tree.entries.keys, ∀ name ∈ path, OrdinarySegment name)
    (plain : ∀ name ∈ names, name ≠ "" ∧ PlainPattern name ∧ '/' ∉ name.toList)
    (opened : openWalk host settings directoryPath = .ok walker)
    (rules : walker.rules = rulesFor names) (recursive : walker.isRecursive = true)
    (walked : walkDirectory host settings directoryPath = .ok (files, directories)) :
    walker.Filtered names files directories ↔ walker.Tame names := by
  obtain ⟨rfl, _⟩ := openWalk_ok opened
  obtain ⟨found, ran, same⟩ := walkDirectory_ok opened walked
  exact ⟨Walker.tame_of_filtered forms rules plain recursive ran same,
    Walker.filtered_of_tame forms named rules plain recursive ran same ascii⟩

private theorem asciiForms_id : AsciiForms id := ⟨rfl, fun _ _ _ => rfl⟩

theorem report_is_filtered :
    ∃ walker files directories, openWalk (hostWithFile "report.txt") {} [.down "share"] = .ok walker ∧
      walkDirectory (hostWithFile "report.txt") {} [.down "share"] = .ok (files, directories) ∧
      (walker.Filtered [] files directories ↔ walker.Tame []) := by
  have opens : (openWalk (hostWithFile "report.txt") {} [.down "share"]).map
      (fun walker => (walker.rules, walker.isRecursive)) = .ok (rulesFor [], true) := by decide +kernel
  have walks : (walkDirectory (hostWithFile "report.txt") {} [.down "share"]).isOk = true := by
    decide +kernel
  obtain ⟨walker, opened, same⟩ := except_map_eq_ok.mp opens
  obtain ⟨rules, recursive⟩ := Prod.mk.inj same
  obtain ⟨⟨files, directories⟩, walked⟩ := except_isOk_iff.mp walks
  exact ⟨walker, files, directories, opened, walked,
    default_rules_filter_iff normalForms_id asciiForms_id (by decide +kernel)
      (List.forall_mem_nil _) opened rules recursive walked⟩

/-- Directly under the root `**/.DS_Store` does not match. -/
theorem top_ds_store_is_emitted :
    ¬ ∀ walker files directories, openWalk (hostWithFile ".DS_Store") {} [.down "share"] = .ok walker →
      walker.rules = rulesFor [] →
      walkDirectory (hostWithFile ".DS_Store") {} [.down "share"] = .ok (files, directories) →
      walker.Filtered [] files directories := by
  intro filtered
  have opens : (openWalk (hostWithFile ".DS_Store") {} [.down "share"]).map
      (fun walker => (walker.root, walker.rules)) = .ok (["share"], rulesFor []) := by decide +kernel
  have listed : (walkDirectory (hostWithFile ".DS_Store") {} [.down "share"]).map
      (fun lists => lists.1.map (·.location)) = .ok [["share", ".DS_Store"]] := by decide +kernel
  obtain ⟨walker, opened, own⟩ := except_map_eq_ok.mp opens
  obtain ⟨root, rules⟩ := Prod.mk.inj own
  obtain ⟨⟨files, directories⟩, walked, places⟩ := except_map_eq_ok.mp listed
  obtain ⟨item, member, place⟩ := List.mem_map.mp (places ▸ List.mem_singleton_self _)
  apply (filtered walker files directories opened rules walked).banned item member [] ".DS_Store"
  · rw [place, root]
    rfl
  · exact .inl rfl

end PyUploadX.Sdk
