import PyUploadX.Sdk.Paths
import PyUploadX.Sdk.SymbolicLinks

/-! The names below the root of a walk, and the relative paths they are read as. -/
namespace PyUploadX.Sdk

open Kit

/-- The segments that a name brings into a path; a backslash in it separates two of them. -/
def readName (nfc : String → String) (name : String) : List String :=
  meaningful (splitPath (nfc (forwardSlashes name)))

def reading (nfc : String → String) (names : List String) : List String :=
  names.flatMap (readName nfc)

/-- The name stays as it is. -/
def PlainName (nfc : String → String) (name : String) : Prop := nfc name = name ∧ '\\' ∉ name.toList

/-- The relative path that belongs to the names. -/
def Spells (nfc : String → String) (names : List String) (relative : String) : Prop :=
  (names = [] ∧ relative = "") ∨ ∃ key : ObjectKey, relative = key.text ∧
    key.segments = reading nfc names ∧ ∀ segment ∈ key.segments, PlainName nfc segment

section Names

variable {nfc : String → String} {name : String} {names others : List String}

theorem reading_append : reading nfc (names ++ others) = reading nfc names ++ reading nfc others :=
  List.flatMap_append

theorem reading_concat : reading nfc (names ++ [name]) = reading nfc names ++ readName nfc name := by
  rw [reading_append]
  exact congrArg _ (List.flatMap_singleton _ _)

theorem readName_of_forward (forward : '\\' ∉ name.toList) (ordinary : OrdinarySegment (nfc name)) :
    readName nfc name = [nfc name] := by
  unfold readName
  rw [forwardSlashes_eq_self forward, splitPath_slashless ordinary.2.2.2]
  exact meaningful_ordinary fun piece member => by rwa [List.mem_singleton.mp member]

theorem readName_plain (plain : PlainName nfc name) (ordinary : OrdinarySegment name) :
    readName nfc name = [name] := by
  have kept : OrdinarySegment (nfc name) := by rwa [plain.1]
  have read := readName_of_forward plain.2 kept
  rwa [plain.1] at read

theorem reading_plain (plain : ∀ name ∈ names, PlainName nfc name)
    (ordinary : ∀ name ∈ names, OrdinarySegment name) : reading nfc names = names := by
  induction names with
  | nil => rfl
  | cons name rest ih =>
    unfold reading at ih ⊢
    rw [List.flatMap_cons, readName_plain (plain name List.mem_cons_self) (ordinary name List.mem_cons_self),
      ih (fun other member => plain other (List.mem_cons_of_mem _ member))
        fun other member => ordinary other (List.mem_cons_of_mem _ member)]
    rfl

end Names

section Children

variable {nfc : String → String} {names : List String} {relative name : String}
  {normalized : ObjectKey}

theorem Spells.text_eq (forms : NormalForms nfc) {key : ObjectKey}
    (plain : ∀ segment ∈ key.segments, PlainName nfc segment) :
    nfc (forwardSlashes key.text) = key.text := by
  rw [forwardSlashes_eq_self (text_forward fun segment member => (plain segment member).2)]
  apply splitPath_injective
  rw [forms.segmentwise, splitPath_text]
  conv_rhs => rw [← List.map_id key.segments]
  exact List.map_congr_left fun segment member => (plain segment member).1

/-- What is normalized for a child. -/
theorem Spells.raw (forms : NormalForms nfc) (spells : Spells nfc names relative) :
    nfc (forwardSlashes (childRelative relative name)) =
      childRelative relative (nfc (forwardSlashes name)) := by
  rcases spells with ⟨_, rfl⟩ | ⟨key, rfl, _, plain⟩
  · rfl
  · unfold childRelative
    rw [if_neg key.text_ne_empty, if_neg key.text_ne_empty, forwardSlashes_join, forms.join,
      Spells.text_eq forms plain]

theorem Spells.pieces (forms : NormalForms nfc) (spells : Spells nfc names relative) :
    meaningful (splitPath (nfc (forwardSlashes (childRelative relative name)))) =
      reading nfc (names ++ [name]) := by
  rw [spells.raw forms, reading_concat]
  rcases spells with ⟨rfl, rfl⟩ | ⟨key, rfl, segments, _⟩
  · rfl
  · unfold childRelative
    rw [if_neg key.text_ne_empty, splitPath_join, meaningful_append, splitPath_text,
      meaningful_ordinary key.ordinary, segments]
    rfl

/-- The path of a child is read off its parent's and its name. -/
theorem Spells.child (forms : NormalForms nfc) (spells : Spells nfc names relative)
    (normalizes : normalizeRelativePath nfc (childRelative relative name) = .ok normalized) :
    normalized.segments = reading nfc (names ++ [name]) ∧
      Spells nfc (names ++ [name]) normalized.text := by
  have segments : normalized.segments = reading nfc (names ++ [name]) := by
    rw [← spells.pieces forms]
    exact (normalizeRelativePath_iff.mp normalizes).2
  refine ⟨segments, .inr ⟨normalized, rfl, segments, ?_⟩⟩
  exact fun segment member => segment_normal forms normalizes member

end Children

namespace Host

variable {host : Host} {path names : List String} {name : String}

theorem mem_listing (listed : host.listing path = some names) (member : name ∈ names) :
    ∃ real, host.arrives path = some real ∧ host.tree.node? real = some .directory ∧
      real ++ [name] ∈ host.tree.entries.keys := by
  unfold listing at listed
  split at listed
  · cases listed
  · rename_i real arrives
    split at listed
    · rename_i directory
      cases listed
      rw [List.mem_insertionSort] at member
      exact ⟨real, arrives, directory, LinkTree.mem_children.mp member⟩
    · cases listed

end Host

namespace Walker

variable {walker : Walker} {depth : Nat} {current : List String} {relative name : String}

theorem Keeps.present {normalized : ObjectKey}
    (keeps : walker.Keeps current relative name normalized) :
    ∃ real, walker.host.arrives current = some real ∧ walker.host.tree.node? real = some .directory ∧
      real ++ [name] ∈ walker.host.tree.entries.keys := by
  obtain ⟨names, listed, member⟩ := keeps.listed
  exact Host.mem_listing listed member

/-- A directory the walk is in has names below the root, those of entries, and their path. -/
theorem Reaches.names (forms : NormalForms walker.host.nfc)
    (reaches : walker.Reaches depth current relative) :
    ∃ names, current = walker.root ++ names ∧ names.length = depth ∧
      (∀ name ∈ names, ∃ above, above ++ [name] ∈ walker.host.tree.entries.keys) ∧
      Spells walker.host.nfc names relative := by
  induction reaches with
  | root =>
    exact ⟨[], (List.append_nil _).symm, rfl, List.forall_mem_nil _, .inl ⟨rfl, rfl⟩⟩
  | @step depth current relative name normalized _ keeps _ _ _ ih =>
    obtain ⟨names, rfl, length, present, spells⟩ := ih
    refine ⟨names ++ [name], List.append_assoc _ _ _, ?_, ?_,
      (spells.child forms keeps.normalizes).2⟩
    · rw [List.length_append, length]
      rfl
    · intro other member
      rcases List.mem_append.mp member with before | last
      · exact present other before
      · rw [List.mem_singleton.mp last]
        obtain ⟨real, _, _, entry⟩ := keeps.present
        exact ⟨real, entry⟩

end Walker

end PyUploadX.Sdk
