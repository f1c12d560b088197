import PyUploadX.DirectoryUpload.FixedPaths
import PyUploadX.Sdk.Listed

/-! The relative paths of a walk as addresses: which of them lead back to the files they were made
from. -/
namespace PyUploadX.Sdk

open Kit

/-- Every path is one entry's, and leads from the root to the file of that entry. -/
structure Addressed (root : List String) (files directories : List Found) : Prop where
  distinct : ((files ++ directories).map (·.entry.path.text)).Nodup
  opens : ∀ item ∈ files, joinPart root item.entry.path.text = item.location

namespace Walker

/-- Kept files have names that are read as they are, and no two kept entries read alike. -/
structure Legible (walker : Walker) : Prop where
  plain : ∀ names, walker.Kept names → walker.host.file? (walker.root ++ names) ≠ none →
    ∀ name ∈ names, PlainName walker.host.nfc name
  apart : ∀ first second, walker.Kept first → walker.Kept second →
    reading walker.host.nfc first = reading walker.host.nfc second → first = second

end Walker

section Joining

private theorem joinPart_text (root : List String) (key : ObjectKey) :
    joinPart root key.text = root ++ key.segments := by
  have names : (splitPath key.text).filter (fun name => name ≠ "" ∧ name ≠ ".") = key.segments := by
    rw [splitPath_text]
    exact meaningful_ordinary key.ordinary
  unfold joinPart
  rw [names, if_neg key.text_head]

end Joining

section Whole

variable {host : Host} {settings : WalkSettings} {directoryPath : List (PathStep String)}
  {walker : Walker} {found files directories : List Found}

private theorem Walker.Emits.entry_plain (forms : NormalForms walker.host.nfc) {item : Found}
    (emits : walker.Emits item) :
    ∀ segment ∈ item.entry.path.segments, PlainName walker.host.nfc segment := by
  obtain ⟨_, _, _, _, normalized, _, keeps, _, _, entry⟩ := emits
  have path : item.entry.path = normalized := by
    rcases entry with ⟨_, same⟩ | ⟨file, _, same⟩ <;> rw [same] <;> rfl
  rw [path]
  exact fun segment member => segment_normal forms keeps.normalizes member

private theorem addressed_of_legible (forms : NormalForms walker.host.nfc)
    (named : ∀ path ∈ walker.host.tree.entries.keys, ∀ name ∈ path, OrdinarySegment name)
    (ran : walker.run = .ok found) (same : filesAndDirectories found = (files, directories))
    (legible : walker.Legible) : Addressed walker.root files directories := by
  have spread := Walker.walk_spread ran
  constructor
  · refine List.Nodup.map_on ?_ (Walker.nodup_files_append same (List.Nodup.of_map _ spread.apart))
    intro first among second beside alike
    have present := (Walker.mem_files_or_directories same).mp among
    have another := (Walker.mem_files_or_directories same).mp beside
    obtain ⟨names, location, kept, segments⟩ := (Walker.walk_emits .root ran first present).kept forms
    obtain ⟨others, place, keptOther, pieces⟩ := (Walker.walk_emits .root ran second another).kept forms
    have read : reading walker.host.nfc names = reading walker.host.nfc others := by
      rw [← segments, ← pieces, ObjectKey.text_injective alike]
    refine List.inj_on_of_nodup_map spread.apart present another ?_
    rw [location, place, legible.apart names others kept keptOther read]
  · intro item member
    obtain ⟨among, isFile⟩ := (Walker.mem_files same).mp member
    have emits := Walker.walk_emits .root ran item among
    obtain ⟨names, location, kept, segments⟩ := emits.kept forms
    have file : walker.host.file? (walker.root ++ names) ≠ none := by
      rw [← location]
      exact emits.isFile.mp isFile
    have ordinary : ∀ name ∈ names, OrdinarySegment name := by
      intro name inside
      obtain ⟨above, entry⟩ := kept.present forms name inside
      exact named _ entry name (List.mem_append_right _ List.mem_cons_self)
    rw [joinPart_text, segments, reading_plain (legible.plain names kept file) ordinary, location]

theorem legible_of_addressed (forms : NormalForms walker.host.nfc)
    (linkless : ∀ path, walker.host.tree.link? path = none)
    (ran : walker.run = .ok found) (same : filesAndDirectories found = (files, directories))
    (addressed : Addressed walker.root files directories) : walker.Legible := by
  constructor
  · intro names kept file
    obtain ⟨item, emits, location⟩ := kept.emits linkless
    rw [← location] at file
    have opened : item ∈ files :=
      (Walker.mem_files same).mpr ⟨emits.mem ran, emits.isFile.mpr file⟩
    obtain ⟨others, place, _, segments⟩ := emits.kept forms
    have joined := addressed.opens item opened
    rw [joinPart_text, location] at joined
    rw [← List.append_cancel_left joined]
    exact emits.entry_plain forms
  · intro first second kept beside alike
    obtain ⟨item, emits, location⟩ := kept.emits linkless
    obtain ⟨other, emitsOther, place⟩ := beside.emits linkless
    obtain ⟨names, own, _, segments⟩ := emits.kept forms
    obtain ⟨others, elsewhere, _, pieces⟩ := emitsOther.kept forms
    cases List.append_cancel_left (location.symm.trans own)
    cases List.append_cancel_left (place.symm.trans elsewhere)
    have texts : item.entry.path.text = other.entry.path.text := by
      rw [ObjectKey.ext_segments (segments.trans (alike.trans pieces.symm))]
    have one := List.inj_on_of_nodup_map addressed.distinct
      ((Walker.mem_files_or_directories same).mpr (emits.mem ran))
      ((Walker.mem_files_or_directories same).mpr (emitsOther.mem ran)) texts
    rw [one, place] at location
    exact (List.append_cancel_left location).symm

end Whole

/-- In a directory without links the paths are addresses exactly when the names of the kept files
are composed and without backslashes, and no two kept entries read alike. -/
theorem walk_addressed_iff {host : Host} {settings : WalkSettings}
    {directoryPath : List (PathStep String)} {walker : Walker} {files directories : List Found}
    (forms : NormalForms host.nfc) (linkless : ∀ path, host.tree.link? path = none)
    (named : ∀ path ∈ host.tree.entries.keys, ∀ name ∈ path, OrdinarySegment name)
    (opened : openWalk host settings directoryPath = .ok walker)
    (walked : walkDirectory host settings directoryPath = .ok (files, directories)) :
    Addressed walker.root files directories ↔ walker.Legible := by
  obtain ⟨rfl, _⟩ := openWalk_ok opened
  obtain ⟨found, ran, same⟩ := walkDirectory_ok opened walked
  exact ⟨legible_of_addressed forms linkless ran same, addressed_of_legible forms named ran same⟩

/-- The machine with a directory that holds one file. -/
def hostWithFile (name : String) : Host where
  tree := ⟨List.toAList [⟨["share"], .directory⟩, ⟨["share", name], .file ⟨[], 7⟩⟩]⟩
  linkLimit := 40
  recursionLimit := 900
  nfc := id
  sha256 := fun _ => ""

theorem report_path_is_address :
    ∃ walker files directories, openWalk (hostWithFile "report.txt") {} [.down "share"] = .ok walker ∧
      walkDirectory (hostWithFile "report.txt") {} [.down "share"] = .ok (files, directories) ∧
      (Addressed walker.root files directories ↔ walker.Legible) := by
  have opens : (openWalk (hostWithFile "report.txt") {} [.down "share"]).isOk = true := by
    decide +kernel
  have walks : (walkDirectory (hostWithFile "report.txt") {} [.down "share"]).isOk = true := by
    decide +kernel
  obtain ⟨walker, opened⟩ := except_isOk_iff.mp opens
  obtain ⟨⟨files, directories⟩, walked⟩ := except_isOk_iff.mp walks
  have linkless : ∀ path, (hostWithFile "report.txt").tree.link? path = none :=
    LinkTree.linkless_of_keys (by decide +kernel)
  exact ⟨walker, files, directories, opened, walked,
    walk_addressed_iff normalForms_id linkless (by decide +kernel) opened walked⟩

/-- A file `a\b` is listed, and later uploaded, as the file `b` of a directory `a`. -/
theorem backslash_path_is_no_address :
    ¬ ∀ walker files directories, openWalk (hostWithFile "a\\b") {} [.down "share"] = .ok walker →
      walkDirectory (hostWithFile "a\\b") {} [.down "share"] = .ok (files, directories) →
      Addressed walker.root files directories := by
  intro addressed
  have roots : (openWalk (hostWithFile "a\\b") {} [.down "share"]).map (·.root) = .ok ["share"] := by
    decide +kernel
  have listed : (walkDirectory (hostWithFile "a\\b") {} [.down "share"]).map
      (fun lists => lists.1.map fun item => (item.location, item.entry.path.segments)) =
        .ok [(["share", "a\\b"], ["a", "b"])] := by decide +kernel
  obtain ⟨walker, opened, root⟩ := except_map_eq_ok.mp roots
  obtain ⟨⟨files, directories⟩, walked, places⟩ := except_map_eq_ok.mp listed
  obtain ⟨item, member, place⟩ := List.mem_map.mp (places ▸ List.mem_singleton_self _)
  have joined := (addressed walker files directories opened walked).opens item member
  rw [joinPart_text, root, (Prod.mk.inj place).1, (Prod.mk.inj place).2] at joined
  exact absurd joined (by decide)

end PyUploadX.Sdk
