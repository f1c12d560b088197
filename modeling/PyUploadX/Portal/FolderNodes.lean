import PyUploadX.Kit.Runs
import PyUploadX.Portal.BucketTree

/-! The folders that the bucket tree shows of the object keys in a bucket. -/
namespace PyUploadX.Portal

open Kit

/-! Node keys are cut apart at their first slash. -/

private theorem slashIndex_slashless {text : String} (slashless : '/' ∉ text.toList) :
    slashIndex text = none := by
  unfold slashIndex
  rw [List.findIdx?_eq_none_iff]
  intro char member
  refine decide_eq_false fun same => slashless ?_
  rwa [← same]

theorem toList_join (name rest : String) :
    (name ++ "/" ++ rest).toList = name.toList ++ '/' :: rest.toList := by
  rw [String.toList_append, String.toList_append, List.append_assoc]
  rfl

theorem join_ne_empty (name rest : String) : name ++ "/" ++ rest ≠ "" := by
  intro empty
  have none_ := congrArg String.toList empty
  rw [toList_join] at none_
  exact List.append_ne_nil_of_right_ne_nil _ (List.cons_ne_nil _ _) none_

theorem join_ne_slashless {name : String} (slashless : '/' ∉ name.toList) (rest : String) :
    name ++ "/" ++ rest ≠ name := by
  intro same
  rw [← same, toList_join] at slashless
  exact slashless (List.mem_append_right _ List.mem_cons_self)

private theorem slashIndex_join {name : String} (slashless : '/' ∉ name.toList) (rest : String) :
    slashIndex (name ++ "/" ++ rest) = some name.length := by
  have first : name.toList.findIdx? (fun char => decide (char = '/')) = none :=
    slashIndex_slashless slashless
  have there : ('/' :: rest.toList).findIdx? (fun char => decide (char = '/')) = some 0 := rfl
  unfold slashIndex
  rw [toList_join, List.findIdx?_append, first, there, Option.none_or, Option.map_some,
    Nat.zero_add, String.length_toList]

private theorem sliceTo_length (name rest : String) : sliceTo name.length (name ++ rest) = name := by
  unfold sliceTo
  rw [String.toList_append, ← String.length_toList, List.take_left, String.ofList_toList]

private theorem sliceFrom_length (name rest : String) : sliceFrom name.length (name ++ rest) = rest := by
  unfold sliceFrom
  rw [String.toList_append, ← String.length_toList, List.drop_left, String.ofList_toList]

private theorem length_slash (name : String) : (name ++ "/").length = name.length + 1 := by
  rw [String.length_append]
  rfl

/-- The key of a bucket is the bucket alone. -/
theorem splitNodeKey_bucket {bucket : String} (slashless : '/' ∉ bucket.toList) :
    splitNodeKey bucket = (bucket, "") := by
  unfold splitNodeKey
  by_cases empty : bucket = ""
  · rw [if_pos empty, empty]
  · rw [if_neg empty, slashIndex_slashless slashless]

theorem splitNodeKey_join {bucket : String} (slashless : '/' ∉ bucket.toList) (path : String) :
    splitNodeKey (bucket ++ "/" ++ path) = (bucket, path) := by
  unfold splitNodeKey
  rw [if_neg (join_ne_empty bucket path), slashIndex_join slashless]
  dsimp only
  rw [← length_slash, sliceFrom_length, String.append_assoc, sliceTo_length]

/-! What the scan sees of a key. -/

private theorem text_single {key : ObjectKey} {name : String} (single : key.segments = [name]) :
    key.text = name := by
  rw [ObjectKey.text, single, String.intercalate_singleton]

private theorem text_nested {key : ObjectKey} {name second : String} {rest : List String}
    (nested : key.segments = name :: second :: rest) :
    key.text = name ++ "/" ++ "/".intercalate (second :: rest) := by
  rw [ObjectKey.text, nested, String.intercalate_cons_cons]

private theorem first_ordinary {key : ObjectKey} {name : String} {rest : List String}
    (segments : key.segments = name :: rest) : OrdinarySegment name :=
  key.ordinary name (by rw [segments]; exact List.mem_cons_self)

theorem first_slashless {key : ObjectKey} {name : String} {rest : List String}
    (segments : key.segments = name :: rest) : '/' ∉ name.toList :=
  (first_ordinary segments).2.2.2

/-- A key with nothing but a name behind the prefix is in no folder there. -/
theorem folderOf?_single (keyPrefix : String) {key : ObjectKey} {name : String}
    (single : key.segments = [name]) : folderOf? keyPrefix (keyPrefix ++ key.text) = none := by
  unfold folderOf?
  dsimp only
  rw [sliceFrom_length, text_single single, slashIndex_slashless (first_slashless single)]

theorem folderOf?_nested (keyPrefix : String) {key : ObjectKey} {name second : String}
    {rest : List String} (nested : key.segments = name :: second :: rest) :
    folderOf? keyPrefix (keyPrefix ++ key.text) = some (name ++ "/") := by
  have filled : 0 < name.length :=
    Nat.pos_of_ne_zero fun none_ => (first_ordinary nested).1 (String.length_eq_zero_iff.mp none_)
  unfold folderOf?
  dsimp only
  rw [sliceFrom_length, text_nested nested, slashIndex_join (first_slashless nested)]
  dsimp only
  rw [if_pos filled, ← length_slash, sliceTo_length]

/-! The scan collects the folders of all keys below the prefix. -/

private theorem mem_addFolder {keyPrefix objectKey folder : String} {seen : List String} :
    folder ∈ addFolder keyPrefix seen objectKey ↔
      folder ∈ seen ∨ folderOf? keyPrefix objectKey = some folder := by
  unfold addFolder
  cases folderOf? keyPrefix objectKey with
  | none => simp
  | some found =>
    dsimp only
    split
    · rename_i known
      refine ⟨.inl, ?_⟩
      rintro (old | new)
      · exact old
      · exact Option.some.inj new ▸ known
    · rw [List.mem_append, List.mem_singleton, Option.some_inj, eq_comm]

private theorem mem_foldl_addFolder {keyPrefix folder : String} {texts seen : List String} :
    folder ∈ texts.foldl (addFolder keyPrefix) seen ↔
      folder ∈ seen ∨ ∃ text ∈ texts, folderOf? keyPrefix text = some folder := by
  induction texts generalizing seen with
  | nil => simp
  | cons text rest ih =>
    rw [List.foldl_cons, ih, mem_addFolder, or_assoc, List.exists_mem_cons_iff]

private theorem nodup_foldl_addFolder {keyPrefix : String} {texts seen : List String}
    (distinct : seen.Nodup) : (texts.foldl (addFolder keyPrefix) seen).Nodup := by
  induction texts generalizing seen with
  | nil => exact distinct
  | cons text rest ih =>
    apply ih
    unfold addFolder
    split
    · split
      · exact distinct
      · rename_i unknown
        rw [← List.concat_eq_append]
        exact List.Nodup.concat unknown distinct
    · exact distinct

/-- The answers of `listFiles` are the pages of all active keys that start with the prefix, in
some order. -/
structure ListsKeys (listFiles : FilesQuery → FilesPage) (bucket : String)
    (keys : List ObjectKey) : Prop where
  pages : ∀ keyPrefix : Option String, ∃ found : List ObjectKey,
    found.Perm (keys.filter fun key => (keyPrefix.getD "").toList <+: key.text.toList) ∧
      ∀ limit offset, listFiles { bucket, keyPrefix, limit, offset } =
        { items := (Kit.Paging.slice limit offset found).map (·.text)
          offset
          total := found.length }

/-- There are no more keys than the scan reads. -/
def FewKeys (keys : List ObjectKey) : Prop := keys.length ≤ folderScanPages * folderScanLimit

instance (keys : List ObjectKey) : Decidable (FewKeys keys) := Nat.decLe _ _

section Scan

variable {listFiles : FilesQuery → FilesPage} {bucket : String} {keys : List ObjectKey}

private theorem scanFolders_all {keyPrefix : String} {found : List ObjectKey}
    (answers : ∀ limit offset, listFiles {
        bucket, keyPrefix := if keyPrefix = "" then none else some keyPrefix, limit, offset } =
      { items := (Kit.Paging.slice limit offset found).map (·.text)
        offset
        total := found.length })
    {pages offset : Nat} (few : found.length ≤ offset + pages * folderScanLimit)
    (seen : List String) :
    scanFolders listFiles bucket keyPrefix pages offset seen =
      ((found.drop offset).map (·.text)).foldl (addFolder keyPrefix) seen := by
  induction pages generalizing offset seen with
  | zero =>
    rw [Nat.zero_mul, Nat.add_zero] at few
    rw [scanFolders, List.drop_eq_nil_of_le few]
    rfl
  | succ pages ih =>
    have length : ((Kit.Paging.slice folderScanLimit offset found).map (·.text)).length =
        min folderScanLimit (found.length - offset) := by
      rw [List.length_map, Kit.Paging.slice, List.length_take, List.length_drop]
    rw [scanFolders, answers]
    dsimp only
    rw [length]
    split
    · rename_i all
      rw [Kit.Paging.slice, List.take_of_length_le]
      rw [List.length_drop]
      omega
    · rename_i more
      have full : min folderScanLimit (found.length - offset) = folderScanLimit := by omega
      rw [full, ih (by rw [Nat.succ_mul] at few; omega), Kit.Paging.slice, ← List.foldl_append,
        ← List.map_append, ← List.drop_drop, List.take_append_drop]

theorem scan_seen (lists : ListsKeys listFiles bucket keys) (few : FewKeys keys)
    (keyPrefix : String) : ∃ found : List ObjectKey,
      found.Perm (keys.filter fun key => keyPrefix.toList <+: key.text.toList) ∧
        scanFolders listFiles bucket keyPrefix folderScanPages 0 [] =
          (found.map (·.text)).foldl (addFolder keyPrefix) [] := by
  have asked : (if keyPrefix = "" then none else some keyPrefix : Option String).getD "" =
      keyPrefix := by
    split
    · rename_i empty
      exact empty.symm
    · rfl
  obtain ⟨found, perm, answers⟩ := lists.pages (if keyPrefix = "" then none else some keyPrefix)
  rw [asked] at perm
  refine ⟨found, perm, scanFolders_all answers ?_ []⟩
  rw [Nat.zero_add, perm.length_eq]
  exact (List.length_filter_le _ _).trans few

/-- The folders below a prefix are those of the keys that start with it. -/
theorem mem_collectFolders (lists : ListsKeys listFiles bucket keys) (few : FewKeys keys)
    {keyPrefix folder : String} :
    folder ∈ collectFolders listFiles bucket keyPrefix ↔
      ∃ key ∈ keys, keyPrefix.toList <+: key.text.toList ∧
        folderOf? keyPrefix key.text = some folder := by
  obtain ⟨found, perm, seen⟩ := scan_seen lists few keyPrefix
  rw [collectFolders, List.mem_insertionSort, seen, mem_foldl_addFolder]
  constructor
  · rintro (none_ | ⟨text, member, through⟩)
    · cases none_
    · obtain ⟨key, inside, rfl⟩ := List.mem_map.mp member
      obtain ⟨stored, starts⟩ := List.mem_filter.mp (perm.mem_iff.mp inside)
      exact ⟨key, stored, of_decide_eq_true starts, through⟩
  · rintro ⟨key, stored, starts, through⟩
    refine .inr ⟨key.text, List.mem_map_of_mem (perm.mem_iff.mpr ?_), through⟩
    exact List.mem_filter.mpr ⟨stored, decide_eq_true starts⟩

theorem nodup_collectFolders (lists : ListsKeys listFiles bucket keys) (few : FewKeys keys)
    (keyPrefix : String) : (collectFolders listFiles bucket keyPrefix).Nodup := by
  obtain ⟨found, _, seen⟩ := scan_seen lists few keyPrefix
  rw [collectFolders, seen, (List.perm_insertionSort _ _).nodup_iff]
  exact nodup_foldl_addFolder List.nodup_nil

/-- Below the bucket there is a folder for every key with more than one name. -/
theorem mem_bucketFolders (lists : ListsKeys listFiles bucket keys) (few : FewKeys keys)
    {folder : String} : folder ∈ collectFolders listFiles bucket "" ↔
      ∃ key ∈ keys, ∃ name second rest, key.segments = name :: second :: rest ∧
        folder = name ++ "/" := by
  rw [mem_collectFolders lists few]
  constructor
  · rintro ⟨key, stored, _, through⟩
    obtain ⟨name, others, segments⟩ := List.exists_cons_of_ne_nil key.nonempty
    refine ⟨key, stored, name, ?_⟩
    cases others with
    | nil =>
      have none_ := folderOf?_single "" segments
      rw [String.empty_append, through] at none_
      cases none_
    | cons second rest =>
      have some_ := folderOf?_nested "" segments
      rw [String.empty_append, through] at some_
      exact ⟨second, rest, segments, Option.some.inj some_⟩
  · rintro ⟨key, stored, name, second, rest, segments, rfl⟩
    have some_ := folderOf?_nested "" segments
    rw [String.empty_append] at some_
    exact ⟨key, stored, List.nil_prefix, some_⟩

theorem exists_below {key : ObjectKey} {name second : String} {rest : List String}
    (nested : key.segments = name :: second :: rest) :
    ∃ below : ObjectKey, below.segments = second :: rest ∧ key.text = name ++ "/" ++ below.text := by
  refine ⟨⟨second :: rest, List.cons_ne_nil _ _, fun segment member => ?_⟩, rfl, text_nested nested⟩
  exact key.ordinary segment (by rw [nested]; exact List.mem_cons_of_mem _ member)

/-- A text that starts with a folder goes on behind its slash. -/
theorem text_of_starts {text folder : String} (starts : (folder ++ "/").toList <+: text.toList) :
    ∃ rest, text = folder ++ "/" ++ rest := by
  obtain ⟨rest, split⟩ := starts
  refine ⟨String.ofList rest, String.toList_inj.mp ?_⟩
  rw [String.toList_append, String.toList_ofList, split]

theorem starts_iff {key : ObjectKey} {name : String} (slashless : '/' ∉ name.toList) :
    (name ++ "/").toList <+: key.text.toList ↔
      ∃ second rest, key.segments = name :: second :: rest := by
  constructor
  · intro starts
    obtain ⟨rest, text⟩ := text_of_starts starts
    have pieces := splitPath_text key
    rw [text, splitPath_join, splitPath_slashless slashless] at pieces
    obtain ⟨second, others, more⟩ := List.exists_cons_of_ne_nil (splitPath_ne_nil rest)
    rw [more] at pieces
    exact ⟨second, others, pieces.symm⟩
  · rintro ⟨second, rest, nested⟩
    exact ⟨("/".intercalate (second :: rest)).toList, by
      rw [text_nested nested, ← String.toList_append]⟩

/-- Below a folder of the bucket there is one for every key with two more names. -/
theorem mem_innerFolders (lists : ListsKeys listFiles bucket keys) (few : FewKeys keys)
    {name folder : String} (slashless : '/' ∉ name.toList) :
    folder ∈ collectFolders listFiles bucket (name ++ "/") ↔
      ∃ key ∈ keys, ∃ second third rest, key.segments = name :: second :: third :: rest ∧
        folder = second ++ "/" := by
  rw [mem_collectFolders lists few]
  constructor
  · rintro ⟨key, stored, starts, through⟩
    obtain ⟨second, others, nested⟩ := (starts_iff slashless).mp starts
    obtain ⟨below, segments, text⟩ := exists_below nested
    rw [text] at through
    refine ⟨key, stored, second, ?_⟩
    cases others with
    | nil =>
      rw [folderOf?_single _ segments] at through
      cases through
    | cons third rest =>
      rw [folderOf?_nested _ segments] at through
      exact ⟨third, rest, nested, (Option.some.inj through).symm⟩
  · rintro ⟨key, stored, second, third, rest, nested, rfl⟩
    obtain ⟨below, segments, text⟩ := exists_below nested
    refine ⟨key, stored, (starts_iff slashless).mpr ⟨_, _, nested⟩, ?_⟩
    rw [text]
    exact folderOf?_nested _ segments

end Scan

/-- A folder of the keys: it ends with a slash, and a key starts with it. -/
def FolderOf (keys : List ObjectKey) (folder : String) : Prop :=
  folder.toList.getLast? = some '/' ∧ ∃ key ∈ keys, folder.toList <+: key.text.toList

/-- No folder lies in another one. -/
def Shallow (keys : List ObjectKey) : Prop := ∀ key ∈ keys, key.segments.length ≤ 2

instance (keys : List ObjectKey) : Decidable (Shallow keys) := List.decidableBAll _ keys

theorem folderOf_bucket {keys : List ObjectKey} {key : ObjectKey} (stored : key ∈ keys)
    {name second : String} {rest : List String} (nested : key.segments = name :: second :: rest) :
    FolderOf keys (name ++ "/") := by
  constructor
  · rw [String.toList_append]
    exact List.getLast?_concat
  · exact ⟨key, stored, (starts_iff (first_slashless nested)).mpr ⟨second, rest, nested⟩⟩

/-- Where no folder lies in another one, all of them are in the bucket itself. -/
theorem FolderOf.of_shallow {keys : List ObjectKey} (shallow : Shallow keys) {folder : String}
    (of : FolderOf keys folder) : ∃ key ∈ keys, ∃ name second rest,
      key.segments = name :: second :: rest ∧ folder = name ++ "/" := by
  obtain ⟨ends, key, stored, starts⟩ := of
  obtain ⟨front, spelled⟩ : ∃ front : String, folder = front ++ "/" := by
    refine ⟨String.ofList folder.toList.dropLast, String.toList_inj.mp ?_⟩
    rw [String.toList_append, String.toList_ofList]
    exact (List.dropLast_append_getLast? _ ends).symm
  subst spelled
  obtain ⟨rest, text⟩ := text_of_starts starts
  have pieces := splitPath_text key
  rw [text, splitPath_join] at pieces
  have short := shallow key stored
  rw [← pieces, List.length_append] at short
  have one := List.length_pos_of_ne_nil (splitPath_ne_nil front)
  have another := List.length_pos_of_ne_nil (splitPath_ne_nil rest)
  obtain ⟨name, single⟩ := List.length_eq_one_iff.mp (by omega : (splitPath front).length = 1)
  obtain ⟨second, others, more⟩ := List.exists_cons_of_ne_nil (splitPath_ne_nil rest)
  have same := intercalate_splitPath front
  rw [single, String.intercalate_singleton] at same
  refine ⟨key, stored, name, second, others, ?_, by rw [same]⟩
  rw [← pieces, single, more]
  rfl

/-- No key has an empty name in it, so none starts with two slashes in a row. -/
theorem not_folderOf_doubled (keys : List ObjectKey) (name folder : String) :
    ¬ FolderOf keys (name ++ "/" ++ "/" ++ folder) := by
  rintro ⟨_, key, _, rest, split⟩
  have text : key.text = name ++ "/" ++ ("" ++ "/" ++ (folder ++ String.ofList rest)) := by
    apply String.toList_inj.mp
    rw [← split]
    simp [String.toList_append]
  have pieces := splitPath_text key
  rw [text, splitPath_join, splitPath_join] at pieces
  have blank : "" ∈ key.segments := by
    rw [← pieces]
    exact List.mem_append_right _ (List.mem_append_left _ (List.mem_singleton.mpr rfl))
  exact (key.ordinary "" blank).1 rfl

end PyUploadX.Portal
