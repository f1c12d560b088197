import PyUploadX.Portal.FolderNodes

/-! The bucket tree as it grows: what stands below a bucket, however its nodes are expanded. -/
namespace PyUploadX.Portal

open Kit

/-! Over the nodes of a tree. -/

private theorem withChildren_eq_map (key : String) (children nodes : List TreeFolder) :
    withChildren key children nodes = nodes.map (·.withChildren key children) := by
  induction nodes with
  | nil => rfl
  | cons node rest ih => rw [withChildren, List.map_cons, ih]

private theorem treeKeys_eq_flatMap (nodes : List TreeFolder) : treeKeys nodes = nodes.flatMap (·.keys) := by
  induction nodes with
  | nil => rfl
  | cons node rest ih => rw [treeKeys, List.flatMap_cons, ih]

private theorem withChildren_key (key : String) (children : List TreeFolder) (node : TreeFolder) :
    (node.withChildren key children).key = node.key := by
  cases node <;> unfold TreeFolder.withChildren <;> split <;> rfl

/-- Every node that has its children has those that its key asks for. -/
inductive Grown (listFiles : FilesQuery → FilesPage) : TreeFolder → Prop
  | unloaded (key title : String) : Grown listFiles (.unloaded key title)
  | loaded {key title : String} {below : List TreeFolder}
      (own : below.map (·.key) = (childNodes listFiles key).map (·.key))
      (each : ∀ node ∈ below, Grown listFiles node) : Grown listFiles (.loaded key title below)

variable {listFiles : FilesQuery → FilesPage}

private theorem childNodes_grown {key : String} : ∀ node ∈ childNodes listFiles key, Grown listFiles node := by
  intro node member
  obtain ⟨folder, _, rfl⟩ := List.mem_map.mp member
  exact .unloaded _ _

theorem Grown.withChildren {node : TreeFolder} (grown : Grown listFiles node) (key : String) :
    Grown listFiles (node.withChildren key (childNodes listFiles key)) := by
  induction grown with
  | unloaded own title =>
    unfold TreeFolder.withChildren
    split
    · rename_i same
      exact .loaded (same ▸ rfl) childNodes_grown
    · exact .unloaded _ _
  | @loaded own title below keys each ih =>
    unfold TreeFolder.withChildren
    split
    · rename_i same
      exact .loaded (same ▸ rfl) childNodes_grown
    · rw [withChildren_eq_map]
      refine .loaded ?_ fun node member => ?_
      · rw [List.map_map, ← keys]
        exact List.map_congr_left fun node _ => withChildren_key key _ node
      · obtain ⟨former, present, rfl⟩ := List.mem_map.mp member
        exact ih former present

private theorem step_grown {tree : BucketTree} (grown : ∀ root ∈ tree.treeData, Grown listFiles root)
    (event : TreeEvent) : ∀ root ∈ (tree.step listFiles event).treeData, Grown listFiles root := by
  cases event with
  | rebuild buckets allLabel =>
    intro root member
    rcases List.mem_cons.mp member with rfl | named
    · exact .unloaded _ _
    · obtain ⟨name, _, rfl⟩ := List.mem_map.mp named
      exact .unloaded _ _
  | expand key =>
    unfold BucketTree.step BucketTree.expand
    dsimp only
    split
    · split <;> exact grown
    · exact grown
  | arrive key =>
    unfold BucketTree.step BucketTree.settle
    dsimp only
    split
    · dsimp only
      rw [withChildren_eq_map]
      intro root member
      obtain ⟨former, present, rfl⟩ := List.mem_map.mp member
      exact (grown former present).withChildren key
    · exact grown
  | fail key => exact grown

/-- The tree after some events. -/
def treeAfter (listFiles : FilesQuery → FilesPage) (events : List TreeEvent) : BucketTree :=
  events.foldl (BucketTree.step listFiles) {}

private theorem treeAfter_grown (events : List TreeEvent) :
    ∀ root ∈ (treeAfter listFiles events).treeData, Grown listFiles root :=
  @run_preserves _ _ (BucketTree.step listFiles)
    (fun tree => ∀ root ∈ tree.treeData, Grown listFiles root) _ events (List.forall_mem_nil _)
    fun _ event grown => step_grown grown event

section Bucket

variable {bucket : String} (slashless : '/' ∉ bucket.toList)

include slashless

private theorem childNodes_bucket : (childNodes listFiles bucket).map (·.key) =
    (collectFolders listFiles bucket "").map (bucket ++ "/" ++ ·) := by
  unfold childNodes
  rw [splitNodeKey_bucket slashless, List.map_map]
  refine List.map_congr_left fun folder _ => ?_
  exact if_pos rfl

private theorem childNodes_folder (path : String) :
    (childNodes listFiles (bucket ++ "/" ++ path)).map (·.key) =
      (collectFolders listFiles bucket path).map (bucket ++ "/" ++ path ++ "/" ++ ·) := by
  unfold childNodes
  rw [splitNodeKey_join slashless, List.map_map]
  refine List.map_congr_left fun folder _ => ?_
  exact if_neg (join_ne_slashless slashless path)

variable {keys : List ObjectKey} (lists : ListsKeys listFiles bucket keys) (few : FewKeys keys)
  (shallow : Shallow keys)

include lists few shallow

/-- A folder node that can have no children is the only one of its subtree. -/
theorem folderNode_keys {node : TreeFolder} (grown : Grown listFiles node)
    (inBucket : node.key ∈ (childNodes listFiles bucket).map (·.key)) : node.keys = [node.key] := by
  rw [childNodes_bucket slashless] at inBucket
  obtain ⟨folder, member, spelled⟩ := List.mem_map.mp inBucket
  obtain ⟨key, stored, name, second, rest, nested, rfl⟩ := (mem_bucketFolders lists few).mp member
  have plain := first_slashless nested
  cases grown with
  | unloaded => rfl
  | @loaded own title below children each =>
    have none_ : collectFolders listFiles bucket (name ++ "/") = [] := by
      refine List.eq_nil_iff_forall_not_mem.mpr fun inner present => ?_
      obtain ⟨deep, inKeys, second, third, rest, segments, _⟩ :=
        (mem_innerFolders lists few plain).mp present
      have short := shallow deep inKeys
      rw [segments] at short
      exact absurd short (by simp)
    change bucket ++ "/" ++ (name ++ "/") = own at spelled
    rw [← spelled, childNodes_folder slashless, none_, List.map_nil, List.map_eq_nil_iff] at children
    rw [children]
    rfl

/-- Below the bucket's node stand all its folders, once it has its children. -/
theorem bucketNode_folderKeys {root : TreeFolder} (grown : Grown listFiles root)
    (own : root.key = bucket) :
    root.folderKeys = [] ∨
      root.folderKeys = (collectFolders listFiles bucket "").map (bucket ++ "/" ++ ·) := by
  cases grown with
  | unloaded => exact .inl rfl
  | @loaded key title below children each =>
    right
    change key = bucket at own
    subst own
    have single : ∀ node ∈ below, node.keys = [node.key] := by
      intro node member
      refine folderNode_keys slashless lists few shallow (each node member) ?_
      rw [← children]
      exact List.mem_map_of_mem member
    rw [← childNodes_bucket slashless, ← children, TreeFolder.folderKeys, treeKeys_eq_flatMap,
      List.flatMap_congr single]
    exact List.map_eq_flatMap.symm

end Bucket

/-! Expanding a bucket, and then a folder in it. -/

theorem expand_arrive {tree : BucketTree} {key title : String} (filled : key ≠ "")
    (inBucket : (splitNodeKey key).1 ≠ "") (idle : tree.loadingKeys = [])
    (shown : key ∈ treeKeys tree.treeData)
    (found : findNode key tree.treeData = some (.unloaded key title)) :
    ((tree.step listFiles (.expand key)).step listFiles (.arrive key)) =
      { treeData := withChildren key (childNodes listFiles key) tree.treeData } := by
  have asked : tree.step listFiles (.expand key) = { tree with loadingKeys := [key] } := by
    unfold BucketTree.step BucketTree.expand
    dsimp only
    rw [if_pos shown, if_neg, idle]
    · rfl
    · rw [idle, found]
      simp [filled, inBucket, TreeFolder.isLoaded]
  rw [asked]
  unfold BucketTree.step BucketTree.settle
  dsimp only
  rw [if_pos List.mem_cons_self]
  simp

/-- The tree in which one bucket has its children. -/
def bucketOpened (listFiles : FilesQuery → FilesPage) (bucket : String) : BucketTree where
  treeData := [.unloaded "" "", .loaded bucket bucket (childNodes listFiles bucket)]

private theorem treeAfter_bucket {bucket : String} (named : bucket ≠ "")
    (slashless : '/' ∉ bucket.toList) :
    treeAfter listFiles [.rebuild [bucket] "", .expand bucket, .arrive bucket] =
      bucketOpened listFiles bucket := by
  have found : findNode bucket (buildTree [bucket] "") = some (.unloaded bucket bucket) := by
    simp [buildTree, findNode, TreeFolder.findNode, Ne.symm named]
  have opened := @expand_arrive listFiles ⟨buildTree [bucket] "", []⟩ bucket bucket named
    (by rw [splitNodeKey_bucket slashless]; exact named) rfl
    (by simp [buildTree, treeKeys, TreeFolder.keys]) found
  have children : withChildren bucket (childNodes listFiles bucket) (buildTree [bucket] "") =
      (bucketOpened listFiles bucket).treeData := by
    simp [buildTree, withChildren, TreeFolder.withChildren, bucketOpened, Ne.symm named]
  rw [children] at opened
  exact opened

private theorem treeKeys_childNodes (key : String) :
    treeKeys (childNodes listFiles key) = (childNodes listFiles key).map (·.key) := by
  rw [treeKeys_eq_flatMap, List.map_eq_flatMap]
  refine List.flatMap_congr fun node member => ?_
  obtain ⟨folder, _, rfl⟩ := List.mem_map.mp member
  rfl

private theorem childNodes_unloaded {key : String} :
    ∀ node ∈ childNodes listFiles key, ∃ title, node = .unloaded node.key title := by
  intro node member
  obtain ⟨folder, _, rfl⟩ := List.mem_map.mp member
  exact ⟨_, rfl⟩

private theorem findNode_unloaded {nodes : List TreeFolder}
    (bare : ∀ node ∈ nodes, ∃ title, node = .unloaded node.key title) {key : String}
    (member : key ∈ nodes.map (·.key)) :
    ∃ title, findNode key nodes = some (.unloaded key title) := by
  induction nodes with
  | nil => cases member
  | cons node rest ih =>
    obtain ⟨⟨title, spelled⟩, others⟩ := List.forall_mem_cons.mp bare
    rw [spelled, findNode, TreeFolder.findNode]
    split
    · rename_i same
      exact ⟨title, by rw [Option.some_or, same]⟩
    · rename_i other
      rw [Option.none_or]
      refine ih others ?_
      rcases List.mem_cons.mp member with same | later
      · exact absurd same.symm other
      · exact later

/-- What a node gets is shown below it, wherever it stands. -/
theorem mem_withChildren {key title child : String} {nodes children : List TreeFolder}
    (member : .unloaded key title ∈ nodes) (new : child ∈ treeKeys children) :
    child ∈ treeKeys (withChildren key children nodes) := by
  rw [treeKeys_eq_flatMap, withChildren_eq_map]
  refine List.mem_flatMap.mpr ⟨_, List.mem_map_of_mem member, ?_⟩
  rw [TreeFolder.withChildren, if_pos rfl]
  exact List.mem_cons_of_mem _ new

/-- Once a folder in the bucket is expanded too, the folders in it are shown below the bucket. -/
theorem treeAfter_folder {bucket : String} (named : bucket ≠ "") (slashless : '/' ∉ bucket.toList)
    {folder inner : String} (member : folder ∈ collectFolders listFiles bucket "")
    (deeper : inner ∈ collectFolders listFiles bucket folder) :
    ∃ events, ∃ root ∈ (treeAfter listFiles events).treeData, root.key = bucket ∧
      bucket ++ "/" ++ folder ++ "/" ++ inner ∈ root.folderKeys := by
  have child : bucket ++ "/" ++ folder ∈ (childNodes listFiles bucket).map (·.key) := by
    rw [childNodes_bucket slashless]
    exact List.mem_map_of_mem member
  have filled := join_ne_empty bucket folder
  have other := Ne.symm (join_ne_slashless slashless folder)
  obtain ⟨title, found⟩ := findNode_unloaded childNodes_unloaded child
  have opened := @expand_arrive listFiles (bucketOpened listFiles bucket) _ title filled
    (by rw [splitNodeKey_join slashless]; exact named) rfl
    (by
      change _ ∈ _ :: bucket :: (treeKeys (childNodes listFiles bucket) ++ [])
      rw [List.append_nil, treeKeys_childNodes]
      exact List.mem_cons_of_mem _ (List.mem_cons_of_mem _ child))
    (by
      simp only [bucketOpened, findNode, TreeFolder.findNode, if_neg (Ne.symm filled),
        if_neg other, found, Option.none_or, Option.some_or])
  refine ⟨[.rebuild [bucket] "", .expand bucket, .arrive bucket,
    .expand (bucket ++ "/" ++ folder), .arrive (bucket ++ "/" ++ folder)], ?_⟩
  have reached : treeAfter listFiles [.rebuild [bucket] "", .expand bucket, .arrive bucket,
      .expand (bucket ++ "/" ++ folder), .arrive (bucket ++ "/" ++ folder)] =
        ((treeAfter listFiles [.rebuild [bucket] "", .expand bucket, .arrive bucket]).step listFiles
          (.expand (bucket ++ "/" ++ folder))).step listFiles
            (.arrive (bucket ++ "/" ++ folder)) := rfl
  rw [reached, treeAfter_bucket named slashless, opened]
  refine ⟨_, List.mem_cons_of_mem _ List.mem_cons_self, ?_⟩
  rw [TreeFolder.withChildren, if_neg other]
  refine ⟨rfl, ?_⟩
  obtain ⟨node, present, own⟩ := List.mem_map.mp child
  obtain ⟨title, spelled⟩ := childNodes_unloaded node present
  rw [spelled, own] at present
  refine mem_withChildren present ?_
  rw [treeKeys_childNodes, childNodes_folder slashless]
  exact List.mem_map_of_mem deeper

/-- What the tree should show of a bucket: each node below it names a folder of the keys, and
each folder has exactly one node. -/
structure FoldersShown (listFiles : FilesQuery → FilesPage) (bucket : String)
    (keys : List ObjectKey) : Prop where
  sound : ∀ events, ∀ root ∈ (treeAfter listFiles events).treeData, root.key = bucket →
    ∀ key ∈ root.folderKeys, ∃ folder, splitNodeKey key = (bucket, folder) ∧ FolderOf keys folder
  reached : ∀ folder, FolderOf keys folder →
    ∃ events, ∃ root ∈ (treeAfter listFiles events).treeData, root.key = bucket ∧
      root.folderKeys.countP (fun key => splitNodeKey key = (bucket, folder)) = 1
  once : ∀ folder, FolderOf keys folder →
    ∀ events, ∀ root ∈ (treeAfter listFiles events).treeData, root.key = bucket →
      root.folderKeys.countP (fun key => splitNodeKey key = (bucket, folder)) ≤ 1

section Shown

variable {bucket : String} (named : bucket ≠ "") (slashless : '/' ∉ bucket.toList)
  {keys : List ObjectKey} (lists : ListsKeys listFiles bucket keys) (few : FewKeys keys)

include slashless in
/-- The nodes of a folder among those of the bucket's folders. -/
theorem countP_folders (folders : List String) (folder : String) :
    (folders.map (bucket ++ "/" ++ ·)).countP
        (fun key => splitNodeKey key = (bucket, folder)) = folders.count folder := by
  rw [List.countP_map, List.count]
  refine List.countP_congr fun other _ => ?_
  rw [Function.comp_apply, splitNodeKey_join slashless]
  simp

include named slashless lists few

private theorem foldersShown_of_shallow (shallow : Shallow keys) : FoldersShown listFiles bucket keys where
  sound := by
    intro events root member own key inside
    rcases bucketNode_folderKeys slashless lists few shallow (treeAfter_grown events root member)
      own with none_ | all
    · rw [none_] at inside
      cases inside
    · rw [all] at inside
      obtain ⟨folder, collected, rfl⟩ := List.mem_map.mp inside
      obtain ⟨stored, present, name, second, rest, nested, rfl⟩ :=
        (mem_bucketFolders lists few).mp collected
      exact ⟨_, splitNodeKey_join slashless _, folderOf_bucket present nested⟩
  reached := by
    intro folder of
    have collected : folder ∈ collectFolders listFiles bucket "" :=
      (mem_bucketFolders lists few).mpr (of.of_shallow shallow)
    refine ⟨[.rebuild [bucket] "", .expand bucket, .arrive bucket], ?_⟩
    rw [treeAfter_bucket named slashless]
    refine ⟨_, List.mem_cons_of_mem _ List.mem_cons_self, rfl, ?_⟩
    rw [TreeFolder.folderKeys, treeKeys_childNodes, childNodes_bucket slashless,
      countP_folders slashless]
    exact List.count_eq_one_of_mem (nodup_collectFolders lists few "") collected
  once := by
    intro folder _ events root member own
    rcases bucketNode_folderKeys slashless lists few shallow (treeAfter_grown events root member)
      own with none_ | all
    · rw [none_]
      exact Nat.zero_le 1
    · rw [all, countP_folders slashless]
      exact List.nodup_iff_count_le_one.mp (nodup_collectFolders lists few "") folder

/-- Below a folder in a folder, the key of a node has two slashes in a row. -/
theorem not_foldersShown_of_deep {key : ObjectKey} (stored : key ∈ keys)
    {name second third : String} {rest : List String}
    (nested : key.segments = name :: second :: third :: rest) :
    ¬ FoldersShown listFiles bucket keys := by
  intro shown
  have plain := first_slashless nested
  obtain ⟨events, root, member, own, inside⟩ := treeAfter_folder named slashless
    ((mem_bucketFolders lists few).mpr ⟨key, stored, name, second, third :: rest, nested, rfl⟩)
    ((mem_innerFolders lists few plain).mpr
      ⟨key, stored, second, third, rest, nested, rfl⟩)
  obtain ⟨folder, split, of⟩ := shown.sound events root member own _ inside
  have regrouped : bucket ++ "/" ++ (name ++ "/") ++ "/" ++ (second ++ "/") =
      bucket ++ "/" ++ (name ++ "/" ++ "/" ++ (second ++ "/")) := by
    simp only [String.append_assoc]
  rw [regrouped, splitNodeKey_join slashless] at split
  cases split
  exact not_folderOf_doubled keys name (second ++ "/") of

/-- The tree shows the folders of the keys exactly when no folder lies in another one. -/
theorem folders_shown_iff : FoldersShown listFiles bucket keys ↔ Shallow keys := by
  constructor
  · intro shown key stored
    by_contra deep
    obtain ⟨name, others, segments⟩ := List.exists_cons_of_ne_nil key.nonempty
    rw [segments, List.length_cons] at deep
    obtain ⟨second, others', rfl⟩ := List.exists_cons_of_length_pos (by omega : 0 < others.length)
    rw [List.length_cons] at deep
    obtain ⟨third, rest, rfl⟩ := List.exists_cons_of_length_pos (by omega : 0 < others'.length)
    exact not_foldersShown_of_deep named slashless lists few stored segments shown
  · exact foldersShown_of_shallow named slashless lists few

end Shown

/-- A server with one bucket of active files. -/
def listingOf (bucket : String) (keys : List ObjectKey) (query : FilesQuery) : FilesPage :=
  let found := if query.bucket = bucket then
      keys.filter fun key => (query.keyPrefix.getD "").toList <+: key.text.toList
    else []
  { items := (Kit.Paging.slice query.limit query.offset found).map (·.text)
    offset := query.offset
    total := found.length }

private theorem listingOf_lists (bucket : String) (keys : List ObjectKey) :
    ListsKeys (listingOf bucket keys) bucket keys where
  pages keyPrefix := by
    refine ⟨_, List.Perm.refl _, fun limit offset => ?_⟩
    unfold listingOf
    dsimp only
    rw [if_pos rfl]

def shallowKey : ObjectKey := ⟨["photos", "cat.jpg"], by decide, by decide⟩

theorem photos_folder_is_shown :
    FoldersShown (listingOf "files" [shallowKey]) "files" [shallowKey] :=
  (folders_shown_iff (by decide) (by decide) (listingOf_lists _ _) (by decide)).mpr (by decide)

def deepKey : ObjectKey := ⟨["docs", "2024", "report.pdf"], by decide, by decide⟩

/-- The node of `docs/2024/` has the key `files/docs//2024/`. -/
theorem inner_folder_is_not_shown :
    ListsKeys (listingOf "files" [deepKey]) "files" [deepKey] ∧ FewKeys [deepKey] ∧
      ¬ FoldersShown (listingOf "files" [deepKey]) "files" [deepKey] :=
  ⟨listingOf_lists _ _, by decide, not_foldersShown_of_deep (by decide) (by decide)
    (listingOf_lists _ _) (by decide) List.mem_cons_self rfl⟩

end PyUploadX.Portal
