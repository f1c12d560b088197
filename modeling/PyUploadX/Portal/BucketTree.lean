import Mathlib.Data.List.Lex
import PyUploadX.DirectoryUpload.Paths
import PyUploadX.Kit.Paging

/-! The portal's bucket tree: the keys of its nodes, the scan for the folders below a node, and
what expanding a node does to the tree. -/
namespace PyUploadX.Portal

def folderScanLimit : Nat := 100

def folderScanPages : Nat := 6

/-- A query of `api.listFiles`, which always sorts by name. -/
structure FilesQuery where
  bucket : String
  keyPrefix : Option String
  limit : Nat
  offset : Nat

/-- The answer, with the object keys of its items. -/
structure FilesPage where
  items : List String
  offset : Nat
  total : Nat

/-- `text.indexOf("/")`. -/
def slashIndex (text : String) : Option Nat := text.toList.findIdx? (· = '/')

/-- `text.slice(start)`. -/
def sliceFrom (start : Nat) (text : String) : String := String.ofList (text.toList.drop start)

/-- `text.slice(0, stop)`. -/
def sliceTo (stop : Nat) (text : String) : String := String.ofList (text.toList.take stop)

def splitNodeKey (key : String) : String × String :=
  if key = "" then ("", "")
  else
    match slashIndex key with
    | none => (key, "")
    | some slash => (sliceTo slash key, sliceFrom (slash + 1) key)

/-- What the scan takes from one object key: its folder below the prefix, with the slash. -/
def folderOf? (keyPrefix objectKey : String) : Option String :=
  let rest := sliceFrom keyPrefix.length objectKey
  match slashIndex rest with
  | some slash => if 0 < slash then some (sliceTo (slash + 1) rest) else none
  | none => none

/-- `seen.add`, in the order of insertion. -/
def addFolder (keyPrefix : String) (seen : List String) (objectKey : String) : List String :=
  match folderOf? keyPrefix objectKey with
  | some folder => if folder ∈ seen then seen else seen ++ [folder]
  | none => seen

/-- The code units of a text, by which `sort` compares. -/
def codeUnits (text : String) : List Nat :=
  text.toList.flatMap fun char =>
    if char.toNat < 0x10000 then [char.toNat]
    else [0xD800 + (char.toNat - 0x10000) / 0x400, 0xDC00 + (char.toNat - 0x10000) % 0x400]

section Scan

variable (listFiles : FilesQuery → FilesPage)

/-- The loop over the pages. -/
def scanFolders (bucket keyPrefix : String) : Nat → Nat → List String → List String
  | 0, _, seen => seen
  | pages + 1, offset, seen =>
    let result := listFiles {
      bucket
      keyPrefix := if keyPrefix = "" then none else some keyPrefix
      limit := folderScanLimit
      offset }
    let seen := result.items.foldl (addFolder keyPrefix) seen
    if result.total ≤ result.offset + result.items.length then seen
    else scanFolders bucket keyPrefix pages (offset + result.items.length) seen

def collectFolders (bucket keyPrefix : String) : List String :=
  (scanFolders listFiles bucket keyPrefix folderScanPages 0 []).insertionSort
    fun first second => codeUnits first ≤ codeUnits second

end Scan

/-- A node of the tree, without its icon. -/
inductive TreeFolder
  /-- Its `children` are undefined. -/
  | unloaded (key title : String)
  | loaded (key title : String) (children : List TreeFolder)

def TreeFolder.key : TreeFolder → String
  | .unloaded key _ => key
  | .loaded key _ _ => key

def buildTree (buckets : List String) (allLabel : String) : List TreeFolder :=
  .unloaded "" allLabel :: buckets.map fun name => .unloaded name name

mutual

def TreeFolder.withChildren (key : String) (children : List TreeFolder) : TreeFolder → TreeFolder
  | .unloaded own title =>
    if own = key then .loaded own title children else .unloaded own title
  | .loaded own title below =>
    if own = key then .loaded own title children
    else .loaded own title (withChildren key children below)

/-- `withChildren`, for a list of nodes. -/
def withChildren (key : String) (children : List TreeFolder) : List TreeFolder → List TreeFolder
  | [] => []
  | node :: rest => node.withChildren key children :: withChildren key children rest

end

mutual

def TreeFolder.findNode (key : String) : TreeFolder → Option TreeFolder
  | .unloaded own title => if own = key then some (.unloaded own title) else none
  | .loaded own title below =>
    if own = key then some (.loaded own title below) else findNode key below

/-- The first node with the key, from the top down. -/
def findNode (key : String) : List TreeFolder → Option TreeFolder
  | [] => none
  | node :: rest => (node.findNode key).or (findNode key rest)

end

mutual

def TreeFolder.keys : TreeFolder → List String
  | .unloaded key _ => [key]
  | .loaded key _ below => key :: treeKeys below

def treeKeys : List TreeFolder → List String
  | [] => []
  | node :: rest => node.keys ++ treeKeys rest

end

/-- The keys of the nodes below a node. -/
def TreeFolder.folderKeys : TreeFolder → List String
  | .unloaded _ _ => []
  | .loaded _ _ below => treeKeys below

/-- `folder.replace(/\/$/, "")`. -/
def folderTitle (folder : String) : String :=
  if folder.toList.getLast? = some '/' then String.ofList folder.toList.dropLast else folder

def childKey (key nodeBucket folder : String) : String :=
  if key = nodeBucket then nodeBucket ++ "/" ++ folder else key ++ "/" ++ folder

/-- The nodes that `handleExpand` puts below a node. -/
def childNodes (listFiles : FilesQuery → FilesPage) (key : String) : List TreeFolder :=
  (collectFolders listFiles (splitNodeKey key).1 (splitNodeKey key).2).map fun folder =>
    .unloaded (childKey key (splitNodeKey key).1 folder) (folderTitle folder)

/-- The component's state, as far as it decides what the tree shows. -/
structure BucketTree where
  treeData : List TreeFolder := []
  loadingKeys : List String := []

def TreeFolder.isLoaded : TreeFolder → Bool
  | .unloaded _ _ => false
  | .loaded _ _ _ => true

/-- `handleExpand` up to its await. -/
def BucketTree.expand (tree : BucketTree) (key : String) : BucketTree :=
  if key = "" ∨ key ∈ tree.loadingKeys ∨ (splitNodeKey key).1 = "" ∨
      (findNode key tree.treeData).any (·.isLoaded) then tree
  else { tree with loadingKeys := tree.loadingKeys ++ [key] }

def BucketTree.settle (tree : BucketTree) (key : String) : BucketTree :=
  { tree with loadingKeys := tree.loadingKeys.filter (· ≠ key) }

inductive TreeEvent
  /-- The buckets of the configuration are shown, or shown anew. -/
  | rebuild (buckets : List String) (allLabel : String)
  /-- The user expands a node. -/
  | expand (key : String)
  /-- The folders of a node arrive. -/
  | arrive (key : String)
  /-- They cannot be read. -/
  | fail (key : String)

/-- One event; the user can expand what the tree shows, and what arrives was asked for. -/
def BucketTree.step (listFiles : FilesQuery → FilesPage) (tree : BucketTree) :
    TreeEvent → BucketTree
  | .rebuild buckets allLabel => { tree with treeData := buildTree buckets allLabel }
  | .expand key => if key ∈ treeKeys tree.treeData then tree.expand key else tree
  | .arrive key =>
    if key ∈ tree.loadingKeys then
      { tree with treeData := withChildren key (childNodes listFiles key) tree.treeData }.settle key
    else tree
  | .fail key => tree.settle key

end PyUploadX.Portal
