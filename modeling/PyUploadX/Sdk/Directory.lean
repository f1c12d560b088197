import PyUploadX.Sdk.Ignore
import PyUploadX.Sdk.Manifest

/-! The SDK's walk over a directory with symbolic links in it: what keeps the files it emits
inside the directory, and where nothing does. -/
namespace PyUploadX.Sdk

open Kit

structure FileData where
  content : Bytes
  mtimeNs : Int
  deriving DecidableEq, Repr

/-- What `fast_fingerprint` feeds to the digest before the samples. -/
def fingerprintHeader (file : FileData) : String := s!"{file.content.length}:{file.mtimeNs}"

/-- The samples it feeds to the digest. -/
def fingerprintSamples (file : FileData) (sampleSize : Nat) : Bytes :=
  let size := file.content.length
  let head := "h".toUTF8.toList ++ file.content.take (min sampleSize size)
  let middle := "m".toUTF8.toList ++ (file.content.drop (size / 2)).take sampleSize
  let tail := "t".toUTF8.toList ++ (file.content.drop (size - sampleSize)).take sampleSize
  if size = 0 then [] else if 3 * sampleSize < size then head ++ middle ++ tail else head

def fingerprintInput (file : FileData) (sampleSize : Nat) : Bytes :=
  (fingerprintHeader file).toUTF8.toList ++ fingerprintSamples file sampleSize

/-- `fast_fingerprint`, where `sha256` gives the digest in hexadecimal. -/
def fastFingerprint (sha256 : Bytes → String) (file : FileData)
    (sampleSize : Nat := 64 * 1024) : String :=
  s!"fp:{String.ofList ((sha256 (fingerprintInput file sampleSize)).toList.take 40)}"

def downSteps (path : List String) : List (PathStep String) := path.map .down

/-- `str(path)`. -/
def pathText (path : List String) : String := "/" ++ "/".intercalate path

/-- The machine the SDK runs on. -/
structure Host where
  tree : LinkTree String FileData
  /-- More links than these on one path are `ELOOP`. -/
  linkLimit : Nat
  /-- So many calls of `walk` fit on Python's stack. -/
  recursionLimit : Nat
  nfc : String → String
  sha256 : Bytes → String

namespace Host

variable (host : Host)

/-- Where the kernel arrives. -/
def arrives (path : List String) : Option (List String) :=
  host.tree.follow host.linkLimit [] (downSteps path)

/-- `path / name` is a link itself. -/
def isSymlink (path : List String) (name : String) : Bool :=
  match host.arrives path with
  | some real => (host.tree.link? (real ++ [name])).isSome
  | none => false

def isDir (path : List String) : Bool :=
  match (host.arrives path).bind host.tree.node? with
  | some .directory => true
  | _ => false

/-- What `stat` and `open` find where `is_file` holds. -/
def file? (path : List String) : Option FileData :=
  match (host.arrives path).bind host.tree.node? with
  | some (.file file) => some file
  | _ => none

/-- `sorted(path.iterdir())`, by name, where `iterdir` does not raise. -/
def listing (path : List String) : Option (List String) :=
  match host.arrives path with
  | none => none
  | some real =>
    match host.tree.node? real with
    | some .directory => some ((host.tree.children real).insertionSort (· ≤ ·))
    | _ => none

end Host

/-- The parameters of `walk_directory`. -/
structure WalkSettings where
  isRecursive : Bool := true
  includes : List String := []
  excludes : List String := []
  symlinkPolicy : String := "ignore"
  deriving DecidableEq, Repr

inductive WalkError
  | directoryUpload (message : String)
  /-- The `RuntimeError` of `Path.resolve`. -/
  | symlinkLoop
  | recursion
  | notADirectory
  | isADirectory
  deriving DecidableEq, Repr

/-- What the inner `walk` closes over. -/
structure Walker where
  host : Host
  root : List String
  rules : IgnoreRules
  isRecursive : Bool
  symlinkPolicy : String
  /-- The root is resolved. -/
  resolved : host.tree.LinkFree root

/-- An emitted entry, with the path of the child it was made from. -/
structure Found where
  location : List String
  entry : WalkedEntry
  deriving DecidableEq

/-- `f"{relative}/{child.name}" if relative else child.name`. -/
def childRelative (relative name : String) : String :=
  if relative = "" then name else relative ++ "/" ++ name

def directoryEntry (normalized : ObjectKey) : WalkedEntry where
  entryType := .directory
  path := normalized
  sizeBytes := 0

def fileEntry (sha256 : Bytes → String) (normalized : ObjectKey) (file : FileData) :
    WalkedEntry where
  entryType := .file
  path := normalized
  sizeBytes := file.content.length
  lastModifiedNs := some file.mtimeNs
  fingerprint := some (fastFingerprint sha256 file)
  contentType := some "application/octet-stream"

/-- `rules.load_ignore_file(root)`. -/
def IgnoreRules.loadIgnoreFile (rules : IgnoreRules) (host : Host) (directory : List String) :
    Except WalkError IgnoreRules :=
  let ignoreFile := directory ++ [rules.ignoreFileName]
  if host.isDir ignoreFile then .error .isADirectory
  else
    match host.file? ignoreFile with
    | some file => .ok { rules with excludes := rules.excludes ++ ignoreLines file.content }
    | none => .ok rules

/-- What `walk_directory` does before it walks, given the steps of the absolute path. -/
def openWalk (host : Host) (settings : WalkSettings) (directoryPath : List (PathStep String)) :
    Except WalkError Walker :=
  match resolves : host.tree.realpath directoryPath with
  | none => .error .symlinkLoop
  | some root => do
    let rules := { defaultIgnoreRules with
      includes := settings.includes
      excludes := defaultIgnoreRules.excludes ++ settings.excludes }
    let rules ← rules.loadIgnoreFile host root
    return {
      host, root, rules
      isRecursive := settings.isRecursive
      symlinkPolicy := settings.symlinkPolicy
      resolved := (LinkTree.realpath_eq_some.mp resolves).linkFree LinkTree.linkFree_nil }

namespace Walker

variable (walker : Walker)

/-- The checks on a link; `false` passes it over. -/
def checkLink (current : List String) (name : String) : Except WalkError Bool :=
  let child := current ++ [name]
  if walker.host.isSymlink current name then
    if walker.symlinkPolicy = "ignore" then .ok false
    else if walker.symlinkPolicy = "error" then
      .error (.directoryUpload s!"symlink not allowed: {pathText child}")
    else
      match walker.host.tree.realpath (downSteps child) with
      | none => .error .symlinkLoop
      | some target =>
        if ¬ walker.root <+: target ∧ walker.rules.includes = [] then
          .error (.directoryUpload s!"symlink escapes root: {pathText child}")
        else .ok true
  else .ok true

/-- What a child brings: itself, and below a directory what `descend` finds. -/
def enter (descend : List String → String → Except WalkError (List Found))
    (child : List String) (normalized : ObjectKey) : Except WalkError (List Found) :=
  if walker.host.isDir child then
    (if walker.isRecursive then descend child normalized.text else .ok []).map fun below =>
      ⟨child, directoryEntry normalized⟩ :: below
  else
    match walker.host.file? child with
    | some file => .ok [⟨child, fileEntry walker.host.sha256 normalized file⟩]
    | none => .ok []

/-- The body of the loop over the children. -/
def visit (descend : List String → String → Except WalkError (List Found))
    (current : List String) (relative name : String) : Except WalkError (List Found) :=
  match normalizeRelativePath walker.host.nfc (childRelative relative name) with
  | .error _ => .ok []
  | .ok normalized =>
    if name = walker.rules.ignoreFileName then .ok []
    else if walker.rules.isIgnored normalized.text then .ok []
    else do
      let goesOn ← walker.checkLink current name
      if goesOn then walker.enter descend (current ++ [name]) normalized else return []

/-- The inner `walk`, with so many calls left. -/
def walk : Nat → List String → String → Except WalkError (List Found)
  | 0, _, _ => .error .recursion
  | calls + 1, current, relative =>
    match walker.host.listing current with
    | none => .error .notADirectory
    | some names => do
      let found ← names.mapM (walker.visit (walk calls) current relative)
      return found.flatten

def run : Except WalkError (List Found) := walker.walk walker.host.recursionLimit walker.root ""

end Walker

/-- The two lists of `walk_directory`, each in the order of the walk. -/
def filesAndDirectories (found : List Found) : List Found × List Found :=
  (found.filter (·.entry.entryType = .file), found.filter (·.entry.entryType = .directory))

def walkDirectory (host : Host) (settings : WalkSettings)
    (directoryPath : List (PathStep String)) : Except WalkError (List Found × List Found) := do
  let walker ← openWalk host settings directoryPath
  walker.run.map filesAndDirectories

end PyUploadX.Sdk
