import Mathlib.Data.List.Sort
import PyUploadX.Db.Models

/-! Manifests: their hash, and their lines of JSON. -/
namespace PyUploadX

/-- `json.dumps` of one character inside a string, with `ensure_ascii=False`. -/
def jsonChar (char : Char) : String :=
  if char = '"' then "\\\""
  else if char = '\\' then "\\\\"
  else if char = '\n' then "\\n"
  else if char = '\r' then "\\r"
  else if char = '\t' then "\\t"
  else if char = '\x08' then "\\b"
  else if char = '\x0c' then "\\f"
  else if char.toNat < 0x20 then
    "\\u00" ++ (if char.toNat < 0x10 then "0" else "1") ++ (Nat.digitChar (char.toNat % 16)).toString
  else char.toString

def jsonString (text : String) : String := "\"" ++ String.join (text.toList.map jsonChar) ++ "\""

def jsonNullable : Option String → String
  | some text => jsonString text
  | none => "null"

def jsonObject (fields : List (String × String)) : String :=
  "\x7b" ++ ", ".intercalate (fields.map fun field => jsonString field.1 ++ ": " ++ field.2) ++ "\x7d"

/-- What of an entry goes into the hash. -/
structure ManifestEntry where
  relativePath : String
  sizeBytes : Int
  fingerprint : Option String
  deriving DecidableEq, Repr

/-- The keys of the object are sorted. -/
def ManifestEntry.line (entry : ManifestEntry) : String :=
  jsonObject [
    ("fingerprint", jsonNullable entry.fingerprint),
    ("relative_path", jsonString entry.relativePath),
    ("size_bytes", toString entry.sizeBytes)]

def manifestText (entries : List ManifestEntry) : String :=
  let sorted := entries.insertionSort fun first second => ¬ second.relativePath < first.relativePath
  "\n".intercalate (sorted.map (·.line))

def manifestHashFromEntries (sha256 : Bytes → String) (entries : List ManifestEntry) : String :=
  sha256 (manifestText entries).toUTF8.toList

private theorem sorted_of_perm {first second : List ManifestEntry} (same : first.Perm second)
    (distinct : (first.map (·.relativePath)).Nodup) :
    first.insertionSort (fun first second => ¬ second.relativePath < first.relativePath) =
      second.insertionSort fun first second => ¬ second.relativePath < first.relativePath := by
  have total : Std.Total fun first second : ManifestEntry =>
      ¬ second.relativePath < first.relativePath :=
    ⟨fun first second => String.le_total _ _⟩
  have transitive : IsTrans ManifestEntry fun first second =>
      ¬ second.relativePath < first.relativePath :=
    ⟨fun first second third before after => String.le_trans before after⟩
  refine List.Perm.eq_of_pairwise ?_ (List.pairwise_insertionSort _ first)
    (List.pairwise_insertionSort _ second) ?_
  · intro entry other member present before after
    have listed := (List.perm_insertionSort _ first).mem_iff.mp member
    have also := same.mem_iff.mpr ((List.perm_insertionSort _ second).mem_iff.mp present)
    exact List.inj_on_of_nodup_map distinct listed also (String.le_antisymm before after)
  · exact (List.perm_insertionSort _ first).trans
      (same.trans (List.perm_insertionSort _ second).symm)

theorem manifestText_perm {first second : List ManifestEntry} (same : first.Perm second)
    (distinct : (first.map (·.relativePath)).Nodup) : manifestText first = manifestText second := by
  unfold manifestText
  rw [sorted_of_perm same distinct]

/-- Entries with paths of their own hash the same in every order. -/
theorem manifestHashFromEntries_perm {first second : List ManifestEntry} (same : first.Perm second)
    (distinct : (first.map (·.relativePath)).Nodup) (sha256 : Bytes → String) :
    manifestHashFromEntries sha256 first = manifestHashFromEntries sha256 second := by
  unfold manifestHashFromEntries
  rw [manifestText_perm same distinct]

def DirectoryUploadEntry.manifestEntry (entry : DirectoryUploadEntry) : ManifestEntry where
  relativePath := entry.normalizedPath.text
  sizeBytes := entry.sizeBytes
  fingerprint := entry.fingerprint

/-- What a manifest says about an entry. -/
structure ManifestRecord where
  entryType : String
  relativePath : String
  sizeBytes : Int
  fingerprint : Option String
  lastModifiedNs : Option Int
  deriving DecidableEq, Repr

namespace ManifestRecord

/-- The members of the object of a line, with what its strings and numbers become; fields that are
null are left out. -/
def members {α : Type} (string : String → α) (int : Int → α) (record : ManifestRecord) :
    List (String × α) :=
  [("entry_type", string record.entryType),
    ("relative_path", string record.relativePath),
    ("size_bytes", int record.sizeBytes)] ++
    (record.fingerprint.map fun text => ("fingerprint", string text)).toList ++
    (record.lastModifiedNs.map fun count => ("last_modified_ns", int count)).toList

/-- As `json.dumps` writes them. -/
def fields (record : ManifestRecord) : List (String × String) := record.members jsonString toString

def line (record : ManifestRecord) : String := jsonObject record.fields

end ManifestRecord

/-- `serialize_manifest_ndjson`. -/
def serializeRecords (records : List ManifestRecord) : String :=
  "\n".intercalate (records.map (·.line)) ++ (if records = [] then "" else "\n")

def DirectoryUploadEntry.record (entry : DirectoryUploadEntry) : ManifestRecord where
  entryType := entry.entryType.value
  relativePath := entry.relativePath
  sizeBytes := entry.sizeBytes
  fingerprint := entry.fingerprint
  lastModifiedNs := entry.lastModifiedNs

def serializeManifestNdjson (entries : List DirectoryUploadEntry) : String :=
  serializeRecords (entries.map (·.record))

end PyUploadX
