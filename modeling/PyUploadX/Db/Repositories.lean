import Mathlib.Data.List.Sort
import PyUploadX.Db.Models
import PyUploadX.Kit.Program

/-! The repositories: every statement the services send to the database. -/
namespace PyUploadX

open Kit

/-- The rows that `SELECT … FOR UPDATE` and `UPDATE` lock. -/
inductive Row
  | upload (id : Uuid)
  | file (id : Uuid)
  | job (id : Uuid)
  | entry (id : Uuid)
  deriving DecidableEq, Repr

/-- The counters of a directory job that count its entries. -/
structure Totals where
  files : Int
  directories : Int
  entries : Int
  deriving DecidableEq, Repr

def DirectoryUploadJob.totals (job : DirectoryUploadJob) : Totals where
  files := job.totalFiles
  directories := job.totalDirectories
  entries := job.totalEntries

/-- The names of the writes and of the storage calls. -/
inductive Operation
  | insertUpload
  | updateStatus
  | expireSession
  | flushUpload
  | touchActivity
  | upsertPart
  | insertFile
  | flushFile
  | flushDeleting
  | insertEvent
  | enqueue
  | insertBucket
  | removeBucket
  | createBucket
  | bucketExists
  | deleteBucket
  | putObject
  /-- The object of a file. -/
  | deleteObject (fileId : Uuid)
  | objectExists
  | initiateMultipartUpload
  | uploadPart
  /-- Opening, writing and removing the file of a part, each for itself. -/
  | openPart
  | writePart
  | unlinkPart
  | listParts
  | completeMultipartUpload
  | abortMultipartUpload
  | getObject
  | insertJob
  | flushJob
  /-- A job that was read without a lock, with the counters that were read and what is
  added to them. -/
  | updateJob (read added : Totals)
  | flushEntries
  | flushEntry
  | aggregateProgress
  deriving DecidableEq, Repr

/-- The body of a request handler over a storage backend with states `σ`. -/
abbrev Handler (σ α : Type) := Program Row Operation Database σ Failure α

namespace Database

def findUpload (db : Database) (uploadId : Uuid) (tenantId : String) : Option UploadSession :=
  db.uploadSessions.find? fun upload => upload.id = uploadId ∧ upload.tenantId = tenantId

def updateUpload (db : Database) (uploadId : Uuid) (change : UploadSession → UploadSession) :
    Database :=
  { db with
    uploadSessions := db.uploadSessions.map fun upload =>
      if upload.id = uploadId then change upload else upload }

def insertUpload (db : Database) (upload : UploadSession) : Database :=
  { db with
    uploadSessions := db.uploadSessions ++ [upload]
    nextId := max db.nextId (upload.id + 1) }

/-- `INSERT … ON CONFLICT (upload_id, part_number) DO UPDATE`. -/
def upsertPart (db : Database) (part : UploadPart) : Database :=
  let conflicting := fun other : UploadPart =>
    other.uploadId = part.uploadId ∧ other.partNumber = part.partNumber
  if db.uploadParts.any fun other => conflicting other then
    { db with
      uploadParts := db.uploadParts.map fun other =>
        if conflicting other then
          { other with
            etag := part.etag
            sizeBytes := part.sizeBytes
            status := part.status
            checksumSha256 := part.checksumSha256 }
        else other }
  else { db with uploadParts := db.uploadParts ++ [part] }

def partsOf (db : Database) (uploadId : Uuid) : List UploadPart :=
  (db.uploadParts.filter fun part => part.uploadId = uploadId).insertionSort
    fun first second => first.partNumber ≤ second.partNumber

def findFile (db : Database) (fileId : Uuid) (tenantId : String) : Option FileObject :=
  db.fileObjects.find? fun file => file.id = fileId ∧ file.tenantId = tenantId

def updateFile (db : Database) (fileId : Uuid) (change : FileObject → FileObject) : Database :=
  { db with
    fileObjects := db.fileObjects.map fun file =>
      if file.id = fileId then change file else file }

/-- Some row, whatever its status, stands for the object: the columns of
`uq_file_objects_tenant_bucket_key`. -/
def occupied (db : Database) (tenantId bucket : String) (objectKey : ObjectKey) : Bool :=
  db.fileObjects.any fun file =>
    file.tenantId = tenantId ∧ file.bucket = bucket ∧ file.objectKey = objectKey

def addFile (db : Database) (file : FileObject) : Database :=
  { db with
    fileObjects := db.fileObjects ++ [file]
    nextId := max db.nextId (file.id + 1) }

def addEvent (db : Database) (event : LifecycleEvent) : Database :=
  { db with lifecycleEvents := db.lifecycleEvents ++ [event] }

def findBucket (db : Database) (tenantId name : String) : Option StorageBucket :=
  db.storageBuckets.find? fun bucket => bucket.tenantId = tenantId ∧ bucket.name = name

def addBucket (db : Database) (bucket : StorageBucket) : Database :=
  { db with storageBuckets := db.storageBuckets ++ [bucket] }

def removeBucket (db : Database) (tenantId name : String) : Database :=
  { db with
    storageBuckets := db.storageBuckets.filter fun bucket =>
      ¬ (bucket.tenantId = tenantId ∧ bucket.name = name) }

def findJob (db : Database) (jobId : Uuid) (tenantId : String) : Option DirectoryUploadJob :=
  db.directoryUploadJobs.find? fun job => job.id = jobId ∧ job.tenantId = tenantId

def addJob (db : Database) (job : DirectoryUploadJob) : Database :=
  { db with
    directoryUploadJobs := db.directoryUploadJobs ++ [job]
    nextId := max db.nextId (job.id + 1) }

def updateJob (db : Database) (jobId : Uuid) (change : DirectoryUploadJob → DirectoryUploadJob) :
    Database :=
  { db with
    directoryUploadJobs := db.directoryUploadJobs.map fun job =>
      if job.id = jobId then change job else job }

def findEntry (db : Database) (entryId : Uuid) : Option DirectoryUploadEntry :=
  db.directoryUploadEntries.find? (·.id = entryId)

def entriesOf (db : Database) (jobId : Uuid) : List DirectoryUploadEntry :=
  db.directoryUploadEntries.filter (·.directoryUploadId = jobId)

def addEntries (db : Database) (entries : List DirectoryUploadEntry) : Database :=
  { db with
    directoryUploadEntries := db.directoryUploadEntries ++ entries
    nextId := db.nextId + entries.length }

def updateEntry (db : Database) (entryId : Uuid)
    (change : DirectoryUploadEntry → DirectoryUploadEntry) : Database :=
  { db with
    directoryUploadEntries := db.directoryUploadEntries.map fun entry =>
      if entry.id = entryId then change entry else entry }

/-! What each statement leaves alone. -/

section Frames

variable (db : Database) (uploadId fileId : Uuid) (upload : UploadSession) (part : UploadPart)
  (file : FileObject) (change : UploadSession → UploadSession)
  (changeFile : FileObject → FileObject)

@[simp] theorem updateUpload_fileObjects :
    (db.updateUpload uploadId change).fileObjects = db.fileObjects := rfl

@[simp] theorem updateUpload_uploadParts :
    (db.updateUpload uploadId change).uploadParts = db.uploadParts := rfl

@[simp] theorem updateUpload_nextId : (db.updateUpload uploadId change).nextId = db.nextId := rfl

@[simp] theorem insertUpload_fileObjects :
    (db.insertUpload upload).fileObjects = db.fileObjects := rfl

@[simp] theorem insertUpload_uploadParts :
    (db.insertUpload upload).uploadParts = db.uploadParts := rfl

@[simp] theorem upsertPart_fileObjects : (db.upsertPart part).fileObjects = db.fileObjects := by
  unfold upsertPart; dsimp only; split <;> rfl

@[simp] theorem upsertPart_uploadSessions :
    (db.upsertPart part).uploadSessions = db.uploadSessions := by
  unfold upsertPart; dsimp only; split <;> rfl

@[simp] theorem upsertPart_nextId : (db.upsertPart part).nextId = db.nextId := by
  unfold upsertPart; dsimp only; split <;> rfl

@[simp] theorem upsertPart_storageBuckets :
    (db.upsertPart part).storageBuckets = db.storageBuckets := by
  unfold upsertPart; dsimp only; split <;> rfl

@[simp] theorem updateUpload_storageBuckets :
    (db.updateUpload uploadId change).storageBuckets = db.storageBuckets := rfl

@[simp] theorem updateFile_uploadSessions :
    (db.updateFile fileId changeFile).uploadSessions = db.uploadSessions := rfl

@[simp] theorem updateFile_uploadParts :
    (db.updateFile fileId changeFile).uploadParts = db.uploadParts := rfl

@[simp] theorem updateFile_nextId : (db.updateFile fileId changeFile).nextId = db.nextId := rfl

@[simp] theorem addFile_uploadSessions : (db.addFile file).uploadSessions = db.uploadSessions := rfl

@[simp] theorem addFile_uploadParts : (db.addFile file).uploadParts = db.uploadParts := rfl

@[simp] theorem occupied_updateUpload (tenantId bucket : String) (objectKey : ObjectKey) :
    (db.updateUpload uploadId change).occupied tenantId bucket objectKey =
      db.occupied tenantId bucket objectKey := rfl

end Frames

theorem findUpload_some {db : Database} {uploadId : Uuid} {tenantId : String}
    {upload : UploadSession} (found : db.findUpload uploadId tenantId = some upload) :
    upload ∈ db.uploadSessions ∧ upload.id = uploadId ∧ upload.tenantId = tenantId := by
  have named := List.find?_some found
  simp only [decide_eq_true_eq] at named
  exact ⟨List.mem_of_find?_eq_some found, named⟩

theorem findFile_some {db : Database} {fileId : Uuid} {tenantId : String} {file : FileObject}
    (found : db.findFile fileId tenantId = some file) :
    file ∈ db.fileObjects ∧ file.id = fileId ∧ file.tenantId = tenantId := by
  have named := List.find?_some found
  simp only [decide_eq_true_eq] at named
  exact ⟨List.mem_of_find?_eq_some found, named⟩

theorem findBucket_some {db : Database} {tenantId name : String} {bucket : StorageBucket}
    (found : db.findBucket tenantId name = some bucket) :
    bucket ∈ db.storageBuckets ∧ bucket.tenantId = tenantId ∧ bucket.name = name := by
  have named := List.find?_some found
  simp only [decide_eq_true_eq] at named
  exact ⟨List.mem_of_find?_eq_some found, named⟩

theorem findBucket_isSome {db : Database} {tenantId name : String} :
    (db.findBucket tenantId name).isSome = true ↔
      ∃ bucket ∈ db.storageBuckets, bucket.tenantId = tenantId ∧ bucket.name = name := by
  unfold findBucket
  rw [List.find?_isSome]
  simp

/-- Two changes of one row are one, as long as the first keeps its id. -/
theorem updateUpload_updateUpload (db : Database) (uploadId : Uuid)
    (first second : UploadSession → UploadSession) (kept : ∀ upload, (first upload).id = upload.id) :
    (db.updateUpload uploadId first).updateUpload uploadId second =
      db.updateUpload uploadId fun upload => second (first upload) := by
  unfold updateUpload
  simp only [List.map_map]
  congr 1
  apply List.map_congr_left
  intro upload _
  by_cases same : upload.id = uploadId
  · simp [same, kept]
  · simp [same]

end Database

variable {σ : Type}

/-- `uuid4()`. -/
def newId : Handler σ Uuid := Program.ask (·.nextId)

namespace UploadRepository

def getUpload (uploadId : Uuid) (tenantId : String) (forUpdate : Bool := false) :
    Handler σ (Option UploadSession) :=
  Program.select (if forUpdate then some (.upload uploadId) else none)
    (fun db => .ok (db.findUpload uploadId tenantId)) .done

def updateStatus (uploadId : Uuid) (status : UploadStatus) : Handler σ Unit :=
  Program.modify .updateStatus (some (.upload uploadId))
    (·.updateUpload uploadId (·.setStatus status))

def touchActivity (uploadId : Uuid) (now : Timestamp) : Handler σ Unit :=
  Program.modify .touchActivity (some (.upload uploadId))
    (·.updateUpload uploadId (·.touch now))

def insertUpload (dialect : Dialect) (upload : UploadSession) : Handler σ Unit :=
  Program.write .insertUpload none
    (fun _ => if upload.fits dialect then .ok (·.insertUpload upload) else .error .data)
    (.done ())

theorem insertUpload_bind_ok {dialect : Dialect} {upload : UploadSession} {db db' : Database}
    {store store' : σ} {α : Type} {next : Unit → Handler σ α} {out : α} :
    (insertUpload dialect upload >>= next).run db store = (.ok (out, db'), store') ↔
      upload.fits dialect = true ∧
        (next ()).run (db.insertUpload upload) store = (.ok (out, db'), store') := by
  rw [insertUpload, Program.write_bind_ok]
  by_cases fits : upload.fits dialect = true
  · simp [fits]
  · simp [fits]

/-- What a flush writes of a session whose attributes were changed. -/
def flushUpload (uploadId : Uuid) (change : UploadSession → UploadSession) : Handler σ Unit :=
  Program.modify .flushUpload (some (.upload uploadId)) (·.updateUpload uploadId change)

end UploadRepository

namespace PartRepository

def upsertPart (part : UploadPart) : Handler σ Unit :=
  Program.modify .upsertPart none (·.upsertPart part)

def listPartsForUpload (uploadId : Uuid) : Handler σ (List UploadPart) :=
  Program.ask (·.partsOf uploadId)

end PartRepository

namespace FileRepository

/-- Reading a row fails when one of its lifecycle columns names no enum member. -/
def loadFile (found : Option FileObject) : Except Failure (Option FileObject) :=
  match found with
  | some file => if file.loadable then .ok (some file) else .error .lookup
  | none => .ok none

theorem loadFile_ok {found loaded : Option FileObject} (read : loadFile found = .ok loaded) :
    found = loaded ∧ ∀ file ∈ loaded, file.loadable = true := by
  unfold loadFile at read
  split at read
  · rename_i file
    split at read
    · rename_i loads
      cases read
      exact ⟨rfl, fun other same => Option.some.inj same ▸ loads⟩
    · cases read
  · cases read
    exact ⟨rfl, fun _ => nofun⟩

def getFile (fileId : Uuid) (tenantId : String) (forUpdate : Bool := false) :
    Handler σ (Option FileObject) :=
  Program.select (if forUpdate then some (.file fileId) else none)
    (fun db => loadFile (db.findFile fileId tenantId)) .done

/-- `get_file` without a tenant. -/
def getFileOfAnyTenant (fileId : Uuid) : Handler σ (Option FileObject) :=
  Program.select none (fun db => loadFile (db.fileObjects.find? fun file => file.id = fileId)) .done

/-- The query of a listing, as far as it depends on the client: which rows its filters
keep, and how its `ORDER BY` compares two of them. -/
structure FileQuery where
  keeps : FileObject → Bool
  before : FileObject → FileObject → Bool
  limit : Nat
  offset : Nat

def listFiles (tenantId : String) (query : FileQuery) : Handler σ (List FileObject × Nat) :=
  Program.select none
    (fun db =>
      let matching := db.fileObjects.filter fun file => file.tenantId = tenantId && query.keeps file
      let page := ((matching.mergeSort query.before).drop query.offset).take query.limit
      if page.all (·.loadable) then .ok (page, matching.length) else .error .lookup)
    .done

def insertFile (dialect : Dialect) (file : FileObject) : Handler σ Unit :=
  Program.write .insertFile none
    (fun db =>
      if file.fits dialect = false then .error .data
      else if db.occupied file.tenantId file.bucket file.objectKey then .error .integrity
      else .ok (·.addFile file))
    (.done ())

theorem insertFile_bind_ok {dialect : Dialect} {file : FileObject} {db db' : Database}
    {store store' : σ} {α : Type} {next : Unit → Handler σ α} {out : α} :
    (insertFile dialect file >>= next).run db store = (.ok (out, db'), store') ↔
      file.fits dialect = true ∧ db.occupied file.tenantId file.bucket file.objectKey = false ∧
        (next ()).run (db.addFile file) store = (.ok (out, db'), store') := by
  rw [insertFile, Program.write_bind_ok]
  by_cases fits : file.fits dialect = true
  · by_cases taken : db.occupied file.tenantId file.bucket file.objectKey = true
    · simp [fits, taken]
    · simp [fits, taken]
  · simp [fits]

def flushFile (fileId : Uuid) (change : FileObject → FileObject) : Handler σ Unit :=
  Program.modify .flushFile (some (.file fileId)) (·.updateFile fileId change)

/-- The flush before the worker deletes an object. -/
def flushDeleting (fileId : Uuid) : Handler σ Unit :=
  Program.modify .flushDeleting (some (.file fileId))
    (·.updateFile fileId (·.setLifecycleStatus .deleting))

end FileRepository

def addEvent (event : LifecycleEvent) : Handler σ Unit :=
  Program.modify .insertEvent none (·.addEvent event)

namespace BucketRepository

def getByName (tenantId name : String) : Handler σ (Option StorageBucket) :=
  Program.ask (·.findBucket tenantId name)

def create (bucket : StorageBucket) : Handler σ Unit :=
  Program.write .insertBucket none
    (fun db =>
      if (db.findBucket bucket.tenantId bucket.name).isSome then .error .integrity
      else .ok (·.addBucket bucket))
    (.done ())

def delete (bucket : StorageBucket) : Handler σ Unit :=
  Program.modify .removeBucket none (·.removeBucket bucket.tenantId bucket.name)

end BucketRepository

/-- The two unique constraints of `directory_upload_entries`. -/
def DirectoryUploadEntry.Clashes (first second : DirectoryUploadEntry) : Prop :=
  first.directoryUploadId = second.directoryUploadId ∧
    (first.normalizedPath = second.normalizedPath ∨ first.objectKey = second.objectKey)

instance (first second : DirectoryUploadEntry) : Decidable (first.Clashes second) :=
  inferInstanceAs (Decidable (_ ∧ _))

/-- What `aggregate_progress` counts. -/
structure Progress where
  totalEntries : Int
  totalBytes : Int
  uploadedFiles : Int
  failedFiles : Int
  skippedFiles : Int

def Database.progress (db : Database) (jobId : Uuid) : Progress :=
  let entries := db.entriesOf jobId
  { totalEntries := entries.length
    totalBytes := entries.foldl (fun bytes entry => bytes + entry.sizeBytes) 0
    uploadedFiles := entries.countP (·.status = .uploaded)
    failedFiles := entries.countP (·.status = .failed)
    skippedFiles := entries.countP (·.status = .skipped) }

def Progress.record (progress : Progress) (job : DirectoryUploadJob) : DirectoryUploadJob :=
  { job with
    totalEntries := progress.totalEntries
    totalBytes := progress.totalBytes
    uploadedFiles := progress.uploadedFiles
    failedFiles := progress.failedFiles
    skippedFiles := progress.skippedFiles }

namespace DirectoryRepository

def getJob (jobId : Uuid) (tenantId : String) (forUpdate : Bool := false) :
    Handler σ (Option DirectoryUploadJob) :=
  Program.select (if forUpdate then some (.job jobId) else none)
    (fun db => .ok (db.findJob jobId tenantId)) .done

def insertJob (dialect : Dialect) (job : DirectoryUploadJob) : Handler σ Unit :=
  Program.write .insertJob none
    (fun _ => if job.fits dialect then .ok (·.addJob job) else .error .data)
    (.done ())

theorem insertJob_bind_ok {dialect : Dialect} {job : DirectoryUploadJob} {db db' : Database}
    {store store' : σ} {α : Type} {next : Unit → Handler σ α} {out : α} :
    (insertJob dialect job >>= next).run db store = (.ok (out, db'), store') ↔
      job.fits dialect = true ∧
        (next ()).run (db.addJob job) store = (.ok (out, db'), store') := by
  rw [insertJob, Program.write_bind_ok]
  by_cases fits : job.fits dialect = true
  · simp [fits]
  · simp [fits]

def flushJob (jobId : Uuid) (change : DirectoryUploadJob → DirectoryUploadJob) : Handler σ Unit :=
  Program.modify .flushJob (some (.job jobId)) (·.updateJob jobId change)

/-- A flush of a job that was read without a lock. -/
def updateJob (read added : Totals) (jobId : Uuid)
    (change : DirectoryUploadJob → DirectoryUploadJob) : Handler σ Unit :=
  Program.modify (.updateJob read added) (some (.job jobId)) (·.updateJob jobId change)

/-- `session.get(DirectoryUploadEntry, entry_id)`. -/
def getEntry (entryId : Uuid) : Handler σ (Option DirectoryUploadEntry) :=
  Program.ask (·.findEntry entryId)

def listEntries (jobId : Uuid) : Handler σ (List DirectoryUploadEntry) :=
  Program.ask (·.entriesOf jobId)

def insertEntries (dialect : Dialect) (entries : List DirectoryUploadEntry) : Handler σ Unit :=
  Program.write .flushEntries none
    (fun db =>
      if entries.all (·.fits dialect) = false then .error .data
      else if entries.Pairwise (fun first second => ¬ first.Clashes second) ∧
          ∀ entry ∈ entries, ∀ other ∈ db.directoryUploadEntries, ¬ other.Clashes entry then
        .ok (·.addEntries entries)
      else .error .integrity)
    (.done ())

def flushEntry (entryId : Uuid) (change : DirectoryUploadEntry → DirectoryUploadEntry) :
    Handler σ Unit :=
  Program.modify .flushEntry (some (.entry entryId)) (·.updateEntry entryId change)

def countEntriesByStatus (jobId : Uuid) (status : EntryStatus) : Handler σ Nat :=
  Program.ask fun db => (db.entriesOf jobId).countP (·.status = status)

/-- `aggregate_progress`: the job is found by its id alone. -/
def aggregateProgress (jobId : Uuid) : Handler σ Progress := do
  let progress ← Program.ask (·.progress jobId)
  Program.modify .aggregateProgress (some (.job jobId)) (·.updateJob jobId progress.record)
  return progress

end DirectoryRepository

end PyUploadX
