import PyUploadX.Services.PartLedger
import PyUploadX.Services.Resume

/-! `upsert_part` on PostgreSQL and on the other databases, and that nobody can tell the two
apart. -/
namespace PyUploadX

open Kit UploadService

namespace Database

/-- `UPDATE upload_parts` of all columns, where the session and the number are the part's. -/
def updatePart (db : Database) (part : UploadPart) : Database :=
  { db with uploadParts := db.uploadParts.map fun row => if row.key = part.key then part else row }

def insertPart (db : Database) (part : UploadPart) : Database :=
  { db with uploadParts := db.uploadParts ++ [part] }

/-- `scalar_one_or_none` over the rows of a part; the constraint excludes a second one. -/
def existingPart (db : Database) (part : UploadPart) : Except Failure (Option UploadPart) :=
  match db.uploadParts.filter (·.key = part.key) with
  | [] => .ok none
  | [row] => .ok (some row)
  | _ => .error .integrity

end Database

variable {σ : Type}

/-- `upsert_part`, both of its branches. -/
def PartRepository.upsertPartOn (dialect : Dialect) (part : UploadPart) : Handler σ Unit :=
  match dialect with
  | .postgresql => PartRepository.upsertPart part
  | .other => do
    match ← Program.select none (·.existingPart part) .done with
    | some _ => Program.modify .upsertPart none (·.updatePart part)
    | none => Program.modify .upsertPart none (·.insertPart part)

namespace UploadService

variable (dialect : Dialect) (app : AppState σ)

def proxyUploadPartOn (identity : Identity) (uploadId : Uuid) (partNumber : Int) (stream : Bytes)
    (sizeBytes : Nat) (checksumSha256 : Option String) (now : Timestamp) :
    Handler σ UploadPart := do
  let upload ← getSession identity uploadId
  Program.liftExcept (ensureActive upload)
  let partNumber ← Program.liftExcept (checkPartNumber upload partNumber)
  Program.liftExcept (checkPartSize app.settings.uploads.multipart.minimumPartSizeBytes upload
    partNumber sizeBytes)
  if upload.status = .initiated then UploadRepository.updateStatus upload.id .uploading
  let stored ← Program.onStore .uploadPart
    (app.storage.uploadPart upload.bucket upload.objectKey upload.storageKey partNumber stream
      sizeBytes checksumSha256)
  let part := storedRow upload partNumber stored checksumSha256
  PartRepository.upsertPartOn dialect part
  UploadRepository.touchActivity upload.id now
  return part

def commitPartOn (identity : Identity) (uploadId : Uuid) (partNumber : Int) (etag : String)
    (sizeBytes : Int) (checksumSha256 : Option String) (now : Timestamp) : Handler σ Unit := do
  let upload ← getSession identity uploadId
  Program.liftExcept (ensureActive upload)
  let partNumber ← Program.liftExcept (checkPartNumber upload partNumber)
  PartRepository.upsertPartOn dialect (reportedRow upload partNumber etag sizeBytes checksumSha256)
  Metrics.inc sizeBytes
  UploadRepository.touchActivity upload.id now

end UploadService

section Deployment

variable (dialect : Dialect) (app : AppState σ)

/-- The requests over a database of the dialect; no other request writes a part. -/
def handleOn (request : Request) (now : Timestamp) : Handler σ Reply :=
  match request with
  | .proxyUploadPart identity uploadId partNumber body checksumSha256 => do
    return .part (← proxyUploadPartOn dialect app identity uploadId partNumber body body.length
      checksumSha256 now)
  | .lostPart identity uploadId partNumber body checksumSha256 => do
    let _ ← proxyUploadPartOn dialect app identity uploadId partNumber body body.length
      checksumSha256 now
    Program.fail .connectionLost
  | .commitPart identity uploadId partNumber etag sizeBytes checksumSha256 => do
    commitPartOn dialect identity uploadId partNumber etag sizeBytes checksumSha256 now
    return .done
  | other => handle app other now

def serveOn (world : World Database σ) (timed : Timed) :
    Except Failure Reply × World Database σ :=
  world.execute (handleOn dialect app timed.1 timed.2)

def afterOn (world : World Database σ) (requests : List Timed) : World Database σ :=
  requests.foldl (fun world timed => (serveOn dialect app world timed).2) world

end Deployment

/-- The offset of a part follows from its number and from the session it is a part of. -/
def PartOffsets (db : Database) : Prop :=
  ∀ part ∈ db.uploadParts, ∀ core ∈ db.cores, core.id = part.uploadId →
    part.offsetBytes = core.partOffset part.partNumber

section Rows

variable {db : Database} {part : UploadPart}

/-- With the keys unique and the offset the old one, all columns or five are the same. -/
theorem updatePart_eq
    (offset : ∀ row ∈ db.uploadParts, row.key = part.key → row.offsetBytes = part.offsetBytes)
    {row : UploadPart} (present : row ∈ db.uploadParts) (same : row.key = part.key) :
    db.updatePart part = db.upsertPart part := by
  unfold Database.updatePart Database.upsertPart
  dsimp only
  obtain ⟨owner, number⟩ := Prod.mk.inj same
  rw [if_pos (List.any_eq_true.mpr ⟨row, present, by simp [owner, number]⟩)]
  congr 1
  apply List.map_congr_left
  intro other member
  by_cases conflicting : other.key = part.key
  · obtain ⟨owner, number⟩ := Prod.mk.inj conflicting
    have kept := offset other member conflicting
    rw [if_pos conflicting, if_pos ⟨owner, number⟩]
    cases part
    cases owner
    cases number
    cases kept
    rfl
  · rw [if_neg conflicting, if_neg fun both => conflicting (Prod.ext both.1 both.2)]

private theorem insertPart_eq (absent : ∀ row ∈ db.uploadParts, row.key ≠ part.key) :
    db.insertPart part = db.upsertPart part := by
  unfold Database.insertPart Database.upsertPart
  dsimp only
  rw [if_neg]
  intro found
  obtain ⟨row, member, same⟩ := List.any_eq_true.mp found
  obtain ⟨owner, number⟩ := of_decide_eq_true same
  exact absent row member (Prod.ext owner number)

/-- The two statements of the other dialects do what the one of PostgreSQL does. -/
theorem upsertPartOn_run (dialect : Dialect) (unique : (db.uploadParts.map (·.key)).Nodup)
    (offset : ∀ row ∈ db.uploadParts, row.key = part.key → row.offsetBytes = part.offsetBytes)
    (store : σ) : (PartRepository.upsertPartOn dialect part).run db store =
      (.ok ((), db.upsertPart part), store) := by
  cases dialect with
  | postgresql => rfl
  | other =>
    unfold PartRepository.upsertPartOn
    rw [Program.run_bind]
    cases rows : db.uploadParts.filter (·.key = part.key) with
    | nil =>
      have none : db.existingPart part = .ok none := by rw [Database.existingPart, rows]
      have absent : ∀ row ∈ db.uploadParts, row.key ≠ part.key := by
        intro row member same
        have found : row ∈ db.uploadParts.filter (·.key = part.key) :=
          List.mem_filter.mpr ⟨member, decide_eq_true same⟩
        rw [rows] at found
        cases found
      simp only [Program.run, none]
      rw [← insertPart_eq absent]
      rfl
    | cons row others =>
      have among : ∀ other ∈ row :: others, other ∈ db.uploadParts ∧ other.key = part.key := by
        intro other member
        rw [← rows] at member
        obtain ⟨present, same⟩ := List.mem_filter.mp member
        exact ⟨present, of_decide_eq_true same⟩
      have keys : ((row :: others).map (·.key)).Nodup := by
        rw [← rows]
        exact unique.sublist (List.filter_sublist.map _)
      have alone : others = [] := by
        refine List.eq_nil_iff_forall_not_mem.mpr fun other member => ?_
        rw [List.map_cons, List.nodup_cons] at keys
        apply keys.1
        rw [(among row List.mem_cons_self).2, ← (among other (List.mem_cons_of_mem _ member)).2]
        exact List.mem_map_of_mem member
      have some : db.existingPart part = .ok (some row) := by
        rw [Database.existingPart, rows, alone]
      obtain ⟨present, same⟩ := among row List.mem_cons_self
      simp only [Program.run, some]
      rw [← updatePart_eq offset present same]
      rfl

end Rows
section Requests

variable {app : AppState σ} {db : Database}

/-- Every row of a part has the offset that a new one would bring. -/
theorem PartOffsets.same (offsets : PartOffsets db) {core : UploadSession}
    (found : core ∈ db.cores) {part : UploadPart} (owner : part.uploadId = core.id)
    (offset : part.offsetBytes = core.partOffset part.partNumber) :
    ∀ row ∈ db.uploadParts, row.key = part.key → row.offsetBytes = part.offsetBytes := by
  intro row member same
  obtain ⟨sameOwner, number⟩ := Prod.mk.inj same
  rw [offsets row member core found (owner.symm.trans sameOwner.symm), offset, number]

private theorem proxyUploadPartOn_run (dialect : Dialect) (sound : Integrity app db)
    (offsets : PartOffsets db) (identity : Identity) (uploadId : Uuid) (partNumber : Int)
    (stream : Bytes) (sizeBytes : Nat) (checksumSha256 : Option String) (now : Timestamp)
    (store : σ) :
    (proxyUploadPartOn dialect app identity uploadId partNumber stream sizeBytes checksumSha256
      now).run db store =
    (proxyUploadPart app identity uploadId partNumber stream sizeBytes checksumSha256 now).run db
      store := by
  unfold proxyUploadPartOn proxyUploadPart
  refine Program.run_bind_congr fun upload db₁ store₁ session => ?_
  obtain ⟨rfl, rfl⟩ := (getSession_readOnly identity uploadId).ok session
  have found := mem_cores (Database.findUpload_some (getSession_ok session)).1
  refine Program.run_bind_congr fun _ db₂ store₂ active => ?_
  obtain ⟨rfl, rfl⟩ := (Program.ReadOnly.liftExcept _).ok active
  refine Program.run_bind_congr fun number db₃ store₃ inRange => ?_
  obtain ⟨rfl, rfl⟩ := (Program.ReadOnly.liftExcept _).ok inRange
  refine Program.run_bind_congr fun _ db₄ store₄ sized => ?_
  obtain ⟨rfl, rfl⟩ := (Program.ReadOnly.liftExcept _).ok sized
  have upserts : ∀ (stored : UploadedPart) (db' : Database) (store' : σ),
      db'.uploadParts = db₄.uploadParts →
      (PartRepository.upsertPartOn dialect (storedRow upload number stored checksumSha256)).run db'
          store' =
        (PartRepository.upsertPart (storedRow upload number stored checksumSha256)).run db'
          store' := by
    intro stored db' store' parts
    refine upsertPartOn_run dialect ?_ ?_ store'
    · rw [parts]
      exact sound.parts.unique
    · rw [parts]
      exact offsets.same found rfl rfl
  split
  · rw [UploadRepository.updateStatus, Program.run_modify_bind, Program.run_modify_bind]
    refine Program.run_bind_congr fun stored db₅ store₅ taken => ?_
    have kept := Program.onStore_keeps taken
    rw [Program.run_bind, Program.run_bind, upserts stored db₅ store₅ (by rw [kept]; rfl)]
  · refine Program.run_bind_congr fun stored db₅ store₅ taken => ?_
    have kept := Program.onStore_keeps taken
    rw [Program.run_bind, Program.run_bind, upserts stored db₅ store₅ (by rw [kept])]

private theorem commitPartOn_run (dialect : Dialect) (sound : Integrity app db)
    (offsets : PartOffsets db) (identity : Identity) (uploadId : Uuid) (partNumber : Int)
    (etag : String) (sizeBytes : Int) (checksumSha256 : Option String) (now : Timestamp)
    (store : σ) :
    (commitPartOn dialect identity uploadId partNumber etag sizeBytes checksumSha256 now).run db
        store =
      (commitPart identity uploadId partNumber etag sizeBytes checksumSha256 now).run db store := by
  unfold commitPartOn commitPart
  refine Program.run_bind_congr fun upload db₁ store₁ session => ?_
  obtain ⟨rfl, rfl⟩ := (getSession_readOnly identity uploadId).ok session
  have found := mem_cores (Database.findUpload_some (getSession_ok session)).1
  refine Program.run_bind_congr fun _ db₂ store₂ active => ?_
  obtain ⟨rfl, rfl⟩ := (Program.ReadOnly.liftExcept _).ok active
  refine Program.run_bind_congr fun number db₃ store₃ inRange => ?_
  obtain ⟨rfl, rfl⟩ := (Program.ReadOnly.liftExcept _).ok inRange
  rw [Program.run_bind, Program.run_bind,
    upsertPartOn_run dialect sound.parts.unique (offsets.same found rfl rfl) store₃]
  rfl

/-- On a sound table a request does the same on every database. -/
theorem handleOn_run (dialect : Dialect) (sound : Integrity app db) (offsets : PartOffsets db)
    (asked : Request) (now : Timestamp) (store : σ) :
    (handleOn dialect app asked now).run db store = (handle app asked now).run db store := by
  cases asked with
  | proxyUploadPart identity uploadId partNumber body checksumSha256 =>
    unfold handleOn handle
    dsimp only
    rw [Program.run_bind, Program.run_bind, proxyUploadPartOn_run dialect sound offsets]
  | lostPart identity uploadId partNumber body checksumSha256 =>
    unfold handleOn handle
    dsimp only
    rw [Program.run_bind, Program.run_bind, proxyUploadPartOn_run dialect sound offsets]
  | commitPart identity uploadId partNumber etag sizeBytes checksumSha256 =>
    unfold handleOn handle
    dsimp only
    rw [Program.run_bind, Program.run_bind, commitPartOn_run dialect sound offsets]
  | _ => rfl

private theorem mem_upsertPart {part row : UploadPart}
    (offset : ∀ row ∈ db.uploadParts, row.key = part.key → row.offsetBytes = part.offsetBytes)
    (member : row ∈ (db.upsertPart part).uploadParts) : row = part ∨ row ∈ db.uploadParts := by
  by_cases known : ∃ old ∈ db.uploadParts, old.key = part.key
  · obtain ⟨old, present, same⟩ := known
    rw [← updatePart_eq offset present same] at member
    obtain ⟨other, among, rfl⟩ := List.mem_map.mp member
    split
    · exact .inl rfl
    · exact .inr among
  · rw [← insertPart_eq fun old present same => known ⟨old, present, same⟩] at member
    rcases List.mem_append.mp member with old | added
    · exact .inr old
    · exact .inl (List.mem_singleton.mp added)

theorem PartOffsets.congr {db' : Database} (offsets : PartOffsets db)
    (parts : db'.uploadParts = db.uploadParts) (cores : db'.cores = db.cores) : PartOffsets db' := by
  unfold PartOffsets
  rw [parts, cores]
  exact offsets

theorem PartOffsets.upsertPart (offsets : PartOffsets db) (ids : (db.cores.map (·.id)).Nodup)
    {core : UploadSession} (found : core ∈ db.cores) {part : UploadPart}
    (owner : part.uploadId = core.id)
    (offset : part.offsetBytes = core.partOffset part.partNumber) :
    PartOffsets (db.upsertPart part) := by
  intro row member other inTable named
  rw [Database.cores, Database.upsertPart_uploadSessions] at inTable
  rcases mem_upsertPart (offsets.same found owner offset) member with rfl | old
  · rw [offset, List.inj_on_of_nodup_map ids inTable found (named.trans owner)]
  · exact offsets row old other inTable named

private theorem Change.partOffsets {asked : Request} {db' : Database} (change : Change app asked db db')
    (other : asked.partOwner? = Option.none) (parts : PartsInRange db) (offsets : PartOffsets db) :
    PartOffsets db' := by
  have rows : ∀ row, row ∈ db'.uploadParts ↔ row ∈ db.uploadParts := fun row =>
    change.partsOf_other (by rw [other]; exact (Option.some_ne_none _).symm) rfl
  intro row member core inTable named
  rw [rows] at member
  rcases change.cores with same | ⟨_, _, upload, _, new, rfl⟩
  · rw [same] at inTable
    exact offsets row member core inTable named
  · rw [Database.cores, Database.insertUpload, List.map_append] at inTable
    rcases List.mem_append.mp inTable with old | added
    · exact offsets row member core old named
    · rw [List.map_singleton, List.mem_singleton] at added
      subst added
      have fresh : upload.id = row.uploadId := named
      exact absurd (fresh.symm.trans new.fresh) (parts.owned row member).ne

/-- Every request leaves the offsets as the layout of the sessions has them. -/
theorem serve_partOffsets {world : World Database σ} (sound : Integrity app world.db)
    (offsets : PartOffsets world.db) (timed : Timed) :
    PartOffsets (serve app world timed).2.db := by
  obtain ⟨asked, now⟩ := timed
  have others : asked.partOwner? = none → PartOffsets (serve app world (asked, now)).2.db :=
    fun other => (serve_change app world (asked, now)).partOffsets other sound.parts offsets
  cases asked with
  | proxyUploadPart identity uploadId partNumber body checksumSha256 =>
    refine World.execute_preserves (fun after => PartOffsets after.db) (fun reply db store done => ?_)
      fun _ _ _ => offsets
    obtain ⟨part, done, _⟩ := Program.bind_pure_eq_ok.mp done
    obtain ⟨upload, number, stored, found, _, _, _, _, rfl, rfl⟩ := proxyUploadPart_ok done
    have member := mem_cores (Database.findUpload_some found).1
    unfold partAccepted
    have cores : (if upload.status = .initiated then
        world.db.updateUpload upload.id (·.setStatus .uploading) else world.db).cores =
          world.db.cores := by
      split
      · exact cores_updateUpload _ _ (·.setStatus .uploading) fun _ => rfl
      · rfl
    have started : PartOffsets (if upload.status = .initiated then
        world.db.updateUpload upload.id (·.setStatus .uploading) else world.db) :=
      offsets.congr (by split <;> rfl) cores
    rw [← cores] at member
    refine (started.upsertPart (by rw [cores]; exact sound.ids.uploads) member rfl rfl).congr rfl ?_
    exact cores_updateUpload _ _ (·.touch now) fun _ => rfl
  | lostPart identity uploadId partNumber body checksumSha256 =>
    refine World.execute_preserves (fun after => PartOffsets after.db) (fun reply db store done => ?_)
      fun _ _ _ => offsets
    obtain ⟨_, _, _, _, ended⟩ := Program.bind_eq_ok.mp done
    cases ended
  | directPart uploadId partNumber body =>
    refine World.execute_preserves (fun after => PartOffsets after.db) (fun reply db store done => ?_)
      fun _ _ _ => offsets
    obtain ⟨_, done, _⟩ := Program.bind_pure_eq_ok.mp done
    rw [putPresigned_ok done]
    exact offsets
  | commitPart identity uploadId partNumber etag sizeBytes checksumSha256 =>
    refine World.execute_preserves (fun after => PartOffsets after.db) (fun reply db store done => ?_)
      fun _ _ _ => offsets
    obtain ⟨_, done, _⟩ := Program.bind_pure_eq_ok.mp done
    obtain ⟨upload, number, found, _, _, rfl, _⟩ := commitPart_ok done
    have member := mem_cores (Database.findUpload_some found).1
    refine (offsets.upsertPart sound.ids.uploads member rfl rfl).congr rfl ?_
    exact cores_updateUpload _ _ (·.touch now) fun _ => rfl
  | _ => exact others rfl

private theorem serveOn_eq (dialect : Dialect) {world : World Database σ} (sound : Integrity app world.db)
    (offsets : PartOffsets world.db) (timed : Timed) :
    serveOn dialect app world timed = serve app world timed := by
  unfold serveOn serve World.execute
  rw [handleOn_run dialect sound offsets]

theorem afterOn_eq (dialect : Dialect) (app : AppState σ) {world : World Database σ}
    (initial : world.db.Initial) (requests : List Timed) :
    afterOn dialect app world requests = after app world requests ∧
      PartOffsets (after app world requests).db := by
  have start : PartOffsets world.db := by
    intro part member
    rw [initial.2.2] at member
    cases member
  have sound : Integrity app world.db := initial.integrity
  clear initial
  induction requests generalizing world with
  | nil => exact ⟨rfl, start⟩
  | cons timed rest ih =>
    have first := serveOn_eq dialect sound start timed
    have step := ih (serve_partOffsets sound start timed) (serve_integrity world timed sound)
    refine ⟨?_, step.2⟩
    rw [after_cons, ← step.1, afterOn, List.foldl_cons, first]
    rfl

end Requests

section Missing

variable {app : AppState σ}

/-- The number has no committed row. -/
def LacksPart (db : Database) (upload : UploadSession) (number : Nat) : Prop :=
  (1 ≤ number ∧ number ≤ upload.totalParts) ∧
    ∀ part ∈ db.uploadParts, part.uploadId = upload.id → part.partNumber = number →
      part.status ≠ .committed

private theorem mem_missingNumbers_iff {db : Database} {upload : UploadSession} {number : Nat} :
    number ∈ missingNumbers upload.totalParts (committedNumbers db upload) ↔
      LacksPart db upload number := by
  rw [mem_missingNumbers, LacksPart]
  refine and_congr_right fun _ => ?_
  unfold committedNumbers committedOf
  constructor
  · intro absent part member owner named committed
    refine absent (List.mem_map.mpr ⟨part, List.mem_filter.mpr ⟨?_, ?_⟩, named⟩)
    · exact mem_partsOf.mpr ⟨member, owner⟩
    · exact decide_eq_true committed
  · intro lacks present
    obtain ⟨part, among, named⟩ := List.mem_map.mp present
    obtain ⟨rows, committed⟩ := List.mem_filter.mp among
    obtain ⟨member, owner⟩ := mem_partsOf.mp rows
    exact lacks part member owner named (of_decide_eq_true committed)

private theorem missingNumbers_sorted (total : Nat) (present : List Nat) :
    (missingNumbers total present).Pairwise (· < ·) :=
  (List.pairwise_lt_range' 1).sublist List.filter_sublist

end Missing

/-- `complete` raises `MissingPartsError` exactly when a number of the session has no committed
row, and then with the list of these numbers. -/
theorem complete_raises_exactly_the_missing (dialect : Dialect) (app : AppState σ)
    (backend : Backend app.storage) (world : World Database σ) (initial : world.db.Initial)
    (requests : List Timed) (identity : Identity) (uploadId : Uuid) (upload : UploadSession)
    (found : (afterOn dialect app world requests).db.findUpload uploadId identity.tenantId =
      some upload)
    (unfinished : upload.status ∉ [.completed, .aborted, .expired]) (now : Timestamp) :
    let reached := afterOn dialect app world requests
    let reply := (serveOn dialect app reached (.complete identity uploadId, now)).1
    ((∃ missing, reply = .error (.api (.missingParts missing))) ↔
      ∃ number, LacksPart reached.db upload number) ∧
    ∀ missing, reply = .error (.api (.missingParts missing)) →
      missing ≠ [] ∧ missing.Pairwise (· < ·) ∧
        ∀ number, number ∈ missing ↔ LacksPart reached.db upload number := by
  obtain ⟨same, offsets⟩ := afterOn_eq dialect app initial requests
  have sound := after_integrity app initial requests
  rw [same] at found ⊢
  have live : upload.status.terminal = false := by
    cases status : upload.status <;> simp_all [UploadStatus.terminal]
  dsimp only
  rw [serveOn_eq dialect sound offsets]
  rcases complete_missing_cases backend sound found live now with ⟨some, raised⟩ | ⟨none, other⟩
  · rw [raised]
    obtain ⟨number, member⟩ := List.exists_mem_of_ne_nil _ some
    refine ⟨iff_of_true ⟨_, rfl⟩ ⟨number, mem_missingNumbers_iff.mp member⟩, ?_⟩
    intro missing same
    cases same
    exact ⟨some, missingNumbers_sorted _ _, fun _ => mem_missingNumbers_iff⟩
  · refine ⟨iff_of_false (fun raises => other _ raises.choose_spec) ?_, ?_⟩
    · rintro ⟨number, lacks⟩
      have member := mem_missingNumbers_iff.mpr lacks
      rw [none] at member
      cases member
    · exact fun missing raised => absurd raised (other missing)

def startedUpload : UploadSession :=
  ((afterOn .other smallLocalApp ⟨{}, {}⟩ startedRun).db.findUpload 0 "tenant").get (by decide)

theorem started_upload_lacks_a_part :
    let reached := afterOn .other smallLocalApp ⟨{}, {}⟩ startedRun
    let reply := (serveOn .other smallLocalApp reached (.complete smallTenant 0, 0)).1
    ((∃ missing, reply = .error (.api (.missingParts missing))) ↔
      ∃ number, LacksPart reached.db startedUpload number) ∧
    ∀ missing, reply = .error (.api (.missingParts missing)) →
      missing ≠ [] ∧ missing.Pairwise (· < ·) ∧
        ∀ number, number ∈ missing ↔ LacksPart reached.db startedUpload number :=
  complete_raises_exactly_the_missing .other smallLocalApp (localBackend _) ⟨{}, {}⟩ (by decide)
    startedRun smallTenant 0 startedUpload (Option.some_get (by decide)).symm (by decide) 0

end PyUploadX
