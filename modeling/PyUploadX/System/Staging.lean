import PyUploadX.Db.Integrity
import PyUploadX.Storage.Backend
import PyUploadX.System.StoreEffect

/-! Where the parts of a session are kept until it is completed: no two sessions share a
storage id, and under the id of a session lie only parts with its numbers. -/
namespace PyUploadX

open Kit UploadService

variable {σ : Type} {app : AppState σ}

/-- The session's own id is its storage id, or the storage issued one. -/
def UploadSession.OwnKey (upload : UploadSession) : Prop :=
  upload.storageKey = .session upload.id ∨ ∃ text, upload.storageKey = .issued text

structure Staged (backend : Backend app.storage) (world : World Database σ) : Prop where
  own : ∀ core ∈ world.db.cores, core.OwnKey
  issued : ∀ core ∈ world.db.cores, ∀ text, core.storageKey = .issued text →
    backend.issued world.store text
  distinct : (world.db.cores.map (·.storageKey)).Nodup
  named : ∀ bucket key id number,
    backend.hasPart world.store bucket key (.session id) number → id < world.db.nextId
  inRange : ∀ core ∈ world.db.cores, ∀ bucket key number,
    backend.hasPart world.store bucket key core.storageKey number →
      1 ≤ number ∧ number ≤ core.totalParts

private theorem storageKey_core (upload : UploadSession) : upload.core.storageKey = upload.storageKey := rfl

/-- What a request may do to the parts and to the issued ids. -/
structure StagingKept (backend : Backend app.storage) (store store' : σ) : Prop where
  issued : backend.KeepsIssued store store'
  parts : backend.AddsNoPart store store'

theorem StagingKept.refl (backend : Backend app.storage) (store : σ) :
    StagingKept backend store store := ⟨fun _ => id, fun _ _ _ _ => id⟩

theorem StagingKept.trans {backend : Backend app.storage} {store₁ store₂ store₃ : σ}
    (first : StagingKept backend store₁ store₂) (second : StagingKept backend store₂ store₃) :
    StagingKept backend store₁ store₃ :=
  ⟨fun text present => second.issued text (first.issued text present),
    fun bucket key uploadId number present =>
      first.parts bucket key uploadId number (second.parts bucket key uploadId number present)⟩

private theorem turns_staging (backend : Backend app.storage) {now : Timestamp}
    {due files files' : List FileObject} {store store' : σ}
    (turns : LifecycleWorker.Turns app now due files store files' store') :
    StagingKept backend store store' := by
  refine LifecycleWorker.turns_store turns (fun file before _ _ ran kept => kept.trans ?_) (.refl _ _)
  have removal := backend.deleteObject_effect file.bucket file.objectKey before
  rw [ran] at removal
  exact ⟨removal.2.1, removal.2.2⟩

/-- A request adds no part, or one part of a session that is in the table. -/
theorem StoreEffect.staging (backend : Backend app.storage) {db : Database} {store store' : σ}
    {request : Request} (effect : StoreEffect app db store request store') :
    StagingKept backend store store' ∨
      ∃ upload ∈ db.uploadSessions, ∃ number, 1 ≤ number ∧ number ≤ upload.totalParts ∧
        backend.KeepsIssued store store' ∧
        backend.AddsPart upload.storageKey number store store' := by
  cases effect with
  | none => exact .inl (.refl _ _)
  | createBucket identity name bucket =>
    exact .inl ⟨(backend.createBucket_effect _ _).2.1, (backend.createBucket_effect _ _).2.2⟩
  | deleteBucket identity name bucket =>
    exact .inl ⟨(backend.deleteBucket_effect _ _).2.1, (backend.deleteBucket_effect _ _).2.2⟩
  | initiate identity request safeKey metadata =>
    exact .inl ⟨(backend.initiate_effect _ _ _ _ _).2.1, (backend.initiate_effect _ _ _ _ _).2.2⟩
  | @part request upload number body checksumSha256 asks found first last =>
    have put := backend.uploadPart_effect upload.bucket upload.objectKey upload.storageKey number
      body body.length checksumSha256 store
    exact .inr ⟨upload, found, number, first, last, put.2.1, put.2.2⟩
  | complete found prepared =>
    exact .inl ⟨(backend.complete_effect _ _ _ _ _).2.1, (backend.complete_effect _ _ _ _ _).2.2⟩
  | abort => exact .inl ⟨(backend.abort_effect _ _ _ _).2.1, (backend.abort_effect _ _ _ _).2.2⟩
  | put valid =>
    exact .inl ⟨(backend.putObject_effect _ _ _ _ _ _ _).2.1,
      (backend.putObject_effect _ _ _ _ _ _ _).2.2⟩
  | delete found live =>
    exact .inl ⟨(backend.deleteObject_effect _ _ _).2.1, (backend.deleteObject_effect _ _ _).2.2⟩
  | batch turns => exact .inl (turns_staging backend turns)

theorem Staged.core_unique {backend : Backend app.storage} {world : World Database σ}
    (sound : Staged backend world) {first second : UploadSession} (member : first ∈ world.db.cores)
    (member' : second ∈ world.db.cores) (same : first.storageKey = second.storageKey) :
    first = second := List.inj_on_of_nodup_map sound.distinct member member' same

/-- Where every part of a session is stored, a listing has each of its numbers once. -/
theorem Staged.listed_perm {backend : Backend app.storage} {world : World Database σ}
    (sound : Staged backend world) {upload : UploadSession} (found : upload ∈ world.db.uploadSessions)
    {bucket : String} {key : ObjectKey} {parts : List UploadedPart}
    (listing : app.storage.listParts bucket key upload.storageKey world.store = .ok parts)
    (all : ∀ number ∈ List.range' 1 upload.totalParts,
      backend.hasPart world.store bucket key upload.storageKey number) :
    (parts.map (·.partNumber)).Perm (List.range' 1 upload.totalParts) := by
  obtain ⟨nodup, present⟩ := backend.listParts_ok listing
  refine (List.perm_ext_iff_of_nodup nodup List.nodup_range').mpr fun number => ?_
  rw [present]
  refine ⟨fun there => ?_, all number⟩
  have bounds := sound.inRange upload.core (mem_cores found) _ _ number there
  rw [List.mem_range'_1]
  exact ⟨bounds.1, Nat.lt_one_add_iff.mpr bounds.2⟩

/-- The effect of a request on the store alone. -/
theorem Staged.act {backend : Backend app.storage} {world : World Database σ}
    (sound : Staged backend world) (ids : Identified world.db) {request : Request} {store' : σ}
    (effect : StoreEffect app world.db world.store request store') :
    Staged backend ⟨world.db, store'⟩ := by
  rcases effect.staging backend with kept | ⟨upload, found, written, first, last, issued, parts⟩
  · exact {
      own := sound.own
      issued := fun core member text key => kept.issued text (sound.issued core member text key)
      distinct := sound.distinct
      named := fun bucket key id number present =>
        sound.named bucket key id number (kept.parts _ _ _ _ present)
      inRange := fun core member bucket key number present =>
        sound.inRange core member bucket key number (kept.parts _ _ _ _ present) }
  · have member := mem_cores found
    refine {
      own := sound.own
      issued := fun core member text key => issued text (sound.issued core member text key)
      distinct := sound.distinct
      named := fun bucket key id number present => ?_
      inRange := fun core inTable bucket key number present => ?_ }
    · rcases parts _ _ _ _ present with old | ⟨same, _⟩
      · exact sound.named bucket key id number old
      · rcases sound.own upload.core member with own | ⟨text, own⟩
        · rw [storageKey_core, ← same] at own
          cases own
          exact ids.uploadsOld upload.core member
        · rw [storageKey_core, ← same] at own
          cases own
    · rcases parts _ _ _ _ present with old | ⟨same, rfl⟩
      · exact sound.inRange core inTable bucket key number old
      · rw [sound.core_unique inTable member same]
        exact ⟨first, last⟩

theorem Staged.congr {backend : Backend app.storage} {db db' : Database} {store : σ}
    (sound : Staged backend ⟨db, store⟩) (same : db'.cores = db.cores)
    (later : db.nextId ≤ db'.nextId) : Staged backend ⟨db', store⟩ where
  own := by rw [same]; exact sound.own
  issued := by rw [same]; exact sound.issued
  distinct := by rw [same]; exact sound.distinct
  named := fun bucket key id number present =>
    (sound.named bucket key id number present).trans_le later
  inRange := by rw [same]; exact sound.inRange

/-- The storage id of a new session is new to the storage. -/
theorem createSession_key (backend : Backend app.storage) {identity : Identity}
    {request : CreateSession} {now : Timestamp} {db db' : Database} {store store' : σ}
    {upload : UploadSession}
    (done : (createSession app identity request now).run db store =
      (.ok (upload, db'), store')) :
    upload.storageKey = .session upload.id ∨
      ∃ text, upload.storageKey = .issued text ∧ ¬ backend.issued store text ∧
        backend.issued store' text ∧
        ∀ bucket key number, ¬ backend.hasPart store' bucket key (.issued text) number := by
  obtain ⟨safeKey, layout, mode, effective, storageUploadId, lifetime, _, _, _, _, _, _, initiated,
    rfl, rfl⟩ := createSession_ok done
  obtain ⟨_, outcome⟩ := initiateMultipart_ok initiated
  cases onDisk : app.storage.isLocal with
  | true =>
    left
    simp [UploadSession.storageKey, UploadSession.storageId?, newSession, onDisk]
  | false =>
    rcases outcome with ⟨_, rfl, _⟩ | ⟨metadata, text, created, named⟩
    · left
      simp [UploadSession.storageKey, UploadSession.storageId?, newSession, onDisk]
    · simp only [onDisk, Bool.false_eq_true, if_false] at named
      subst named
      by_cases empty : text = ""
      · left
        simp [UploadSession.storageKey, UploadSession.storageId?, newSession, onDisk, empty]
      · right
        obtain ⟨fresh, known, vacant⟩ := backend.initiate_fresh onDisk created
        refine ⟨text, ?_, fresh, known, vacant⟩
        simp [UploadSession.storageKey, UploadSession.storageId?, newSession, onDisk, empty]

theorem Staged.insert {backend : Backend app.storage} {db : Database} {before store : σ}
    (known : Staged backend ⟨db, before⟩) (sound : Staged backend ⟨db, store⟩)
    {upload : UploadSession} (new : NewSession app db upload)
    (key : upload.storageKey = .session upload.id ∨
      ∃ text, upload.storageKey = .issued text ∧ ¬ backend.issued before text ∧
        backend.issued store text ∧
        ∀ bucket key number, ¬ backend.hasPart store bucket key (.issued text) number)
    (ids : Identified db) : Staged backend ⟨db.insertUpload upload, store⟩ := by
  have cores : (db.insertUpload upload).cores = db.cores ++ [upload.core] := List.map_append
  have older : ∀ core ∈ db.cores, core.storageKey ≠ upload.storageKey := by
    intro core member same
    rcases key with own | ⟨text, issued, fresh, _⟩
    · rcases known.own core member with session | ⟨text, issued⟩
      · rw [session, own] at same
        exact (ids.uploadsOld core member).ne
          ((StorageUploadId.session.inj same).trans new.fresh)
      · rw [issued, own] at same
        cases same
    · exact fresh (known.issued core member text (same.trans issued))
  refine { own := ?_, issued := ?_, distinct := ?_, named := ?_, inRange := ?_ }
  · rw [cores]
    intro core member
    rcases List.mem_append.mp member with old | added
    · exact sound.own core old
    · rw [List.mem_singleton] at added
      subst added
      rcases key with own | ⟨text, issued, _⟩
      · exact .inl own
      · exact .inr ⟨text, issued⟩
  · rw [cores]
    intro core member text issued
    rcases List.mem_append.mp member with old | added
    · exact sound.issued core old text issued
    · rw [List.mem_singleton] at added
      subst added
      rw [storageKey_core] at issued
      rcases key with own | ⟨other, named, _, known, _⟩
      · rw [own] at issued
        cases issued
      · rw [named] at issued
        cases issued
        exact known
  · rw [cores, List.map_append, List.nodup_append]
    refine ⟨sound.distinct, List.nodup_singleton _, ?_⟩
    intro old member added isNew
    obtain ⟨core, inTable, rfl⟩ := List.mem_map.mp member
    simp only [List.map_cons, List.map_nil, List.mem_singleton] at isNew
    rw [isNew]
    exact older core inTable
  · intro bucket path id number present
    exact (sound.named bucket path id number present).trans_le (Nat.le_max_left _ _)
  · rw [cores]
    intro core member bucket path number present
    rcases List.mem_append.mp member with old | added
    · exact sound.inRange core old bucket path number present
    · rw [List.mem_singleton] at added
      subst added
      rw [storageKey_core] at present
      rcases key with own | ⟨text, issued, _, _, vacant⟩
      · rw [own] at present
        exact absurd new.fresh (sound.named bucket path upload.id number present).ne
      · rw [issued] at present
        exact absurd present (vacant bucket path number)

private theorem serve_staged (backend : Backend app.storage) (world : World Database σ) (timed : Timed)
    (ids : Identified world.db) (sound : Staged backend world) :
    Staged backend (serve app world timed).2 := by
  have acted := sound.act ids (serve_storeEffect world timed)
  have change := serve_change app world timed
  rcases change.cores with same | ⟨identity, request, _, asked, _, _⟩
  · exact acted.congr same change.nextId_le
  · obtain ⟨_, now⟩ := timed
    cases asked
    rcases outcome : (createSession app identity request now).run world.db world.store with
      ⟨failure | ⟨created, db'⟩, store'⟩
    · have served : (serve app world (.createSession identity request, now)).2 =
          ⟨world.db, store'⟩ := by
        unfold serve World.execute handle
        simp only [Program.run_bind, outcome]
      rw [served] at acted ⊢
      exact acted
    · obtain ⟨new, _, rfl⟩ := createSession_new outcome
      have served : (serve app world (.createSession identity request, now)).2 =
          ⟨world.db.insertUpload created, store'⟩ := by
        unfold serve World.execute handle
        simp only [Program.run_bind, outcome]
        rfl
      rw [served] at acted ⊢
      exact sound.insert acted new (createSession_key backend outcome) ids

/-- Parts stay where they belong, as long as no part of a session was there before it. -/
theorem after_staged (backend : Backend app.storage) {world : World Database σ}
    (initial : world.db.Initial)
    (unstaged : ∀ bucket key id number,
      ¬ backend.hasPart world.store bucket key (.session id) number) (requests : List Timed) :
    Staged backend (after app world requests) := by
  have empty : world.db.cores = [] := by rw [Database.cores, initial.2.1]; rfl
  have start : Integrity app world.db ∧ Staged backend world := by
    refine ⟨initial.integrity, ?_⟩
    constructor
    · simp [empty]
    · simp [empty]
    · simp [empty]
    · exact fun bucket key id number present => absurd present (unstaged bucket key id number)
    · simp [empty]
  exact (after_preserves (fun world => Integrity app world.db ∧ Staged backend world)
    (fun world timed both => ⟨serve_integrity world timed both.1,
      serve_staged backend world timed both.1.ids both.2⟩) requests start).2

end PyUploadX
