import PyUploadX.Db.Integrity
import PyUploadX.Kit.Serial
import PyUploadX.Services.Calls
import PyUploadX.Services.Completion

/-! `complete`, `abort` and `refresh` on one session, running side by side. -/
namespace PyUploadX

open Kit UploadService

variable {σ : Type} {app : AppState σ}

/-- A session that names a file is completed. -/
def Named (db : Database) : Prop :=
  ∀ upload ∈ db.uploadSessions, upload.completedFileId ≠ none → upload.status = .completed

theorem Named.map {db db' : Database} (sound : Named db) (move : UploadSession → UploadSession)
    (sessions : db'.uploadSessions = db.uploadSessions.map move)
    (moves : ∀ row ∈ db.uploadSessions, StatusMove row (move row)) : Named db' := by
  intro upload member named
  rw [sessions] at member
  obtain ⟨row, present, rfl⟩ := List.mem_map.mp member
  rcases moves row present with ⟨status, file⟩ | ⟨unfinished, file, _⟩
  · rw [file] at named
    rw [status]
    exact sound row present named
  · rw [file] at named
    rw [sound row present named] at unfinished
    cases unfinished

theorem Named.updateUpload {db : Database} (sound : Named db) (uploadId : Uuid)
    (move : UploadSession → UploadSession)
    (moves : ∀ row ∈ db.uploadSessions, row.id = uploadId → StatusMove row (move row)) :
    Named (db.updateUpload uploadId move) := by
  refine sound.map _ rfl fun row member => ?_
  split
  · rename_i named
    exact moves row member named
  · exact .inl ⟨rfl, rfl⟩

theorem Change.named {asked : Request} {db db' : Database} (change : Change app asked db db')
    (ids : Identified db) (sound : Named db) : Named db' := by
  cases change with
  | none => exact sound
  | buckets files sessions parts _ =>
    exact sound.map id (by rw [sessions, List.map_id]) fun row _ => .inl ⟨rfl, rfl⟩
  | directories asks changes =>
    exact sound.map id (by rw [changes.besides.uploadSessions, List.map_id]) fun row _ => .inl ⟨rfl, rfl⟩
  | created asks new =>
    intro row member named
    rcases List.mem_append.mp member with old | added
    · exact sound row old named
    · rw [List.mem_singleton.mp added] at named
      exact absurd new.unassembled named
  | @part upload part now starts found unfinished starting owner first last committed asks =>
    have started : Named
        (if starts then db.updateUpload upload.id (·.setStatus .uploading) else db) := by
      split
      · refine sound.updateUpload _ _ fun row member named => ?_
        rw [ids.upload_unique member found named]
        exact .inr ⟨unfinished, rfl, .inl rfl⟩
      · exact sound
    have stored : Named ((if starts then
        db.updateUpload upload.id (·.setStatus .uploading) else db).upsertPart part) := by
      refine started.map id ?_ fun row _ => .inl ⟨rfl, rfl⟩
      rw [Database.upsertPart_uploadSessions, List.map_id]
    exact stored.updateUpload _ (·.touch now) fun row _ _ => .inl ⟨rfl, rfl⟩
  | touched uploadId now =>
    exact sound.updateUpload _ (·.touch now) fun row _ _ => .inl ⟨rfl, rfl⟩
  | prolonged uploadId expiresAt now =>
    exact sound.updateUpload _ (·.prolong expiresAt now) fun row _ _ => .inl ⟨rfl, rfl⟩
  | @aborted upload found unfinished =>
    refine sound.updateUpload _ (·.setStatus .aborted) fun row member named => ?_
    rw [ids.upload_unique member found named]
    exact .inr ⟨unfinished, rfl, .inr (.inl rfl)⟩
  | @expired expiring unfinished =>
    refine sound.map _ (expired_uploadSessions db expiring) fun row member => ?_
    split
    · rename_i selected
      obtain ⟨upload, found, named, open_⟩ := unfinished row.id selected
      rw [ids.upload_unique found member named] at open_
      exact .inr ⟨open_, rfl, .inr (.inr rfl)⟩
    · exact .inl ⟨rfl, rfl⟩
  | @completed identity uploadId upload stored now asks found owner unfinished vacant =>
    intro row member named
    obtain ⟨before, present, rfl⟩ := List.mem_map.mp member
    by_cases same : before.id = upload.id
    · rw [if_pos same]
      rfl
    · rw [if_neg same] at named ⊢
      exact sound before present named
  | uploaded asks policy vacant => exact sound
  | file kind same files =>
    exact sound.map id (by rw [same.1, List.map_id]) fun row _ => .inl ⟨rfl, rfl⟩
  | batch same loads turns =>
    exact sound.map id (by rw [same.1, List.map_id]) fun row _ => .inl ⟨rfl, rfl⟩

/-- A file that names a session has its row. -/
def Originated (db : Database) : Prop :=
  ∀ identity ∈ db.identities, ∀ uploadId ∈ identity.uploadId,
    ∃ core ∈ db.cores, core.id = uploadId

private theorem Change.originated {asked : Request} {db db' : Database} (change : Change app asked db db')
    (sound : Originated db) : Originated db' := by
  have rows : ∀ core ∈ db.cores, core ∈ db'.cores := by
    intro core member
    rcases change.cores with same | ⟨_, _, _, _, _, rfl⟩
    · rwa [same]
    · rw [Database.cores, Database.insertUpload, List.map_append]
      exact List.mem_append_left _ member
  intro identity member uploadId named
  rcases change.identities with same | ⟨file, _, added, _, origin, _⟩
  · obtain ⟨core, present, same⟩ := sound identity (same ▸ member) uploadId named
    exact ⟨core, rows core present, same⟩
  · rw [added] at member
    rcases List.mem_append.mp member with old | fresh
    · obtain ⟨core, present, same⟩ := sound identity old uploadId named
      exact ⟨core, rows core present, same⟩
    · rw [List.mem_singleton.mp fresh] at named
      obtain ⟨upload, present, rfl⟩ := origin uploadId named
      exact ⟨upload.core, rows _ (mem_cores present), rfl⟩

private theorem length_le_one {α : Type} {list : List α} (distinct : list.Nodup)
    (same : ∀ first ∈ list, ∀ second ∈ list, first = second) : list.length ≤ 1 := by
  match list with
  | [] => exact Nat.zero_le 1
  | [_] => exact le_refl 1
  | first :: second :: rest =>
    have equal := same first (by simp) second (by simp)
    simp [equal] at distinct

theorem Settled.one_file {db : Database} (settled : Settled db) (ids : Identified db)
    (originated : Originated db) (uploadId : Uuid) :
    (db.fileObjects.filter (·.uploadId = some uploadId)).length ≤ 1 := by
  refine length_le_one (ids.fileIds_nodup.of_map.filter _) fun first member second member' => ?_
  simp only [List.mem_filter, decide_eq_true_eq] at member member'
  obtain ⟨core, inTable, named⟩ := originated _ (mem_identities member.1) uploadId member.2
  obtain ⟨upload, present, rfl⟩ := List.mem_map.mp inTable
  have named : upload.id = uploadId := named
  subst named
  obtain ⟨_, one⟩ := settled.assembled upload present _ (mem_identities member.1) member.2
  obtain ⟨_, other⟩ := settled.assembled upload present _ (mem_identities member'.1) member'.2
  exact ids.file_unique member.1 member'.1 (Option.some.inj (one.symm.trans other))

private theorem after_settled {world : World Database σ} (initial : world.db.Initial)
    (requests : List Timed) :
    Named (after app world requests).db ∧ Originated (after app world requests).db := by
  have start : Named world.db ∧ Originated world.db := by
    obtain ⟨files, sessions, _⟩ := initial
    simp [Named, Originated, Database.identities, files, sessions]
  have all := @after_preserves σ app
    (fun world => Integrity app world.db ∧ Named world.db ∧ Originated world.db) ?_ world requests
    ⟨initial.integrity, start⟩
  · exact all.2
  · intro world timed holds
    have change := serve_change app world timed
    exact ⟨serve_integrity world timed holds.1, change.named holds.1.ids holds.2.1,
      change.originated holds.2.2⟩

/-! One session, whatever tenant asks for it. -/

/-- A request to complete, abort or refresh the session. -/
inductive SettlesSession (uploadId : Uuid) : Request → Prop
  | complete (identity : Identity) : SettlesSession uploadId (.complete identity uploadId)
  | abort (identity : Identity) : SettlesSession uploadId (.abort identity uploadId)
  | refresh (identity : Identity) : SettlesSession uploadId (.refresh identity uploadId)

def Database.status? (db : Database) (uploadId : Uuid) : Option UploadStatus :=
  (db.uploadSessions.find? (·.id = uploadId)).map (·.status)

def Database.completedFileId? (db : Database) (uploadId : Uuid) : Option Uuid :=
  (db.uploadSessions.find? (·.id = uploadId)).bind (·.completedFileId)

/-- Such a request locks the row of the session before anything else. -/
theorem SettlesSession.locksFirst {uploadId : Uuid} {request : Request} (now : Timestamp)
    (settles : SettlesSession uploadId request) :
    (handle app request now).LocksFirst (.upload uploadId) := by
  cases settles with
  | complete identity => rfl
  | abort identity => rfl
  | refresh identity =>
    rw [handle]
    unfold UploadService.refresh Program.refuseIf
    by_cases disabled : app.settings.uploads.session.refreshEnabled = false
    · rw [if_pos disabled]
      trivial
    · rw [if_neg disabled]
      rfl

/-- The storage completion is called only for a session that is not finished. -/
def CompletesUnfinished (uploadId : Uuid) (name : Operation) (world : World Database σ) : Prop :=
  name = .completeMultipartUpload →
    ∃ upload ∈ world.db.uploadSessions, upload.id = uploadId ∧ upload.status.terminal = false

theorem SettlesSession.calls {uploadId : Uuid} {request : Request} {now : Timestamp}
    (settles : SettlesSession uploadId request) (db : Database) (store : σ)
    (call : Call Operation Database σ) (made : call ∈ (handle app request now).calls db store) :
    CompletesUnfinished uploadId call.name ⟨db, call.store⟩ := by
  intro completes
  cases settles with
  | complete identity =>
    rw [handle, Program.calls_bind_pure] at made
    obtain ⟨_, upload, found, status⟩ := complete_writes made (.inr completes)
    obtain ⟨member, named, _⟩ := Database.findUpload_some found
    exact ⟨upload, member, named, unfinished_of_status status⟩
  | abort identity =>
    rw [handle, Program.calls_bind_pure] at made
    rw [abort_calls identity uploadId db store call made] at completes
    cases completes
  | refresh identity =>
    rw [handle, Program.calls_bind_pure] at made
    exact (refresh_silent identity uploadId now db store call made).elim

/-- What a committed request leaves of a session that was settled before. -/
structure KeepsSettled (uploadId : Uuid) (db db' : Database) : Prop where
  files : ∀ file ∈ db.fileObjects, file ∈ db'.fileObjects
  named : ∀ fileId, db.completedFileId? uploadId = some fileId →
    db'.completedFileId? uploadId = some fileId
  completed : db.status? uploadId = some .completed → db'.status? uploadId = some .completed
  aborted : db.status? uploadId = some .aborted → db'.status? uploadId = some .aborted

theorem KeepsSettled.refl (uploadId : Uuid) (db : Database) : KeepsSettled uploadId db db :=
  ⟨fun _ => id, fun _ => id, id, id⟩

theorem KeepsSettled.trans {uploadId : Uuid} {db₁ db₂ db₃ : Database}
    (first : KeepsSettled uploadId db₁ db₂) (second : KeepsSettled uploadId db₂ db₃) :
    KeepsSettled uploadId db₁ db₃ :=
  ⟨fun file member => second.files file (first.files file member),
    fun fileId named => second.named fileId (first.named fileId named),
    fun completed => second.completed (first.completed completed),
    fun aborted => second.aborted (first.aborted aborted)⟩

private theorem Identified.find_session {db : Database} (ids : Identified db) {uploadId : Uuid}
    {tenantId : String} {upload : UploadSession}
    (found : db.findUpload uploadId tenantId = some upload) :
    db.uploadSessions.find? (·.id = uploadId) = some upload := by
  obtain ⟨member, named, _⟩ := Database.findUpload_some found
  cases search : db.uploadSessions.find? (·.id = uploadId) with
  | none =>
    have absent := List.find?_eq_none.mp search upload member
    simp [named] at absent
  | some row =>
    have same := List.find?_some search
    rw [decide_eq_true_eq] at same
    rw [ids.upload_unique (List.mem_of_find?_eq_some search) member (same.trans named.symm)]

theorem find_updateUpload (db : Database) {uploadId : Uuid}
    {change : UploadSession → UploadSession} (kept : ∀ row, (change row).id = row.id) :
    (db.updateUpload uploadId change).uploadSessions.find? (·.id = uploadId) =
      (db.uploadSessions.find? (·.id = uploadId)).map change := by
  unfold Database.updateUpload
  dsimp only
  induction db.uploadSessions with
  | nil => rfl
  | cons row rest ih =>
    by_cases named : row.id = uploadId
    · simp [named, kept]
    · simp [named, ih]

/-- A change of an unfinished row leaves nothing settled behind. -/
theorem KeepsSettled.unfinished {db db' : Database} {uploadId : Uuid} {upload : UploadSession}
    (sound : Named db) (found : db.uploadSessions.find? (·.id = uploadId) = some upload)
    (unfinished : upload.status.terminal = false)
    (files : ∀ file ∈ db.fileObjects, file ∈ db'.fileObjects) : KeepsSettled uploadId db db' := by
  have open_ : ∀ status, status.terminal = true → db.status? uploadId ≠ some status := by
    rintro status finished same
    rw [Database.status?, found] at same
    cases same
    rw [finished] at unfinished
    cases unfinished
  refine ⟨files, fun fileId named => ?_, fun status => absurd status (open_ _ rfl),
    fun status => absurd status (open_ _ rfl)⟩
  rw [Database.completedFileId?, found] at named
  have member := List.mem_of_find?_eq_some found
  have named : upload.completedFileId = some fileId := named
  rw [sound upload member (by simp [named])] at unfinished
  cases unfinished

/-- What a committed request does to the session, and the file a completion answers with. -/
theorem SettlesSession.commits {uploadId : Uuid} {request : Request} {now : Timestamp}
    (settles : SettlesSession uploadId request) {db db' : Database} {store store' : σ}
    {reply : Reply} (sound : Integrity app db) (named : Named db)
    (done : (handle app request now).run db store = (.ok (reply, db'), store')) :
    KeepsSettled uploadId db db' ∧ ∀ file, reply = .file file →
      file ∈ db'.fileObjects ∧ file.uploadId = some uploadId ∧
        db'.completedFileId? uploadId = some file.id := by
  cases settles with
  | complete identity =>
    obtain ⟨file, ran, rfl⟩ := Program.bind_pure_eq_ok.mp done
    obtain ⟨upload, found, ⟨status, reference, row, rfl, _⟩ |
      ⟨parts, stored, status, _, _, rfl, vacant, rfl⟩⟩ := complete_ok ran
    · refine ⟨.refl _ _, fun file' same => ?_⟩
      cases same
      have at_id := sound.ids.find_session found
      obtain ⟨member, rfl, _⟩ := Database.findUpload_some found
      obtain ⟨identity, inTable, origin, _, same⟩ := sound.settled.completed upload member status
      obtain ⟨other, present, rfl⟩ := List.mem_map.mp inTable
      obtain ⟨present', _⟩ := Database.findFile_some row
      have one : other = file := sound.ids.file_unique present present'
        (Option.some.inj (same.symm.trans reference))
      subst one
      exact ⟨present', origin, by rw [Database.completedFileId?, at_id]; exact reference⟩
    · have at_id := sound.ids.find_session found
      obtain ⟨member, rfl, _⟩ := Database.findUpload_some found
      refine ⟨.unfinished named at_id (unfinished_of_status status) fun file member =>
        List.mem_append_left _ member, fun file' same => ?_⟩
      cases same
      refine ⟨List.mem_append_right _ (List.mem_singleton.mpr rfl), rfl, ?_⟩
      have row := @find_updateUpload db upload.id (·.setCompleted db.nextId) fun _ => rfl
      rw [at_id] at row
      exact congrArg (·.bind (·.completedFileId)) row
  | abort identity =>
    obtain ⟨_, ran, rfl⟩ := Program.bind_pure_eq_ok.mp done
    refine ⟨?_, fun _ => nofun⟩
    obtain ⟨upload, found, ⟨_, rfl, _⟩ | ⟨status, rfl, _⟩⟩ := abort_ok ran
    · exact .refl _ _
    · exact .unfinished named (sound.ids.find_session found) (unfinished_of_status status)
        fun _ => id
  | refresh identity =>
    obtain ⟨_, ran, rfl⟩ := Program.bind_pure_eq_ok.mp done
    refine ⟨?_, fun _ => nofun⟩
    obtain ⟨upload, _, found, unfinished, rfl, _⟩ := refresh_ok ran
    exact .unfinished named (sound.ids.find_session found) unfinished fun _ => id

section Interleaving

variable {world : World Database σ} {uploadId : Uuid} {requests : Nat → Timed}

/-- Requests running side by side from a committed state. -/
def sideBySide (app : AppState σ) (world : World Database σ) (requests : Nat → Timed) :
    Machine Row Operation Database σ Failure Reply :=
  .start world.db world.store fun i => handle app (requests i).1 (requests i).2

/-- A request commits what it does alone. -/
def DoesAlone (app : AppState σ) (requests : Nat → Timed) (i : Nat) (db : Database)
    (reply : Reply) (db' : Database) : Prop :=
  ∃ store store', (handle app (requests i).1 (requests i).2).run db store =
    (.ok (reply, db'), store')

private theorem sideBySide_sound (world : World Database σ)
    (settles : ∀ i, SettlesSession uploadId (requests i).1) :
    (sideBySide app world requests).Sound
      (exclusive (.upload uploadId) (CompletesUnfinished uploadId))
      (fun _ _ _ _ => True) (DoesAlone app requests) := by
  apply Machine.sound_start
  intro i
  apply safe_of_locksFirst ((settles i).locksFirst _)
  · exact fun db store call made => (settles i).calls db store call made
  · exact fun db store reply db' store' done => ⟨store, store', done⟩

/-- What holds of the committed state and of the replies at every moment. -/
structure SessionSound (app : AppState σ) (uploadId : Uuid) (db : Database)
    (replies : Nat → Option Reply) : Prop where
  integrity : Integrity app db
  named : Named db
  originated : Originated db
  replied : ∀ i file, replies i = some (.file file) → file ∈ db.fileObjects ∧
    file.uploadId = some uploadId ∧ db.completedFileId? uploadId = some file.id

theorem SessionSound.commit (settles : ∀ i, SettlesSession uploadId (requests i).1) {i : Nat}
    {db db' : Database} {reply : Reply} {replies : Nat → Option Reply}
    (sound : SessionSound app uploadId db replies)
    (alone : DoesAlone app requests i db reply db') :
    SessionSound app uploadId db' (Function.update replies i (some reply)) ∧
      KeepsSettled uploadId db db' := by
  obtain ⟨store, store', done⟩ := alone
  obtain ⟨keeps, served⟩ := (settles i).commits sound.integrity sound.named done
  have change := handle_change done
  refine ⟨⟨?_, change.named sound.integrity.ids sound.named,
    change.originated sound.originated, ?_⟩, keeps⟩
  · exact ⟨change.identified sound.integrity.ids,
      change.settled sound.integrity.ids sound.integrity.settled,
      change.laidOut sound.integrity.laidOut,
      change.partsInRange sound.integrity.ids sound.integrity.parts⟩
  · intro j file replied
    by_cases same : j = i
    · subst same
      rw [Function.update_self] at replied
      exact served file (Option.some.inj replied)
    · rw [Function.update_of_ne same] at replied
      obtain ⟨present, origin, completed⟩ := sound.replied j file replied
      exact ⟨keeps.files file present, origin, keeps.named _ completed⟩

theorem sideBySide_run (settles : ∀ i, SettlesSession uploadId (requests i).1)
    {origin : World Database σ} (initial : origin.db.Initial) (earlier : List Timed)
    (moves later : List Move) :
    let machine := (sideBySide app (after app origin earlier) requests).run moves
    machine.Sound (exclusive (.upload uploadId) (CompletesUnfinished uploadId))
        (fun _ _ _ _ => True) (DoesAlone app requests) ∧
      SessionSound app uploadId machine.db machine.reply? ∧
      KeepsSettled uploadId machine.db (machine.run later).db := by
  have sound := @sideBySide_sound _ app _ _ (after app origin earlier) settles
  have start : SessionSound app uploadId (after app origin earlier).db fun _ => none :=
    ⟨after_integrity app initial earlier, (after_settled initial earlier).1,
      (after_settled initial earlier).2, fun _ _ => nofun⟩
  have obeys : ∀ (machine : Machine Row Operation Database σ Failure Reply) moves,
      machine.Obeys (fun _ _ _ _ => True) moves := fun _ _ => Machine.obeys_true
  have now := sound.run_commits (SessionSound app uploadId) start
    (fun i db reply db' replies before alone => (before.commit settles alone).1) (obeys _ moves)
  have here := sound.run (obeys _ moves)
  have next := here.run_commits
    (fun db replies => SessionSound app uploadId db replies ∧ KeepsSettled uploadId _ db)
    ⟨now, .refl uploadId _⟩
    (fun i db reply db' replies before alone =>
      ⟨(before.1.commit settles alone).1, before.2.trans (before.1.commit settles alone).2⟩)
    (obeys _ later)
  exact ⟨here, now, next.2⟩

end Interleaving

/-- However `complete`, `abort` and `refresh` on one session interleave: there is one file
and every completion answers with it, a settled session stays as it is settled, and the
storage completes nothing after that. -/
theorem settling_requests_agree (app : AppState σ) (origin : World Database σ)
    (initial : origin.db.Initial) (earlier : List Timed) (uploadId : Uuid)
    (requests : Nat → Timed) (settles : ∀ i, SettlesSession uploadId (requests i).1)
    (moves later : List Move) :
    let now := (sideBySide app (after app origin earlier) requests).run moves
    let next := now.run later
    (now.db.fileObjects.filter (·.uploadId = some uploadId)).length ≤ 1 ∧
    (∀ fileId, now.db.completedFileId? uploadId = some fileId →
      next.db.completedFileId? uploadId = some fileId) ∧
    (∀ i file, now.reply? i = some (.file file) → file ∈ now.db.fileObjects ∧
      file.uploadId = some uploadId ∧ now.db.completedFileId? uploadId = some file.id) ∧
    (now.db.status? uploadId = some .completed → next.db.status? uploadId ≠ some .aborted) ∧
    (now.db.status? uploadId = some .aborted → next.db.status? uploadId ≠ some .completed) ∧
    (now.db.status? uploadId = some .completed → ∀ i, ¬ next.Calls i .completeMultipartUpload) ∧
    now.db.status? uploadId ≠ some .completing ∧ now.db.status? uploadId ≠ some .aborting := by
  intro now next
  obtain ⟨_, sound, keeps⟩ := @sideBySide_run _ app _ _ settles _ initial earlier moves later
  obtain ⟨nextMachine, nextSound, _⟩ :=
    @sideBySide_run _ app _ _ settles _ initial earlier (moves ++ later) []
  rw [Machine.run_append] at nextMachine nextSound
  have resting : ∀ status, status = .completing ∨ status = .aborting →
      now.db.status? uploadId ≠ some status := by
    intro status moving same
    obtain ⟨row, search, rfl⟩ := Option.map_eq_some_iff.mp same
    have rests := sound.integrity.settled.resting row (List.mem_of_find?_eq_some search)
    rcases moving with moving | moving
    · exact rests.1 moving
    · exact rests.2 moving
  refine ⟨sound.integrity.settled.one_file sound.integrity.ids sound.originated uploadId,
    keeps.named, sound.replied, fun completed aborted => ?_, fun aborted completed => ?_,
    fun completed i called => ?_, resting _ (.inl rfl), resting _ (.inr rfl)⟩
  · rw [keeps.completed completed] at aborted
    cases aborted
  · rw [keeps.aborted aborted] at completed
    cases completed
  · obtain ⟨upload, member, named, unfinished⟩ := nextMachine.call called rfl
    obtain ⟨row, search, status⟩ := Option.map_eq_some_iff.mp (keeps.completed completed)
    have same : row = upload := by
      have at_id := List.find?_some search
      rw [decide_eq_true_eq] at at_id
      exact nextSound.integrity.ids.upload_unique (List.mem_of_find?_eq_some search) member
        (at_id.trans named.symm)
    rw [← same, status] at unfinished
    cases unfinished

def settlingRequests : Nat → Timed
  | 0 => (.complete smallTenant 0, 0)
  | 1 => (.abort smallTenant 0, 0)
  | _ => (.complete smallTenant 0, 1)

private theorem settlingRequests_settle (i : Nat) : SettlesSession 0 (settlingRequests i).1 := by
  unfold settlingRequests
  split
  · exact .complete smallTenant
  · exact .abort smallTenant
  · exact .complete smallTenant

/-- The second completion and the abort wait for the first, which has the row. -/
theorem settling_requests_agree_small :
    let now := (sideBySide smallLocalApp (after smallLocalApp ⟨{}, {}⟩ storedRun)
      settlingRequests).run ([.advance 0, .advance 1, .advance 2, .advance 1] ++
        List.replicate 14 (.advance 0) ++ List.replicate 8 (.advance 2))
    (now.reply? 0).isSome = true ∧ (now.reply? 2).isSome = true ∧
      (now.db.fileObjects.filter (·.uploadId = some 0)).length ≤ 1 := by
  refine ⟨by decide, by decide, ?_⟩
  exact (settling_requests_agree smallLocalApp ⟨{}, {}⟩ (by decide) storedRun 0 settlingRequests
    settlingRequests_settle _ []).1

end PyUploadX
