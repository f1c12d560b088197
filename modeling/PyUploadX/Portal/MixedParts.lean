import PyUploadX.Portal.FileUpload
import PyUploadX.Services.WholeUpload

/-! What a completed call of the portal leaves on the server: its Blob, as long as the parts it
did not send are the Blob's own. -/
namespace PyUploadX.Portal

open Kit UploadService LocalStorageAdapter

section Conditions

variable (identity : Identity)

/-- Every part is still stored, and what the call has not sent with the bytes of its Blob; or the
session was completed before, and what came of it is the Blob. -/
def OwnParts (world : World Database LocalState) (uploadId : Uuid) (call : Call) : Prop :=
  match world.db.findUpload uploadId identity.tenantId with
  | none => True
  | some upload =>
    if upload.status = .completed then
      match upload.completedFileId.bind (world.db.findFile · identity.tenantId) with
      | none => True
      | some file => world.store.tree.file? (objectPath file.bucket file.objectKey) = some call.file
    else
      upload.totalParts ≤ (committedOf (world.db.partsOf uploadId)).length →
      (partFiles world.store (.session uploadId)).keys ≠ [] →
      ∀ number ∈ List.range' 1
          (max upload.totalParts (totalParts call.file.length call.entry.partSize)),
        match (partFiles world.store (.session uploadId)).lookup number with
        | none => False
        | some content => number ∉ call.missing → content = call.blob number

instance (world : World Database LocalState) (uploadId : Uuid) (call : Call) :
    Decidable (OwnParts identity world uploadId call) := by
  unfold OwnParts
  split
  · infer_instance
  · split
    · split <;> infer_instance
    · haveI : DecidablePred fun number => (match
          (partFiles world.store (.session uploadId)).lookup number with
        | none => False
        | some content => number ∉ call.missing → content = call.blob number) := by
        intro number
        dsimp only
        split <;> infer_instance
      infer_instance

/-- Nobody else sends parts to the session of a running call, and a call that comes to
`completeUpload` kept only parts of its own Blob. -/
def KeepsOwnParts (page : Page) : Action → Prop
  | .other timed =>
    match page.call.bind (·.entry.uploadId) with
    | none => True
    | some uploadId => timed.1.partOwner? ≠ some uploadId
  | .advance _ =>
    match page.call with
    | none => True
    | some call =>
      match call.entry.uploadId with
      | none => True
      | some uploadId => call.phase = .sending → call.missing.length ≤ call.index →
        OwnParts identity page.world uploadId call
  | _ => True

instance (page : Page) (action : Action) : Decidable (KeepsOwnParts identity page action) := by
  unfold KeepsOwnParts
  split
  · split <;> infer_instance
  · split
    · infer_instance
    · split <;> infer_instance
  · infer_instance

end Conditions

/-- When the call completes, what the service has stored is the Blob. -/
def Honest (app : AppState LocalState) (identity : Identity) (page : Page) : Action → Prop
  | .advance now =>
    let next := page.step app identity (.advance now)
    match next.call with
    | none => True
    | some call =>
      match call.phase with
      | .completed info =>
        next.world.store.tree.file? (objectPath info.bucket info.objectKey) = some call.file
      | _ => True
  | _ => True

instance (app : AppState LocalState) (identity : Identity) (page : Page) (action : Action) :
    Decidable (Honest app identity page action) := by
  unfold Honest
  split
  · dsimp only
    split
    · infer_instance
    · split <;> infer_instance
  · infer_instance

private theorem Call.blob_eq_slice (call : Call) (partNumber : Nat) :
    call.blob partNumber = slice call.entry.partSize call.file (partNumber - 1) := by
  have length : (call.file.drop ((partNumber - 1) * call.entry.partSize)).length =
      call.file.length - (partNumber - 1) * call.entry.partSize := List.length_drop
  have size : min ((partNumber - 1) * call.entry.partSize + call.entry.partSize) call.file.length -
      (partNumber - 1) * call.entry.partSize = min call.entry.partSize
        (call.file.drop ((partNumber - 1) * call.entry.partSize)).length := by omega
  unfold Call.blob
  dsimp only
  rw [size, ← List.take_eq_take_min]
  rfl

/-- The parts of its list that the call has sent, as far as the service has answered. -/
def Call.taken (call : Call) : List Nat :=
  match call.phase with
  | .sending => call.missing.take call.index
  | .sent => call.missing.take (call.index + 1)
  | _ => []

/-- What is stored of the parts the call has sent are its own bytes. -/
def Call.Took (call : Call) (store : LocalState) (uploadId : Uuid) : Prop :=
  ∀ number ∈ call.taken, ∀ content,
    (partFiles store (.session uploadId)).lookup number = some content → content = call.blob number

/-- A copy of the entry with a session has a part size that the service took. -/
def QueueFile.Sized (entry : QueueFile) : Prop := entry.uploadId ≠ none → 0 < entry.partSize

variable {settings : Settings} {nfc : String → String} {sha256 : Bytes → String}
  {identity : Identity}

/-- What holds of the page between two actions. -/
structure Sound (settings : Settings) (nfc : String → String) (sha256 : Bytes → String)
    (origin : World Database LocalState) (page : Page) : Prop where
  reached : ∃ requests,
    page.world = PyUploadX.after (localApp settings nfc sha256) origin requests
  saved : page.saved.Sized
  item : page.item.Sized
  entry : ∀ call, page.call = some call → call.entry.Sized
  taken : ∀ call uploadId, page.call = some call → call.entry.uploadId = some uploadId →
    call.Took page.world.store uploadId

section Served

variable {world : World Database LocalState} {now : Timestamp} {reply : Reply} {uploadId : Uuid}
  {call : Call}

private theorem served_createSession {request : CreateSession} {app : AppState LocalState}
    (answer : (serve app world (.createSession identity request, now)).1 = .ok reply) :
    ∃ upload layout, reply = .upload upload ∧
      partLayout app.settings.uploads.multipart request.totalSize.toNat
        (request.partSize.getD (world.db.overrides.defaultPartSizeBytes.getD
          app.settings.uploads.multipart.defaultPartSizeBytes)) = .ok layout := by
  obtain ⟨upload, done, same⟩ := Program.bind_pure_eq_ok.mp (World.execute_committed answer)
  obtain ⟨_, layout, _, _, _, _, _, _, laidOut, _⟩ := createSession_ok done
  exact ⟨upload, layout, same, laidOut⟩

private theorem served_resume {app : AppState LocalState}
    (answer : (serve app world (.resume identity uploadId, now)).1 = .ok reply) :
    ∃ upload missing, reply = .missing upload missing := by
  obtain ⟨⟨upload, missing⟩, _, same⟩ :=
    Program.bind_pure_eq_ok.mp (World.execute_committed answer)
  exact ⟨upload, missing, same⟩

private theorem served_complete {app : AppState LocalState}
    (answer : (serve app world (.complete identity uploadId, now)).1 = .ok reply) :
    ∃ file, reply = .file file ∧ (complete app identity uploadId now).run world.db world.store =
      (.ok (file, (serve app world (.complete identity uploadId, now)).2.db),
        (serve app world (.complete identity uploadId, now)).2.store) := by
  obtain ⟨file, done, same⟩ := Program.bind_pure_eq_ok.mp (World.execute_committed answer)
  exact ⟨file, same, done⟩

theorem partLayout_positive {multipart : MultipartConfig} {totalSize partSize : Nat}
    {layout : Nat × Nat} (laidOut : partLayout multipart totalSize partSize = .ok layout) :
    0 < partSize := by
  unfold partLayout at laidOut
  split at laidOut
  · cases laidOut
  · split at laidOut
    · cases laidOut
    · rename_i nonzero
      omega

/-- A part that is taken joins those that the call has sent. -/
theorem served_part {partNumber : Nat} (sound : Integrity (localApp settings nfc sha256) world.db)
    (took : ∀ number ∈ call.missing.take call.index, ∀ content,
      (partFiles world.store (.session uploadId)).lookup number = some content →
        content = call.blob number)
    (next : call.missing[call.index]? = some partNumber) (checksumSha256 : Option String)
    (answer : (serve (localApp settings nfc sha256) world (.proxyUploadPart identity uploadId
      partNumber (call.blob partNumber) checksumSha256, now)).1 = .ok reply) :
    (∃ part, reply = .part part) ∧
      ∀ number ∈ call.missing.take (call.index + 1), ∀ content,
        (partFiles (serve (localApp settings nfc sha256) world (.proxyUploadPart identity uploadId
          partNumber (call.blob partNumber) checksumSha256, now)).2.store
            (.session uploadId)).lookup number = some content → content = call.blob number := by
  have outcome := serve_proxiedPart settings nfc sha256 world identity uploadId partNumber
    (call.blob partNumber) checksumSha256 now
  generalize serve (localApp settings nfc sha256) world (.proxyUploadPart identity uploadId
    partNumber (call.blob partNumber) checksumSha256, now) = served at outcome answer ⊢
  cases outcome with
  | refused failure => cases answer
  | brokenOff failure upload number found => cases answer
  | stored upload part found owner numbered sized unfaulted =>
    obtain ⟨member, named, _⟩ := Database.findUpload_some found
    have own := storageKey_local (sound.laidOut upload.core (mem_cores member))
    rw [named] at own
    have same : part.partNumber = partNumber := (Int.ofNat.inj numbered).symm
    refine ⟨⟨part, (Except.ok.inj answer).symm⟩, ?_⟩
    rw [List.take_add_one, next, own, same]
    intro number member content stored
    rw [partFiles_setPartFiles, if_pos rfl] at stored
    by_cases latest : number = partNumber
    · rw [latest, AList.lookup_insert] at stored
      rw [latest]
      exact (Option.some.inj stored).symm
    · rw [AList.lookup_insert_ne latest] at stored
      have before : partFiles (takeFault world.store).2 (.session uploadId) =
          partFiles world.store (.session uploadId) := by
        unfold partFiles
        rw [takeFault_staging]
      rcases List.mem_append.mp member with earlier | last
      · exact took number earlier content stored
      · exact absurd (List.mem_singleton.mp last) latest

/-- With its own parts all there, a call is completed as its Blob. -/
theorem OwnParts.completed {info : FileObject} (own : OwnParts identity world uploadId call)
    (sound : Integrity (localApp settings nfc sha256) world.db)
    (staged : @Staged _ (localApp settings nfc sha256) (localBackend sha256) world)
    (sized : 0 < call.entry.partSize)
    (took : ∀ number ∈ call.missing, ∀ content,
      (partFiles world.store (.session uploadId)).lookup number = some content →
        content = call.blob number)
    (answer : (serve (localApp settings nfc sha256) world
      (.complete identity uploadId, now)).1 = .ok (.file info)) :
    (serve (localApp settings nfc sha256) world
      (.complete identity uploadId, now)).2.store.tree.file?
        (objectPath info.bucket info.objectKey) = some call.file := by
  obtain ⟨_, same, done⟩ := served_complete answer
  cases same
  obtain ⟨upload, found, outcome⟩ := PyUploadX.complete_ok done
  unfold OwnParts at own
  rw [found] at own
  dsimp only at own
  rcases outcome with ⟨finished, fileId, row, _, kept⟩ |
    ⟨parts, stored, open_, prepared, assembled, written, _⟩
  · rw [if_pos finished, fileId, Option.bind_some, row] at own
    rw [kept]
    exact own
  · have unfinished : upload.status ≠ .completed := by
      rcases open_ with status | status <;> rw [status] <;> exact UploadStatus.noConfusion
    rw [if_neg unfinished] at own
    obtain ⟨member, named, _⟩ := Database.findUpload_some found
    have laidOut := sound.laidOut upload.core (mem_cores member)
    have key := storageKey_local laidOut
    rw [named] at key
    obtain ⟨enough, listed, _⟩ := partsToComplete_ok prepared
    obtain ⟨content, present⟩ := LocalStorageAdapter.complete_ok assembled
    have layout : upload.totalParts = totalParts upload.totalSize upload.partSize := laidOut.parts
    have rows : committedOf (world.db.partsOf upload.id) ≠ [] := by
      intro empty
      have one := one_le_totalParts upload.totalSize upload.partSize
      rw [empty, layout, List.length_nil] at enough
      omega
    obtain ⟨listing, filled⟩ := handed_listed laidOut listed rows present
    have names := (listParts_ok listing).2
    rw [key] at names content
    rw [named] at enough
    have some_ : (partFiles world.store (.session uploadId)).keys ≠ [] := by
      obtain ⟨part, inside⟩ := List.exists_mem_of_ne_nil _ filled
      have there := (names part.partNumber).mp (List.mem_map_of_mem inside)
      exact List.ne_nil_of_mem (AList.mem_keys.mp there)
    have blobs : ∀ number, 1 ≤ number →
        number ≤ max upload.totalParts (totalParts call.file.length call.entry.partSize) →
        (partFiles world.store (.session uploadId)).lookup number = some (call.blob number) := by
      intro number first last
      have each := own enough some_ number (List.mem_range'_1.mpr (by omega))
      split at each
      · exact each.elim
      · rename_i bytes there
        by_cases sent : number ∈ call.missing
        · rw [there, took number sent bytes there]
        · rw [there, each sent]
    have inRange : ∀ number, number ∈ partFiles world.store (.session uploadId) →
        1 ≤ number ∧ number ≤ upload.totalParts := by
      intro number there
      rw [← key] at there
      exact staged.inRange upload.core (mem_cores member) "" upload.objectKey number there
    have fits : totalParts call.file.length call.entry.partSize ≤ upload.totalParts := by
      have last := blobs _ (one_le_totalParts call.file.length call.entry.partSize)
        (Nat.le_max_right _ _)
      exact (inRange _ (AList.lookup_isSome.mp (Option.isSome_of_eq_some last))).2
    have numbers : (parts.map (·.partNumber)).Perm (List.range' 1 upload.totalParts) := by
      refine @Staged.listed_perm _ (localApp settings nfc sha256) (localBackend sha256) world staged
        upload member upload.bucket upload.objectKey parts listing fun number inside => ?_
      rw [List.mem_range'_1] at inside
      have last : number ≤ upload.totalParts := by omega
      have there := blobs number inside.1 (last.trans (Nat.le_max_left _ _))
      rw [← key] at there
      exact AList.lookup_isSome.mp (Option.isSome_of_eq_some there)
    have covers : call.file.length ≤ upload.totalParts * call.entry.partSize :=
      (totalParts_covers call.file.length sized).trans (Nat.mul_le_mul_right _ fits)
    have whole := contents_whole covers numbers fun number inside => by
      rw [List.mem_range'_1] at inside
      have last : number ≤ upload.totalParts := by omega
      rw [← call.blob_eq_slice]
      exact blobs number inside.1 (last.trans (Nat.le_max_left _ _))
    rw [whole] at content
    rw [written]
    exact content

end Served

section Steps

variable {origin : World Database LocalState} {page : Page} {call : Call} {now : Timestamp}

/-- A request of anybody else leaves the sent parts, or removes them all. -/
theorem Call.Took.other {world : World Database LocalState} {timed : Timed} {uploadId : Uuid}
    (took : call.Took world.store uploadId)
    (sound : Integrity (localApp settings nfc sha256) world.db)
    (other : timed.1.partOwner? ≠ some uploadId) :
    call.Took (serve (localApp settings nfc sha256) world timed).2.store uploadId := by
  intro number member content stored
  rcases (serve_storeEffect world timed).partFiles_other other sound.laidOut with same | dropped
  · rw [same] at stored
    exact took number member content stored
  · rw [dropped] at stored
    cases stored

/-- A `persist` changes nothing that counts. -/
theorem Call.persisted_cases {next : Call} (goesOn : call.persisted = some next) :
    next.entry = call.entry ∧ (∀ info, next.phase ≠ .completed info) ∧
      ∀ store uploadId, call.Took store uploadId → next.Took store uploadId := by
  unfold Call.persisted at goesOn
  split at goesOn <;> cases goesOn
  · exact ⟨rfl, fun _ => Phase.noConfusion, fun _ _ _ => List.forall_mem_nil _⟩
  · exact ⟨rfl, fun _ => Phase.noConfusion, fun _ _ _ => List.forall_mem_nil _⟩
  · rename_i sent
    refine ⟨rfl, fun _ => Phase.noConfusion, fun store uploadId took => ?_⟩
    intro number member
    apply took number
    unfold Call.taken
    rw [sent]
    exact member

variable (initial : origin.db.Initial)
  (unstaged : ∀ id number, number ∉ partFiles origin.store (.session id))

section Reached

variable {world : World Database LocalState}
  (reached : ∃ requests, world = PyUploadX.after (localApp settings nfc sha256) origin requests)

include reached in
private theorem reached_serve (timed : Timed) : ∃ requests,
    (serve (localApp settings nfc sha256) world timed).2 =
      PyUploadX.after (localApp settings nfc sha256) origin requests := by
  obtain ⟨requests, rfl⟩ := reached
  refine ⟨requests ++ [timed], ?_⟩
  rw [after_append]
  rfl

include initial reached in
private theorem reached_integrity : Integrity (localApp settings nfc sha256) world.db := by
  obtain ⟨requests, rfl⟩ := reached
  exact after_integrity _ initial requests

include initial unstaged reached in
private theorem reached_staged :
    @Staged _ (localApp settings nfc sha256) (localBackend sha256) world := by
  obtain ⟨requests, rfl⟩ := reached
  exact @after_staged _ (localApp settings nfc sha256) (localBackend sha256) _ initial
    (fun _ _ id number => unstaged id number) requests

end Reached

private theorem reached_arrive (arrived : Option Timestamp)
    (reached : ∃ requests,
      page.world = PyUploadX.after (localApp settings nfc sha256) origin requests) :
    ∃ requests, page.arrive (localApp settings nfc sha256) identity call arrived =
      PyUploadX.after (localApp settings nfc sha256) origin requests := by
  unfold Page.arrive
  split
  · exact reached_serve reached _
  · exact reached

/-- With no call running, the copies of the entry are all there is to say. -/
theorem Sound.idle (reached : ∃ requests,
      page.world = PyUploadX.after (localApp settings nfc sha256) origin requests)
    (saved : page.saved.Sized) (item : page.item.Sized) (idle : page.call = none) :
    Sound settings nfc sha256 origin page where
  reached
  saved
  item
  entry := by
    intro call running
    rw [idle] at running
    cases running
  taken := by
    intro call uploadId running
    rw [idle] at running
    cases running

/-- Other copies of the entry, and the call goes on. -/
theorem Sound.copies {page' : Page} (sound : Sound settings nfc sha256 origin page)
    (world : page'.world = page.world) (call : page'.call = page.call) (saved : page'.saved.Sized)
    (item : page'.item.Sized) : Sound settings nfc sha256 origin page' where
  reached := by rw [world]; exact sound.reached
  saved
  item
  entry := by rw [call]; exact sound.entry
  taken := by rw [world, call]; exact sound.taken

theorem Call.answered_cases {request : Request} {next : Call} {world : World Database LocalState}
    (asks : call.request? identity sha256 = some request) (entry : call.entry.Sized)
    (sound : Integrity (localApp settings nfc sha256) world.db)
    (took : ∀ uploadId, call.entry.uploadId = some uploadId → call.Took world.store uploadId)
    (goesOn : call.answered (serve (localApp settings nfc sha256) world (request, now)).1 =
      some next) :
    next.entry.Sized ∧ ∀ uploadId, next.entry.uploadId = some uploadId →
      next.Took (serve (localApp settings nfc sha256) world (request, now)).2.store uploadId := by
  cases answer : (serve (localApp settings nfc sha256) world (request, now)).1 with
  | error failure => rw [answer] at goesOn; cases goesOn
  | ok reply =>
    rw [answer] at goesOn
    unfold Call.request? at asks
    split at asks
    · cases asks
      obtain ⟨upload, layout, rfl, laidOut⟩ := served_createSession answer
      cases goesOn
      exact ⟨fun _ => partLayout_positive laidOut, fun _ _ => List.forall_mem_nil _⟩
    · cases asks
      obtain ⟨upload, missing, rfl⟩ := served_resume answer
      cases goesOn
      exact ⟨entry, fun _ _ => List.forall_mem_nil _⟩
    · rename_i uploadId sending named
      have sent := took uploadId named
      unfold Call.Took Call.taken at sent
      rw [sending] at sent
      split at asks
      · rename_i partNumber next
        cases asks
        obtain ⟨⟨part, rfl⟩, joined⟩ := served_part sound sent next _ answer
        cases goesOn
        refine ⟨entry, fun other same => ?_⟩
        rw [named] at same
        cases same
        exact joined
      · cases asks
        obtain ⟨file, rfl, _⟩ := served_complete answer
        cases goesOn
        exact ⟨entry, fun _ _ => List.forall_mem_nil _⟩
    · cases asks

/-- Only the answer to `completeUpload`, after the last part, completes a call. -/
theorem Call.completes {request : Request} {next : Call} {info : FileObject}
    {world : World Database LocalState} {app : AppState LocalState}
    (asks : call.request? identity sha256 = some request)
    (goesOn : call.answered (serve app world (request, now)).1 = some next)
    (completed : next.phase = .completed info) :
    ∃ uploadId, call.entry.uploadId = some uploadId ∧ call.phase = .sending ∧
      call.missing.length ≤ call.index ∧ request = .complete identity uploadId ∧
      (serve app world (request, now)).1 = .ok (.file info) ∧ next.file = call.file := by
  unfold Call.answered at goesOn
  split at goesOn
  · cases goesOn; cases completed
  · cases goesOn; cases completed
  · cases goesOn; cases completed
  · rename_i file answer
    cases goesOn
    cases completed
    unfold Call.request? at asks
    split at asks
    · cases asks
      obtain ⟨_, _, impossible, _⟩ := served_createSession answer
      cases impossible
    · cases asks
      obtain ⟨_, _, impossible⟩ := served_resume answer
      cases impossible
    · rename_i uploadId sending named
      split at asks
      · cases asks
        obtain ⟨_, _, impossible⟩ := Program.bind_pure_eq_ok.mp (World.execute_committed answer)
        cases impossible
      · rename_i last
        cases asks
        exact ⟨uploadId, named, sending, List.getElem?_eq_none_iff.mp last, rfl, answer, rfl⟩
    · cases asks
  · cases goesOn

private theorem Page.advance_completes {next : Call} {info : FileObject} {app : AppState LocalState}
    (goesOn : (page.advance app identity call now).call = some next)
    (completed : next.phase = .completed info) :
    ∃ uploadId, call.entry.uploadId = some uploadId ∧ call.phase = .sending ∧
      call.missing.length ≤ call.index ∧ next.file = call.file ∧
      (serve app page.world (.complete identity uploadId, now)).1 = .ok (.file info) ∧
      (page.advance app identity call now).world =
        (serve app page.world (.complete identity uploadId, now)).2 := by
  unfold Page.advance at goesOn ⊢
  split at goesOn
  · rename_i request asks
    dsimp only at goesOn
    split at goesOn
    · rename_i later goes
      cases goesOn
      obtain ⟨uploadId, named, sending, last, rfl, answer, file⟩ :=
        Call.completes asks goes completed
      refine ⟨uploadId, named, sending, last, file, answer, ?_⟩
      dsimp only
      rw [goes]
    · cases goesOn
  · exact absurd completed ((Call.persisted_cases goesOn).2.1 info)

include initial in
theorem Sound.advance (sound : Sound settings nfc sha256 origin page)
    (running : page.call = some call) :
    Sound settings nfc sha256 origin
      (page.advance (localApp settings nfc sha256) identity call now) := by
  have entry := sound.entry call running
  unfold Page.advance
  split
  · rename_i request asks
    have reached := reached_serve sound.reached (request, now)
    dsimp only
    split
    · rename_i next goesOn
      obtain ⟨sized, took⟩ := Call.answered_cases asks entry
        (reached_integrity initial sound.reached) (fun uploadId => sound.taken call uploadId running)
        goesOn
      refine ⟨reached, sound.saved, sound.item, ?_, ?_⟩
      · rintro _ ⟨⟩
        exact sized
      · rintro _ uploadId ⟨⟩ named
        exact took uploadId named
    · exact .idle reached entry sound.item rfl
  · refine ⟨sound.reached, entry, sound.item, ?_, ?_⟩
    · intro next goesOn
      rw [(Call.persisted_cases goesOn).1]
      exact entry
    · intro next uploadId goesOn named
      obtain ⟨same, _, took⟩ := Call.persisted_cases goesOn
      rw [same] at named
      exact took _ uploadId (sound.taken call uploadId running named)

include initial in
theorem Sound.step {action : Action} (sound : Sound settings nfc sha256 origin page)
    (own : KeepsOwnParts identity page action) :
    Sound settings nfc sha256 origin
      (page.step (localApp settings nfc sha256) identity action) := by
  cases action with
  | other timed =>
    refine ⟨reached_serve sound.reached timed, sound.saved, sound.item, sound.entry, ?_⟩
    intro call uploadId running named
    have apart : timed.1.partOwner? ≠ some uploadId := by
      have bound : page.call.bind (·.entry.uploadId) = some uploadId := by
        have same : page.call = some call := running
        rw [same, Option.bind_some, named]
      unfold KeepsOwnParts at own
      dsimp only at own
      rw [bound] at own
      exact own
    exact (sound.taken call uploadId running named).other
      (reached_integrity initial sound.reached) apart
  | refresh => exact sound.copies rfl rfl sound.saved sound.saved
  | share =>
    unfold Page.step
    dsimp only
    split
    · rename_i call running
      exact sound.copies rfl rfl sound.saved (sound.entry call running)
    · exact sound
  | runUpload file? =>
    unfold Page.step
    dsimp only
    split
    · exact sound
    · rename_i idle
      have none_ : page.call = none := by simpa using idle
      split
      · exact .idle sound.reached sound.item sound.item none_
      · refine ⟨sound.reached, sound.saved, sound.item, ?_, ?_⟩
        · rintro _ ⟨⟩
          exact sound.item
        · rintro _ uploadId ⟨⟩ named
          exact List.forall_mem_nil _
  | advance now =>
    unfold Page.step
    dsimp only
    split
    · rename_i call running
      exact sound.advance initial running
    · exact sound
  | interrupt arrived =>
    unfold Page.step
    dsimp only
    split
    · rename_i call running
      exact .idle (reached_arrive arrived sound.reached) (sound.entry call running) sound.item rfl
    · exact sound
  | reload arrived =>
    have row : (if page.saved.status = .uploading then { page.saved with status := .pending }
        else page.saved).Sized := by
      split <;> exact sound.saved
    unfold Page.step
    dsimp only
    refine .idle ?_ row row rfl
    split
    · exact reached_arrive arrived sound.reached
    · exact sound.reached
  | pause =>
    unfold Page.step
    dsimp only
    split
    · exact sound.copies rfl rfl sound.item sound.item
    · exact sound
  | reselect => exact sound.copies rfl rfl sound.item sound.item

include initial unstaged in
/-- A call that completes with its own parts there leaves its Blob. -/
theorem Sound.honest {action : Action} (sound : Sound settings nfc sha256 origin page)
    (own : KeepsOwnParts identity page action) :
    Honest (localApp settings nfc sha256) identity page action := by
  unfold Honest
  split
  rotate_left
  · trivial
  rename_i now
  dsimp only
  split
  · trivial
  rename_i next goesOn
  split
  rotate_left
  · trivial
  rename_i info completed
  cases running : page.call with
  | none =>
    simp only [Page.step, running] at goesOn
    cases goesOn
  | some call =>
    simp only [Page.step, running] at goesOn ⊢
    obtain ⟨uploadId, named, sending, last, file, answer, world⟩ :=
      Page.advance_completes goesOn completed
    have parts : OwnParts identity page.world uploadId call := by
      simp only [KeepsOwnParts, running, named] at own
      exact own sending last
    have took : ∀ number ∈ call.missing, ∀ content,
        (partFiles page.world.store (.session uploadId)).lookup number = some content →
          content = call.blob number := by
      have sent := sound.taken call uploadId running named
      unfold Call.Took Call.taken at sent
      rw [sending] at sent
      dsimp only at sent
      rwa [List.take_of_length_le last] at sent
    have sized : 0 < call.entry.partSize :=
      sound.entry call running (named ▸ Option.some_ne_none uploadId)
    rw [world, file]
    exact parts.completed (reached_integrity initial sound.reached)
      (reached_staged initial unstaged sound.reached) sized took answer

end Steps

/-- In every history of an entry whose calls keep only parts of their own Blobs, each call that
completes leaves its Blob on the server. -/
theorem completed_uploads_are_their_blobs (settings : Settings) (nfc : String → String)
    (sha256 : Bytes → String) (identity : Identity) (origin : World Database LocalState)
    (initial : origin.db.Initial)
    (unstaged : ∀ id number, number ∉ partFiles origin.store (.session id))
    (earlier : List Timed) (bucket objectKey : String) (lifecycle : Option LifecycleRequest)
    (partSize : Nat) (file : Bytes) (actions : List Action)
    (own : EachStep (Page.step (localApp settings nfc sha256) identity) (KeepsOwnParts identity)
      (opened (PyUploadX.after (localApp settings nfc sha256) origin earlier)
        (enqueued bucket objectKey lifecycle partSize file)) actions) :
    EachStep (Page.step (localApp settings nfc sha256) identity)
      (Honest (localApp settings nfc sha256) identity)
      (opened (PyUploadX.after (localApp settings nfc sha256) origin earlier)
        (enqueued bucket objectKey lifecycle partSize file)) actions := by
  have fresh : (enqueued bucket objectKey lifecycle partSize file).Sized :=
    fun named => absurd rfl named
  have start : Sound settings nfc sha256 origin
      (opened (PyUploadX.after (localApp settings nfc sha256) origin earlier)
        (enqueued bucket objectKey lifecycle partSize file)) :=
    .idle ⟨earlier, rfl⟩ fresh fresh rfl
  exact own.guarantees start (fun _ _ sound own => sound.step initial own)
    fun _ _ sound own => sound.honest initial unstaged own

/-- A call sends the first part and is lost with its page, and a Blob of the same length is chosen
for the next call. -/
def reselected (first second : Bytes) : List Action :=
  [.runUpload (some first), .advance 0, .advance 0, .advance 0, .advance 0, .advance 0,
    .reload none, .runUpload none, .reselect, .runUpload (some second), .advance 1, .advance 1,
    .advance 1, .advance 1, .advance 1, .advance 1]

theorem completed_uploads_are_their_blobs_small :
    EachStep (Page.step smallLocalApp smallTenant) (Honest smallLocalApp smallTenant)
      (opened ⟨{}, {}⟩ (enqueued "files" "a.bin" none 2 [1, 2, 3, 4]))
      (reselected [1, 2, 3, 4] [1, 2, 3, 4]) :=
  completed_uploads_are_their_blobs (smallSettings .local) id
    (fun content => toString content.length) smallTenant ⟨{}, {}⟩ (by decide)
    (fun _ number => AList.notMem_empty number) [] "files" "a.bin" none 2 [1, 2, 3, 4] _
    (by decide +kernel)

/-- The completed object begins with the one Blob and ends with the other. -/
theorem reselected_blobs_are_mixed :
    ¬ EachStep (Page.step smallLocalApp smallTenant) (Honest smallLocalApp smallTenant)
      (opened ⟨{}, {}⟩ (enqueued "files" "a.bin" none 2 [1, 2, 3, 4]))
      (reselected [1, 2, 3, 4] [5, 6, 7, 8]) := by
  decide +kernel

end PyUploadX.Portal
