import Mathlib.Data.List.Find
import PyUploadX.Storage.Factory
import PyUploadX.System.FileEffects
import PyUploadX.System.TenantReads

/-! Permanent links: the HMAC that signs them, and what they serve later. -/
namespace PyUploadX

open Kit

/-- `str(file_id)`: thirty-two hexadecimal digits in five groups. -/
def uuidText (id : Uuid) : String :=
  let digits := Nat.toDigits 16 id
  let digits := List.replicate (32 - digits.length) '0' ++ digits
  let groups := [digits.take 8, (digits.drop 8).take 4, (digits.drop 12).take 4,
    (digits.drop 16).take 4, digits.drop 20]
  String.ofList (['-'].intercalate groups)

/-- `hmacSha256` is `hmac.new(key, message, sha256).hexdigest()`. -/
def sign (hmacSha256 : Bytes → Bytes → String) (fileId : Uuid) (secret : String) : String :=
  hmacSha256 secret.toUTF8.toList (uuidText fileId).toUTF8.toList

def isAscii (text : String) : Bool := text.toList.all fun char => char.toNat < 128

/-- `hmac.compare_digest` raises a `TypeError`, here `none`, for a text outside ASCII. -/
def compareDigest (expected token : String) : Option Bool :=
  if isAscii expected = true ∧ isAscii token = true then some (expected = token) else none

def verify (hmacSha256 : Bytes → Bytes → String) (fileId : Uuid) (secret token : String) :
    Option Bool :=
  if token = "" ∨ secret = "" then some false
  else compareDigest (sign hmacSha256 fileId secret) token

namespace FileService

def PermanentLink.token (hmacSha256 : Bytes → Bytes → String) (link : PermanentLink) : String :=
  sign hmacSha256 link.fileId link.secret

variable {σ : Type} (app : AppState σ)

/-- Unlike `create_permanent_link`, it does not ask whether links are enabled. -/
def verifyLinkToken (hmacSha256 : Bytes → Bytes → String) (fileId : Uuid) (token : String) :
    Option Bool :=
  match firstText app.settings.permanentLink.secret none with
  | none => some false
  | some secret => verify hmacSha256 fileId secret token

end FileService

/-- What a download answers: the file and its bytes, or a failure. -/
abbrev Downloaded := Except Failure (FileObject × Option ByteRange × Bytes)

inductive LinkAnswer
  /-- `INVALID_DOWNLOAD_LINK`. -/
  | invalidLink
  | typeError
  | answered (downloaded : Downloaded)

/-- The endpoint asks for no key. -/
def downloadLink {σ : Type} (app : AppState σ) (hmacSha256 : Bytes → Bytes → String)
    (world : World Database σ) (fileId : Uuid) (token : String) (rangeHeader : Option String) :
    LinkAnswer :=
  match FileService.verifyLinkToken app hmacSha256 fileId token with
  | none => .typeError
  | some false => .invalidLink
  | some true => .answered (world.execute (FileService.downloadForLink app fileId rangeHeader)).1

variable {σ : Type} {app : AppState σ}

/-! The file a link names stays with its tenant. -/

def OwnsFile (tenantId : String) (fileId : Uuid) (db : Database) : Prop :=
  ∃ file ∈ db.fileObjects, file.id = fileId ∧ file.tenantId = tenantId

private theorem owns_iff {tenantId : String} {fileId : Uuid} {db : Database} :
    OwnsFile tenantId fileId db ↔
      ∃ identity ∈ db.identities, identity.id = fileId ∧ identity.tenantId = tenantId := by
  constructor
  · rintro ⟨file, member, named⟩
    exact ⟨file.identity, mem_identities member, named⟩
  · rintro ⟨identity, member, named⟩
    obtain ⟨file, present, rfl⟩ := List.mem_map.mp member
    exact ⟨file, present, named⟩

theorem Change.ownsFile {asked : Request} {db db' : Database} (change : Change app asked db db')
    {tenantId : String} {fileId : Uuid} (owns : OwnsFile tenantId fileId db) :
    OwnsFile tenantId fileId db' := by
  rw [owns_iff] at owns ⊢
  obtain ⟨identity, member, named⟩ := owns
  refine ⟨identity, ?_, named⟩
  rcases change.identities with same | ⟨file, _, added, _⟩
  · rw [same]
    exact member
  · rw [added]
    exact List.mem_append_left _ member

theorem OwnsFile.after {tenantId : String} {fileId : Uuid} {world : World Database σ}
    (owns : OwnsFile tenantId fileId world.db) (requests : List Timed) :
    OwnsFile tenantId fileId (after app world requests).db :=
  after_preserves (fun world => OwnsFile tenantId fileId world.db)
    (fun world timed owns => (serve_change app world timed).ownsFile owns) requests owns

/-- Ids are unique across tenants, so leaving the tenant out finds the same row. -/
theorem OwnsFile.find_any {tenantId : String} {fileId : Uuid} {db : Database}
    (owns : OwnsFile tenantId fileId db) (ids : Identified db) :
    (db.fileObjects.find? fun file => file.id = fileId) = db.findFile fileId tenantId := by
  obtain ⟨file, member, rfl, rfl⟩ := owns
  refine List.find?_congr fun row present => ?_
  by_cases same : row.id = file.id
  · rw [ids.file_unique present member same]
    simp
  · simp [same]

private theorem downloadForLink_run {identity : Identity} {fileId : Uuid} {db : Database} (store : σ)
    (found : (db.fileObjects.find? fun file => file.id = fileId) =
      db.findFile fileId identity.tenantId) (rangeHeader : Option String) :
    (FileService.downloadForLink app fileId rangeHeader).run db store =
      (FileService.download app identity fileId rangeHeader).run db store := by
  unfold FileService.downloadForLink FileService.download FileService.get
    FileRepository.getFileOfAnyTenant FileRepository.getFile
  rw [Program.bind_assoc, Program.run_bind, Program.run_bind]
  simp only [Program.run, found]
  cases FileRepository.loadFile (db.findFile fileId identity.tenantId) with
  | error failure => rfl
  | ok loaded =>
    cases loaded with
    | none => rfl
    | some file =>
      dsimp only
      rw [Program.bind_assoc]
      rfl

/-- With a link's file still its owner's, the link serves what the owner downloads. -/
theorem downloadForLink_owner {identity : Identity} {fileId : Uuid} {world : World Database σ}
    (owns : OwnsFile identity.tenantId fileId world.db) (ids : Identified world.db)
    (rangeHeader : Option String) :
    (world.execute (FileService.downloadForLink app fileId rangeHeader)).1 =
      (world.execute (FileService.download app identity fileId rangeHeader)).1 := by
  have same := @downloadForLink_run σ app identity fileId world.db world.store
    (owns.find_any ids) rangeHeader
  unfold World.execute
  rw [same]

/-! What a signed token opens. -/

private theorem get_owns {identity : Identity} {fileId : Uuid} {file : FileObject} {db db' : Database}
    {store store' : σ} (done : (FileService.get identity fileId : Handler σ FileObject).run db store =
      (.ok (file, db'), store')) : OwnsFile identity.tenantId fileId db := by
  unfold FileService.get FileRepository.getFile at done
  obtain ⟨loaded, read, rest⟩ := Program.select_bind_ok.mp done
  obtain ⟨found, _⟩ := FileRepository.loadFile_ok read
  cases loaded with
  | none => exact (Program.fail_eq_ok.mp rest).elim
  | some file => exact ⟨file, Database.findFile_some found⟩

/-- The link is signed with the configured secret, and only for an own file. -/
theorem createPermanentLink_ok {identity : Identity} {fileId : Uuid} {baseUrl : String}
    {link : FileService.PermanentLink} {db db' : Database} {store store' : σ}
    (made : (FileService.createPermanentLink app identity fileId baseUrl).run db store =
      (.ok (link, db'), store')) :
    link.fileId = fileId ∧ firstText app.settings.permanentLink.secret none = some link.secret ∧
      OwnsFile identity.tenantId fileId db := by
  unfold FileService.createPermanentLink at made
  obtain ⟨_, made⟩ := Program.refuseIf_bind_ok.mp made
  split at made
  · exact (Program.fail_eq_ok.mp made).elim
  · rename_i secret configured
    obtain ⟨file, db₁, store₁, found, made⟩ := Program.bind_eq_ok.mp made
    obtain ⟨rfl, _⟩ := Prod.mk.inj (Program.pure_eq_ok.mp made).1
    exact ⟨rfl, configured, get_owns found⟩

private theorem firstText_nonempty {text : Option String} {secret : String}
    (found : firstText text none = some secret) : secret ≠ "" := by
  cases text with
  | none => cases found
  | some text =>
    by_cases empty : text = ""
    · rw [firstText, if_pos empty] at found
      cases found
    · rw [firstText, if_neg empty] at found
      exact Option.some.inj found ▸ empty

variable {hmacSha256 : Bytes → Bytes → String}

theorem verifyLinkToken_eq {link : FileService.PermanentLink}
    (configured : firstText app.settings.permanentLink.secret none = some link.secret)
    (digits : isAscii (link.token hmacSha256) = true) (signed : link.token hmacSha256 ≠ "")
    (token : String) :
    FileService.verifyLinkToken app hmacSha256 link.fileId token =
      if isAscii token = true then some (decide (link.token hmacSha256 = token)) else none := by
  have secret := firstText_nonempty configured
  unfold FileService.verifyLinkToken verify compareDigest
  rw [configured]
  dsimp only
  by_cases empty : token = ""
  · rw [if_pos (.inl empty), empty, if_pos (by decide), decide_eq_false signed]
  · rw [if_neg (not_or.mpr ⟨empty, secret⟩)]
    unfold FileService.PermanentLink.token at digits ⊢
    simp only [digits, true_and]

/-! A deleted file stays deleted. -/

/-- What the changes of a row keep and a new row begins with, every row has. -/
theorem Change.forall_files {asked : Request} {db db' : Database}
    (change : Change app asked db db') {holds : FileObject → Prop}
    (changed : ∀ {change}, FileChange app change → ∀ row, holds row → holds (change row))
    (turned : ∀ {file now store change store'},
      LifecycleWorker.Turn app file now store change store' → ∀ row, holds row → holds (change row))
    (added : ∀ file : FileObject, file.id = db.nextId → holds file)
    (sound : ∀ file ∈ db.fileObjects, holds file) : ∀ file ∈ db'.fileObjects, holds file := by
  cases change with
  | buckets files sessions parts ids => rwa [files]
  | directories asks changes => rwa [changes.besides.fileObjects]
  | @part upload part now starts found unfinished starting owner first last committed asks tenant =>
    have kept : (if starts then db.updateUpload upload.id (·.setStatus .uploading)
        else db).fileObjects = db.fileObjects := by
      split <;> rfl
    intro file member
    apply sound
    rw [← kept]
    exact (Database.upsertPart_fileObjects _ _) ▸ member
  | expired unfinished nobody => rwa [expired_fileObjects]
  | completed asks found owner unfinished vacant =>
    exact List.forall_mem_append.mpr ⟨sound, List.forall_mem_singleton.mpr (added _ rfl)⟩
  | uploaded asks policy vacant =>
    exact List.forall_mem_append.mpr ⟨sound, List.forall_mem_singleton.mpr (added _ rfl)⟩
  | file kind same files owned =>
    rw [files]
    exact LifecycleWorker.forall_update sound fun row member _ => changed kind row (sound row member)
  | batch same loads turns nobody =>
    exact LifecycleWorker.turns_forall turns (fun file _ _ _ _ turn => turned turn) sound
  | _ => exact sound

/-- Every row of the id is deleted. -/
def Gone (fileId : Uuid) (db : Database) : Prop :=
  ∀ file ∈ db.fileObjects, file.id = fileId → file.status = .deleted

section Deleted

variable {fileId : Uuid}

/-- Only a new row could bring the file back, and its id is new as well. -/
theorem Change.gone {asked : Request} {db db' : Database} (change : Change app asked db db')
    (old : fileId < db.nextId) (gone : Gone fileId db) : Gone fileId db' := by
  refine change.forall_files (fun kind row stays => ?_) (fun turn row stays => ?_) ?_ gone
  · cases kind with
    | deleted now => exact fun _ => rfl
    | updated adjudicated => exact stays
    | extended adjudicated => exact stays
    | permanent => exact stays
    | held hold => exact stays
  · cases turn with
    | blocked held => exact stays
    | deleted free action removed => exact fun _ => rfl
    | refused free action kept => exact stays
    | notified free action => exact stays
    | settled free undeleted silent => exact stays
  · intro file fresh named
    exact absurd (named.symm.trans fresh) old.ne

theorem Gone.after {world : World Database σ} (old : fileId < world.db.nextId)
    (gone : Gone fileId world.db) (requests : List Timed) :
    Gone fileId (after app world requests).db := by
  have both := @after_preserves σ app
    (fun world => fileId < world.db.nextId ∧ Gone fileId world.db)
    (fun world timed ⟨old, gone⟩ => by
      have change := serve_change app world timed
      exact ⟨old.trans_le change.nextId_le, change.gone old gone⟩) world requests ⟨old, gone⟩
  exact both.2

/-- A row that is gone is not served, and a row that does not load is not read. -/
theorem downloadForLink_gone {world : World Database σ} (gone : Gone fileId world.db)
    (rangeHeader : Option String) :
    (world.execute (FileService.downloadForLink app fileId rangeHeader)).1 =
        .error (.api (.fileNotFound fileId)) ∨
      (world.execute (FileService.downloadForLink app fileId rangeHeader)).1 = .error .lookup := by
  unfold World.execute FileService.downloadForLink FileRepository.getFileOfAnyTenant
  rw [Program.run_bind]
  simp only [Program.run]
  cases found : world.db.fileObjects.find? fun file => file.id = fileId with
  | none => exact .inl rfl
  | some file =>
    have named := List.find?_some found
    have deleted := gone file (List.mem_of_find?_eq_some found) (of_decide_eq_true named)
    unfold FileRepository.loadFile
    by_cases loads : file.loadable = true
    · left
      simp only [if_pos loads]
      rw [Program.run_bind, Program.run_refuseIf, if_pos deleted]
    · right
      simp only [if_neg loads]

end Deleted

/-- What is documented of `hexdigest`: sixty-four hexadecimal digits. -/
def Hexdigest (hmacSha256 : Bytes → Bytes → String) : Prop :=
  ∀ key message, isAscii (hmacSha256 key message) = true ∧ (hmacSha256 key message).length = 64

/-- In every later state a link serves whoever has it what its owner downloads then, and
without its token it serves nothing. -/
theorem permanent_link_serves_file (hexdigest : Hexdigest hmacSha256) {world : World Database σ}
    (initial : world.db.Initial) (before : List Timed) {identity : Identity} {fileId : Uuid}
    {baseUrl : String} {now : Timestamp} {link : FileService.PermanentLink}
    (made : (serve app (after app world before)
      (.read identity (.createPermanentLink fileId baseUrl), now)).1 =
        .ok (.read (.permanentLink link)))
    (later : List Timed) (token : String) (rangeHeader : Option String) :
    let reached := after app world
      (before ++ (.read identity (.createPermanentLink fileId baseUrl), now) :: later)
    downloadLink app hmacSha256 reached fileId token rangeHeader =
      if isAscii token = true then
        if link.token hmacSha256 = token then
          .answered (reached.execute (FileService.download app identity fileId rangeHeader)).1
        else .invalidLink
      else .typeError := by
  intro reached
  have asked : ((after app world before).execute
      (FileService.createPermanentLink app identity fileId baseUrl)).1 = .ok link := by
    rw [serve_read] at made
    obtain ⟨reply, made, wrapped⟩ := except_map_eq_ok.mp made
    have done := World.execute_committed made
    obtain ⟨other, done, same⟩ := Program.bind_pure_eq_ok.mp done
    cases wrapped
    cases same
    have executed : (after app world before).execute
        (FileService.createPermanentLink app identity fileId baseUrl) = (.ok link, ⟨_, _⟩) :=
      World.execute_eq_ok.mpr done
    rw [executed]
  obtain ⟨rfl, configured, owns⟩ := createPermanentLink_ok (World.execute_committed asked)
  obtain ⟨digits, size⟩ := hexdigest link.secret.toUTF8.toList (uuidText link.fileId).toUTF8.toList
  have signed : link.token hmacSha256 ≠ "" := by
    intro empty
    rw [FileService.PermanentLink.token, sign] at empty
    rw [empty] at size
    cases size
  have stays : OwnsFile identity.tenantId link.fileId reached.db := by
    rw [show reached = _ from after_append _ _ _]
    exact owns.after _
  rw [downloadLink, verifyLinkToken_eq configured digits signed]
  by_cases ascii : isAscii token = true
  · rw [if_pos ascii, if_pos ascii]
    by_cases own : link.token hmacSha256 = token
    · rw [if_pos own, decide_eq_true own]
      exact congrArg LinkAnswer.answered
        (downloadForLink_owner stays (after_integrity app initial _).ids rangeHeader)
    · rw [if_neg own, decide_eq_false own]
  · rw [if_neg ascii, if_neg ascii]

/-- A server that signs links with the secret `s3cret`. -/
def linkedApp : AppState LocalState :=
  { smallLocalApp with
    settings := { smallLocalApp.settings with permanentLink := { secret := some "s3cret" } } }

/-- The digest under `s3cret` of the id of the first file. -/
def linkedToken : String := "add34a7fdb1c715f6e656d3b79d8f3a6df601bec078cc74131373805e6b8fe8f"

private theorem linkedToken_hexdigest : Hexdigest fun _ _ => linkedToken := by
  have digits : isAscii linkedToken = true ∧ linkedToken.length = 64 := by decide
  exact fun _ _ => digits

def linkedRun : List Timed :=
  [(.proxyUpload smallTenant smallUpload, 0)] ++
    [(.read smallTenant (.createPermanentLink 0 "http://host/"), 1)]

def unlinkedRun : List Timed :=
  [(.proxyUpload smallTenant smallUpload, 0), (.delete smallTenant 0, 1)] ++
    [(.proxyUpload smallTenant smallUpload, 2)]

theorem permanent_link_serves_file_small :
    downloadLink linkedApp (fun _ _ => linkedToken) (after linkedApp ⟨{}, {}⟩ linkedRun) 0
        linkedToken (some "bytes=1-2") =
      .answered ((after linkedApp ⟨{}, {}⟩ linkedRun).execute
        (FileService.download linkedApp smallTenant 0 (some "bytes=1-2"))).1 := by
  have made : (serve linkedApp
      (after linkedApp ⟨{}, {}⟩ [(.proxyUpload smallTenant smallUpload, 0)])
        (.read smallTenant (.createPermanentLink 0 "http://host/"), 1)).1 =
      .ok (.read (.permanentLink ⟨"http://host/", 0, "s3cret"⟩)) := by
    decide +kernel
  have serves := permanent_link_serves_file linkedToken_hexdigest (by decide) _ made []
    linkedToken (some "bytes=1-2")
  exact serves.trans ((if_pos (by decide)).trans (if_pos rfl))

/-- Once its row is deleted, by a request or by the worker, no link of a file serves
anything, in any later state. -/
theorem permanent_link_ends_with_file (hmacSha256 : Bytes → Bytes → String)
    {world : World Database σ} (initial : world.db.Initial) (before : List Timed)
    {file : FileObject} (member : file ∈ (after app world before).db.fileObjects)
    (deleted : file.status = .deleted) (later : List Timed) (token : String)
    (rangeHeader : Option String) :
    downloadLink app hmacSha256 (after app world (before ++ later)) file.id token rangeHeader ∈
      [.typeError, .invalidLink, .answered (.error (.api (.fileNotFound file.id))),
        .answered (.error .lookup)] := by
  have ids := (after_integrity app initial before).ids
  have gone : Gone file.id (after app world before).db := by
    intro row present named
    rw [ids.file_unique present member named]
    exact deleted
  have stays : Gone file.id (after app world (before ++ later)).db := by
    rw [after_append]
    exact gone.after (ids.filesOld _ (mem_identities member)) later
  unfold downloadLink
  split
  · simp
  · simp
  · rcases @downloadForLink_gone σ app _ _ stays rangeHeader with missing | unread
    · simp [missing]
    · simp [unread]

theorem permanent_link_ends_with_file_small :
    downloadLink linkedApp (fun _ _ => linkedToken) (after linkedApp ⟨{}, {}⟩ unlinkedRun) 0
        linkedToken none ∈
      [.typeError, .invalidLink, .answered (.error (.api (.fileNotFound 0))),
        .answered (.error .lookup)] := by
  have gone : ∃ file ∈ (after linkedApp ⟨{}, {}⟩ [(.proxyUpload smallTenant smallUpload, 0),
      (.delete smallTenant 0, 1)]).db.fileObjects, file.status = .deleted ∧ file.id = 0 := by
    decide +kernel
  obtain ⟨file, member, deleted, first⟩ := gone
  have ends := permanent_link_ends_with_file (fun _ _ => linkedToken) (by decide) _ member deleted
    [(.proxyUpload smallTenant smallUpload, 2)] linkedToken none
  rw [first] at ends
  exact ends

end PyUploadX
