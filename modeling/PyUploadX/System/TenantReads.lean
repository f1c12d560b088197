import PyUploadX.Kit.TwoRuns
import PyUploadX.Services.ReusedKey
import PyUploadX.Storage.Reading
import PyUploadX.System.Change

/-! What a tenant can read: two states that agree on its own files, before the same
request. -/
namespace PyUploadX

open Kit

variable {σ : Type} {app : AppState σ}

def Database.filesOf (db : Database) (tenantId : String) : List FileObject :=
  db.fileObjects.filter (·.tenantId = tenantId)

private theorem findFile_eq (db : Database) (fileId : Uuid) (tenantId : String) :
    db.findFile fileId tenantId = (db.filesOf tenantId).find? (·.id = fileId) := by
  unfold Database.findFile Database.filesOf
  rw [List.find?_filter]
  congr 1
  funext file
  simp [and_comm]

private theorem occupied_eq (db : Database) (tenantId bucket : String) (objectKey : ObjectKey) :
    db.occupied tenantId bucket objectKey =
      (db.filesOf tenantId).any fun file => file.bucket = bucket ∧ file.objectKey = objectKey := by
  unfold Database.occupied Database.filesOf
  rw [List.any_filter]
  congr 1
  funext file
  simp

/-- The two states have the same files of the tenant, and the same objects at their keys. -/
structure AgreesFor (app : AppState σ) (tenantId : String) (first second : World Database σ) :
    Prop where
  files : second.db.filesOf tenantId = first.db.filesOf tenantId
  objects : ∀ file ∈ first.db.filesOf tenantId,
    app.storage.stored second.store file.bucket file.objectKey =
      app.storage.stored first.store file.bucket file.objectKey

/-- The requests that read files or their bytes. -/
def ReadRequest.ReadsFiles : ReadRequest → Prop
  | .getUpload _ | .listParts _ | .presignParts _ _ _ => False
  | _ => True

/-- What a client has in the end: the reply, and what a GET of the URL in it gave. -/
structure ReadOutcome where
  reply : Except Failure Reply
  fetched : Option (Except Failure Bytes)

/-- The URL is fetched from the object store, which asks nobody. -/
def fetch (app : AppState σ) (store : σ) : Except Failure Reply → Option (Except Failure Bytes)
  | .ok (.read (.url url)) =>
    url.object?.map fun place => app.storage.stored store place.1 place.2
  | _ => none

def readOutcome (app : AppState σ) (world : World Database σ) (identity : Identity)
    (request : ReadRequest) (now : Timestamp) : ReadOutcome :=
  let reply := (serve app world (.read identity request, now)).1
  { reply, fetched := fetch app world.store reply }

/-- The object whose bytes a client got. -/
def ReadOutcome.source? (outcome : ReadOutcome) : Option (String × ObjectKey) :=
  match outcome.reply, outcome.fetched with
  | .ok (.read (.content file _ _)), _ => some (file.bucket, file.objectKey)
  | .ok (.read (.url url)), some (.ok _) => url.object?
  | _, _ => none

/-- The object that a `POST /presign/get` is granted for. -/
def ReadRequest.granted? (app : AppState σ) : ReadRequest → Option (String × ObjectKey)
  | .presignGet bucket objectKey expiresSeconds =>
    match PyUploadX.presignGet app bucket objectKey expiresSeconds with
    | .ok url => url.object?
    | .error _ => none
  | _ => none

theorem serve_read (world : World Database σ) (identity : Identity) (request : ReadRequest)
    (now : Timestamp) :
    (serve app world (.read identity request, now)).1 =
      ((world.execute (read app identity request)).1).map Reply.read := by
  unfold serve
  rcases answered : world.execute (read app identity request) with ⟨_ | reply, world'⟩
  · have failed := (World.execute_eq_error.mp answered).1
    exact congrArg Prod.fst (World.execute_wrap_error failed Reply.read)
  · have done := World.execute_eq_ok.mp answered
    exact congrArg Prod.fst (World.execute_wrap_ok done Reply.read)

section

variable {identity : Identity} {first second : World Database σ}

private theorem get_indistinct (agree : AgreesFor app identity.tenantId first second) (fileId : Uuid) :
    Indistinct (FileService.get identity fileId : Handler σ FileObject) first second := by
  have same : second.db.findFile fileId identity.tenantId =
      first.db.findFile fileId identity.tenantId := by
    rw [findFile_eq, findFile_eq, agree.files]
  refine .bind (.select _ _) (.select (congrArg _ same)) fun found _ => ?_
  cases found with
  | none => exact .fail _
  | some file => exact .bind (.refuseIf _ _) (.refuseIf _ _) fun _ _ => .pure _

theorem get_ok {db db' : Database} {store store' : σ} {fileId : Uuid} {file : FileObject}
    (done : (FileService.get identity fileId : Handler σ FileObject).run db store =
      (.ok (file, db'), store')) : file ∈ db.filesOf identity.tenantId := by
  unfold FileService.get FileRepository.getFile at done
  obtain ⟨found, read, rest⟩ := Program.select_bind_ok.mp done
  obtain ⟨same, _⟩ := FileRepository.loadFile_ok read
  cases found with
  | none => exact (Program.fail_eq_ok.mp rest).elim
  | some file =>
    obtain ⟨_, rest⟩ := Program.refuseIf_bind_ok.mp rest
    obtain ⟨rfl, _⟩ := Prod.mk.inj (Program.pure_eq_ok.mp rest).1
    rw [findFile_eq] at same
    exact List.mem_of_find?_eq_some same

private theorem read_indistinct (reader : ObjectReader app.storage)
    (agree : AgreesFor app identity.tenantId first second) {request : ReadRequest}
    (reads : request.ReadsFiles) : Indistinct (read app identity request) first second := by
  have get := get_indistinct agree
  cases request with
  | getUpload | listParts | presignParts => exact reads.elim
  | listFiles query =>
    have filtered : ∀ db : Database, (db.fileObjects.filter fun file =>
        file.tenantId = identity.tenantId && query.keeps file) =
          (db.filesOf identity.tenantId).filter query.keeps := by
      intro db
      rw [Database.filesOf, List.filter_filter]
      congr 1
      funext file
      exact Bool.and_comm _ _
    refine .bind (.select _ _) (.select ?_) fun _ _ => .pure _
    simp only [filtered, agree.files]
  | getFile fileId => exact .bind (get_readOnly _ _) (get fileId) fun _ _ => .pure _
  | download fileId rangeHeader =>
    have downloads : Indistinct (FileService.download app identity fileId rangeHeader) first second :=
      .bind (get_readOnly _ _) (get fileId) fun file served =>
        .bind (.liftExcept _) (.liftExcept _) fun range _ =>
          .bind (.askStore _ _) (.askStore (by
            rw [reader.getObject_eq, reader.getObject_eq, agree.objects file (get_ok (World.execute_committed served))]))
            fun _ _ => .pure _
    refine .bind (.bind (get_readOnly _ _) fun _ => .bind (.liftExcept _) fun _ =>
      .bind (.askStore _ _) fun _ => .pure _) downloads fun _ _ => .pure _
  | createPermanentLink fileId baseUrl =>
    refine .bind (createPermanentLink_readOnly _ _ _) ?_ fun _ _ => .pure _
    refine .bind (.refuseIf _ _) (.refuseIf _ _) fun _ _ => ?_
    split
    · exact .fail _
    · exact .bind (get_readOnly _ _) (get fileId) fun _ _ => .pure _
  | presignDownload fileId expiresSeconds =>
    have presigns : Indistinct (FileService.presignDownload app identity fileId expiresSeconds)
        first second :=
      .bind (get_readOnly _ _) (get fileId) fun file _ =>
        .bind (.refuseIf _ _) (.refuseIf _ _) fun _ _ => .liftExcept _
    exact .bind (.bind (get_readOnly _ _) fun _ => .bind (.refuseIf _ _) fun _ => .liftExcept _)
      presigns fun _ _ => .pure _
  | getLifecycle fileId =>
    have same : second.db.findFile fileId identity.tenantId =
        first.db.findFile fileId identity.tenantId := by
      rw [findFile_eq, findFile_eq, agree.files]
    refine .bind (getLifecycle_readOnly _ _) ?_ fun _ _ => .pure _
    refine .bind (.select _ _) (.select (congrArg _ same)) fun found _ => ?_
    cases found with
    | none => exact .fail _
    | some file => exact .pure _
  | presignGet bucket objectKey expiresSeconds =>
    exact .bind (.liftExcept _) (.liftExcept _) fun _ _ => .pure _

/-- Bytes that are served directly are those of a file of the tenant. -/
theorem read_content {world : World Database σ} {request : ReadRequest} {file : FileObject}
    {range : Option ByteRange} {content : Bytes}
    (answered : (world.execute (read app identity request)).1 = .ok (.content file range content)) :
    file ∈ world.db.filesOf identity.tenantId := by
  have done := World.execute_committed answered
  cases request with
  | download fileId rangeHeader =>
    obtain ⟨⟨file', range', content'⟩, done, same⟩ := Program.bind_pure_eq_ok.mp done
    obtain ⟨rfl, rfl, rfl⟩ := ReadReply.content.inj same
    obtain ⟨found, db, store, served, rest⟩ := Program.bind_eq_ok.mp done
    obtain ⟨_, _, rest⟩ := Program.liftExcept_bind_ok.mp rest
    obtain ⟨_, _, rest⟩ := Program.askStore_bind_ok.mp rest
    obtain ⟨rfl, _, _⟩ := Prod.mk.inj (Prod.mk.inj (Program.pure_eq_ok.mp rest).1).1
    exact get_ok served
  | listFiles query =>
    obtain ⟨⟨_, _⟩, _, same⟩ := Program.bind_pure_eq_ok.mp done
    cases same
  | _ =>
    obtain ⟨_, _, same⟩ := Program.bind_pure_eq_ok.mp done
    cases same

private theorem presignGet_object (reader : ObjectReader app.storage) {bucket objectKey : String}
    {expiresSeconds : Option Int} {url : PresignedUrl}
    (granted : presignGet app bucket objectKey expiresSeconds = .ok url) :
    ∃ place, url.object? = some place := by
  unfold presignGet at granted
  split at granted
  · cases granted
  · obtain ⟨key, _, signed⟩ := except_bind_eq_ok.mp granted
    exact ⟨_, reader.presigned signed⟩

/-- A URL that is served is for a file of the tenant, or `POST /presign/get` granted it. -/
theorem read_url (reader : ObjectReader app.storage) {world : World Database σ}
    {request : ReadRequest} {url : PresignedUrl}
    (answered : (world.execute (read app identity request)).1 = .ok (.url url)) :
    ∃ place, url.object? = some place ∧ (request.granted? app = some place ∨
      ∃ file ∈ world.db.filesOf identity.tenantId, place = (file.bucket, file.objectKey)) := by
  have done := World.execute_committed answered
  cases request with
  | presignDownload fileId expiresSeconds =>
    obtain ⟨url', done, same⟩ := Program.bind_pure_eq_ok.mp done
    obtain rfl := ReadReply.url.inj same
    obtain ⟨file, db, store, served, rest⟩ := Program.bind_eq_ok.mp done
    obtain ⟨_, rest⟩ := Program.refuseIf_bind_ok.mp rest
    rw [Program.run_liftExcept] at rest
    cases signed : app.storage.createPresignedGetUrl file.bucket file.objectKey
        (FileService.presignExpiry app.settings.presign expiresSeconds) with
    | error failure => rw [signed] at rest; cases rest
    | ok url' =>
      rw [signed] at rest
      cases rest
      exact ⟨_, reader.presigned signed, .inr ⟨file, get_ok served, rfl⟩⟩
  | presignGet bucket objectKey expiresSeconds =>
    obtain ⟨url', granted, rest⟩ := Program.liftExcept_bind_ok.mp done
    obtain rfl := ReadReply.url.inj (Prod.mk.inj (Program.pure_eq_ok.mp rest).1).1
    obtain ⟨place, same⟩ := presignGet_object reader granted
    exact ⟨place, same, .inl (by rw [ReadRequest.granted?, granted]; exact same)⟩
  | listFiles query =>
    obtain ⟨⟨_, _⟩, _, same⟩ := Program.bind_pure_eq_ok.mp done
    cases same
  | download fileId rangeHeader =>
    obtain ⟨⟨_, _, _⟩, _, same⟩ := Program.bind_pure_eq_ok.mp done
    cases same
  | _ =>
    obtain ⟨_, _, same⟩ := Program.bind_pure_eq_ok.mp done
    cases same

private theorem granted_answer (identity : Identity) {request : ReadRequest} {place : String × ObjectKey}
    (granted : request.granted? app = some place) (world : World Database σ) :
    ∃ url, (world.execute (read app identity request)).1 = .ok (.url url) ∧
      url.object? = some place := by
  unfold ReadRequest.granted? at granted
  split at granted
  · rename_i bucket objectKey expiresSeconds
    split at granted
    · rename_i url signed
      refine ⟨url, ?_, granted⟩
      have ran : (read app identity (.presignGet bucket objectKey expiresSeconds)).run world.db
          world.store = (.ok (.url url, world.db), world.store) := by
        rw [read, signed]
        rfl
      have answered : world.execute (read app identity (.presignGet bucket objectKey
          expiresSeconds)) = (.ok (.url url), world) := World.execute_eq_ok.mpr ran
      rw [answered]
    · cases granted
  · cases granted

private theorem mem_filesOf_occupied {db : Database} {tenantId : String} {file : FileObject}
    (member : file ∈ db.filesOf tenantId) :
    db.occupied tenantId file.bucket file.objectKey = true := by
  rw [occupied_eq, List.any_eq_true]
  exact ⟨file, member, by simp⟩

theorem AgreesFor.stored {tenantId : String} (agree : AgreesFor app tenantId first second)
    {bucket : String} {objectKey : ObjectKey}
    (held : first.db.occupied tenantId bucket objectKey = true) :
    app.storage.stored second.store bucket objectKey =
      app.storage.stored first.store bucket objectKey := by
  rw [occupied_eq, List.any_eq_true] at held
  obtain ⟨file, member, named⟩ := held
  simp only [decide_eq_true_eq] at named
  rw [← named.1, ← named.2]
  exact agree.objects file member

/-- The granted object is one the tenant has no file for. -/
def Foreign (app : AppState σ) (db : Database) (tenantId : String) (request : ReadRequest)
    (place : String × ObjectKey) : Prop :=
  request.granted? app = some place ∧ db.occupied tenantId place.1 place.2 = false

/-- A request for files ends the same in both states, but for a granted URL to a foreign
object, which shows whatever is there. -/
theorem readOutcome_eq_iff (reader : ObjectReader app.storage)
    (agree : AgreesFor app identity.tenantId first second) {request : ReadRequest}
    (reads : request.ReadsFiles) (now : Timestamp) :
    readOutcome app second identity request now = readOutcome app first identity request now ↔
      ∀ place, Foreign app first.db identity.tenantId request place →
        app.storage.stored second.store place.1 place.2 =
          app.storage.stored first.store place.1 place.2 := by
  have answers : (second.execute (read app identity request)).1 =
      (first.execute (read app identity request)).1 := read_indistinct reader agree reads
  have replies : (serve app second (.read identity request, now)).1 =
      (serve app first (.read identity request, now)).1 := by
    rw [serve_read, serve_read, answers]
  constructor
  · intro same place foreign
    obtain ⟨url, answered, object⟩ := granted_answer identity foreign.1 first
    have reply := @serve_read σ app first identity request now
    have fetched := congrArg ReadOutcome.fetched same
    simp only [readOutcome, replies, reply, answered, Except.map, fetch, object,
      Option.map_some] at fetched
    exact Option.some.inj fetched
  · intro foreign
    have fetched : fetch app second.store (serve app first (.read identity request, now)).1 =
        fetch app first.store (serve app first (.read identity request, now)).1 := by
      rw [serve_read]
      cases answered : (first.execute (read app identity request)).1 with
      | error failure => rfl
      | ok reply =>
        cases reply with
        | url url =>
          obtain ⟨place, object, granted | ⟨file, member, rfl⟩⟩ := read_url reader answered
          · simp only [Except.map, fetch, object, Option.map_some]
            cases held : first.db.occupied identity.tenantId place.1 place.2 with
            | false => rw [foreign place ⟨granted, held⟩]
            | true => rw [agree.stored held]
          · simp only [Except.map, fetch, object, Option.map_some]
            rw [agree.objects file member]
        | _ => rfl
    unfold readOutcome
    dsimp only
    rw [replies, fetched]

/-- Bytes of an object without a file of the tenant are served to it exactly when a URL
was granted for such an object and the object is there. -/
theorem foreign_source_iff (reader : ObjectReader app.storage) (world : World Database σ)
    (identity : Identity) (request : ReadRequest) (now : Timestamp) :
    (∃ place, (readOutcome app world identity request now).source? = some place ∧
        world.db.occupied identity.tenantId place.1 place.2 = false) ↔
      ∃ place bytes, Foreign app world.db identity.tenantId request place ∧
        app.storage.stored world.store place.1 place.2 = .ok bytes := by
  have reply := @serve_read σ app world identity request now
  constructor
  · rintro ⟨place, source, absent⟩
    unfold readOutcome ReadOutcome.source? at source
    rw [reply] at source
    cases answered : (world.execute (read app identity request)).1 with
    | error failure => rw [answered] at source; cases source
    | ok served =>
      rw [answered] at source
      cases served with
      | content file range content =>
        cases source
        have held := mem_filesOf_occupied (read_content answered)
        rw [held] at absent
        cases absent
      | url url =>
        obtain ⟨target, object, origin⟩ := read_url reader answered
        simp only [Except.map, fetch, object, Option.map_some] at source
        cases found : app.storage.stored world.store target.1 target.2 with
        | error failure => rw [found] at source; cases source
        | ok bytes =>
          rw [found] at source
          have same : url.object? = some place := source
          obtain rfl := Option.some.inj (object.symm.trans same)
          rcases origin with granted | ⟨file, member, rfl⟩
          · exact ⟨target, bytes, ⟨granted, absent⟩, found⟩
          · rw [mem_filesOf_occupied member] at absent
            cases absent
      | _ => cases source
  · rintro ⟨place, bytes, foreign, found⟩
    obtain ⟨url, answered, object⟩ := granted_answer identity foreign.1 world
    refine ⟨place, ?_, foreign.2⟩
    simp only [readOutcome, ReadOutcome.source?, reply, answered, Except.map, fetch, object,
      Option.map_some, found]

end

/-- Reading keeps to the tenant's own files, but for the URLs that `POST /presign/get`
grants for any object of a configured bucket. -/
theorem tenants_read_their_files (reader : ObjectReader app.storage) (identity : Identity)
    {first second : World Database σ} (agree : AgreesFor app identity.tenantId first second)
    {request : ReadRequest} (reads : request.ReadsFiles) (now : Timestamp) :
    (readOutcome app second identity request now = readOutcome app first identity request now ↔
      ∀ place, Foreign app first.db identity.tenantId request place →
        app.storage.stored second.store place.1 place.2 =
          app.storage.stored first.store place.1 place.2) ∧
    ((∃ place, (readOutcome app first identity request now).source? = some place ∧
        first.db.occupied identity.tenantId place.1 place.2 = false) ↔
      ∃ place bytes, Foreign app first.db identity.tenantId request place ∧
        app.storage.stored first.store place.1 place.2 = .ok bytes) :=
  ⟨readOutcome_eq_iff reader agree reads now, foreign_source_iff reader first identity request now⟩

/-- `smallS3` with an object that the stranger has no file for. -/
def smallS3With (content : Bytes) : World Database MemoryS3 :=
  ⟨{}, (MemoryS3.putObject (fun _ => "") "files" smallKey content smallS3).2⟩

private theorem smallS3With_agree (content other : Bytes) :
    AgreesFor smallS3App "stranger" (smallS3With content) (smallS3With other) :=
  ⟨rfl, fun _ => nofun⟩

theorem tenants_read_their_files_small :
    (readOutcome smallS3App (smallS3With [2]) strangerTenant (.presignGet "files" "a.bin" none) 0 =
        readOutcome smallS3App (smallS3With [1]) strangerTenant (.presignGet "files" "a.bin" none) 0 ↔
      ∀ place, Foreign smallS3App {} "stranger" (.presignGet "files" "a.bin" none) place →
        smallS3App.storage.stored (smallS3With [2]).store place.1 place.2 =
          smallS3App.storage.stored (smallS3With [1]).store place.1 place.2) ∧
    ((∃ place, (readOutcome smallS3App (smallS3With [1]) strangerTenant
          (.presignGet "files" "a.bin" none) 0).source? = some place ∧
        Database.occupied {} "stranger" place.1 place.2 = false) ↔
      ∃ place bytes, Foreign smallS3App {} "stranger" (.presignGet "files" "a.bin" none) place ∧
        smallS3App.storage.stored (smallS3With [1]).store place.1 place.2 = .ok bytes) :=
  @tenants_read_their_files _ smallS3App (s3Reader _ _ (MemoryS3.cutsRanges _)) strangerTenant
    (smallS3With [1]) (smallS3With [2]) (smallS3With_agree [1] [2])
    (.presignGet "files" "a.bin" none) trivial 0

/-- The stranger reads the object of another tenant through `POST /presign/get`. -/
theorem stranger_reads_foreign_object :
    ¬ ∀ first second : World Database MemoryS3, AgreesFor smallS3App "stranger" first second →
      ∀ request : ReadRequest, request.ReadsFiles → ∀ now,
        readOutcome smallS3App second strangerTenant request now =
          readOutcome smallS3App first strangerTenant request now := by
  intro same
  have fetched := congrArg ReadOutcome.fetched (same (smallS3With [1]) (smallS3With [2])
    (smallS3With_agree [1] [2]) (.presignGet "files" "a.bin" none) trivial 0)
  revert fetched
  decide

end PyUploadX
