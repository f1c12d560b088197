import PyUploadX.Sdk.Paths
import PyUploadX.Sdk.UploadDirectory

/-! The object keys of a directory upload: the one that is recorded with an entry, and the one
the SDK asks for when it uploads the entry's file. -/
namespace PyUploadX

open Kit DirectoryUploadService

/-- `object_key` of an upload in `upload_directory`. -/
def Sdk.entryKey (destinationPrefix relativePath : String) : String :=
  stripSlashes (destinationPrefix ++ "/" ++ relativePath)

/-- A text of slashes. -/
def slashes (count : Nat) : String := String.ofList (List.replicate count '/')

section Joins

variable {nfc : String → String}

private theorem slashes_succ (count : Nat) (text : String) :
    slashes (count + 1) ++ text = "" ++ "/" ++ (slashes count ++ text) := by
  apply String.toList_inj.mp
  simp [slashes, List.replicate_succ]

private theorem slashes_zero (text : String) : slashes 0 ++ text = text := String.empty_append

/-- The path the server looks at. -/
theorem Sdk.NormalForms.slashes (forms : Sdk.NormalForms nfc) (blank : nfc "" = "") (count : Nat)
    (text : String) :
    nfc (Sdk.forwardSlashes (PyUploadX.slashes count ++ text)) =
      PyUploadX.slashes count ++ nfc (Sdk.forwardSlashes text) := by
  induction count with
  | zero => rw [slashes_zero, slashes_zero]
  | succ count ih =>
    have empty : Sdk.forwardSlashes "" = "" := rfl
    rw [slashes_succ, slashes_succ, Sdk.forwardSlashes_join, forms.join, ih, empty, blank]

private theorem mem_splitPath_slashes {count : Nat} {text piece : String}
    (member : piece ∈ splitPath (slashes count ++ text)) : piece = "" ∨ piece ∈ splitPath text := by
  induction count with
  | zero => rw [slashes_zero] at member; exact .inr member
  | succ count ih =>
    rw [slashes_succ, splitPath_join, List.mem_append] at member
    rcases member with first | later
    · exact .inl (List.mem_singleton.mp first)
    · exact ih later

private theorem meaningful_slashes (count : Nat) (text : String) :
    meaningful (splitPath (slashes count ++ text)) = meaningful (splitPath text) := by
  induction count with
  | zero => rw [slashes_zero]
  | succ count ih =>
    have empty : meaningful (splitPath "") = [] := rfl
    rw [slashes_succ, splitPath_join, meaningful_append, ih, empty, List.nil_append]

end Joins

section Strip

theorem rdropWhile_append_of_last {last text : List Char} (filled : last ≠ [])
    (ends : last.getLast? ≠ some '/') : (text ++ last).rdropWhile (· == '/') = text ++ last := by
  apply List.rdropWhile_eq_self_iff.mpr
  intro nonempty slash
  rw [List.getLast_append_of_ne_nil _ filled] at slash
  exact ends ((List.getLast?_eq_some_getLast filled).trans (congrArg some (eq_of_beq slash)))

private theorem replicate_append_cons (count : Nat) (text : List Char) :
    List.replicate count '/' ++ '/' :: text = '/' :: (List.replicate count '/' ++ text) := by
  induction count with
  | zero => rfl
  | succ count ih => rw [List.replicate_succ, List.cons_append, ih, List.cons_append]

/-- The text of a key neither begins nor ends with a slash. -/
theorem ObjectKey.text_edges (key : ObjectKey) :
    key.text.toList ≠ [] ∧ key.text.toList.head? ≠ some '/' ∧ key.text.toList.getLast? ≠ some '/' := by
  have pieces := splitPath_text key
  have none : "" ∉ splitPath key.text := by
    rw [pieces]
    exact fun blank => (key.ordinary "" blank).1 rfl
  unfold splitPath at none
  refine ⟨fun empty => none ?_, fun first => none ?_, fun last => none ?_⟩
  · rw [empty]
    exact List.mem_singleton.mpr rfl
  · obtain ⟨rest, chars⟩ := List.head?_eq_some_iff.mp first
    have leading := @List.splitOn_append_cons_self _ _ _ '/' [] rest
    rw [List.nil_append] at leading
    rw [chars, leading, List.map_append]
    exact List.mem_append_left _ (List.mem_singleton.mpr rfl)
  · obtain ⟨rest, chars⟩ := List.getLast?_eq_some_iff.mp last
    rw [chars, List.splitOn_append_cons_self, List.map_append]
    exact List.mem_append_right _ (List.mem_singleton.mpr rfl)

/-- What stands between the stripped prefix and the path are slashes. -/
theorem Sdk.entryKey_eq (destinationPrefix : String) (path : ObjectKey) :
    (stripSlashes destinationPrefix = "" ∧ Sdk.entryKey destinationPrefix path.text = path.text) ∨
    stripSlashes destinationPrefix ≠ "" ∧ ∃ count, Sdk.entryKey destinationPrefix path.text =
      stripSlashes destinationPrefix ++ "/" ++ (slashes count ++ path.text) := by
  obtain ⟨filled, first, last⟩ := path.text_edges
  have chars : (destinationPrefix ++ "/" ++ path.text).toList =
      destinationPrefix.toList ++ '/' :: path.text.toList := by
    rw [String.toList_append, String.toList_append, List.append_assoc]
    rfl
  unfold Sdk.entryKey stripSlashes
  rw [chars, List.dropWhile_append]
  cases stripped : destinationPrefix.toList.dropWhile (· == '/') with
  | nil =>
    left
    refine ⟨rfl, ?_⟩
    have skip : ('/' :: path.text.toList).dropWhile (· == '/') = path.text.toList :=
      List.dropWhile_beq_eq_self_of_head?_ne first
    have whole := @rdropWhile_append_of_last path.text.toList [] filled last
    rw [List.nil_append] at whole
    rw [List.isEmpty_nil, if_pos rfl, skip, whole, String.ofList_toList]
  | cons head rest =>
    right
    have tail : ('/' :: path.text.toList).getLast? ≠ some '/' := by
      rw [List.getLast?_cons_of_ne_nil filled]
      exact last
    have all : ∀ char ∈ (head :: rest).rtakeWhile (· == '/'), char = '/' :=
      fun char member => eq_of_beq (@List.mem_rtakeWhile_imp _ (· == '/') _ char member)
    have other : head ≠ '/' := by
      intro same
      have leading := List.head?_dropWhile_not (· == '/') destinationPrefix.toList
      rw [stripped, same] at leading
      cases leading
    refine ⟨fun empty => ?_, ((head :: rest).rtakeWhile (· == '/')).length, ?_⟩
    · have gone := List.rdropWhile_eq_nil_iff.mp (String.ofList_eq_empty_iff.mp empty)
      exact other (eq_of_beq (gone head List.mem_cons_self))
    rw [if_neg (by simp), rdropWhile_append_of_last (List.cons_ne_nil _ _) tail]
    have parts := @List.rdropWhile_append_rtakeWhile _ (· == '/') (head :: rest)
    rw [List.eq_replicate_of_mem all] at parts
    apply String.toList_inj.mp
    unfold slashes
    simp only [String.toList_append, String.toList_ofList]
    conv_lhs => rw [← parts]
    rw [List.append_assoc, replicate_append_cons, List.append_assoc]
    rfl

private theorem stripSlashes_stripSlashes (text : String) :
    stripSlashes (stripSlashes text) = stripSlashes text := by
  unfold stripSlashes
  rw [String.toList_ofList]
  generalize leading : text.toList.dropWhile (· == '/') = rest
  have first : (rest.rdropWhile (· == '/')).head? ≠ some '/' := by
    intro slash
    have whole : rest.head? = some '/' := List.singleton_prefix_iff_head?_eq_some.mp
      ((List.singleton_prefix_iff_head?_eq_some.mpr slash).trans (List.rdropWhile_prefix _ _))
    have kept := List.head?_dropWhile_not (· == '/') text.toList
    rw [leading, whole] at kept
    cases kept
  rw [List.dropWhile_beq_eq_self_of_head?_ne first, List.rdropWhile_idempotent]

end Strip

section Keys

variable {nfc : String → String} {destinationPrefix objectKey : String} {path normalized : ObjectKey}
  {maximumDepth maximumBytes : Nat}

/-- The path the server looks at when it normalizes a prefix with a path behind it. -/
theorem Sdk.NormalForms.joined (forms : Sdk.NormalForms nfc) (blank : nfc "" = "")
    (destinationPrefix : String) (count : Nat) (text : String) :
    nfc (Sdk.forwardSlashes (destinationPrefix ++ "/" ++ (PyUploadX.slashes count ++ text))) =
      nfc (Sdk.forwardSlashes destinationPrefix) ++ "/" ++
        (PyUploadX.slashes count ++ nfc (Sdk.forwardSlashes text)) := by
  rw [Sdk.forwardSlashes_join, forms.join, forms.slashes blank]

theorem not_unsafePath_join (forms : Sdk.NormalForms nfc) (blank : nfc "" = "")
    (safe : ¬ UnsafePath nfc destinationPrefix) {text : String} (safeText : ¬ UnsafePath nfc text)
    (count : Nat) : ¬ UnsafePath nfc (destinationPrefix ++ "/" ++ (slashes count ++ text)) := by
  rintro (⟨char, member, control⟩ | ⟨piece, member, dangerous⟩)
  · have slash : isControlChar '/' = false := rfl
    unfold slashes at member
    simp only [String.toList_append, String.toList_ofList, List.mem_append, List.mem_replicate]
      at member
    rcases member with (before | between) | ⟨_, rfl⟩ | behind
    · exact safe (.inl ⟨char, before, control⟩)
    · have same : char = '/' := List.mem_singleton.mp between
      rw [same, slash] at control
      cases control
    · rw [slash] at control
      cases control
    · exact safeText (.inl ⟨char, behind, control⟩)
  · rw [forms.joined blank, splitPath_join, List.mem_append] at member
    rcases member with before | behind
    · exact safe (.inr ⟨piece, before, dangerous⟩)
    · rcases mem_splitPath_slashes behind with rfl | later
      · exact not_unsafe_of_blank (.inl rfl) dangerous
      · exact safeText (.inr ⟨piece, later, dangerous⟩)

/-- The server's normalization of a prefix with a path behind it. -/
theorem normalizeRelativePath_join (forms : Sdk.NormalForms nfc) (blank : nfc "" = "")
    {leading : ObjectKey} (accepted : normalizeRelativePath nfc 64 1024 destinationPrefix = .ok leading)
    (normal : normalizeRelativePath nfc maximumDepth maximumBytes path.text = .ok path)
    (count : Nat) {key : ObjectKey} :
    normalizeRelativePath nfc 64 1024 (destinationPrefix ++ "/" ++ (slashes count ++ path.text)) =
        .ok key ↔
      (leading.segments.length + path.segments.length ≤ 64 ∧
        (leading.text ++ "/" ++ path.text).utf8ByteSize ≤ 1024) ∧
        key.segments = leading.segments ++ path.segments := by
  obtain ⟨safe, accepted⟩ := normalizeRelativePath_iff.mp accepted
  obtain ⟨kept, segments⟩ := Sdk.normalizeRelativePath_iff.mp accepted
  obtain ⟨safePath, normal⟩ := normalizeRelativePath_iff.mp normal
  obtain ⟨keptPath, pathSegments⟩ := Sdk.normalizeRelativePath_iff.mp normal
  have inside : ".." ∉ splitPath (slashes count ++ nfc (Sdk.forwardSlashes path.text)) := by
    intro member
    rcases mem_splitPath_slashes member with blank | later
    · exact absurd blank (by decide)
    · exact keptPath (.inr (.inr (.inl later)))
  have text : "/".intercalate (leading.segments ++ path.segments) = leading.text ++ "/" ++ path.text :=
    String.intercalate_append_of_ne_nil leading.nonempty path.nonempty
  rw [normalizeRelativePath_iff, Sdk.normalizeRelativePath_iff, forms.joined blank,
    refusedPath_join kept inside, splitPath_join, meaningful_append, meaningful_slashes, ← segments,
    ← pathSegments, text, List.length_append]
  exact and_iff_right (not_unsafePath_join forms blank safe safePath count)

theorem normalizeRelativePath_unique {depth bytes : Nat} {rawPath : String} {first second : ObjectKey}
    (once : normalizeRelativePath nfc maximumDepth maximumBytes rawPath = .ok first)
    (again : normalizeRelativePath nfc depth bytes rawPath = .ok second) : first = second := by
  have one := (Sdk.normalizeRelativePath_iff.mp (normalizeRelativePath_iff.mp once).2).2
  have other := (Sdk.normalizeRelativePath_iff.mp (normalizeRelativePath_iff.mp again).2).2
  exact ObjectKey.ext_segments (one.trans other.symm)

/-- The prefix is empty, or it is its own normal form and leaves room for the path. -/
def Joins (nfc : String → String) (destinationPrefix : String) (path : ObjectKey) : Prop :=
  destinationPrefix = "" ∨
    ∃ leading, normalizeRelativePath nfc 64 1024 destinationPrefix = .ok leading ∧
      leading.text = destinationPrefix ∧ leading.segments.length + path.segments.length ≤ 64 ∧
      (destinationPrefix ++ "/" ++ path.text).utf8ByteSize ≤ 1024

/-- The SDK's key for the file is accepted, and it is the recorded one. -/
def SameKey (nfc : String → String) (destinationPrefix relativePath objectKey : String) : Prop :=
  ∃ key, normalizeRelativePath nfc 64 1024 (Sdk.entryKey destinationPrefix relativePath) = .ok key ∧
    key.text = objectKey

/-- A prefix that `create_job` takes. -/
def AcceptedPrefix (nfc : String → String) (destinationPrefix : String) : Prop :=
  destinationPrefix = "" ∨
    ∃ leading, normalizeRelativePath nfc 64 1024 destinationPrefix = .ok leading

private theorem joinPrefix_text (normal : normalizeRelativePath nfc maximumDepth maximumBytes path.text = .ok path)
    (joined : joinPrefix nfc destinationPrefix path.text = .ok objectKey) :
    normalizeRelativePath nfc 64 1024 path.text = .ok path ∧
      objectKey = if stripSlashes destinationPrefix = "" then path.text
        else stripSlashes destinationPrefix ++ "/" ++ path.text := by
  obtain ⟨inner, again, joined⟩ := except_bind_eq_ok.mp joined
  obtain rfl := normalizeRelativePath_unique normal again
  exact ⟨again, (Except.ok.inj joined).symm⟩

private theorem sameKey_iff (forms : Sdk.NormalForms nfc) (blank : nfc "" = "")
    (accepted : AcceptedPrefix nfc (stripSlashes destinationPrefix))
    (normal : normalizeRelativePath nfc maximumDepth maximumBytes path.text = .ok path)
    (joined : joinPrefix nfc (stripSlashes destinationPrefix) path.text = .ok objectKey) :
    SameKey nfc destinationPrefix path.text objectKey ↔
      Joins nfc (stripSlashes destinationPrefix) path := by
  obtain ⟨again, recorded⟩ := joinPrefix_text normal joined
  rw [stripSlashes_stripSlashes] at recorded
  unfold SameKey Joins
  rcases Sdk.entryKey_eq destinationPrefix path with ⟨empty, asked⟩ | ⟨filled, count, asked⟩
  · rw [if_pos empty] at recorded
    rw [asked]
    exact iff_of_true ⟨path, again, recorded.symm⟩ (.inl empty)
  · rw [if_neg filled] at recorded
    obtain ⟨leading, accepted⟩ := accepted.resolve_left filled
    have text : "/".intercalate (leading.segments ++ path.segments) =
        leading.text ++ "/" ++ path.text :=
      String.intercalate_append_of_ne_nil leading.nonempty path.nonempty
    rw [asked, recorded]
    constructor
    · rintro ⟨key, served, same⟩
      obtain ⟨⟨depth, bytes⟩, segments⟩ :=
        (normalizeRelativePath_join forms blank accepted normal count).mp served
      unfold ObjectKey.text at same
      rw [segments, text] at same
      have own : leading.text = stripSlashes destinationPrefix := by
        rw [String.append_assoc, String.append_assoc] at same
        exact (String.append_left_inj _).mp same
      rw [own] at bytes
      exact .inr ⟨leading, accepted, own, depth, bytes⟩
    · rintro (empty | ⟨other, accepted', own, depth, bytes⟩)
      · exact absurd empty filled
      · obtain rfl := normalizeRelativePath_unique accepted accepted'
        rw [← own] at bytes
        refine ⟨⟨leading.segments ++ path.segments, by simp [leading.nonempty], ?_⟩,
          (normalizeRelativePath_join forms blank accepted normal count).mpr ⟨⟨depth, bytes⟩, rfl⟩, ?_⟩
        · intro segment member
          exact (List.mem_append.mp member).elim (leading.ordinary segment) (path.ordinary segment)
        · exact text.trans (by rw [own])

end Keys

section Runs

variable {σ : Type} {app : AppState σ} {db db' : Database}

/-- The prefixes of the jobs were checked, and the key of each entry is that of its path under
the prefix of its job. -/
structure Placed (nfc : String → String) (db : Database) : Prop where
  prefixes : ∀ job ∈ db.directoryUploadJobs, AcceptedPrefix nfc job.destinationPrefix
  keys : ∀ entry ∈ db.directoryUploadEntries, ∃ job ∈ db.directoryUploadJobs,
    job.id = entry.directoryUploadId ∧
    (∃ maximumDepth maximumBytes, normalizeRelativePath nfc maximumDepth maximumBytes
      entry.relativePath = .ok entry.normalizedPath) ∧
    joinPrefix nfc job.destinationPrefix entry.normalizedPath.text = .ok entry.objectKey

namespace Placed

variable {nfc : String → String}

theorem congr (placed : Placed nfc db) (jobs : db'.directoryUploadJobs = db.directoryUploadJobs)
    (entries : db'.directoryUploadEntries = db.directoryUploadEntries) : Placed nfc db' := by
  constructor
  · rw [jobs]
    exact placed.prefixes
  · rw [jobs, entries]
    exact placed.keys

/-- A change of a job that leaves its id and its prefix. -/
theorem updateJob (placed : Placed nfc db) {jobId : Uuid}
    {change : DirectoryUploadJob → DirectoryUploadJob} (kept : JobKept change)
    (same : ∀ job, (change job).destinationPrefix = job.destinationPrefix) :
    Placed nfc (db.updateJob jobId change) := by
  have places : ∀ job : DirectoryUploadJob,
      (if job.id = jobId then change job else job).destinationPrefix = job.destinationPrefix ∧
        (if job.id = jobId then change job else job).id = job.id := by
    intro job
    split
    · exact ⟨same job, (kept job).1⟩
    · exact ⟨rfl, rfl⟩
  constructor
  · intro row membership
    obtain ⟨job, member, rfl⟩ := List.mem_map.mp membership
    rw [(places job).1]
    exact placed.prefixes job member
  · intro entry member
    obtain ⟨job, present, named, path, key⟩ := placed.keys entry member
    refine ⟨_, List.mem_map_of_mem present, (places job).2.trans named, path, ?_⟩
    rw [(places job).1]
    exact key

theorem started (placed : Placed nfc db) (job : DirectoryUploadJob) : Placed nfc (db.started job) := by
  unfold Database.started
  split
  · exact placed.updateJob (setStatus_kept _) fun _ => rfl
  · exact placed

/-- A change of an entry that leaves its job, its path and its key. -/
theorem updateEntry (placed : Placed nfc db) {entryId : Uuid}
    {change : DirectoryUploadEntry → DirectoryUploadEntry} (kept : EntryKept change)
    (same : ∀ entry, (change entry).relativePath = entry.relativePath ∧
      (change entry).normalizedPath = entry.normalizedPath ∧
      (change entry).objectKey = entry.objectKey) :
    Placed nfc (db.updateEntry entryId change) := by
  refine ⟨placed.prefixes, ?_⟩
  intro row membership
  obtain ⟨entry, member, rfl⟩ := List.mem_map.mp membership
  split
  · obtain ⟨relativePath, normalizedPath, objectKey⟩ := same entry
    rw [(kept entry).2, relativePath, normalizedPath, objectKey]
    exact placed.keys entry member
  · exact placed.keys entry member

end Placed

theorem collectEntries_keys {nfc : String → String} {limits : DirectoryUploadLimits}
    {job : DirectoryUploadJob} {id : Uuid} {existing : List ObjectKey} {raws : List EntryRequest}
    {entries : List DirectoryUploadEntry}
    (collected : collectEntries nfc limits job id existing raws = .ok entries) :
    ∀ entry ∈ entries,
      normalizeRelativePath nfc limits.maximumPathDepth limits.maximumRelativePathBytes
        entry.relativePath = .ok entry.normalizedPath ∧
      joinPrefix nfc job.destinationPrefix entry.normalizedPath.text = .ok entry.objectKey := by
  intro entry member
  obtain ⟨raw, collects⟩ := collectEntries_mem collected entry member
  have sent : entry.relativePath = raw.relativePath := by rw [collects.row]; rfl
  exact ⟨sent ▸ collects.path, collects.key⟩

private theorem createJob_prefix {identity : Identity} {request : CreateJob} {now : Timestamp}
    {job : DirectoryUploadJob} {store store' : σ}
    (done : (createJob app identity request now).run db store = (.ok (job, db'), store')) :
    AcceptedPrefix app.nfc job.destinationPrefix ∧ db' = db.addJob job := by
  unfold createJob at done
  simp only [Program.refuseIf_bind_ok, Program.liftExcept_bind_ok] at done
  obtain ⟨_, _, _, _, checked, done⟩ := done
  rw [(effectiveLifecycle_readOnly _ _).bind_eq_ok] at done
  obtain ⟨effective, _, done⟩ := done
  simp only [Program.liftExcept_bind_ok, SettingService.getSessionExpiry, newId,
    Program.run_ask_bind, DirectoryRepository.insertJob_bind_ok, Program.pure_eq_ok] at done
  obtain ⟨source, _, policy, _, _, same, _⟩ := done
  cases same
  refine ⟨?_, rfl⟩
  split at checked
  · rename_i empty
    exact .inl empty
  · cases accepted : normalizeRelativePath app.nfc 64 1024 (stripSlashes request.destinationPrefix) with
    | error failure =>
      rw [accepted] at checked
      cases checked
    | ok leading => exact .inr ⟨leading, accepted⟩

/-- Every other directory request keeps the keys where they are. -/
theorem DirectoryEffect.placed {identity : Identity} {request : DirectoryRequest}
    (effect : DirectoryEffect app identity request db db')
    (other : ∀ body, request ≠ .createJob body) (placed : Placed app.nfc db) :
    Placed app.nfc db' := by
  cases effect with
  | unchanged | settled => exact placed
  | created => exact absurd rfl (other _)
  | finalized | patched => exact placed.updateJob (fun _ => ⟨rfl, rfl⟩) fun _ => rfl
  | retried | cancelled => exact placed.updateJob (setStatus_kept _) fun _ => rfl
  | completed => exact placed.updateJob (fun _ => ⟨rfl, rfl⟩) fun _ => rfl
  | initiated => exact (placed.started _).updateEntry (initiate_kept _) fun _ => ⟨rfl, rfl, rfl⟩
  | reported =>
    exact (placed.updateEntry (report_kept _ _) fun _ => ⟨rfl, rfl, rfl⟩).updateJob (record_kept _)
      fun _ => rfl
  | @added _ _ _ job added found growing collected =>
    have begun : Placed app.nfc ((db.started job).updateJob job.id (raiseTotals job added)) :=
      (placed.started job).updateJob (raiseTotals_kept job added) fun _ => rfl
    refine ⟨begun.prefixes, fun entry member => ?_⟩
    rcases List.mem_append.mp member with old | new
    · exact begun.keys entry old
    · obtain ⟨path, key⟩ := collectEntries_keys collected entry new
      have present : ∃ row ∈ ((db.started job).updateJob job.id
          (raiseTotals job added)).directoryUploadJobs,
          row.id = job.id ∧ row.destinationPrefix = job.destinationPrefix := by
        have inTable := (Database.findJob_some found).1
        unfold Database.started
        split
        · exact ⟨_, List.mem_map_of_mem (List.mem_map_of_mem inTable), by simp [setStatus, raiseTotals],
            by simp [setStatus, raiseTotals]⟩
        · exact ⟨_, List.mem_map_of_mem inTable, by simp [raiseTotals], by simp [raiseTotals]⟩
      obtain ⟨row, inTable, named, same⟩ := present
      refine ⟨row, inTable, named.trans (collectEntries_new collected entry new).1.symm, ⟨_, _, path⟩, ?_⟩
      rw [same]
      exact key

private theorem serve_placed (world : World Database σ) (timed : Timed) (placed : Placed app.nfc world.db) :
    Placed app.nfc (serve app world timed).2.db := by
  rcases serve_directories app world timed with ⟨jobs, entries, _⟩ | ⟨identity, request, asked, effect⟩
  · exact placed.congr jobs entries
  · obtain ⟨_, now⟩ := timed
    cases asked
    by_cases new : ∃ body, request = .createJob body
    · obtain ⟨body, rfl⟩ := new
      refine World.execute_preserves (fun after => Placed app.nfc after.db)
        (fun reply db store done => ?_) fun _ _ _ => placed
      obtain ⟨_, done, _⟩ := Program.bind_pure_eq_ok.mp done
      obtain ⟨_, done, _⟩ := Program.bind_pure_eq_ok.mp done
      obtain ⟨accepted, rfl⟩ := createJob_prefix done
      refine ⟨fun job member => ?_, fun entry member => ?_⟩
      · rcases List.mem_append.mp member with old | added
        · exact placed.prefixes job old
        · rw [List.mem_singleton.mp added]
          exact accepted
      · obtain ⟨job, present, rest⟩ := placed.keys entry member
        exact ⟨job, List.mem_append_left _ present, rest⟩
    · exact effect.placed (fun body same => new ⟨body, same⟩) placed

end Runs

/-- In every state reached, the SDK's key for the file of an entry is the recorded one exactly when
the prefix of the job is empty, or in normal form and short enough for the path behind it. -/
theorem entry_keys_agree_iff {σ : Type} (app : AppState σ) (forms : Sdk.NormalForms app.nfc)
    (blank : app.nfc "" = "") (world : World Database σ) (fresh : world.db.Fresh)
    (requests : List Timed) (job : DirectoryUploadJob)
    (created : job ∈ (after app world requests).db.directoryUploadJobs) (entry : DirectoryUploadEntry)
    (accepted : entry ∈ (after app world requests).db.entriesOf job.id)
    (normal : entry.relativePath = entry.normalizedPath.text) (destinationPrefix : String)
    (sent : stripSlashes destinationPrefix = job.destinationPrefix) :
    SameKey app.nfc destinationPrefix entry.relativePath entry.objectKey ↔
      Joins app.nfc job.destinationPrefix entry.normalizedPath := by
  have placed : Placed app.nfc (after app world requests).db := by
    refine after_preserves (fun world => Placed app.nfc world.db)
      (fun world timed => serve_placed world timed) requests ⟨?_, ?_⟩
    · rw [fresh.2.1]
      exact List.forall_mem_nil _
    · rw [fresh.2.2]
      exact List.forall_mem_nil _
  have numbered := @after_directoriesNumbered _ app _ fresh requests
  obtain ⟨member, belongs⟩ := List.mem_filter.mp accepted
  obtain ⟨row, present, named, ⟨depth, bytes, path⟩, key⟩ := placed.keys entry member
  have same := numbered.jobs.eq_of_key present created (named.trans (of_decide_eq_true belongs))
  subst same
  have checked := placed.prefixes row created
  rw [normal] at path ⊢
  rw [← sent] at checked key ⊢
  exact sameKey_iff forms blank checked path key

/-- A job with one entry. -/
def prefixedJob (destinationPrefix : String) : World Database MemoryS3 :=
  after smallS3App ⟨{}, smallS3⟩
    [(.directoryUpload smallTenant (.createJob { bucket := "files", destinationPrefix }), 0),
      (.directoryUpload smallTenant (.addEntries 0 [{ relativePath := "x.bin" }]), 0)]

private theorem reportsJob_present : (prefixedJob "reports").db.directoryUploadJobs ≠ [] := by decide +kernel

def reportsJob : DirectoryUploadJob :=
  (prefixedJob "reports").db.directoryUploadJobs.head reportsJob_present

private theorem reportsEntry_present : (prefixedJob "reports").db.entriesOf reportsJob.id ≠ [] := by
  decide +kernel

def reportsEntry : DirectoryUploadEntry :=
  ((prefixedJob "reports").db.entriesOf reportsJob.id).head reportsEntry_present

theorem report_keys_agree :
    SameKey id "/reports/" reportsEntry.relativePath reportsEntry.objectKey ↔
      Joins id reportsJob.destinationPrefix reportsEntry.normalizedPath :=
  entry_keys_agree_iff smallS3App Sdk.normalForms_id rfl ⟨{}, smallS3⟩ (by decide)
    [(.directoryUpload smallTenant (.createJob { bucket := "files", destinationPrefix := "reports" }), 0),
      (.directoryUpload smallTenant (.addEntries 0 [{ relativePath := "x.bin" }]), 0)]
    reportsJob (List.head_mem _) reportsEntry (List.head_mem _) (by decide +kernel) "/reports/"
    (by decide +kernel)

/-- A double slash stays in the recorded key, and goes from the SDK's. -/
theorem double_slash_keys_differ :
    ((prefixedJob "a//b").db.directoryUploadEntries.map fun entry =>
        (entry.relativePath, entry.normalizedPath.text, entry.objectKey)) =
      [("x.bin", "x.bin", "a//b/x.bin")] ∧
    (normalizeRelativePath id 64 1024 (Sdk.entryKey "a//b" "x.bin")).map (·.text) =
      .ok "a/b/x.bin" := by
  decide +kernel

end PyUploadX
