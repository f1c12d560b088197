import PyUploadX.DirectoryUpload.JsonLines
import PyUploadX.Kit.Paging
import PyUploadX.Sdk.UploadDirectory

/-! The entries of a job, page by page: what `list_entries` serves, and the loop that follows
its cursors. -/
namespace PyUploadX

open Kit DirectoryUploadService

variable {σ : Type} {app : AppState σ}

/-- `list_entries`, where `>` and `ORDER BY` compare texts by the given order. -/
def pageBy (less : String → String → Prop) [DecidableRel less] (cursor : Option String)
    (limit : Int) (entries : List DirectoryUploadEntry) :
    List DirectoryUploadEntry × Option String :=
  let limit := (min (max limit 1) 1000).toNat
  let later := match firstText cursor none with
    | none => entries
    | some cursor => entries.filter fun entry => less cursor entry.normalizedPath.text
  let sorted : List DirectoryUploadEntry := later.insertionSort fun first second =>
    ¬ less second.normalizedPath.text first.normalizedPath.text
  let page := sorted.take limit
  (page, if limit < sorted.length then (page.getLast?.map (·.normalizedPath.text)) else none)

theorem listEntries_found {db : Database} {store : σ} {identity : Identity} {jobId : Uuid}
    {job : DirectoryUploadJob} (found : db.findJob jobId identity.tenantId = some job)
    (cursor : Option String) (limit : Int) :
    (DirectoryUploadService.listEntries identity jobId cursor limit :
      Handler σ (List DirectoryUploadEntry × Option String)).run db store =
      (.ok (pageOf cursor limit (db.entriesOf jobId), db), store) := by
  unfold DirectoryUploadService.listEntries
  rw [(getJob_readOnly _).bind_eq_ok]
  exact ⟨job, getJob_found found, rfl⟩

/-- The request of a page is answered from the rows of the job, and changes nothing. -/
theorem serve_listEntries {world : World Database σ} {identity : Identity} {jobId : Uuid}
    {job : DirectoryUploadJob} (found : world.db.findJob jobId identity.tenantId = some job)
    (cursor : Option String) (limit : Int) (now : Timestamp) :
    serve app world (.directoryUpload identity (.listEntries jobId cursor limit), now) =
      (.ok (.directory (.entries (pageBy (· < ·) cursor limit (world.db.entriesOf jobId)).1
        (pageBy (· < ·) cursor limit (world.db.entriesOf jobId)).2)), world) := by
  refine World.execute_eq_ok.mpr (Program.bind_pure_eq_ok.mpr ⟨_, ?_, rfl⟩)
  exact Program.bind_pure_eq_ok.mpr ⟨_, listEntries_found found cursor limit, rfl⟩

namespace Sdk

/-- The loop of `upload_directory` over the pages of entries; an empty cursor is none. -/
def followPages (ask : Option String → List DirectoryUploadEntry × Option String) :
    Nat → Option String → Option (List (List DirectoryUploadEntry))
  | 0, _ => none
  | fuel + 1, cursor =>
    let page := ask (firstText cursor none)
    match firstText page.2 none with
    | none => some [page.1]
    | some next => (followPages ask fuel (some next)).map fun pages => page.1 :: pages

private theorem firstText_kept {cursor : Option String} (named : cursor ≠ some "") :
    firstText cursor none = cursor := by
  cases cursor with
  | none => rfl
  | some text => exact if_neg fun empty => named (congrArg some empty)

/-- Where no page names the empty cursor, the loop follows every cursor. -/
theorem followPages_eq {ask pages : Option String → List DirectoryUploadEntry × Option String}
    (same : ∀ cursor, cursor ≠ some "" → ask cursor = pages cursor)
    (named : ∀ cursor, (pages cursor).2 ≠ some "") (fuel : Nat) {cursor : Option String}
    (started : cursor ≠ some "") :
    followPages ask fuel cursor = Paging.follow pages fuel cursor := by
  induction fuel generalizing cursor with
  | zero => rfl
  | succ fuel ih =>
    unfold followPages
    rw [firstText_kept started, same cursor started]
    dsimp only
    rw [firstText_kept (named cursor)]
    cases more : (pages cursor).2 with
    | none => rw [Paging.follow_last more]
    | some next =>
      rw [Paging.follow_next more, ← ih (by rw [← more]; exact named cursor)]

end Sdk

section Pages

variable {less : String → String → Prop} [DecidableRel less]

private theorem pageBy_eq (cursor : Option String) (limit : Int) (entries : List DirectoryUploadEntry) :
    pageBy less cursor limit entries =
      Paging.page (·.normalizedPath.text) less (min (max limit 1) 1000).toNat
        (firstText cursor none) entries := by
  unfold pageBy Paging.page Paging.arrange Paging.behind
  cases firstText cursor none <;> rfl

end Pages

/-- The entries of one job have paths of their own. -/
def EntriesDistinct (db : Database) : Prop :=
  ∀ jobId, ((db.entriesOf jobId).map (·.normalizedPath)).Nodup

section Distinct

variable {db db' : Database}

theorem EntriesDistinct.congr (distinct : EntriesDistinct db)
    (same : db'.directoryUploadEntries = db.directoryUploadEntries) : EntriesDistinct db' := by
  intro jobId
  unfold Database.entriesOf
  rw [same]
  exact distinct jobId

theorem EntriesDistinct.updateEntry (distinct : EntriesDistinct db) (entryId : Uuid)
    {change : DirectoryUploadEntry → DirectoryUploadEntry} (kept : EntryKept change)
    (paths : ∀ entry, (change entry).normalizedPath = entry.normalizedPath) :
    EntriesDistinct (db.updateEntry entryId change) := by
  intro jobId
  have same : ∀ entry : DirectoryUploadEntry,
      (if entry.id = entryId then change entry else entry).normalizedPath = entry.normalizedPath := by
    intro entry
    split
    · exact paths entry
    · rfl
  rw [db.entriesOf_updateEntry jobId entryId kept, List.map_map]
  have keys : ((fun entry : DirectoryUploadEntry => entry.normalizedPath) ∘ fun entry =>
      if entry.id = entryId then change entry else entry) = (·.normalizedPath) := funext same
  rw [keys]
  exact distinct jobId

private theorem DirectoryEffect.entriesDistinct {identity : Identity} {request : DirectoryRequest}
    (effect : DirectoryEffect app identity request db db') (distinct : EntriesDistinct db) :
    EntriesDistinct db' := by
  cases effect with
  | unchanged | created | finalized | retried | completed | settled | cancelled | patched =>
    exact distinct.congr rfl
  | added found growing collected accepted =>
    have members := fun entry member => (collectEntries_new collected entry member).1
    intro jobId
    rw [db.entriesOf_grown members jobId]
    split
    · rename_i same
      rw [same]
      exact accepted.distinct members (distinct _)
    · rw [List.append_nil]
      exact distinct jobId
  | initiated =>
    exact (distinct.congr (db.started_directoryUploadEntries _)).updateEntry _ (initiate_kept _)
      fun _ => rfl
  | reported =>
    exact (distinct.updateEntry _ (report_kept _ _) fun _ => rfl).congr rfl

private theorem serve_entriesDistinct (world : World Database σ) (timed : Timed)
    (distinct : EntriesDistinct world.db) : EntriesDistinct (serve app world timed).2.db := by
  rcases serve_directories app world timed with ⟨_, entries, _⟩ | ⟨identity, request, _, effect⟩
  · exact distinct.congr entries
  · exact effect.entriesDistinct distinct

private theorem after_entriesDistinct {world : World Database σ} (fresh : world.db.Fresh)
    (requests : List Timed) : EntriesDistinct (after app world requests).db := by
  refine after_preserves (fun world => EntriesDistinct world.db)
    (fun world timed distinct => serve_entriesDistinct world timed distinct) requests ?_
  intro jobId
  unfold Database.entriesOf
  rw [fresh.2.2]
  exact List.nodup_nil

end Distinct

/-- A page is served from the rows of the job. Following the cursors ends, and reads every entry
once, in the order of the paths, whatever the limit is and however texts are ordered. -/
theorem pages_are_all_entries (app : AppState σ) {world : World Database σ}
    (fresh : world.db.Fresh) (requests : List Timed) (jobId : Uuid) (limit : Int) :
    (∀ identity job cursor now,
      (after app world requests).db.findJob jobId identity.tenantId = some job →
      serve app (after app world requests)
          (.directoryUpload identity (.listEntries jobId cursor limit), now) =
        (.ok (.directory (.entries
          (pageBy (· < ·) cursor limit ((after app world requests).db.entriesOf jobId)).1
          (pageBy (· < ·) cursor limit ((after app world requests).db.entriesOf jobId)).2)),
        after app world requests)) ∧
    ∀ (less : String → String → Prop) [DecidableRel less] [IsStrictTotalOrder String less],
      ∃ fuel pages,
        Sdk.followPages (fun cursor =>
          pageBy less cursor limit ((after app world requests).db.entriesOf jobId)) fuel none =
          some pages ∧
        pages.flatten.Perm ((after app world requests).db.entriesOf jobId) ∧
        pages.flatten.Pairwise fun first second =>
          less first.normalizedPath.text second.normalizedPath.text := by
  refine ⟨fun identity job cursor now found => serve_listEntries found cursor limit now, ?_⟩
  intro less _ _
  have distinct : (((after app world requests).db.entriesOf jobId).map
      (·.normalizedPath.text)).Nodup := by
    have paths := (@after_entriesDistinct σ app world fresh requests jobId).map
      fun first second same => ObjectKey.text_injective same
    rwa [List.map_map] at paths
  generalize (after app world requests).db.entriesOf jobId = entries at distinct ⊢
  have positive : 0 < (min (max limit 1) 1000).toNat := by omega
  obtain ⟨pages, followed, flat⟩ :=
    @Paging.follow_all _ _ (·.normalizedPath.text) less _ entries _ _ positive distinct
  refine ⟨entries.length + 1, pages, ?_, ?_, ?_⟩
  · rw [← followed]
    refine Sdk.followPages_eq (fun cursor named => ?_) (fun cursor empty => ?_) _ nofun
    · rw [pageBy_eq, Sdk.firstText_kept named]
    · obtain ⟨entry, text⟩ := Paging.page_next _ _ empty
      exact entry.normalizedPath.text_ne_empty text
  · rw [flat]
    exact Paging.arrange_perm entries
  · rw [flat]
    exact Paging.arrange_pairwise distinct

private theorem strictTotalOrder_text : IsStrictTotalOrder String (· < ·) where
  irrefl := String.lt_irrefl
  trans := fun _ _ _ => String.lt_trans
  trichotomous := fun _ _ before after => String.le_antisymm after before

theorem pages_of_the_small_directory :
    ∃ fuel pages,
      Sdk.followPages (fun cursor => pageBy (· < ·) cursor (-3)
        ((after smallS3App ⟨{}, smallS3⟩ smallDirectory).db.entriesOf 0)) fuel none = some pages ∧
      pages.flatten.Perm ((after smallS3App ⟨{}, smallS3⟩ smallDirectory).db.entriesOf 0) ∧
      pages.flatten.Pairwise fun first second =>
        first.normalizedPath.text < second.normalizedPath.text :=
  haveI := strictTotalOrder_text
  (pages_are_all_entries smallS3App (by decide) smallDirectory 0 (-3)).2 (· < ·)

end PyUploadX
