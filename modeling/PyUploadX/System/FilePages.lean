import PyUploadX.Db.FileListing
import PyUploadX.Kit.Paging
import PyUploadX.Storage.Factory
import PyUploadX.System

/-! The listing of the files of a tenant, page by page. -/
namespace PyUploadX

open Kit Kit.OrderBy FileRepository

variable {σ : Type}

/-- A table of files: the rows have their own ids, and can be read. -/
structure FileTable where
  rows : List FileObject
  keyed : (rows.map (·.id)).Nodup
  readable : ∀ file ∈ rows, file.loadable = true

def FileTable.within (table : FileTable) (world : World Database σ) : World Database σ :=
  { world with db := { world.db with fileObjects := table.rows } }

/-- The request for the page of an index. -/
def pageRequest (collation : Collation) (identity : Identity) (request : ListFiles)
    (limit index : Nat) : Request :=
  .read identity (.listFiles ({ request with limit, offset := index * limit }.query collation))

/-- The comparison goes in the direction of the order. -/
def FileRepository.SortDirection.Follows : SortDirection → Ordering → Prop
  | .asc, order => order = .lt
  | .desc, order => order = .gt

/-- The first row comes before the second one by the column; a file without an expiry comes
last in both directions. -/
def Ahead (collation : Collation) (direction : SortDirection) (column : SortColumn)
    (first second : FileObject) : Prop :=
  if column = .expiresAt then
    match first.expiresAt, second.expiresAt with
    | some earlier, some later => direction.Follows (compare earlier later)
    | some _, none => True
    | none, _ => False
  else direction.Follows (column.compare collation collation.nullsLow first second)

/-- The first row comes before the second one: by the chosen column, then by the key, then by
the id. -/
def Precedes (collation : Collation) (request : ListFiles) (first second : FileObject) : Prop :=
  Ahead collation request.direction request.column first second ∨
    request.column.compare collation collation.nullsLow first second = .eq ∧
      (collation.compare first.objectKey.text second.objectKey.text = .lt ∨
        collation.compare first.objectKey.text second.objectKey.text = .eq ∧ first.id < second.id)

/-- The list has every row that matches once, in the order that is asked for, and `total` of
them. -/
structure Lists (collation : Collation) (tenantId : String) (request : ListFiles)
    (rows listing : List FileObject) (total : Nat) : Prop where
  once : listing.Nodup
  complete : ∀ file, file ∈ listing ↔
    file ∈ rows ∧ file.tenantId = tenantId ∧ request.keeps collation file = true
  total : total = listing.length
  ordered : listing.Pairwise (Precedes collation request)

section Ordering

variable {collation : Collation} {request : ListFiles} {first second : FileObject}

instance compare_trans (collation : Collation) (low : Bool) (column : SortColumn) :
    Std.TransCmp (column.compare collation low) := by
  cases column <;> exact inferInstanceAs (Std.TransCmp (along _ _))

instance term_trans (collation : Collation) (column : SortColumn) (direction : SortDirection)
    (nullsLast : Bool) : Std.TransCmp (column.term collation direction nullsLast) := by
  cases direction with
  | asc => exact inferInstanceAs (Std.TransCmp (column.compare _ _))
  | desc => exact inferInstanceAs (Std.TransCmp (descending (column.compare _ _)))

instance ordering_trans (collation : Collation) (request : ListFiles) :
    Std.TransCmp (byTerms (request.ordering collation)) := by
  refine byTerms_trans fun term member => ?_
  unfold ListFiles.ordering at member
  simp only [List.mem_append, List.mem_singleton] at member
  rcases member with (rfl | tie) | rfl
  · infer_instance
  · split at tie
    · rw [List.mem_singleton.mp tie]
      infer_instance
    · cases tie
  · infer_instance

/-- The only column whose missing values are put last is the expiry. -/
theorem column_expiresAt_iff : request.column = .expiresAt ↔ request.field = "expires_at" := by
  unfold ListFiles.column
  constructor
  · intro column
    unfold sortableColumns at column
    split at column <;> first | assumption | cases column
  · intro field
    rw [field]
    rfl

theorem compare_tie {column : SortColumn} {low : Bool} (low' : Bool)
    (tie : column.compare collation low first second = .eq) :
    column.compare collation low' first second = .eq := by
  cases column with
  | contentType | expiresAt => exact withNulls_tie low' tie
  | _ => exact tie

theorem term_tie {column : SortColumn} {direction : SortDirection} {nullsLast : Bool}
    (tie : column.term collation direction nullsLast first second = .eq) :
    column.compare collation collation.nullsLow first second = .eq := by
  cases direction with
  | asc => exact compare_tie _ tie
  | desc =>
    have tied : column.compare collation collation.nullsLow second first = .eq :=
      compare_tie _ tie
    rw [@Std.OrientedCmp.eq_swap _ (column.compare collation collation.nullsLow) _ first second, tied]
    rfl

theorem term_ahead {column : SortColumn} {direction : SortDirection}
    (before : column.term collation direction (decide (column = .expiresAt)) first second = .lt) :
    Ahead collation direction column first second := by
  unfold Ahead
  by_cases expiry : column = .expiresAt
  · subst expiry
    rw [if_pos rfl]
    rw [decide_eq_true rfl] at before
    cases direction with
    | asc =>
      have earlier : withNulls false Ord.compare first.expiresAt second.expiresAt = .lt := before
      cases ends : first.expiresAt <;> cases ends' : second.expiresAt <;>
        rw [ends, ends'] at earlier
      · cases earlier
      · cases earlier
      · trivial
      · exact earlier
    | desc =>
      have later : withNulls true Ord.compare second.expiresAt first.expiresAt = .lt := before
      cases ends : first.expiresAt <;> cases ends' : second.expiresAt <;>
        rw [ends, ends'] at later
      · cases later
      · cases later
      · trivial
      · exact Std.OrientedCmp.gt_of_lt later
  · rw [if_neg expiry]
    rw [decide_eq_false expiry] at before
    cases direction with
    | asc => exact before
    | desc =>
      have after : column.compare collation collation.nullsLow second first = .lt := before
      change column.compare collation collation.nullsLow first second = .gt
      rw [@Std.OrientedCmp.eq_swap _ (column.compare collation collation.nullsLow) _ first second,
        after]
      rfl

private theorem byId_tie (tie : along (·.id) Ord.compare first second = .eq) : first.id = second.id :=
  Std.LawfulEqOrd.eq_of_compare tie

private theorem byId_before (before : byTerms [along (·.id) Ord.compare] first second = .lt) :
    first.id < second.id := by
  rcases Ordering.then_eq_lt.mp before with below | ⟨_, none⟩
  · exact Nat.compare_eq_lt.mp below
  · cases none

theorem ordering_tie (tie : byTerms (request.ordering collation) first second = .eq) :
    first.id = second.id := by
  unfold ListFiles.ordering at tie
  by_cases keyed : request.field = "object_key"
  · rw [if_neg (not_not_intro keyed)] at tie
    exact byId_tie (Ordering.then_eq_eq.mp (Ordering.then_eq_eq.mp tie).2).1
  · rw [if_pos keyed] at tie
    exact byId_tie
      (Ordering.then_eq_eq.mp (Ordering.then_eq_eq.mp (Ordering.then_eq_eq.mp tie).2).2).1

/-- Where the first term ties, the key and the id decide. -/
theorem ordering_precedes (before : byTerms (request.ordering collation) first second = .lt) :
    Precedes collation request first second := by
  have last : decide (request.field ∈ nullsLastSortFields) =
      decide (request.column = .expiresAt) := by
    rw [decide_eq_decide, column_expiresAt_iff]
    exact List.mem_singleton
  unfold ListFiles.ordering at before
  rw [last] at before
  rcases Ordering.then_eq_lt.mp before with ahead | ⟨tie, later⟩
  · exact .inl (term_ahead ahead)
  · refine .inr ⟨term_tie tie, ?_⟩
    by_cases keyed : request.field = "object_key"
    · have column : request.column = .objectKey := by
        unfold ListFiles.column
        rw [keyed]
        rfl
      rw [if_neg (not_not_intro keyed)] at later
      rw [column] at tie
      exact .inr ⟨term_tie tie, byId_before later⟩
    · rw [if_pos keyed] at later
      rcases Ordering.then_eq_lt.mp later with below | ⟨same, last⟩
      · exact .inl below
      · exact .inr ⟨same, byId_before last⟩

end Ordering

section Pages

variable {app : AppState σ} {collation : Collation} {identity : Identity} {request : ListFiles}

/-- The rows of the tenant that the filters keep. -/
def FileTable.matching (table : FileTable) (collation : Collation) (tenantId : String)
    (request : ListFiles) : List FileObject :=
  table.rows.filter fun file => file.tenantId = tenantId && request.keeps collation file

/-- The whole listing, in its order. -/
def FileTable.listing (table : FileTable) (collation : Collation) (tenantId : String)
    (request : ListFiles) : List FileObject :=
  arrange (byTerms (request.ordering collation)) (table.matching collation tenantId request)

private theorem FileTable.mem_matching {table : FileTable} {tenantId : String} {file : FileObject} :
    file ∈ table.matching collation tenantId request ↔
      file ∈ table.rows ∧ file.tenantId = tenantId ∧ request.keeps collation file = true := by
  simp [FileTable.matching]

/-- No two rows of a table tie. -/
theorem FileTable.untied (table : FileTable) {tenantId : String} :
    ∀ first ∈ table.matching collation tenantId request, ∀ second ∈ table.matching collation tenantId request,
      byTerms (request.ordering collation) first second = .eq → first = second := by
  intro first member second member' tie
  exact List.inj_on_of_nodup_map table.keyed (FileTable.mem_matching.mp member).1
    (FileTable.mem_matching.mp member').1 (ordering_tie tie)

theorem FileTable.lists (table : FileTable) (collation : Collation) (tenantId : String)
    (request : ListFiles) :
    Lists collation tenantId request table.rows (table.listing collation tenantId request)
      (table.matching collation tenantId request).length := by
  have perm := arrange_perm (byTerms (request.ordering collation)) (table.matching collation tenantId request)
  have apart : (table.matching collation tenantId request).Nodup := table.keyed.of_map.filter _
  exact {
    once := perm.nodup_iff.mpr apart
    complete := fun file => perm.mem_iff.trans FileTable.mem_matching
    total := perm.length_eq.symm
    ordered := (arrange_strict apart table.untied).imp ordering_precedes }

theorem FileTable.listing_congr {table other : FileTable} (same : table.rows.Perm other.rows)
    (tenantId : String) :
    table.listing collation tenantId request = other.listing collation tenantId request :=
  arrange_congr (same.filter _) table.untied

/-- A page is a slice of the listing, and nothing is changed. -/
theorem serve_page (app : AppState σ) (world : World Database σ) (table : FileTable)
    (limit index : Nat) (now : Timestamp) :
    serve app (table.within world) (pageRequest collation identity request limit index, now) =
      (.ok (.read (.files (Paging.slice limit (index * limit)
          (table.listing collation identity.tenantId request))
        (table.matching collation identity.tenantId request).length)), table.within world) := by
  have readable : ∀ file ∈ Paging.slice limit (index * limit)
      (table.listing collation identity.tenantId request), file.loadable = true := by
    intro file member
    have listed := List.mem_of_mem_drop (List.mem_of_mem_take member)
    have kept := (arrange_perm _ (table.matching collation identity.tenantId request)).mem_iff.mp listed
    exact table.readable file (FileTable.mem_matching.mp kept).1
  apply World.execute_eq_ok.mpr
  refine Program.bind_pure_eq_ok.mpr ⟨_, Program.select_bind_ok.mpr ⟨(_, _), ?_, rfl⟩, rfl⟩
  exact if_pos (List.all_eq_true.mpr readable)

end Pages

/-- The pages of a listing, one after the other, are all the rows that match, each of them
once and in the order that is asked for, whatever the order of the rows in the table. -/
theorem file_pages_list_all_matches (app : AppState σ) (world : World Database σ)
    (collation : Collation) (table : FileTable) (identity : Identity) (request : ListFiles)
    (limit : Nat) :
    ∃ (pages : Nat → List FileObject) (total : Nat),
      (∀ other : FileTable, other.rows.Perm table.rows → ∀ index now,
        serve app (other.within world) (pageRequest collation identity request limit index, now) =
          (.ok (.read (.files (pages index) total)), other.within world)) ∧
      ∀ count, total ≤ count * limit →
        Lists collation identity.tenantId request table.rows
          ((List.range count).flatMap pages) total := by
  have lists := table.lists collation identity.tenantId request
  refine ⟨fun index => Paging.slice limit (index * limit)
    (table.listing collation identity.tenantId request),
    (table.matching collation identity.tenantId request).length, ?_, ?_⟩
  · intro other same index now
    have total : (other.matching collation identity.tenantId request).length =
        (table.matching collation identity.tenantId request).length := (same.filter _).length_eq
    rw [serve_page, FileTable.listing_congr same, total]
  · intro count enough
    rw [lists.total] at enough
    rw [Paging.slices_all enough]
    exact lists

end PyUploadX
