import PyUploadX.System.FilePages

/-! The files whose keys begin with a text, and those that a pattern of that text matches. -/
namespace PyUploadX

open Kit FileRepository

variable {σ : Type}

def listedFiles : Except Failure Reply → List FileObject
  | .ok (.read (.files items _)) => items
  | _ => []

/-- The pages of the listing, one after the other. -/
def servedPages (app : AppState σ) (world : World Database σ) (collation : Collation)
    (table : FileTable) (identity : Identity) (request : ListFiles) (limit count : Nat) :
    List FileObject :=
  (List.range count).flatMap fun index => listedFiles
    (serve app (table.within world) (pageRequest collation identity request limit index, 0)).1

/-- The listing has exactly the files whose keys begin with the prefix, character by character,
among those that the other filters keep. -/
def ListsLiterally (app : AppState σ) (world : World Database σ) (collation : Collation)
    (table : FileTable) (identity : Identity) (request : ListFiles) (keyPrefix : String)
    (limit : Nat) : Prop :=
  ∀ count, table.rows.length ≤ count * limit → ∀ file,
    file ∈ servedPages app world collation table identity
        { request with keyPrefix := some keyPrefix } limit count ↔
      file ∈ table.rows ∧ file.tenantId = identity.tenantId ∧
        { request with keyPrefix := none }.keeps collation file = true ∧
        List.IsPrefix keyPrefix.toList file.objectKey.text.toList

/-- The key matches the pattern of the prefix, but does not begin with it: a wildcard of the
prefix stands for something else, or an escape for nothing. -/
def Strays (collation : Collation) (keyPrefix text : String) : Prop :=
  startsWith collation keyPrefix text = true ∧ ¬ List.IsPrefix keyPrefix.toList text.toList

/-- The key begins with the prefix, but does not match its pattern. -/
def Eludes (collation : Collation) (keyPrefix text : String) : Prop :=
  List.IsPrefix keyPrefix.toList text.toList ∧ ¬ startsWith collation keyPrefix text = true

section Like

variable {collation : Collation} {keyPrefix text : String}

private theorem likeToken_spells : Token.Spells likeToken := by
  intro char
  unfold likeToken
  split
  · exact .inr (.inr rfl)
  · exact .inr (.inl rfl)
  · exact .inl rfl

/-- A prefix without the escape is read character by character. -/
theorem startsWith_unescaped (unescaped : ∀ char ∈ keyPrefix.toList, collation.escape ≠ some char)
    (text : String) : startsWith collation keyPrefix text =
      Token.accepts (keyPrefix.toList.map likeToken ++ [.many]) text.toList := by
  unfold startsWith
  rw [Token.read_plain unescaped]
  rfl

/-- No key without the escape eludes a prefix. -/
theorem not_eludes_of_unescaped (unescaped : ∀ char ∈ text.toList, collation.escape ≠ some char) :
    ¬ Eludes collation keyPrefix text := by
  rintro ⟨begins, missed⟩
  have plain : ∀ char ∈ keyPrefix.toList, collation.escape ≠ some char :=
    fun char member => unescaped char (begins.subset member)
  rw [startsWith_unescaped plain] at missed
  exact missed (Token.accepts_of_prefix likeToken_spells keyPrefix.toList begins)

private theorem likeToken_plain {char : Char} (plain : char ≠ '%' ∧ char ≠ '_') :
    likeToken char = .exactly char := by
  unfold likeToken
  split
  · exact absurd rfl plain.1
  · exact absurd rfl plain.2
  · rfl

/-- No key strays from a prefix without wildcards and without the escape. -/
theorem not_strays_of_plain (plain : ∀ char ∈ keyPrefix.toList, char ≠ '%' ∧ char ≠ '_')
    (unescaped : ∀ char ∈ keyPrefix.toList, collation.escape ≠ some char) (text : String) :
    ¬ Strays collation keyPrefix text := by
  rintro ⟨matched, strays⟩
  rw [startsWith_unescaped unescaped] at matched
  exact strays ((Token.accepts_plain_iff fun char member =>
    likeToken_plain (plain char member)).mp matched)

private theorem keeps_prefix_iff {request : ListFiles} {file : FileObject} :
    { request with keyPrefix := some keyPrefix }.keeps collation file = true ↔
      { request with keyPrefix := none }.keeps collation file = true ∧
        startsWith collation keyPrefix file.objectKey.text = true := by
  have empty : keyPrefix = "" → startsWith collation keyPrefix file.objectKey.text = true := by
    rintro rfl
    exact Token.accepts_open _
  simp only [ListFiles.keeps, Option.all_some, Option.all_none, Bool.and_eq_true, Bool.or_eq_true,
    decide_eq_true_eq, Bool.and_true]
  tauto

end Like

section Pages

variable {app : AppState σ} {world : World Database σ} {collation : Collation} {table : FileTable}
  {identity : Identity} {request : ListFiles} {limit count : Nat}

theorem mem_servedPages (enough : table.rows.length ≤ count * limit) {file : FileObject} :
    file ∈ servedPages app world collation table identity request limit count ↔
      file ∈ table.rows ∧ file.tenantId = identity.tenantId ∧ request.keeps collation file = true := by
  have lists := table.lists collation identity.tenantId request
  have fewer : (table.listing collation identity.tenantId request).length ≤ count * limit := by
    rw [← lists.total]
    exact Nat.le_trans (List.length_filter_le _ _) enough
  unfold servedPages
  simp only [serve_page, listedFiles]
  rw [Paging.slices_all fewer]
  exact lists.complete file

end Pages

/-- A listing with a prefix has exactly the files whose keys begin with it, exactly when no key
of the tenant strays from it or eludes it. -/
theorem prefix_listing_literal_iff (app : AppState σ) (world : World Database σ)
    (collation : Collation) (table : FileTable) (identity : Identity) (request : ListFiles)
    (keyPrefix : String) {limit : Nat} (positive : 1 ≤ limit) :
    ListsLiterally app world collation table identity request keyPrefix limit ↔
      ∀ file ∈ table.rows, file.tenantId = identity.tenantId →
        { request with keyPrefix := none }.keeps collation file = true →
          ¬ Strays collation keyPrefix file.objectKey.text ∧
            ¬ Eludes collation keyPrefix file.objectKey.text := by
  constructor
  · intro literal file member owner kept
    have enough : table.rows.length ≤ table.rows.length * limit := Nat.le_mul_of_pos_right _ positive
    have listed := literal _ enough file
    rw [mem_servedPages enough, keeps_prefix_iff] at listed
    constructor
    · rintro ⟨matched, strays⟩
      exact strays (listed.mp ⟨member, owner, kept, matched⟩).2.2.2
    · rintro ⟨begins, missed⟩
      exact missed (listed.mpr ⟨member, owner, kept, begins⟩).2.2.2
  · intro stays count enough file
    rw [mem_servedPages enough, keeps_prefix_iff]
    constructor
    · rintro ⟨member, owner, kept, matched⟩
      refine ⟨member, owner, kept, ?_⟩
      by_contra strays
      exact (stays file member owner kept).1 ⟨matched, strays⟩
    · rintro ⟨member, owner, kept, begins⟩
      refine ⟨member, owner, kept, ?_⟩
      by_contra missed
      exact (stays file member owner kept).2 ⟨begins, missed⟩

/-- Texts by their code points, a `NULL` above them, and a backslash as the escape. -/
def plainCollation : Collation := ⟨compare, inferInstance, false, some '\\'⟩

def axbRun : World Database MemoryS3 :=
  after smallS3App ⟨{}, smallS3⟩ [(.proxyUpload smallTenant { smallUpload with objectKey := "axb" }, 0)]

def axbTable : FileTable where
  rows := axbRun.db.fileObjects
  keyed := by decide +kernel
  readable := by decide +kernel

theorem prefix_listing_ax :
    ListsLiterally smallS3App axbRun plainCollation axbTable smallTenant {} "ax" 50 ↔
      ∀ file ∈ axbTable.rows, file.tenantId = smallTenant.tenantId →
        ({ keyPrefix := none } : ListFiles).keeps plainCollation file = true →
          ¬ Strays plainCollation "ax" file.objectKey.text ∧
            ¬ Eludes plainCollation "ax" file.objectKey.text :=
  prefix_listing_literal_iff smallS3App axbRun plainCollation axbTable smallTenant {} "ax" (by decide)

/-- The underscore stands for the `x`. -/
theorem underscore_matches_any_character :
    ¬ ListsLiterally smallS3App axbRun plainCollation axbTable smallTenant {} "a_b" 50 := by
  intro literal
  have found : ∃ file ∈ axbTable.rows, file.tenantId = smallTenant.tenantId ∧
      ({ keyPrefix := some "a_b" } : ListFiles).keeps plainCollation file = true ∧
      ¬ List.IsPrefix "a_b".toList file.objectKey.text.toList := by decide +kernel
  obtain ⟨file, member, owner, kept, strays⟩ := found
  have enough : axbTable.rows.length ≤ 1 * 50 := by decide +kernel
  refine strays ((literal 1 enough file).mp ?_).2.2.2
  exact (mem_servedPages enough).mpr ⟨member, owner, kept⟩

end PyUploadX
