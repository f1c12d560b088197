import PyUploadX.Storage.PartBytes

/-! Multipart uploads that S3 has opened: which calls it accepts for them, and the entity
tags of their parts. -/
namespace PyUploadX

/-- `"…"`, as S3 sends an entity tag. -/
def quotedTag (text : String) : String := "\"" ++ text ++ "\""

/-- An entity tag between its quotes. -/
def PlainTag (text : String) : Prop := text ≠ "" ∧ '"' ∉ text.toList

/-- What S3 shows of its multipart uploads: the ones that are open, for the bucket and the
key they were opened for, and the tags of their parts. -/
structure UploadView (σ : Type) extends StoreView σ where
  part? : σ → String → ObjectKey → StorageUploadId → Nat → Option Bytes
  opened : σ → String → ObjectKey → StorageUploadId → Prop
  tag? : σ → String → ObjectKey → StorageUploadId → Nat → Option String

/-- What S3 documents about them: an upload is open from its creation until it is completed
or aborted, and its calls succeed exactly while it is. No part number is above `limit`. -/
structure S3Client.UploadLaws {σ : Type} (client : S3Client σ) (view : UploadView σ)
    (limit : Nat) : Prop extends client.PartLaws view.toStoreView view.part? where
  createMultipartUpload_opens : ∀ {bucket key state text state'},
    client.createMultipartUpload bucket key state = (.ok text, state') →
      view.opened state' bucket key (.issued text)
  uploadPart_iff : ∀ bucket key uploadId number body state, 1 ≤ number →
    ((client.uploadPart bucket key uploadId number body state).1.isOk ↔
      view.opened state bucket key uploadId)
  uploadPart_keeps : ∀ {bucket key uploadId state} number body,
    view.opened state bucket key uploadId →
      view.opened (client.uploadPart bucket key uploadId number body state).2 bucket key uploadId
  uploadPart_tags : ∀ {bucket key uploadId number body state etag state'},
    client.uploadPart bucket key uploadId number body state = (.ok etag, state') →
      ∃ text, PlainTag text ∧ etag = some (quotedTag text) ∧
        view.tag? state' bucket key uploadId number = some text
  uploadPart_otherTags : ∀ bucket key uploadId number body state other, other ≠ number →
    view.tag? (client.uploadPart bucket key uploadId number body state).2 bucket key uploadId
      other = view.tag? state bucket key uploadId other
  listParts_opened : ∀ {bucket key uploadId state} marker,
    view.opened state bucket key uploadId →
      ∃ page, client.listParts bucket key uploadId marker state = .ok page
  listParts_tags : ∀ {bucket key uploadId marker state page},
    client.listParts bucket key uploadId marker state = .ok page → ∀ part ∈ page.parts,
      ∃ text, PlainTag text ∧ part.etag = some (quotedTag text) ∧
        view.tag? state bucket key uploadId part.partNumber = some text
  listParts_advances : ∀ {bucket key uploadId marker state page},
    client.listParts bucket key uploadId marker state = .ok page → page.isTruncated = true →
      ∃ next, page.nextPartNumberMarker = some next ∧ marker < next ∧ next ≤ limit
  completeMultipartUpload_succeeds : ∀ {bucket key uploadId state} named,
    view.opened state bucket key uploadId → named ≠ [] →
    (named.map (·.1)).Pairwise (· < ·) →
    (∀ part ∈ named, 1 ≤ part.1 ∧ ∃ text,
      view.tag? state bucket key uploadId part.1 = some text ∧ part.2 = quotedTag text) →
      ∃ etag state', client.completeMultipartUpload bucket key uploadId named state =
        (.ok etag, state')

namespace S3StorageAdapter

private theorem dropQuotes_quote (letters : List Char) :
    ('"' :: letters).dropWhile (· == '"') = letters.dropWhile (· == '"') := rfl

private theorem dropQuotes_of_plain {letters : List Char} (plain : '"' ∉ letters) :
    letters.dropWhile (· == '"') = letters := by
  cases letters with
  | nil => rfl
  | cons letter rest =>
    apply List.dropWhile_cons_of_neg
    intro quote
    exact plain (beq_iff_eq.mp quote ▸ List.mem_cons_self)

/-- The adapter keeps tags without their quotes. -/
theorem etagOf_quoted {text : String} (plain : PlainTag text) :
    etagOf (some (quotedTag text)) = some text := by
  obtain ⟨filled, unquoted⟩ := plain
  have letters : (quotedTag text).toList = '"' :: (text.toList ++ ['"']) := by
    simp [quotedTag]
  have front : (text.toList ++ ['"']).dropWhile (· == '"') = text.toList ++ ['"'] := by
    cases spelled : text.toList with
    | nil => exact absurd (String.toList_eq_nil_iff.mp spelled) filled
    | cons letter rest =>
      apply List.dropWhile_cons_of_neg
      intro quote
      rw [spelled] at unquoted
      exact unquoted (beq_iff_eq.mp quote ▸ List.mem_cons_self)
  have back : (text.toList ++ ['"']).reverse.dropWhile (· == '"') = text.toList.reverse := by
    rw [List.reverse_append, List.reverse_singleton, List.singleton_append, dropQuotes_quote]
    exact dropQuotes_of_plain fun member => unquoted (List.mem_reverse.mp member)
  have nonempty : quotedTag text ≠ "" := by
    intro empty
    rw [empty] at letters
    cases letters
  have stripped : stripQuotes (quotedTag text) = text := by
    unfold stripQuotes
    rw [letters, dropQuotes_quote, front, back, List.reverse_reverse, String.ofList_toList]
  change (if quotedTag text = "" then none else some (stripQuotes (quotedTag text))) = some text
  rw [if_neg nonempty, stripped]

variable {σ : Type} {client : S3Client σ} {view : UploadView σ} {limit : Nat}

/-- A part of an open upload as it is listed: with its own tag. -/
def Tagged (view : UploadView σ) (state : σ) (bucket : String) (key : ObjectKey)
    (uploadId : StorageUploadId) (part : UploadedPart) : Prop :=
  PlainTag part.etag ∧ view.tag? state bucket key uploadId part.partNumber = some part.etag

/-- The listing of an open upload comes to its end, since every page moves the marker. -/
theorem listPages_run (laws : client.UploadLaws view limit) {bucket : String} {key : ObjectKey}
    {uploadId : StorageUploadId} {state : σ} (opened : view.opened state bucket key uploadId)
    {fuel marker : Nat} {parts : List UploadedPart} (enough : limit - marker < fuel)
    (tagged : ∀ part ∈ parts, Tagged view state bucket key uploadId part) :
    ∃ listed, listPages client bucket key uploadId state fuel marker parts = .ok listed ∧
      ∀ part ∈ listed, Tagged view state bucket key uploadId part := by
  induction fuel generalizing marker parts with
  | zero => exact absurd enough (Nat.not_lt_zero _)
  | succ fuel ih =>
    obtain ⟨page, answer⟩ := laws.listParts_opened marker opened
    have grown : ∀ part ∈ parts ++ page.parts.map listedPart,
        Tagged view state bucket key uploadId part := by
      intro part member
      rcases List.mem_append.mp member with old | new
      · exact tagged part old
      · obtain ⟨source, listed, rfl⟩ := List.mem_map.mp new
        obtain ⟨text, plain, etag, known⟩ := laws.listParts_tags answer source listed
        have stripped : (listedPart source).etag = text := by
          rw [listedPart, etag, etagOf_quoted plain]
          rfl
        unfold Tagged
        rw [stripped]
        exact ⟨plain, known⟩
    rw [listPages_page answer]
    by_cases truncated : page.isTruncated = true
    · obtain ⟨next, named, further, bounded⟩ := laws.listParts_advances answer truncated
      rw [if_pos truncated, named]
      exact ih (by dsimp only [Option.getD_some]; omega) grown
    · rw [if_neg truncated]
      exact ⟨_, rfl, grown⟩

private theorem completionPayload_numbers (parts : List UploadedPart) :
    (completionPayload parts).map (·.1) =
      (parts.insertionSort fun first second => first.partNumber ≤ second.partNumber).map
        (·.partNumber) := by
  rw [completionPayload, List.map_map]
  rfl

/-- Parts that are listed, each with its tag, are accepted for completion. -/
theorem completeMultipartUpload_run (laws : client.UploadLaws view limit) {bucket : String}
    {key : ObjectKey} {uploadId : StorageUploadId} {state : σ} {parts : List UploadedPart}
    (opened : view.opened state bucket key uploadId) (filled : parts ≠ [])
    (distinct : (parts.map (·.partNumber)).Nodup) (numbered : ∀ part ∈ parts, 1 ≤ part.partNumber)
    (tagged : ∀ part ∈ parts, Tagged view state bucket key uploadId part) :
    ∃ stored state',
      completeMultipartUpload client bucket key uploadId parts state = (.ok stored, state') := by
  have perm := List.perm_insertionSort
    (fun first second : UploadedPart => first.partNumber ≤ second.partNumber) parts
  have ascending : ((completionPayload parts).map (·.1)).Pairwise (· < ·) := by
    rw [completionPayload_numbers]
    have nodup := (perm.map (·.partNumber)).nodup_iff.mpr distinct
    have sorted : ((parts.insertionSort fun first second =>
        first.partNumber ≤ second.partNumber).map (·.partNumber)).Pairwise (· ≤ ·) := by
      rw [List.pairwise_map]
      exact List.pairwise_insertionSort _ _
    exact (sorted.and nodup).imp fun both => lt_of_le_of_ne both.1 both.2
  have named : ∀ part ∈ completionPayload parts, 1 ≤ part.1 ∧ ∃ text,
      view.tag? state bucket key uploadId part.1 = some text ∧ part.2 = quotedTag text := by
    intro part member
    obtain ⟨source, listed, rfl⟩ := List.mem_map.mp member
    have given := perm.mem_iff.mp listed
    exact ⟨numbered source given, source.etag, (tagged source given).2, rfl⟩
  have nonempty : completionPayload parts ≠ [] := by
    intro empty
    have length := perm.length_eq
    rw [List.map_eq_nil_iff.mp empty, List.length_nil] at length
    exact filled (List.length_eq_zero_iff.mp length.symm)
  obtain ⟨etag, state', done⟩ :=
    laws.completeMultipartUpload_succeeds _ opened nonempty ascending named
  refine ⟨{ bucket, objectKey := key, sizeBytes := 0, etag := etagOf etag }, state', ?_⟩
  unfold completeMultipartUpload
  rw [done]
  rfl

end S3StorageAdapter

namespace MemoryS3

def uploadView (md5 : Bytes → String) : UploadView MemoryS3 where
  toStoreView := view
  part? := part?
  opened state _ _ uploadId := (state.uploads.lookup uploadId).isSome
  tag? state bucket key uploadId number := (part? state bucket key uploadId number).map md5

/-- No page is ever truncated, so any limit on the numbers will do. -/
theorem client_uploadLaws {md5 : Bytes → String} (plain : ∀ content, PlainTag (md5 content))
    (limit : Nat) : (client md5).UploadLaws (uploadView md5) limit where
  toPartLaws := client_partLaws md5
  createMultipartUpload_opens := by
    intro bucket key state text state' done
    change createMultipartUpload bucket key state = _ at done
    unfold createMultipartUpload at done
    split at done
    · cases done
      change ((AList.insert _ _ _).lookup _).isSome = true
      rw [AList.lookup_insert]
      rfl
    · cases done
  uploadPart_iff bucket key uploadId number body state positive := by
    change (uploadPart md5 uploadId number body state).1.isOk ↔
      (state.uploads.lookup uploadId).isSome
    unfold uploadPart
    cases state.uploads.lookup uploadId with
    | none => exact iff_of_false Bool.false_ne_true Bool.false_ne_true
    | some parts =>
      dsimp only
      rw [if_neg (Nat.ne_of_gt positive)]
      exact iff_of_true rfl rfl
  uploadPart_keeps := by
    intro bucket key uploadId state number body opened
    change ((uploadPart md5 uploadId number body state).2.uploads.lookup uploadId).isSome = true
    unfold uploadPart
    split
    · exact opened
    · split
      · exact opened
      · rw [AList.lookup_insert]
        rfl
  uploadPart_tags := by
    intro bucket key uploadId number body state etag state' done
    have stored := (client_partLaws md5).uploadPart_ok done
    change uploadPart md5 uploadId number body state = _ at done
    unfold uploadPart at done
    split at done
    · cases done
    · split at done
      · cases done
      · cases done
        exact ⟨md5 body, plain body, rfl, congrArg (Option.map md5) stored⟩
  uploadPart_otherTags bucket key uploadId number body state other different :=
    congrArg (Option.map md5)
      ((client_partLaws md5).uploadPart_others bucket key uploadId number body state other different)
  listParts_opened := by
    intro bucket key uploadId state marker opened
    obtain ⟨parts, found⟩ := Option.isSome_iff_exists.mp opened
    change ∃ page, listParts md5 uploadId marker state = .ok page
    unfold listParts
    rw [found]
    exact ⟨_, rfl⟩
  listParts_tags := by
    intro bucket key uploadId marker state page listed
    change listParts md5 uploadId marker state = .ok page at listed
    unfold listParts at listed
    split at listed
    · cases listed
    · rename_i parts found
      cases listed
      intro part member
      obtain ⟨number, inKeys, rfl⟩ := List.mem_map.mp member
      have present := (List.mem_filter.mp ((List.mem_insertionSort _).mp inKeys)).1
      obtain ⟨body, stored⟩ := Option.isSome_iff_exists.mp
        (AList.lookup_isSome.mpr (AList.mem_keys.mpr present))
      refine ⟨md5 body, plain body, ?_, ?_⟩
      · change Option.map _ (parts.lookup number) = _
        rw [stored]
        rfl
      · change Option.map md5 ((partsOf state uploadId).lookup number) = _
        rw [partsOf, found]
        exact congrArg (Option.map md5) stored
  listParts_advances := by
    intro bucket key uploadId marker state page listed truncated
    change listParts md5 uploadId marker state = .ok page at listed
    unfold listParts at listed
    split at listed
    · cases listed
    · cases listed
      cases truncated
  completeMultipartUpload_succeeds := by
    intro bucket key uploadId state named opened _ _ tagged
    obtain ⟨parts, found⟩ := Option.isSome_iff_exists.mp opened
    change ∃ etag state', completeMultipartUpload md5 bucket key uploadId named state = _
    have accepted : (named.all fun part => 0 < part.1 &&
        (parts.lookup part.1).any fun body => decide (quoted (md5 body) = part.2)) = true := by
      refine List.all_eq_true.mpr fun part member => ?_
      obtain ⟨positive, text, known, quoted⟩ := tagged part member
      obtain ⟨body, stored, rfl⟩ := Option.map_eq_some_iff.mp known
      rw [part?, partsOf, found] at stored
      have stored : parts.lookup part.1 = some body := stored
      rw [stored, quoted]
      exact Bool.and_eq_true_iff.mpr ⟨decide_eq_true positive, decide_eq_true rfl⟩
    unfold completeMultipartUpload
    rw [found]
    dsimp only
    rw [if_pos accepted]
    exact ⟨_, _, rfl⟩

end MemoryS3

end PyUploadX
