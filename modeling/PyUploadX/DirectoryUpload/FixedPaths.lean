import PyUploadX.Sdk.Paths
import PyUploadX.Storage.SafeJoin

/-! Normalized paths that are normalized once more: which of them are fixed points. -/
namespace PyUploadX

open Kit

/-- The path is of none of the forms that are refused: no root, no parent and no drive. -/
structure InsidePath (text : String) : Prop where
  relative : text.toList.head? ≠ some '/'
  confined : ".." ∉ splitPath text
  driveless : text.toList[1]? ≠ some ':'

/-- The key is its own normal form, and `add_entries` can put it behind a prefix. -/
structure FixedPath (nfc : String → String) (maximumDepth maximumBytes : Nat) (key : ObjectKey) :
    Prop where
  fixed : normalizeRelativePath nfc maximumDepth maximumBytes key.text = .ok key
  inside : InsidePath key.text
  joins : maximumDepth = 64 → maximumBytes = 1024 →
    ∀ directory, ∃ joined, joinPrefix nfc directory key.text = .ok joined

/-- The first segment that says anything looks like a drive. -/
def LeadingDrive (nfc : String → String) (rawPath : String) : Prop :=
  ∃ segment ∈ (meaningful (splitPath (nfc (Sdk.forwardSlashes rawPath)))).head?,
    segment.toList[1]? = some ':'

section Shape

theorem ObjectKey.text_toList (key : ObjectKey) :
    ∃ first others tail, key.segments = first :: others ∧ first ≠ "" ∧
      key.text.toList = first.toList ++ tail ∧ (tail = [] ∨ tail.head? = some '/') := by
  obtain ⟨first, others, segments⟩ := List.exists_cons_of_ne_nil key.nonempty
  have filled := (key.ordinary first (by rw [segments]; exact List.mem_cons_self)).1
  refine ⟨first, others, ?_⟩
  cases others with
  | nil =>
    refine ⟨[], segments, filled, ?_, .inl rfl⟩
    rw [ObjectKey.text, segments, List.append_nil]
    rfl
  | cons second rest =>
    refine ⟨'/' :: ("/".intercalate (second :: rest)).toList, segments, filled, ?_, .inr rfl⟩
    rw [ObjectKey.text, segments, String.intercalate_cons_cons, String.toList_append,
      String.toList_append, List.append_assoc]
    rfl

theorem ObjectKey.text_head (key : ObjectKey) : key.text.toList.head? ≠ some '/' := by
  obtain ⟨first, others, tail, segments, filled, text, _⟩ := key.text_toList
  obtain ⟨char, rest, chars⟩ :=
    List.exists_cons_of_ne_nil fun empty => filled (String.toList_eq_nil_iff.mp empty)
  have unslashed := (key.ordinary first (by rw [segments]; exact List.mem_cons_self)).2.2.2
  rw [text, chars, List.cons_append, List.head?_cons]
  rintro same
  cases same
  exact unslashed (by rw [chars]; exact List.mem_cons_self)

theorem ObjectKey.text_drive (key : ObjectKey) :
    key.text.toList[1]? = some ':' ↔
      ∃ segment ∈ key.segments.head?, segment.toList[1]? = some ':' := by
  obtain ⟨first, others, tail, segments, filled, text, ends⟩ := key.text_toList
  obtain ⟨char, rest, chars⟩ :=
    List.exists_cons_of_ne_nil fun empty => filled (String.toList_eq_nil_iff.mp empty)
  rw [segments, text]
  simp only [List.head?_cons, Option.mem_some_iff, exists_eq_left']
  rw [chars]
  cases rest with
  | nil =>
    refine iff_of_false ?_ (by simp)
    rcases ends with rfl | slash
    · simp
    · rw [List.cons_append, List.nil_append, List.getElem?_cons_succ, ← List.head?_eq_getElem?, slash]
      decide
  | cons second others => simp

end Shape

section Again

variable {nfc : String → String} {maximumDepth maximumBytes : Nat} {rawPath : String}
  {key : ObjectKey}

/-- What the second pass looks at is the text of the key as it is. -/
theorem key_text_normal (forms : Sdk.NormalForms nfc)
    (accepted : normalizeRelativePath nfc maximumDepth maximumBytes rawPath = .ok key) :
    nfc (Sdk.forwardSlashes key.text) = key.text := by
  have normal : ∀ segment ∈ key.segments, nfc segment = segment ∧ '\\' ∉ segment.toList :=
    fun _ member => Sdk.segment_normal forms (normalizeRelativePath_iff.mp accepted).2 member
  rw [Sdk.forwardSlashes_eq_self (Sdk.text_forward fun segment member => (normal segment member).2)]
  apply splitPath_injective
  rw [forms.segmentwise, splitPath_text]
  conv_rhs => rw [← List.map_id key.segments]
  exact List.map_congr_left fun segment member => (normal segment member).1

/-- Nothing unsafe is left for a second pass. -/
theorem key_text_safe (forms : Sdk.NormalForms nfc) (plain : FormsNoReserved nfc)
    (accepted : normalizeRelativePath nfc maximumDepth maximumBytes rawPath = .ok key) :
    ¬ UnsafePath nfc key.text := by
  rintro (⟨char, member, control⟩ | ⟨piece, member, dangerous⟩)
  · have other : char ≠ '/' := by
      rintro rfl
      exact absurd control (by decide)
    obtain ⟨chars, present, inside⟩ := exists_mem_splitOn other member
    have segment : String.ofList chars ∈ splitPath key.text := List.mem_map_of_mem present
    rw [splitPath_text] at segment
    have free := normalizeRelativePath_chars plain accepted _ segment char
      (by rwa [String.toList_ofList])
    rw [free.2] at control
    cases control
  · rw [key_text_normal forms accepted, splitPath_text] at member
    obtain ⟨safe, taken⟩ := normalizeRelativePath_iff.mp accepted
    rw [(Sdk.normalizeRelativePath_iff.mp taken).2] at member
    exact safe (.inr ⟨piece, List.mem_of_mem_filter member, dangerous⟩)

theorem refusedPath_text_iff
    (accepted : normalizeRelativePath nfc maximumDepth maximumBytes rawPath = .ok key) :
    RefusedPath maximumDepth maximumBytes key.text ↔ key.text.toList[1]? = some ':' := by
  obtain ⟨deep, long⟩ := normalizeRelativePath_bounds accepted
  constructor
  · unfold RefusedPath
    rw [splitPath_text, meaningful_ordinary key.ordinary]
    rintro (absolute | drive | up | empty | deeper | longer)
    · exact absurd absolute key.text_head
    · exact drive
    · exact absurd rfl (key.ordinary ".." up).2.2.1
    · exact absurd empty key.nonempty
    · exact absurd deep (Nat.not_le.mpr deeper)
    · exact absurd long (Nat.not_le.mpr longer)
  · exact fun drive => .inr (.inl drive)

private theorem normalize_text_iff (forms : Sdk.NormalForms nfc) (plain : FormsNoReserved nfc)
    (accepted : normalizeRelativePath nfc maximumDepth maximumBytes rawPath = .ok key) :
    normalizeRelativePath nfc maximumDepth maximumBytes key.text = .ok key ↔
      key.text.toList[1]? ≠ some ':' := by
  rw [normalizeRelativePath_iff, Sdk.normalizeRelativePath_iff, key_text_normal forms accepted,
    refusedPath_text_iff accepted, splitPath_text, meaningful_ordinary key.ordinary]
  exact ⟨fun both => both.2.1, fun driveless => ⟨key_text_safe forms plain accepted, driveless, rfl⟩⟩

end Again

/-- An accepted path is a fixed point, and of no form that is refused, exactly when no drive comes
to the front of it as the dots and the empty segments go. -/
theorem normalized_path_fixed_iff {nfc : String → String} (forms : Sdk.NormalForms nfc)
    (plain : FormsNoReserved nfc) {maximumDepth maximumBytes : Nat} {rawPath : String}
    {key : ObjectKey}
    (accepted : normalizeRelativePath nfc maximumDepth maximumBytes rawPath = .ok key) :
    FixedPath nfc maximumDepth maximumBytes key ↔ ¬ LeadingDrive nfc rawPath := by
  obtain ⟨_, taken⟩ := normalizeRelativePath_iff.mp accepted
  have leading : LeadingDrive nfc rawPath ↔ key.text.toList[1]? = some ':' := by
    rw [LeadingDrive, ← (Sdk.normalizeRelativePath_iff.mp taken).2, key.text_drive]
  rw [leading]
  constructor
  · exact fun fixed => fixed.inside.driveless
  · intro driveless
    have again := (normalize_text_iff forms plain accepted).mpr driveless
    refine ⟨again, ⟨key.text_head, ?_, driveless⟩, ?_⟩
    · rw [splitPath_text]
      exact fun up => (key.ordinary ".." up).2.2.1 rfl
    · rintro rfl rfl directory
      unfold joinPrefix
      rw [again]
      exact ⟨_, rfl⟩

private theorem formsNoReserved_id : FormsNoReserved id := fun _ _ inside _ => inside

def reportKey : ObjectKey := ⟨["docs", "report.pdf"], by decide, by decide⟩

theorem normalized_report_fixed :
    FixedPath id 64 1024 reportKey ↔ ¬ LeadingDrive id "./docs//report.pdf" :=
  normalized_path_fixed_iff Sdk.normalForms_id formsNoReserved_id
    (by decide : normalizeRelativePath id 64 1024 "./docs//report.pdf" = .ok reportKey)

/-- Behind a dot, a drive is let through; the path that comes out is refused, and no prefix can
stand before it. -/
theorem drive_behind_dot_is_not_fixed :
    ∃ key, normalizeRelativePath id 64 1024 "./C:/x" = .ok key ∧ key.text = "C:/x" ∧
      ¬ FixedPath id 64 1024 key := by
  refine ⟨⟨["C:", "x"], by decide, by decide⟩, by decide, by decide, fun fixed => ?_⟩
  exact fixed.inside.driveless (by decide)

end PyUploadX
