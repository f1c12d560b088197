import PyUploadX.Sdk.Manifest

/-! The two normalizations of relative paths, the SDK's and the server's, side by side. -/
namespace PyUploadX

open Kit

/-- The pieces between the slashes that say anything. -/
def meaningful (pieces : List String) : List String :=
  pieces.filter fun piece => piece ≠ "" ∧ piece ≠ "."

/-- What both sides refuse of a path with forward slashes in normal form. -/
def RefusedPath (maximumDepth maximumBytes : Nat) (path : String) : Prop :=
  path.toList.head? = some '/' ∨ path.toList[1]? = some ':' ∨ ".." ∈ splitPath path ∨
    meaningful (splitPath path) = [] ∨ maximumDepth < (meaningful (splitPath path)).length ∨
    maximumBytes < ("/".intercalate (meaningful (splitPath path))).utf8ByteSize

/-- What only the server refuses: control characters of the path as it was sent, and unsafe
segments of its normal form. -/
def UnsafePath (nfc : String → String) (rawPath : String) : Prop :=
  (∃ char ∈ rawPath.toList, isControlChar char = true) ∨
    ∃ piece ∈ splitPath (nfc (Sdk.forwardSlashes rawPath)), piece ∈ unsafeSegments

private theorem meaningful_cons_of_blank {piece : String} (blank : piece = "" ∨ piece = ".")
    (rest : List String) : meaningful (piece :: rest) = meaningful rest := by
  apply List.filter_cons_of_neg
  rcases blank with rfl | rfl <;> simp

theorem meaningful_cons {piece : String} (counts : ¬ (piece = "" ∨ piece = "."))
    (rest : List String) : meaningful (piece :: rest) = piece :: meaningful rest := by
  apply List.filter_cons_of_pos
  simpa using counts

theorem meaningful_append (first second : List String) :
    meaningful (first ++ second) = meaningful first ++ meaningful second :=
  List.filter_append _ _

theorem meaningful_ordinary {pieces : List String}
    (ordinary : ∀ piece ∈ pieces, OrdinarySegment piece) : meaningful pieces = pieces := by
  refine List.filter_eq_self.mpr fun piece member => ?_
  obtain ⟨empty, dot, _⟩ := ordinary piece member
  exact decide_eq_true ⟨empty, dot⟩

private theorem Sdk.collectSegments_iff {pieces parts : List String} :
    Sdk.collectSegments pieces = .ok parts ↔ ".." ∉ pieces ∧ parts = meaningful pieces := by
  induction pieces generalizing parts with
  | nil => simp [Sdk.collectSegments, meaningful, eq_comm]
  | cons piece rest ih =>
    unfold Sdk.collectSegments
    rw [List.mem_cons, not_or]
    split
    · rename_i blank
      have other : ".." ≠ piece := by rcases blank with rfl | rfl <;> decide
      rw [ih, meaningful_cons_of_blank blank]
      exact ⟨fun both => ⟨⟨other, both.1⟩, both.2⟩, fun both => ⟨both.1.2, both.2⟩⟩
    · rename_i counts
      rw [meaningful_cons counts]
      split
      · rename_i up
        exact iff_of_false (by simp) fun both => both.1.1 up.symm
      · rename_i inside
        rw [except_bind_eq_ok]
        constructor
        · rintro ⟨others, tail, same⟩
          obtain ⟨without, rfl⟩ := ih.mp tail
          exact ⟨⟨Ne.symm inside, without⟩, (Except.ok.inj same).symm⟩
        · rintro ⟨⟨_, without⟩, rfl⟩
          exact ⟨meaningful rest, ih.mpr ⟨without, rfl⟩, rfl⟩

theorem not_unsafe_of_blank {piece : String} (blank : piece = "" ∨ piece = ".") :
    piece ∉ unsafeSegments := by
  rcases blank with rfl | rfl <;> decide

/-- The server's loop is the SDK's, with one more thing to refuse. -/
theorem collectSegments_iff {pieces parts : List String} :
    collectSegments pieces = .ok parts ↔
      (∀ piece ∈ pieces, piece ∉ unsafeSegments) ∧ Sdk.collectSegments pieces = .ok parts := by
  induction pieces generalizing parts with
  | nil => simp [collectSegments, Sdk.collectSegments]
  | cons piece rest ih =>
    unfold collectSegments Sdk.collectSegments
    rw [List.forall_mem_cons]
    split
    · rename_i blank
      rw [ih]
      exact ⟨fun both => ⟨⟨not_unsafe_of_blank blank, both.1⟩, both.2⟩,
        fun both => ⟨both.1.2, both.2⟩⟩
    · split
      · exact iff_of_false (by simp) fun both => by cases both.2
      · split
        · rename_i dangerous
          exact iff_of_false (by simp) fun both => both.1.1 dangerous
        · rename_i safe
          rw [except_bind_eq_ok, except_bind_eq_ok]
          constructor
          · rintro ⟨others, tail, same⟩
            obtain ⟨safeRest, collected⟩ := ih.mp tail
            cases same
            exact ⟨⟨safe, safeRest⟩, others, collected, rfl⟩
          · rintro ⟨⟨_, safeRest⟩, others, collected, same⟩
            cases same
            exact ⟨others, ih.mpr ⟨safeRest, collected⟩, rfl⟩

/-- What a path in front of others brings in is refused with it alone. -/
theorem refusedPath_join {depth bytes maximumDepth maximumBytes : Nat} {first second : String}
    (accepted : ¬ RefusedPath depth bytes first) (inside : ".." ∉ splitPath second) :
    ¬ RefusedPath maximumDepth maximumBytes (first ++ "/" ++ second) ↔
      (meaningful (splitPath first) ++ meaningful (splitPath second)).length ≤ maximumDepth ∧
        ("/".intercalate (meaningful (splitPath first) ++
          meaningful (splitPath second))).utf8ByteSize ≤ maximumBytes := by
  unfold RefusedPath at accepted ⊢
  simp only [not_or] at accepted
  obtain ⟨absolute, drive, up, present, _⟩ := accepted
  have filled : first.toList ≠ [] := by
    intro empty
    rw [String.toList_eq_nil_iff.mp empty] at present
    exact present rfl
  obtain ⟨head, tail, chars⟩ := List.exists_cons_of_ne_nil filled
  have whole : (first ++ "/" ++ second).toList = head :: (tail ++ '/' :: second.toList) := by
    rw [String.toList_append, String.toList_append, chars, List.append_assoc]
    rfl
  rw [chars] at absolute drive
  have relative : (first ++ "/" ++ second).toList.head? ≠ some '/' := by
    rw [whole]
    exact absolute
  have driveless : (first ++ "/" ++ second).toList[1]? ≠ some ':' := by
    rw [whole]
    cases tail with
    | nil => simp
    | cons next rest => exact drive
  have down : ".." ∉ splitPath first ++ splitPath second :=
    fun member => (List.mem_append.mp member).elim up inside
  have more : meaningful (splitPath first) ++ meaningful (splitPath second) ≠ [] :=
    fun empty => present (List.append_eq_nil_iff.mp empty).1
  simp only [not_or, relative, driveless, down, not_false_eq_true, true_and, splitPath_join,
    meaningful_append, more, Nat.not_lt]

/-- What is refused is refused with more behind it. -/
theorem RefusedPath.join {maximumDepth maximumBytes : Nat} {first : String}
    (filled : meaningful (splitPath first) ≠ [])
    (refused : RefusedPath maximumDepth maximumBytes first) (second : String) :
    RefusedPath maximumDepth maximumBytes (first ++ "/" ++ second) := by
  have chars : (first ++ "/" ++ second).toList = first.toList ++ '/' :: second.toList := by
    rw [String.toList_append, String.toList_append, List.append_assoc]
    rfl
  unfold RefusedPath at refused ⊢
  rw [splitPath_join, meaningful_append, chars]
  rcases refused with absolute | drive | up | empty | deep | long
  · obtain ⟨rest, same⟩ := List.head?_eq_some_iff.mp absolute
    exact .inl (by rw [same]; rfl)
  · refine .inr (.inl ?_)
    rw [List.getElem?_append_left (List.getElem?_eq_some_iff.mp drive).1]
    exact drive
  · exact .inr (.inr (.inl (List.mem_append_left _ up)))
  · exact absurd empty filled
  · refine .inr (.inr (.inr (.inr (.inl ?_))))
    rw [List.length_append]
    omega
  · refine .inr (.inr (.inr (.inr (.inr ?_))))
    by_cases last : meaningful (splitPath second) = []
    · rwa [last, List.append_nil]
    · rw [String.intercalate_append_of_ne_nil filled last, String.utf8ByteSize_append,
        String.utf8ByteSize_append]
      omega

section Normalization

variable {nfc : String → String} {maximumDepth maximumBytes : Nat} {rawPath : String}
  {key : ObjectKey}

theorem Sdk.normalizeRelativePath_iff :
    Sdk.normalizeRelativePath nfc rawPath maximumDepth maximumBytes = .ok key ↔
      ¬ RefusedPath maximumDepth maximumBytes (nfc (Sdk.forwardSlashes rawPath)) ∧
        key.segments = meaningful (splitPath (nfc (Sdk.forwardSlashes rawPath))) := by
  unfold RefusedPath
  simp only [Sdk.normalizeRelativePath, not_or]
  generalize nfc (Sdk.forwardSlashes rawPath) = path
  by_cases absolute : path.toList.head? = some '/'
  · simp [absolute]
  by_cases drive : path.toList[1]? = some ':'
  · simp [drive, absolute]
  rw [if_neg absolute, if_neg drive]
  split
  · rename_i message collected
    refine iff_of_false (by simp) fun both => ?_
    have accepted := Sdk.collectSegments_iff.mpr ⟨both.1.2.2.1, rfl⟩
    rw [collected] at accepted
    cases accepted
  · rename_i parts collected
    obtain ⟨inside, rfl⟩ := Sdk.collectSegments_iff.mp collected
    split_ifs with empty deep long
    · exact iff_of_false (by simp) fun both => both.1.2.2.2.1 empty
    · exact iff_of_false (by simp) fun both => both.1.2.2.2.2.1 deep
    · exact iff_of_false (by simp) fun both => both.1.2.2.2.2.2 long
    · constructor
      · intro same
        cases same
        exact ⟨⟨absolute, drive, inside, empty, deep, long⟩, rfl⟩
      · intro both
        exact congrArg Except.ok (ObjectKey.ext_segments both.2.symm)

/-- The server accepts what the SDK accepts, unless it is unsafe. -/
theorem normalizeRelativePath_iff :
    normalizeRelativePath nfc maximumDepth maximumBytes rawPath = .ok key ↔
      ¬ UnsafePath nfc rawPath ∧
        Sdk.normalizeRelativePath nfc rawPath maximumDepth maximumBytes = .ok key := by
  rw [Sdk.normalizeRelativePath_iff]
  unfold RefusedPath UnsafePath Sdk.forwardSlashes
  simp only [normalizeRelativePath, not_or]
  split_ifs with null control absolute drive
  · obtain ⟨char, member, same⟩ := List.any_eq_true.mp null
    refine iff_of_false (by simp) fun both => both.1.1 ⟨char, member, ?_⟩
    rw [eq_of_beq same]
    rfl
  · exact iff_of_false (by simp) fun both => both.1.1 (List.any_eq_true.mp control)
  · exact iff_of_false (by simp) fun both => both.2.1.1 absolute
  · exact iff_of_false (by simp) fun both => both.2.1.2.1 drive
  split
  · rename_i message collected
    refine iff_of_false (by simp) fun both => ?_
    have accepted := collectSegments_iff.mpr
      ⟨fun piece member dangerous => both.1.2 ⟨piece, member, dangerous⟩,
        Sdk.collectSegments_iff.mpr ⟨both.2.1.2.2.1, rfl⟩⟩
    rw [collected] at accepted
    cases accepted
  · rename_i parts collected
    obtain ⟨safe, collected⟩ := collectSegments_iff.mp collected
    obtain ⟨inside, rfl⟩ := Sdk.collectSegments_iff.mp collected
    split_ifs with empty deep long
    · exact iff_of_false (by simp) fun both => both.2.1.2.2.2.1 empty
    · exact iff_of_false (by simp) fun both => both.2.1.2.2.2.2.1 deep
    · exact iff_of_false (by simp) fun both => both.2.1.2.2.2.2.2 long
    · constructor
      · intro same
        cases same
        refine ⟨⟨fun some => control (List.any_eq_true.mpr some), ?_⟩,
          ⟨absolute, drive, inside, empty, deep, long⟩, rfl⟩
        rintro ⟨piece, member, dangerous⟩
        exact safe piece member dangerous
      · intro both
        exact congrArg Except.ok (ObjectKey.ext_segments both.2.2.symm)

end Normalization

/-- The two functions agree on a path exactly when nothing in it is unsafe, or both refuse it. -/
theorem sdk_mirrors_server_iff (nfc : String → String) (rawPath : String)
    (maximumDepth maximumBytes : Nat) :
    (∀ key, Sdk.normalizeRelativePath nfc rawPath maximumDepth maximumBytes = .ok key ↔
        normalizeRelativePath nfc maximumDepth maximumBytes rawPath = .ok key) ↔
      ¬ UnsafePath nfc rawPath ∨
        RefusedPath maximumDepth maximumBytes (nfc (Sdk.forwardSlashes rawPath)) := by
  constructor
  · intro mirrors
    by_contra neither
    obtain ⟨dangerous, accepted⟩ := not_or.mp neither
    have present : meaningful (splitPath (nfc (Sdk.forwardSlashes rawPath))) ≠ [] :=
      fun empty => accepted (.inr (.inr (.inr (.inl empty))))
    have inside : ".." ∉ splitPath (nfc (Sdk.forwardSlashes rawPath)) :=
      fun up => accepted (.inr (.inr (.inl up)))
    let key : ObjectKey := ⟨_, present,
      Sdk.collectSegments_ordinary (Sdk.collectSegments_iff.mpr ⟨inside, rfl⟩)⟩
    have taken := (mirrors key).mp (Sdk.normalizeRelativePath_iff.mpr ⟨accepted, rfl⟩)
    exact dangerous (normalizeRelativePath_iff.mp taken).1
  · rintro (safe | refused) key
    · rw [normalizeRelativePath_iff]
      exact ⟨fun accepted => ⟨safe, accepted⟩, And.right⟩
    · refine iff_of_false (fun accepted => ?_) fun accepted => ?_
      · exact (Sdk.normalizeRelativePath_iff.mp accepted).1 refused
      · exact (Sdk.normalizeRelativePath_iff.mp (normalizeRelativePath_iff.mp accepted).2).1 refused

/-- A tabulator, or a segment `~`. -/
theorem sdk_accepts_more :
    (Sdk.normalizeRelativePath id "a\tb").isOk = true ∧
      normalizeRelativePath id 64 1024 "a\tb" =
        .error (.api (.invalidRelativePath "path contains control characters")) ∧
      (Sdk.normalizeRelativePath id "a/~").isOk = true ∧
      normalizeRelativePath id 64 1024 "a/~" =
        .error (.api (.invalidRelativePath "unsafe path segment: '~'")) := by
  decide +kernel

end PyUploadX
