import PyUploadX.DirectoryUpload.JsonLines

/-! The text that is hashed can be cut apart at its line ends, and each line is read back as
one entry. -/
namespace PyUploadX

open JsonText

def jsonOfNullable : Option String → Json
  | some text => .string text
  | none => .null

/-- The object that a line of the hashed text stands for. -/
def ManifestEntry.object (entry : ManifestEntry) : JsonObject :=
  [("fingerprint", jsonOfNullable entry.fingerprint),
    ("relative_path", .string entry.relativePath),
    ("size_bytes", .int entry.sizeBytes)]

private theorem ManifestEntry.object_injective {first second : ManifestEntry}
    (same : first.object = second.object) : first = second := by
  obtain ⟨path, size, fingerprint⟩ := first
  obtain ⟨otherPath, otherSize, otherFingerprint⟩ := second
  simp only [object, List.cons.injEq, Prod.mk.injEq, Json.string.injEq, Json.int.injEq, true_and,
    and_true] at same
  obtain ⟨fingerprints, rfl, rfl⟩ := same
  cases fingerprint <;> cases otherFingerprint <;> cases fingerprints <;> rfl

variable {float : String → FloatValue}

private theorem readsAs_nullable (text : Option String) :
    ReadsAs float (jsonNullable text) (jsonOfNullable text) := by
  cases text with
  | none => exact readsAs_null
  | some text => exact readsAs_string text

theorem ManifestEntry.readsAs_line (entry : ManifestEntry) :
    ReadsAs float entry.line (.object entry.object) := by
  have keys : entry.object.map (·.1) = ["fingerprint", "relative_path", "size_bytes"] := rfl
  refine readsAs_object ?_ (by rw [keys]; decide)
  exact .cons ⟨rfl, readsAs_nullable _⟩ (.cons ⟨rfl, readsAs_string _⟩
    (.cons ⟨rfl, readsAs_int _⟩ .nil))

/-- A line determines its entry: it is read back as the entry's object. -/
theorem ManifestEntry.line_injective {first second : ManifestEntry}
    (same : first.line = second.line) : first = second := by
  have loaded : jsonLoads (fun _ => .nan) first.line = _ := first.readsAs_line.loads
  rw [same, second.readsAs_line.loads] at loaded
  exact object_injective (Json.object.inj (Option.some.inj loaded)).symm

private theorem mem_jsonNullable {text : Option String} {char : Char}
    (member : char ∈ (jsonNullable text).toList) : 0x20 ≤ char.toNat := by
  cases text with
  | none =>
    have printed : ∀ other ∈ "null".toList, 0x20 ≤ other.toNat := by simp
    exact printed char member
  | some text => exact (mem_jsonString member).elim (·.1) (·.2)

/-- The characters of a line are printed ones, whatever the strings are. -/
theorem ManifestEntry.mem_line {entry : ManifestEntry} {char : Char}
    (member : char ∈ entry.line.toList) : 0x20 ≤ char.toNat := by
  rcases mem_jsonObject member with plain | ⟨field, listed, named | inside⟩
  · exact plain.1
  · exact named.2
  · simp only [List.mem_cons, List.not_mem_nil, or_false] at listed
    rcases listed with rfl | rfl | rfl
    · exact mem_jsonNullable inside
    · exact (mem_jsonString inside).elim (·.1) (·.2)
    · exact (mem_toString inside).1

/-- A line of the hashed text has no line end inside. -/
theorem ManifestEntry.newline_not_mem_line (entry : ManifestEntry) : '\n' ∉ entry.line.toList :=
  fun member => absurd (mem_line member) (by decide)

private theorem ManifestEntry.line_ne_nil (entry : ManifestEntry) : entry.line.toList ≠ [] := by
  unfold line
  rw [toList_jsonObject_cons]
  exact List.cons_ne_nil _ _

theorem lines_of_join {entries : List ManifestEntry} (some_ : entries ≠ []) :
    (("\n".intercalate (entries.map (·.line))).toList.splitOn '\n') =
      entries.map (·.line.toList) := by
  have joined : ("\n".intercalate (entries.map (·.line))).toList =
      ['\n'].intercalate (entries.map (·.line.toList)) := by
    rw [String.toList_intercalate, List.map_map]
    rfl
  rw [joined, List.splitOn_intercalate]
  · intro line member
    obtain ⟨entry, _, rfl⟩ := List.mem_map.mp member
    exact entry.newline_not_mem_line
  · simpa using some_

theorem join_ne_empty {entry : ManifestEntry} {entries : List ManifestEntry} :
    "\n".intercalate ((entry :: entries).map (·.line)) ≠ "" := by
  intro empty
  have spelled := congrArg String.toList empty
  rw [List.map_cons, toList_intercalate_cons] at spelled
  exact entry.line_ne_nil (List.append_eq_nil_iff.mp spelled).1

private theorem join_injective {first second : List ManifestEntry}
    (same : "\n".intercalate (first.map (·.line)) = "\n".intercalate (second.map (·.line))) :
    first = second := by
  cases first with
  | nil =>
    cases second with
    | nil => rfl
    | cons entry others => exact absurd same.symm join_ne_empty
  | cons entry others =>
    cases second with
    | nil => exact absurd same join_ne_empty
    | cons other rest =>
      have lines := congrArg (fun text => text.toList.splitOn '\n') same
      rw [lines_of_join (List.cons_ne_nil _ _), lines_of_join (List.cons_ne_nil _ _)] at lines
      refine List.map_injective_iff.mpr ?_ lines
      exact fun left right equal => ManifestEntry.line_injective (String.toList_injective equal)

/-- The text that is hashed does not depend on the order of the entries, and otherwise
determines them. -/
theorem manifestText_eq_iff_perm {first second : List ManifestEntry}
    (distinct : (first.map (·.relativePath)).Nodup) :
    manifestText first = manifestText second ↔ first.Perm second := by
  constructor
  · intro same
    have sorted := join_injective same
    have arranged := List.perm_insertionSort
      (fun first second : ManifestEntry => ¬ second.relativePath < first.relativePath)
    exact (arranged first).symm.trans (sorted ▸ arranged second)
  · exact fun same => manifestText_perm same distinct

def quotedEntry : ManifestEntry := ⟨"a\"b\\c.txt", 3, none⟩

def plainEntry : ManifestEntry := ⟨"a, b: c.txt", -1, some "fp:1"⟩

theorem quoted_and_plain_in_either_order :
    manifestText [quotedEntry, plainEntry] = manifestText [plainEntry, quotedEntry] ∧
      manifestText [quotedEntry, plainEntry] ≠ manifestText [quotedEntry] := by
  refine ⟨(manifestText_eq_iff_perm (by decide)).mpr (.swap _ _ _), fun same => ?_⟩
  exact absurd ((manifestText_eq_iff_perm (by decide)).mp same) (by decide)

end PyUploadX
