import PyUploadX.DirectoryUpload.JsonLines

/-! Manifests of JSON lines: how they are written, and how their lines are found again. -/
namespace PyUploadX

open JsonText

namespace ManifestRecord

/-- The object that is written. -/
def object (record : ManifestRecord) : JsonObject := record.members .string .int

/-- The characters of the strings of a record. -/
def characters (record : ManifestRecord) : List Char :=
  record.entryType.toList ++ record.relativePath.toList ++
    (record.fingerprint.map String.toList).getD []

end ManifestRecord

/-- The characters at which `str.splitlines` ends a line. -/
def isLineBreak (char : Char) : Bool :=
  char.toNat ∈ [0x0a, 0x0b, 0x0c, 0x0d, 0x1c, 0x1d, 0x1e, 0x85, 0x2028, 0x2029]

/-- `text.splitlines()`, with the line before the text; a line feed right after a carriage
return belongs to it, and an empty last line is none. -/
def splitLinesFrom (line : List Char) (afterReturn : Bool) : List Char → List (List Char)
  | [] => if line = [] then [] else [line]
  | char :: rest =>
    if afterReturn = true ∧ char = '\n' then splitLinesFrom line false rest
    else if isLineBreak char then line :: splitLinesFrom [] (char = '\r') rest
    else splitLinesFrom (line ++ [char]) false rest

def splitLines (text : String) : List (List Char) := splitLinesFrom [] false text.toList

/-- The loop over the lines, which skips the blank ones. -/
def parseLines (float : String → FloatValue) : List (List Char) → Option (List Json)
  | [] => some []
  | line :: rest =>
    let line := stripBy isSpace line
    if line = [] then parseLines float rest
    else
      (jsonLoads float (String.ofList line)).bind fun value =>
        (parseLines float rest).map fun values => value :: values

def parseManifestNdjson (float : String → FloatValue) (payload : String) : Option (List Json) :=
  parseLines float (splitLines payload)

section Lines

/-- A text without carriage returns is cut at its line breaks. -/
theorem splitLinesFrom_line {text : List Char} (unreturned : '\r' ∉ text) {line : List Char}
    (unbroken : ∀ char ∈ line, isLineBreak char = false) (rest : List Char) :
    splitLinesFrom line false (text ++ '\n' :: rest) =
      (line ++ text).splitOnP isLineBreak ++ splitLinesFrom [] false rest := by
  induction text generalizing line with
  | nil =>
    rw [List.append_nil, List.splitOnP_eq_singleton unbroken]
    rfl
  | cons char text ih =>
    have later : '\r' ∉ text := fun member => unreturned (List.mem_cons_of_mem _ member)
    rw [List.cons_append, splitLinesFrom, if_neg (fun both => Bool.false_ne_true both.1)]
    split
    · rename_i breaks
      have other : char ≠ '\r' := fun same => unreturned (same ▸ List.mem_cons_self)
      rw [decide_eq_false other, ih later (fun _ none => by cases none), List.nil_append,
        List.splitOnP_append_cons_of_forall_mem unbroken _ breaks, List.cons_append]
    · rename_i plain
      have longer : ∀ other ∈ line ++ [char], isLineBreak other = false := by
        intro other member
        rcases List.mem_append.mp member with before | last
        · exact unbroken other before
        · rw [List.mem_singleton.mp last]
          exact Bool.eq_false_iff.mpr plain
      rw [ih later longer, List.append_assoc, List.singleton_append]

private theorem splitLinesFrom_lines {lines : List (List Char)} (unreturned : ∀ line ∈ lines, '\r' ∉ line) :
    splitLinesFrom [] false (lines.flatMap fun line => line ++ ['\n']) =
      lines.flatMap fun line => line.splitOnP isLineBreak := by
  induction lines with
  | nil => rfl
  | cons line lines ih =>
    rw [List.flatMap_cons, List.flatMap_cons, List.append_assoc, List.singleton_append,
      splitLinesFrom_line (unreturned line List.mem_cons_self) (fun _ none => by cases none),
      ih fun other member => unreturned other (List.mem_cons_of_mem _ member), List.nil_append]

/-- A line with a character that is no white space is not blank. -/
theorem stripBy_ne_nil {drop : Char → Bool} {line : List Char} {char : Char}
    (member : char ∈ line) (kept : drop char = false) : stripBy drop line ≠ [] := by
  intro blank
  have all := List.rdropWhile_eq_nil_iff.mp blank
  have split := List.takeWhile_append_dropWhile (p := drop) (l := line)
  rw [← split] at member
  rcases List.mem_append.mp member with front | back
  · have dropped := List.mem_takeWhile_imp front
    rw [kept] at dropped
    cases dropped
  · have dropped := all char back
    rw [kept] at dropped
    cases dropped

def isWritten (line : List Char) : Bool := stripBy isSpace line ≠ []

private theorem parseLines_length {float : String → FloatValue} {lines : List (List Char)}
    {values : List Json} (parsed : parseLines float lines = some values) :
    values.length = lines.countP isWritten := by
  induction lines generalizing values with
  | nil => cases parsed; rfl
  | cons line lines ih =>
    rw [parseLines] at parsed
    split at parsed
    · rename_i blank
      rw [List.countP_cons_of_neg (by simpa [isWritten] using blank)]
      exact ih parsed
    · rename_i written
      obtain ⟨value, _, parsed⟩ := Option.bind_eq_some_iff.mp parsed
      obtain ⟨others, rest, rfl⟩ := Option.map_eq_some_iff.mp parsed
      rw [List.countP_cons_of_pos (by simpa [isWritten] using written), List.length_cons, ih rest]

private theorem written_of_mem {text : List Char} {char : Char} (member : char ∈ text)
    (unbroken : isLineBreak char = false) (visible : isSpace char = false) :
    0 < (text.splitOnP isLineBreak).countP isWritten := by
  obtain ⟨piece, listed, inside⟩ := exists_mem_splitOnP unbroken member
  exact List.countP_pos_iff.mpr ⟨piece, listed, decide_eq_true (stripBy_ne_nil inside visible)⟩

end Lines

section Braces

variable {line middle : List Char} (spelled : line = '\x7b' :: (middle ++ ['\x7d']))

include spelled

private theorem stripBy_braces : stripBy isSpace line = line := by
  unfold stripBy
  rw [spelled, List.dropWhile_cons_of_neg (by decide), List.rdropWhile_eq_self_iff]
  intro _
  rw [List.getLast_cons (by simp), List.getLast_append_singleton]
  decide

private theorem written_braces : 0 < (line.splitOnP isLineBreak).countP isWritten := by
  have opens : '\x7b' ∈ line := by
    rw [spelled]
    exact List.mem_cons_self
  exact written_of_mem opens (by decide) (by decide)

theorem written_twice {char : Char} (member : char ∈ line) (breaks : isLineBreak char = true) :
    1 < (line.splitOnP isLineBreak).countP isWritten := by
  obtain ⟨front, back, cut⟩ := List.append_of_mem member
  have opens : '\x7b' ∈ front := by
    cases front with
    | nil =>
      rw [spelled, List.nil_append] at cut
      cases cut
      cases breaks
    | cons first others =>
      rw [spelled, List.cons_append] at cut
      rw [(List.cons.inj cut).1]
      exact List.mem_cons_self
  have closes : '\x7d' ∈ back := by
    have last := congrArg List.getLast? (spelled.symm.trans cut)
    rw [← List.cons_append, List.getLast?_append_of_ne_nil _ (List.cons_ne_nil _ _),
      List.getLast?_append_of_ne_nil _ (List.cons_ne_nil _ _)] at last
    cases back with
    | nil =>
      cases last
      cases breaks
    | cons first others =>
      rw [List.getLast?_cons_cons] at last
      exact List.mem_of_getLast? last.symm
  rw [cut, List.splitOnP_append_cons front back breaks, List.countP_append]
  have first := written_of_mem opens (by decide) (by decide)
  have second := written_of_mem closes (by decide) (by decide)
  omega

end Braces

/-- The line breaks that `json.dumps` leaves in a string. -/
def BreaksString (char : Char) : Prop := char.toNat ∈ [0x85, 0x2028, 0x2029]

instance (char : Char) : Decidable (BreaksString char) := inferInstanceAs (Decidable (_ ∈ _))

private theorem isLineBreak_of_breaksString {char : Char} (breaks : BreaksString char) :
    isLineBreak char = true ∧ 0x7f ≤ char.toNat := by
  unfold BreaksString at breaks
  unfold isLineBreak
  simp only [List.mem_cons, List.not_mem_nil, or_false, decide_eq_true_eq] at breaks ⊢
  omega

private theorem breaksString_of_printed {char : Char} (breaks : isLineBreak char = true)
    (printed : 0x20 ≤ char.toNat) : BreaksString char ∧ ¬ Plain char := by
  unfold isLineBreak at breaks
  unfold BreaksString Plain
  simp only [List.mem_cons, List.not_mem_nil, or_false, decide_eq_true_eq] at breaks ⊢
  omega

namespace ManifestRecord

variable {float : String → FloatValue} {record : ManifestRecord} {records : List ManifestRecord}

theorem readsAs_line (record : ManifestRecord) :
    ReadsAs float record.line (.object record.object) := by
  obtain ⟨entryType, path, size, fingerprint, modified⟩ := record
  refine readsAs_object ?_ ?_
  · refine .cons ⟨rfl, readsAs_string _⟩ (.cons ⟨rfl, readsAs_string _⟩
      (.cons ⟨rfl, readsAs_int _⟩ ?_))
    cases fingerprint with
    | none =>
      cases modified with
      | none => exact .nil
      | some count => exact .cons ⟨rfl, readsAs_int _⟩ .nil
    | some text =>
      cases modified with
      | none => exact .cons ⟨rfl, readsAs_string _⟩ .nil
      | some count => exact .cons ⟨rfl, readsAs_string _⟩ (.cons ⟨rfl, readsAs_int _⟩ .nil)
  · cases fingerprint <;> cases modified <;> simp [object, members]

private theorem mem_fields {field : String × String} : field ∈ record.fields ↔
    field = ("entry_type", jsonString record.entryType) ∨
    field = ("relative_path", jsonString record.relativePath) ∨
    field = ("size_bytes", toString record.sizeBytes) ∨
    (∃ text, record.fingerprint = some text ∧ field = ("fingerprint", jsonString text)) ∨
    ∃ count, record.lastModifiedNs = some count ∧ field = ("last_modified_ns", toString count) := by
  simp [fields, members, eq_comm]

private theorem mem_characters {char : Char} : char ∈ record.characters ↔
    char ∈ record.entryType.toList ∨ char ∈ record.relativePath.toList ∨
      ∃ text, record.fingerprint = some text ∧ char ∈ text.toList := by
  cases present : record.fingerprint <;> simp [characters, present]

/-- What of a line is above ASCII comes from the strings of the record. -/
theorem mem_line {char : Char} (member : char ∈ record.line.toList) :
    Plain char ∨ char ∈ record.characters ∧ 0x20 ≤ char.toNat := by
  have string : ∀ text, char ∈ (jsonString text).toList →
      (char ∈ text.toList → char ∈ record.characters) →
      Plain char ∨ char ∈ record.characters ∧ 0x20 ≤ char.toNat :=
    fun text inside listed => (mem_jsonString inside).imp_right fun found =>
      ⟨listed found.1, found.2⟩
  have names : ∀ name ∈ ["entry_type", "relative_path", "size_bytes", "fingerprint",
      "last_modified_ns"], (name.toList.all fun other => decide (Plain other)) = true := by decide
  rcases mem_jsonObject member with plain | ⟨field, listed, named | inside⟩
  · exact .inl plain
  · left
    refine of_decide_eq_true (List.all_eq_true.mp (names field.1 ?_) char named.1)
    rcases mem_fields.mp listed with rfl | rfl | rfl | ⟨_, _, rfl⟩ | ⟨_, _, rfl⟩ <;> simp
  · rcases mem_fields.mp listed with rfl | rfl | rfl | ⟨text, present, rfl⟩ | ⟨_, _, rfl⟩
    · exact string _ inside fun found => mem_characters.mpr (.inl found)
    · exact string _ inside fun found => mem_characters.mpr (.inr (.inl found))
    · exact .inl (mem_toString inside)
    · exact string _ inside fun found => mem_characters.mpr (.inr (.inr ⟨text, present, found⟩))
    · exact .inl (mem_toString inside)

private theorem mem_line_of_mem {char : Char} (high : 0x7f ≤ char.toNat)
    (member : char ∈ record.characters) : char ∈ record.line.toList := by
  rcases mem_characters.mp member with entryType | path | ⟨text, present, inside⟩
  · exact mem_jsonObject_of_mem (mem_fields.mpr (.inl rfl)) (mem_jsonString_of_mem high entryType)
  · exact mem_jsonObject_of_mem (mem_fields.mpr (.inr (.inl rfl))) (mem_jsonString_of_mem high path)
  · exact mem_jsonObject_of_mem (mem_fields.mpr (.inr (.inr (.inr (.inl ⟨text, present, rfl⟩)))))
      (mem_jsonString_of_mem high inside)

theorem toList_serializeRecords (records : List ManifestRecord) :
    (serializeRecords records).toList =
      (records.map (·.line.toList)).flatMap fun line => line ++ ['\n'] := by
  unfold serializeRecords
  cases records with
  | nil => rfl
  | cons record records =>
    rw [List.map_cons, String.toList_append, toList_intercalate_cons, if_neg (List.cons_ne_nil _ _)]
    induction records generalizing record with
    | nil => simp
    | cons next records ih =>
      have rest := ih next
      simp only [List.map_cons, List.flatMap_cons, List.append_assoc] at rest ⊢
      rw [rest]
      rfl

/-- The lines of a manifest, cut at the line breaks that are left in their strings. -/
theorem splitLines_serializeRecords (records : List ManifestRecord) :
    splitLines (serializeRecords records) =
      records.flatMap fun record => record.line.toList.splitOnP isLineBreak := by
  unfold splitLines
  rw [toList_serializeRecords, splitLinesFrom_lines, List.flatMap_map]
  intro line listed returned
  obtain ⟨record, _, rfl⟩ := List.mem_map.mp listed
  rcases mem_line returned with plain | ⟨_, printed⟩
  · exact absurd plain.1 (by decide)
  · exact absurd printed (by decide)

/-- A line that is whole is read as its record. -/
theorem parseLines_line (record : ManifestRecord) (rest : List (List Char)) :
    parseLines float (record.line.toList :: rest) =
      (parseLines float rest).map fun values => .object record.object :: values := by
  obtain ⟨middle, spelled⟩ := jsonObject_braces record.fields
  have stripped : stripBy isSpace record.line.toList = record.line.toList := stripBy_braces spelled
  have written : record.line.toList ≠ [] := by
    rw [line, spelled]
    exact List.cons_ne_nil _ _
  rw [parseLines, stripped, if_neg written, String.ofList_toList, record.readsAs_line.loads]
  rfl

private theorem parseLines_whole (whole : ∀ record ∈ records, ∀ char ∈ record.characters, ¬ BreaksString char) :
    parseLines float (records.flatMap fun record => record.line.toList.splitOnP isLineBreak) =
      some (records.map fun record => .object record.object) := by
  induction records with
  | nil => rfl
  | cons record records ih =>
    have unbroken : ∀ char ∈ record.line.toList, isLineBreak char = false := by
      intro char inside
      refine Bool.eq_false_iff.mpr fun breaks => ?_
      rcases mem_line inside with plain | ⟨listed, printed⟩
      · exact (breaksString_of_printed breaks plain.1).2 plain
      · exact whole record List.mem_cons_self char listed (breaksString_of_printed breaks printed).1
    rw [List.flatMap_cons, List.splitOnP_eq_singleton unbroken, List.singleton_append,
      parseLines_line, ih fun other later => whole other (List.mem_cons_of_mem _ later)]
    rfl

private theorem written_line (record : ManifestRecord) :
    0 < (record.line.toList.splitOnP isLineBreak).countP isWritten := by
  obtain ⟨middle, spelled⟩ := jsonObject_braces record.fields
  exact written_braces spelled

private theorem written_broken {char : Char} (inside : char ∈ record.characters)
    (breaks : BreaksString char) :
    1 < (record.line.toList.splitOnP isLineBreak).countP isWritten := by
  obtain ⟨middle, spelled⟩ := jsonObject_braces record.fields
  obtain ⟨cuts, high⟩ := isLineBreak_of_breaksString breaks
  exact written_twice spelled (mem_line_of_mem high inside) cuts

private theorem length_le_written (records : List ManifestRecord) :
    records.length ≤ (records.flatMap fun record =>
      record.line.toList.splitOnP isLineBreak).countP isWritten := by
  induction records with
  | nil => exact Nat.le_refl 0
  | cons record records ih =>
    have first := written_line record
    rw [List.flatMap_cons, List.countP_append, List.length_cons]
    omega

private theorem length_lt_written {record : ManifestRecord} (listed : record ∈ records) {char : Char}
    (inside : char ∈ record.characters) (breaks : BreaksString char) :
    records.length < (records.flatMap fun record =>
      record.line.toList.splitOnP isLineBreak).countP isWritten := by
  induction records with
  | nil => cases listed
  | cons first records ih =>
    rw [List.flatMap_cons, List.countP_append, List.length_cons]
    rcases List.mem_cons.mp listed with rfl | later
    · have twice := written_broken inside breaks
      have others := length_le_written records
      omega
    · have once := written_line first
      have others := ih later
      omega

end ManifestRecord

/-- A manifest is read back as it was written if and only if no string in it has a line break
that JSON leaves as it is. -/
theorem parseManifestNdjson_serialize_iff (float : String → FloatValue)
    (records : List ManifestRecord) :
    parseManifestNdjson float (serializeRecords records) =
        some (records.map fun record => .object record.object) ↔
      ∀ record ∈ records, ∀ char ∈ record.characters, ¬ BreaksString char := by
  unfold parseManifestNdjson
  rw [ManifestRecord.splitLines_serializeRecords]
  constructor
  · intro parsed record listed char inside breaks
    have length := parseLines_length parsed
    have more := ManifestRecord.length_lt_written listed inside breaks
    rw [List.length_map] at length
    omega
  · exact ManifestRecord.parseLines_whole

def separatedRecord : ManifestRecord := ⟨"file", "a\u2028b", 1, none, none⟩

theorem separated_record_is_not_read_back :
    ¬ ∀ records : List ManifestRecord,
      (∀ record ∈ records, ∃ key, normalizeRelativePath id 64 1024 record.relativePath = .ok key) →
      parseManifestNdjson (fun _ => .nan) (serializeRecords records) =
        some (records.map fun record => .object record.object) := by
  intro holds
  have accepted : (normalizeRelativePath id 64 1024 separatedRecord.relativePath).isOk = true := by
    decide +kernel
  have refused : (parseManifestNdjson (fun _ => .nan)
      (serializeRecords [separatedRecord])).isNone = true := by
    decide +kernel
  rw [holds [separatedRecord]] at refused
  · cases refused
  · intro record listed
    rw [List.mem_singleton.mp listed]
    cases result : normalizeRelativePath id 64 1024 separatedRecord.relativePath with
    | error failure => rw [result] at accepted; cases accepted
    | ok key => exact ⟨key, rfl⟩

end PyUploadX
