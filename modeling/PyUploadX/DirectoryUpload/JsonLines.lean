import PyUploadX.Core.JsonText
import PyUploadX.DirectoryUpload.Manifest

/-! What `json.dumps` writes is read back: strings, numbers, and objects of them. -/
namespace PyUploadX

open JsonText

private theorem codeUnit_control : ∀ code < 32,
    codeUnit '0' '0' (if code < 16 then '0' else '1') (Nat.digitChar (code % 16)) = some code := by
  decide

private theorem readString_escape {escape char : Char} (known : unescape escape = some char)
    (rest : List Char) : readString ('\\' :: escape :: rest) =
      (readString rest).map fun read => (char :: read.1, read.2) := by
  have plain : escape ≠ 'u' := by
    rintro rfl
    cases known
  rw [readString.eq_def]
  dsimp only
  rw [if_neg (by decide), if_neg (by decide), if_neg (not_not_intro rfl), if_pos plain, known]
  rfl

private theorem readString_code {first second third fourth : Char} {unit : Nat}
    (known : codeUnit first second third fourth = some unit) (below : unit < 0xd800)
    (rest : List Char) : readString ('\\' :: 'u' :: first :: second :: third :: fourth :: rest) =
      (readString rest).map fun read => (Char.ofNat unit :: read.1, read.2) := by
  rw [readString.eq_def]
  dsimp only
  rw [if_neg (by decide), if_neg (by decide), if_neg (not_not_intro rfl),
    if_neg (not_not_intro rfl), known]
  dsimp only
  rw [if_neg (by omega), if_pos (.inl below)]

private theorem readString_plain {char : Char} (unquoted : char ≠ '"') (unescaped : char ≠ '\\')
    (printed : 0x20 ≤ char.toNat) (rest : List Char) : readString (char :: rest) =
      (readString rest).map fun read => (char :: read.1, read.2) := by
  rw [readString.eq_def]
  dsimp only
  rw [if_neg unquoted, if_neg (Nat.not_lt.mpr printed), if_pos unescaped]

/-- A character is escaped, written as its code, or written as it is. -/
theorem jsonChar_cases (char : Char) :
    (∃ escape, unescape escape = some char ∧ (jsonChar char).toList = ['\\', escape]) ∨
    (∃ third fourth, codeUnit '0' '0' third fourth = some char.toNat ∧ char.toNat < 0x20 ∧
      (jsonChar char).toList = ['\\', 'u', '0', '0', third, fourth]) ∨
    (char ≠ '"' ∧ char ≠ '\\' ∧ 0x20 ≤ char.toNat ∧ (jsonChar char).toList = [char]) := by
  unfold jsonChar
  by_cases quote : char = '"'
  · exact .inl ⟨'"', by rw [quote]; decide⟩
  by_cases slash : char = '\\'
  · exact .inl ⟨'\\', by rw [slash]; decide⟩
  by_cases newline : char = '\n'
  · exact .inl ⟨'n', by rw [newline]; decide⟩
  by_cases carriage : char = '\r'
  · exact .inl ⟨'r', by rw [carriage]; decide⟩
  by_cases tab : char = '\t'
  · exact .inl ⟨'t', by rw [tab]; decide⟩
  by_cases backspace : char = '\x08'
  · exact .inl ⟨'b', by rw [backspace]; decide⟩
  by_cases feed : char = '\x0c'
  · exact .inl ⟨'f', by rw [feed]; decide⟩
  by_cases control : char.toNat < 0x20
  · refine .inr (.inl ⟨_, _, codeUnit_control _ control, control, ?_⟩)
    rw [if_neg quote, if_neg slash, if_neg newline, if_neg carriage, if_neg tab,
      if_neg backspace, if_neg feed, if_pos control]
    split <;> simp
  · refine .inr (.inr ⟨quote, slash, Nat.not_lt.mp control, ?_⟩)
    rw [if_neg quote, if_neg slash, if_neg newline, if_neg carriage, if_neg tab,
      if_neg backspace, if_neg feed, if_neg control]
    exact String.toList_singleton char

/-- A character is read back from what it is written as. -/
theorem readString_jsonChar (char : Char) (rest : List Char) :
    readString ((jsonChar char).toList ++ rest) =
      (readString rest).map fun read => (char :: read.1, read.2) := by
  obtain ⟨escape, known, spelled⟩ | ⟨third, fourth, known, control, spelled⟩ |
    ⟨unquoted, unescaped, printed, spelled⟩ := jsonChar_cases char
  · rw [spelled]
    exact readString_escape known rest
  · rw [spelled]
    have read := readString_code known (by omega) rest
    rw [Char.ofNat_toNat] at read
    exact read
  · rw [spelled]
    exact readString_plain unquoted unescaped printed rest

def escaped (text : String) : List Char := text.toList.flatMap fun char => (jsonChar char).toList

private theorem toList_jsonString (text : String) :
    (jsonString text).toList = '"' :: (escaped text ++ ['"']) := by
  unfold jsonString escaped
  rw [String.toList_append, String.toList_append, String.toList_join, List.flatMap_map]
  rfl

private theorem readString_escaped (text : String) (rest : List Char) :
    readString (escaped text ++ '"' :: rest) = some (text.toList, rest) := by
  unfold escaped
  induction text.toList with
  | nil => rw [readString.eq_def]; rfl
  | cons char chars ih =>
    rw [List.flatMap_cons, List.append_assoc, readString_jsonChar, ih]
    rfl

section Values

/-- What comes after a value: nothing, or the text of the object around it. -/
def EndsValue (rest : List Char) : Prop := ∀ char ∈ rest.head?, char = ',' ∨ char = '\x7d'

/-- The text is read as the value, up to its end. -/
def ReadsAs (float : String → FloatValue) (text : String) (value : Json) : Prop :=
  ∀ rest, EndsValue rest → ∀ fuel, text.length < fuel →
    readValue float fuel (text.toList ++ rest) = some (value, rest)

variable {float : String → FloatValue} {text : String} {value : Json}

theorem readValue_space {char : Char} (space : isWhitespace char = true) (fuel : Nat) (rest : List Char) :
    readValue float fuel (char :: rest) = none := by
  cases fuel with
  | zero => rfl
  | succ fuel =>
    have listed : char = ' ' ∨ char = '\t' ∨ char = '\n' ∨ char = '\r' := by
      simpa only [isWhitespace, Bool.or_eq_true, decide_eq_true_eq, or_assoc] using space
    rcases listed with rfl | rfl | rfl | rfl <;> rfl

/-- White space is no value, so none of it is skipped before one. -/
theorem ReadsAs.skipSpace_eq (reads : ReadsAs float text value) (rest : List Char) :
    skipSpace (text.toList ++ rest) = text.toList ++ rest := by
  have alone := reads [] (fun _ none => by cases none) (text.length + 1) (Nat.lt_succ_self _)
  rw [List.append_nil] at alone
  cases spelled : text.toList with
  | nil => rw [spelled] at alone; cases alone
  | cons char chars =>
    rw [spelled] at alone
    unfold skipSpace
    rw [List.cons_append, List.dropWhile_cons_of_neg]
    intro space
    rw [readValue_space space] at alone
    cases alone

theorem readsAs_string (text : String) : ReadsAs float (jsonString text) (.string text) := by
  intro rest _ fuel enough
  cases fuel with
  | zero => cases enough
  | succ fuel =>
    rw [toList_jsonString, List.cons_append, List.append_assoc, readValue, if_pos rfl]
    dsimp only [List.cons_append, List.nil_append]
    rw [readString_escaped, Option.map_some, String.ofList_toList]

theorem readsAs_null : ReadsAs float "null" .null := by
  intro rest _ fuel enough
  cases fuel with
  | zero => cases enough
  | succ fuel => rfl

theorem head_toDigits_ne_zero {number : Nat} (positive : 0 < number) :
    (Nat.toDigits 10 number).head? ≠ some '0' := by
  induction number using Nat.strongRecOn with
  | ind number ih =>
    rw [Nat.toDigits_eq_if (by decide)]
    split
    · rename_i small
      have leading : ∀ digit < 10, 0 < digit → [Nat.digitChar digit].head? ≠ some '0' := by decide
      exact leading number small positive
    · rw [List.head?_append_of_ne_nil _ Nat.toDigits_ne_nil]
      exact ih (number / 10) (by omega) (by omega)

/-- What can come after a value in an array or an object, in whatever layout. -/
def Stops (rest : List Char) : Prop :=
  ∀ char ∈ rest.head?, char = ',' ∨ char = '\x7d' ∨ char = ']' ∨ char = '\n'

theorem EndsValue.stops {rest : List Char} (ends : EndsValue rest) : Stops rest :=
  fun char next => (ends char next).imp_right .inl

section Endings

variable {rest : List Char} (ends : Stops rest)

include ends

private theorem takeWhile_isDigit_ends : rest.takeWhile Char.isDigit = [] := by
  cases rest with
  | nil => rfl
  | cons char others =>
    rcases ends char rfl with rfl | rfl | rfl | rfl <;> rfl

private theorem dropWhile_isDigit_ends : rest.dropWhile Char.isDigit = rest := by
  cases rest with
  | nil => rfl
  | cons char others =>
    rcases ends char rfl with rfl | rfl | rfl | rfl <;> rfl

private theorem readFraction_ends : readFraction rest = ([], rest) := by
  cases rest with
  | nil => rfl
  | cons char others =>
    rcases ends char rfl with rfl | rfl | rfl | rfl <;> rfl

private theorem readExponent_ends : readExponent rest = ([], rest) := by
  cases rest with
  | nil => rfl
  | cons char others =>
    rcases ends char rfl with rfl | rfl | rfl | rfl <;> rfl

private theorem readNatural_toDigits (number : Nat) :
    readNatural (Nat.toDigits 10 number ++ rest) = some (Nat.toDigits 10 number, rest) := by
  rcases Nat.eq_zero_or_pos number with rfl | positive
  · rfl
  · have first := head_toDigits_ne_zero positive
    have digits := isDigit_toDigits number
    cases spelled : Nat.toDigits 10 number with
    | nil => exact absurd spelled Nat.toDigits_ne_nil
    | cons char others =>
      rw [spelled] at first digits
      have later : ∀ other ∈ others, other.isDigit = true :=
        fun other member => digits other (List.mem_cons_of_mem _ member)
      rw [List.cons_append, readNatural, if_neg (fun zero => first (congrArg some zero)),
        if_pos (digits char List.mem_cons_self), List.takeWhile_append_of_pos later,
        List.dropWhile_append_of_pos later, takeWhile_isDigit_ends ends,
        dropWhile_isDigit_ends ends, List.append_nil]

private theorem readNumber_toDigits (negative : Bool) (number : Nat) :
    readNumber float negative (Nat.toDigits 10 number ++ rest) =
      some (.int (if negative then -number else number), rest) := by
  unfold readNumber
  rw [readNatural_toDigits ends, Option.map_some]
  dsimp only
  rw [readFraction_ends ends]
  dsimp only
  rw [readExponent_ends ends, if_pos ⟨rfl, rfl⟩, Nat.ofDigitChars_ten_toDigits]

end Endings

private theorem readValue_digit {char : Char} (digit : char.isDigit = true) (fuel : Nat)
    (rest : List Char) :
    readValue float (fuel + 1) (char :: rest) = readNumber float false (char :: rest) := by
  obtain ⟨low, high⟩ := AsciiDigit.of_isDigit digit
  have differs : ∀ other : Char, (other.toNat < 48 ∨ 57 < other.toNat) → char ≠ other := by
    rintro other outside rfl
    omega
  rw [readValue, if_neg (differs _ (by decide)), if_neg (differs _ (by decide)),
    if_neg (differs _ (by decide)), if_neg (differs _ (by decide)), if_neg (differs _ (by decide)),
    if_neg (differs _ (by decide)), if_neg (differs _ (by decide)), if_neg (differs _ (by decide)),
    if_neg (differs _ (by decide))]

theorem readValue_int (number : Int) {rest : List Char} (ends : Stops rest) {fuel : Nat}
    (enough : (toString number).length < fuel) :
    readValue float fuel ((toString number).toList ++ rest) = some (.int number, rest) := by
  cases fuel with
  | zero => cases enough
  | succ fuel =>
    rw [Int.toString_eq_repr, Int.repr_eq_if]
    split
    · rename_i positive
      have read : readNumber float false _ = _ := readNumber_toDigits ends false number.toNat
      have digits := isDigit_toDigits number.toNat
      rw [Nat.toList_repr]
      cases spelled : Nat.toDigits 10 number.toNat with
      | nil => exact absurd spelled Nat.toDigits_ne_nil
      | cons char others =>
        rw [spelled] at read digits
        rw [List.cons_append, readValue_digit (digits char List.mem_cons_self),
          ← List.cons_append, read, if_neg Bool.false_ne_true, Int.toNat_of_nonneg positive]
    · rename_i negative
      have read : readNumber float true _ = _ := readNumber_toDigits ends true (-number).toNat
      have digits := isDigit_toDigits (-number).toNat
      have signed : ("-" ++ (-number).toNat.repr).toList = '-' :: Nat.toDigits 10 (-number).toNat := by
        rw [String.toList_append, Nat.toList_repr]
        rfl
      have value : -((-number).toNat : Int) = number := by omega
      have plain : (Nat.toDigits 10 (-number).toNat ++ rest).head? ≠ some 'I' := by
        rw [List.head?_append_of_ne_nil _ Nat.toDigits_ne_nil]
        intro same
        cases digits _ (List.mem_of_mem_head? same)
      rw [signed, List.cons_append, readValue]
      simp only [Char.reduceEq, if_false, if_true]
      rw [if_neg plain, read, if_pos rfl, value]

theorem readsAs_int (number : Int) : ReadsAs float (toString number) (.int number) :=
  fun _ ends _ enough => readValue_int number ends.stops enough

/-- The texts of an object's members, each read as the value under its key. -/
def MembersRead (float : String → FloatValue) (fields : List (String × String))
    (values : JsonObject) : Prop :=
  List.Forall₂ (fun field value => field.1 = value.1 ∧ ReadsAs float field.2 value.2) fields values

theorem JsonObject.find?_eq_none {fields : JsonObject} {key : String}
    (absent : key ∉ fields.map (·.1)) : fields.find? key = none := by
  unfold JsonObject.find?
  rw [Option.map_eq_none_iff, List.find?_eq_none]
  intro field member same
  exact absent (List.mem_map.mpr ⟨field, member, decide_eq_true_eq.mp same⟩)

theorem JsonObject.assign_new {fields : JsonObject} {key : String}
    (absent : key ∉ fields.map (·.1)) (value : Json) :
    fields.assign key value = fields ++ [(key, value)] := by
  unfold JsonObject.assign
  rw [JsonObject.find?_eq_none absent]
  rfl

def memberText (field : String × String) : List Char :=
  '"' :: (escaped field.1 ++ '"' :: ':' :: ' ' :: field.2.toList)

private theorem toList_member (field : String × String) :
    (jsonString field.1 ++ ": " ++ field.2).toList = memberText field := by
  rw [String.toList_append, String.toList_append, toList_jsonString]
  unfold memberText
  simp

theorem toList_intercalate_cons (separator text : String) (texts : List String) :
    (separator.intercalate (text :: texts)).toList =
      text.toList ++ texts.flatMap fun text => separator.toList ++ text.toList := by
  induction texts generalizing text with
  | nil => rw [String.intercalate_singleton, List.flatMap_nil, List.append_nil]
  | cons next texts ih =>
    rw [String.intercalate_cons_cons, String.toList_append, String.toList_append, ih,
      List.flatMap_cons, List.append_assoc, List.append_assoc]

theorem toList_jsonObject_cons (field : String × String) (fields : List (String × String)) :
    (jsonObject (field :: fields)).toList =
      '\x7b' :: (memberText field ++ ((fields.flatMap fun field => ',' :: ' ' :: memberText field) ++
        ['\x7d'])) := by
  unfold jsonObject
  rw [List.map_cons, String.toList_append, String.toList_append, toList_intercalate_cons,
    toList_member, List.flatMap_map]
  simp only [toList_member]
  simp

/-- A member whose value the reader reads. -/
def MemberRead (read : List Char → Option (Json × List Char)) (field : String × String)
    (value : String × Json) : Prop :=
  field.1 = value.1 ∧ (∀ rest, skipSpace (field.2.toList ++ rest) = field.2.toList ++ rest) ∧
    ∀ rest, EndsValue rest → read (field.2.toList ++ rest) = some (value.2, rest)

private theorem readMember_eq {read : List Char → Option (Json × List Char)} {field : String × String}
    {value : String × Json} (member : MemberRead read field value) {rest : List Char}
    (ends : EndsValue rest) :
    readMember read ((memberText field).tail ++ rest) = some (value, rest) := by
  obtain ⟨named, started, reads⟩ := member
  have spelled : (memberText field).tail ++ rest =
      escaped field.1 ++ '"' :: ':' :: ' ' :: (field.2.toList ++ rest) := by
    unfold memberText
    simp
  have spaced : skipSpace (' ' :: (field.2.toList ++ rest)) = field.2.toList ++ rest := started rest
  unfold readMember
  rw [spelled, readString_escaped, Option.bind_some]
  change (if ':' = ':' then (read (skipSpace (' ' :: (field.2.toList ++ rest)))).map
    (fun value => ((String.ofList field.1.toList, value.1), value.2)) else none) = _
  rw [if_pos rfl, spaced, reads rest ends, Option.map_some, String.ofList_toList, named]

theorem key_not_mem_before {before values : JsonObject} {value : String × Json}
    (distinct : ((before ++ value :: values).map (·.1)).Nodup) : value.1 ∉ before.map (·.1) := by
  rw [List.map_append, List.map_cons] at distinct
  exact fun present => (List.nodup_append.mp distinct).2.2 _ present _ List.mem_cons_self rfl

/-- The members are read one after the other, and added behind those before them. -/
theorem readMembers_cons {read : List Char → Option (Json × List Char)}
    {fields : List (String × String)} {values : JsonObject} (before : JsonObject)
    {field : String × String} {value : String × Json} (first : MemberRead read field value)
    (others : List.Forall₂ (MemberRead read) fields values)
    (distinct : ((before ++ value :: values).map (·.1)).Nodup) {fuel : Nat}
    (enough : fields.length < fuel) (rest : List Char) :
    readMembers read fuel before ((memberText field).tail ++
      ((fields.flatMap fun field => ',' :: ' ' :: memberText field) ++ '\x7d' :: rest)) =
      some (.object (before ++ value :: values), rest) := by
  induction others generalizing before field value fuel with
  | nil =>
    cases fuel with
    | zero => cases enough
    | succ fuel =>
      rw [readMembers, readMember_eq first (by intro char same; cases same; exact .inr rfl),
        Option.bind_some, JsonObject.assign_new (key_not_mem_before distinct)]
      rfl
  | @cons next nextValue fields values second others ih =>
    cases fuel with
    | zero => cases enough
    | succ fuel =>
      have shifted : ((before ++ [value]) ++ nextValue :: values) =
          before ++ value :: nextValue :: values := by simp
      have following := ih _ second (by rw [shifted]; exact distinct) (Nat.lt_of_succ_lt_succ enough)
      rw [shifted] at following
      rw [readMembers, List.flatMap_cons,
        readMember_eq first (by intro char same; cases same; exact .inl rfl),
        Option.bind_some, JsonObject.assign_new (key_not_mem_before distinct), ← following, List.append_assoc]
      rfl

theorem jsonObject_braces (fields : List (String × String)) :
    ∃ middle, (jsonObject fields).toList = '\x7b' :: (middle ++ ['\x7d']) := by
  cases fields with
  | nil => exact ⟨[], by decide⟩
  | cons first others => exact ⟨_, by rw [toList_jsonObject_cons, ← List.append_assoc]⟩

private theorem memberText_sublist {field : String × String} {fields : List (String × String)}
    (member : field ∈ fields) : (memberText field).Sublist (jsonObject fields).toList.tail := by
  cases fields with
  | nil => cases member
  | cons first others =>
    rw [toList_jsonObject_cons, List.tail_cons]
    rcases List.mem_cons.mp member with rfl | later
    · exact List.sublist_append_left _ _
    · have listed := List.sublist_flatten_of_mem
        (List.mem_map_of_mem (f := fun field => ',' :: ' ' :: memberText field) later)
      refine .trans (.trans (.trans ?_ listed) (List.sublist_append_left _ _))
        (List.sublist_append_right _ _)
      exact .trans (List.sublist_cons_self _ _) (List.sublist_cons_self _ _)

private theorem length_lt_jsonObject {field : String × String} {fields : List (String × String)}
    (member : field ∈ fields) : field.2.length + 1 < (jsonObject fields).length := by
  have inside : field.2.length < (memberText field).length := by
    unfold memberText
    simp only [List.length_cons, List.length_append, String.length_toList]
    omega
  have size := (memberText_sublist member).length_le
  rw [List.length_tail, String.length_toList] at size
  omega

private theorem length_fields_lt (field : String × String) (fields : List (String × String)) :
    fields.length + 1 < (jsonObject (field :: fields)).length := by
  have each : fields.length ≤
      (fields.flatMap fun field => ',' :: ' ' :: memberText field).length := by
    induction fields with
    | nil => exact Nat.le_refl 0
    | cons first others ih =>
      rw [List.flatMap_cons, List.length_append, List.length_cons, List.length_cons,
        List.length_cons]
      omega
  rw [← String.length_toList, toList_jsonObject_cons, List.length_cons, List.length_append,
    List.length_append, List.length_singleton]
  omega

private theorem ReadsAs.memberRead {field : String × String} {value : String × Json}
    (named : field.1 = value.1) (reads : ReadsAs float field.2 value.2) {fuel : Nat}
    (enough : field.2.length < fuel) : MemberRead (readValue float fuel) field value :=
  ⟨named, reads.skipSpace_eq, fun rest ends => reads rest ends fuel enough⟩

theorem readsAs_object {fields : List (String × String)} {values : JsonObject}
    (members : MembersRead float fields values) (distinct : (values.map (·.1)).Nodup) :
    ReadsAs float (jsonObject fields) (.object values) := by
  intro rest ends fuel enough
  cases fuel with
  | zero => cases enough
  | succ fuel =>
    cases members with
    | nil => rfl
    | @cons field value fields values first others =>
      have first : MemberRead (readValue float fuel) field value := by
        have shorter := length_lt_jsonObject (List.mem_cons_self : field ∈ field :: fields)
        exact first.2.memberRead first.1 (by omega)
      have shorter : ∀ later ∈ fields, later.2.length < fuel := by
        intro later member
        have smaller := length_lt_jsonObject (List.mem_cons_of_mem field member)
        omega
      have others : List.Forall₂ (MemberRead (readValue float fuel)) fields values :=
        ((List.forall₂_and_left _ _).mpr ⟨shorter, others⟩).imp
          fun _ _ later => later.2.2.memberRead later.2.1 later.1
      have fewer := length_fields_lt field fields
      have read := readMembers_cons [] first others distinct
        (by omega : fields.length < fuel) rest
      rw [toList_jsonObject_cons, List.cons_append, readValue, if_neg (by decide), if_pos rfl]
      rw [List.append_assoc, List.append_assoc]
      exact read

/-- A text that is read as a value is loaded as it. -/
theorem ReadsAs.loads (reads : ReadsAs float text value) : jsonLoads float text = some value := by
  have started := reads.skipSpace_eq []
  have read := reads [] (fun _ none => by cases none) (text.length + 1) (Nat.lt_succ_self _)
  rw [List.append_nil] at started read
  unfold jsonLoads
  rw [started, read]
  rfl

end Values

section Characters

/-- The printed characters of ASCII. -/
def Plain (char : Char) : Prop := 0x20 ≤ char.toNat ∧ char.toNat < 0x7f

instance (char : Char) : Decidable (Plain char) := inferInstanceAs (Decidable (_ ∧ _))

private theorem unescape_plain {escape char : Char} (known : unescape escape = some char) :
    Plain escape ∧ char.toNat < 0x7f := by
  unfold unescape at known
  split_ifs at known with same back feed newline carriage tab
  · cases known
    rcases same with rfl | rfl | rfl <;> decide
  · cases known; rw [back]; decide
  · cases known; rw [feed]; decide
  · cases known; rw [newline]; decide
  · cases known; rw [carriage]; decide
  · cases known; rw [tab]; decide

private theorem hexValue_plain {char : Char} {value : Nat} (known : hexValue char = some value) :
    Plain char := by
  unfold hexValue at known
  split_ifs at known with digit small large
  · obtain ⟨low, high⟩ := AsciiDigit.of_isDigit digit
    exact ⟨by omega, by omega⟩
  · have low : 'a'.toNat = 97 := rfl
    have high : 'f'.toNat = 102 := rfl
    exact ⟨by omega, by omega⟩
  · have low : 'A'.toNat = 65 := rfl
    have high : 'F'.toNat = 70 := rfl
    exact ⟨by omega, by omega⟩

private theorem codeUnit_plain {first second third fourth : Char} {unit : Nat}
    (known : codeUnit first second third fourth = some unit) : Plain third ∧ Plain fourth := by
  unfold codeUnit at known
  obtain ⟨_, _, known⟩ := Option.bind_eq_some_iff.mp known
  obtain ⟨_, _, known⟩ := Option.bind_eq_some_iff.mp known
  obtain ⟨_, thirdKnown, known⟩ := Option.bind_eq_some_iff.mp known
  obtain ⟨_, fourthKnown, known⟩ := Option.bind_eq_some_iff.mp known
  exact ⟨hexValue_plain thirdKnown, hexValue_plain fourthKnown⟩

/-- What a character is written as is plain, except for itself. -/
theorem mem_jsonChar {char other : Char} (member : other ∈ (jsonChar char).toList) :
    Plain other ∨ other = char ∧ 0x20 ≤ char.toNat := by
  obtain ⟨escape, known, spelled⟩ | ⟨third, fourth, known, control, spelled⟩ |
    ⟨unquoted, unescaped, printed, spelled⟩ := jsonChar_cases char
  · left
    rw [spelled] at member
    rcases List.mem_cons.mp member with rfl | later
    · decide
    · rw [List.mem_singleton.mp later]
      exact (unescape_plain known).1
  · left
    obtain ⟨thirdPlain, fourthPlain⟩ := codeUnit_plain known
    rw [spelled] at member
    simp only [List.mem_cons, List.not_mem_nil, or_false] at member
    rcases member with rfl | rfl | rfl | rfl | rfl | rfl
    · decide
    · decide
    · decide
    · decide
    · exact thirdPlain
    · exact fourthPlain
  · rw [spelled] at member
    exact .inr ⟨List.mem_singleton.mp member, printed⟩

private theorem mem_jsonChar_self {char : Char} (high : 0x7f ≤ char.toNat) :
    char ∈ (jsonChar char).toList := by
  obtain ⟨escape, known, spelled⟩ | ⟨third, fourth, known, control, spelled⟩ |
    ⟨unquoted, unescaped, printed, spelled⟩ := jsonChar_cases char
  · have low := (unescape_plain known).2
    omega
  · omega
  · rw [spelled]
    exact List.mem_singleton_self char

variable {text : String} {char : Char}

private theorem mem_escaped (member : char ∈ escaped text) :
    Plain char ∨ char ∈ text.toList ∧ 0x20 ≤ char.toNat := by
  obtain ⟨other, inside, written⟩ := List.mem_flatMap.mp member
  rcases mem_jsonChar written with plain | ⟨rfl, printed⟩
  · exact .inl plain
  · exact .inr ⟨inside, printed⟩

theorem mem_jsonString (member : char ∈ (jsonString text).toList) :
    Plain char ∨ char ∈ text.toList ∧ 0x20 ≤ char.toNat := by
  rw [toList_jsonString] at member
  rcases List.mem_cons.mp member with rfl | later
  · exact .inl (by decide)
  · rcases List.mem_append.mp later with inside | last
    · exact mem_escaped inside
    · rw [List.mem_singleton.mp last]
      exact .inl (by decide)

/-- A character above ASCII stays as it is. -/
theorem mem_jsonString_of_mem (high : 0x7f ≤ char.toNat) (member : char ∈ text.toList) :
    char ∈ (jsonString text).toList := by
  rw [toList_jsonString]
  refine List.mem_cons_of_mem _ (List.mem_append_left _ ?_)
  exact List.mem_flatMap.mpr ⟨char, member, mem_jsonChar_self high⟩

theorem mem_toString {number : Int} (member : char ∈ (toString number).toList) : Plain char := by
  have digits : ∀ count : Nat, ∀ digit ∈ Nat.toDigits 10 count, Plain digit := by
    intro count digit present
    obtain ⟨low, high⟩ := digits_ascii count digit present
    exact ⟨by omega, by omega⟩
  rw [Int.toString_eq_repr, Int.repr_eq_if] at member
  split at member
  · rw [Nat.toList_repr] at member
    exact digits _ _ member
  · rw [String.toList_append, Nat.toList_repr] at member
    rcases List.mem_append.mp member with minus | digit
    · rw [List.mem_singleton.mp minus]
      decide
    · exact digits _ _ digit

private theorem mem_memberText {field : String × String} (member : char ∈ memberText field) :
    Plain char ∨ char ∈ field.1.toList ∧ 0x20 ≤ char.toNat ∨ char ∈ field.2.toList := by
  unfold memberText at member
  simp only [List.mem_cons, List.mem_append] at member
  rcases member with rfl | inside | rfl | rfl | rfl | value
  · exact .inl (by decide)
  · rcases mem_escaped inside with plain | named
    · exact .inl plain
    · exact .inr (.inl named)
  · exact .inl (by decide)
  · exact .inl (by decide)
  · exact .inl (by decide)
  · exact .inr (.inr value)

theorem mem_jsonObject {fields : List (String × String)}
    (member : char ∈ (jsonObject fields).toList) :
    Plain char ∨ ∃ field ∈ fields,
      char ∈ field.1.toList ∧ 0x20 ≤ char.toNat ∨ char ∈ field.2.toList := by
  cases fields with
  | nil =>
    left
    have braces : (jsonObject []).toList = ['\x7b', '\x7d'] := by decide
    rw [braces] at member
    simp only [List.mem_cons, List.not_mem_nil, or_false] at member
    rcases member with rfl | rfl <;> decide
  | cons first others =>
    rw [toList_jsonObject_cons] at member
    simp only [List.mem_cons, List.mem_append, List.mem_flatMap, List.not_mem_nil, or_false]
      at member
    rcases member with rfl | inside | ⟨field, listed, rfl | rfl | inside⟩ | rfl
    · exact .inl (by decide)
    · exact (mem_memberText inside).imp_right fun found => ⟨first, List.mem_cons_self, found⟩
    · exact .inl (by decide)
    · exact .inl (by decide)
    · exact (mem_memberText inside).imp_right fun found =>
        ⟨field, List.mem_cons_of_mem _ listed, found⟩
    · exact .inl (by decide)

theorem mem_jsonObject_of_mem {field : String × String} {fields : List (String × String)}
    (member : field ∈ fields) (inside : char ∈ field.2.toList) :
    char ∈ (jsonObject fields).toList := by
  refine List.mem_of_mem_tail ((memberText_sublist member).subset ?_)
  unfold memberText
  simp only [List.mem_cons, List.mem_append]
  exact .inr (.inr (.inr (.inr (.inr inside))))

end Characters

end PyUploadX
