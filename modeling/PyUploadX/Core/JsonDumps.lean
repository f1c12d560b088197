import PyUploadX.DirectoryUpload.JsonLines
import PyUploadX.Kit.Program

/-! `json.dumps`, with the options it is called with: what it writes is read back. -/
namespace PyUploadX

open JsonText

structure DumpsOptions where
  ensureAscii : Bool := true
  indent : Option Nat := none
  sortKeys : Bool := false

section Writer

/-- A UTF-16 code unit. -/
def hexUnit (unit : Nat) : List Char :=
  '\\' :: 'u' :: [Nat.digitChar (unit / 0x1000), Nat.digitChar (unit / 0x100 % 0x10),
    Nat.digitChar (unit / 0x10 % 0x10), Nat.digitChar (unit % 0x10)]

/-- With `ensure_ascii`, what is not printable ASCII is written as its code units. -/
def asciiChar (char : Char) : List Char :=
  if char.toNat < 0x7f then (jsonChar char).toList
  else if char.toNat < 0x10000 then hexUnit char.toNat
  else
    let point := char.toNat - 0x10000
    hexUnit (0xd800 + point / 0x400) ++ hexUnit (0xdc00 + point % 0x400)

variable (floatText : FloatValue → List Char) (options : DumpsOptions)

def dumpsChar (char : Char) : List Char :=
  if options.ensureAscii then asciiChar char else (jsonChar char).toList

def dumpsString (text : String) : List Char :=
  '"' :: (text.toList.flatMap (dumpsChar options) ++ ['"'])

/-- The new line and the blanks before an item, where there is an `indent`. -/
def newline (depth : Nat) : List Char :=
  match options.indent with
  | none => []
  | some width => '\n' :: List.replicate (width * depth) ' '

/-- Between two items. -/
def separator (depth : Nat) : List Char :=
  match options.indent with
  | none => [',', ' ']
  | some _ => ',' :: newline options depth

/-- The items of an array or the members of an object, in their brackets. -/
def bracketed (opening closing : Char) (depth : Nat) : List (List Char) → List Char
  | [] => [opening, closing]
  | first :: others =>
    opening :: (newline options (depth + 1) ++ (first ++
      (others.flatMap (fun other => separator options (depth + 1) ++ other) ++
        (newline options depth ++ [closing]))))

mutual

def dumpsAt (depth : Nat) : Json → Except Failure (List Char)
  | .null => .ok ['n', 'u', 'l', 'l']
  | .bool true => .ok ['t', 'r', 'u', 'e']
  | .bool false => .ok ['f', 'a', 'l', 's', 'e']
  | .int number => (intText number).map String.toList
  | .float value => .ok (floatText value)
  | .string text => .ok (dumpsString options text)
  | .array items => do
    let texts ← dumpsItems (depth + 1) items
    return bracketed options '[' ']' depth texts
  | .object fields => do
    let texts ← dumpsMembers (depth + 1) fields
    return bracketed options '\x7b' '\x7d' depth texts

def dumpsItems (depth : Nat) : List Json → Except Failure (List (List Char))
  | [] => .ok []
  | item :: rest => do
    let text ← dumpsAt depth item
    let texts ← dumpsItems depth rest
    return text :: texts

def dumpsMembers (depth : Nat) : List (String × Json) → Except Failure (List (List Char))
  | [] => .ok []
  | (key, value) :: rest => do
    let text ← dumpsAt depth value
    let texts ← dumpsMembers depth rest
    return (dumpsString options key ++ ':' :: ' ' :: text) :: texts

end

def keyOrder (first second : String × Json) : Prop := first.1 ≤ second.1

instance : DecidableRel keyOrder := fun first second =>
  inferInstanceAs (Decidable (first.1 ≤ second.1))

mutual

/-- The members of every object by their keys. -/
def Json.sorted : Json → Json
  | .array items => .array (sortedItems items)
  | .object fields => .object ((sortedMembers fields).insertionSort keyOrder)
  | value => value

def sortedItems : List Json → List Json
  | [] => []
  | item :: rest => item.sorted :: sortedItems rest

def sortedMembers : List (String × Json) → List (String × Json)
  | [] => []
  | (key, value) :: rest => (key, value.sorted) :: sortedMembers rest

end

/-- `json.dumps(value, …)`. -/
def jsonDumps (value : Json) : Except Failure String :=
  (dumpsAt floatText options 0 (if options.sortKeys then value.sorted else value)).map String.ofList

end Writer

/-! What the values are that are written without loss. -/

mutual

/-- A value of dictionaries, lists, strings, integers, truth values and `None`, in which no
number has more digits than Python writes. -/
def Json.Plain : Json → Prop
  | .float _ => False
  | .int number => (Nat.toDigits 10 number.natAbs).length ≤ maximumDigits
  | .array items => PlainItems items
  | .object fields => (fields.map (·.1)).Nodup ∧ PlainMembers fields
  | _ => True

def PlainItems : List Json → Prop
  | [] => True
  | item :: rest => item.Plain ∧ PlainItems rest

def PlainMembers : List (String × Json) → Prop
  | [] => True
  | (_, value) :: rest => value.Plain ∧ PlainMembers rest

end

section Characters

variable (options : DumpsOptions) {text : String}

private theorem hexValue_digitChar : ∀ digit < 0x10, hexValue (Nat.digitChar digit) = some digit := by
  decide

private theorem codeUnit_hexUnit {unit : Nat} (bound : unit < 0x10000) :
    codeUnit (Nat.digitChar (unit / 0x1000)) (Nat.digitChar (unit / 0x100 % 0x10))
      (Nat.digitChar (unit / 0x10 % 0x10)) (Nat.digitChar (unit % 0x10)) = some unit := by
  have digits : ((unit / 0x1000 * 16 + unit / 0x100 % 0x10) * 16 + unit / 0x10 % 0x10) * 16 +
      unit % 0x10 = unit := by omega
  rw [codeUnit, hexValue_digitChar _ (by omega), hexValue_digitChar _ (by omega),
    hexValue_digitChar _ (by omega), hexValue_digitChar _ (by omega)]
  exact congrArg some digits

private theorem readString_hexUnit {unit : Nat} (bound : unit < 0x10000)
    (whole : unit < 0xd800 ∨ 0xe000 ≤ unit) (rest : List Char) :
    readString (hexUnit unit ++ rest) =
      (readString rest).map fun read => (Char.ofNat unit :: read.1, read.2) := by
  unfold hexUnit
  simp only [List.cons_append, List.nil_append]
  rw [readString.eq_def]
  dsimp only
  rw [if_neg (by decide), if_neg (by decide), if_neg (not_not_intro rfl),
    if_neg (not_not_intro rfl), codeUnit_hexUnit bound]
  dsimp only
  rw [if_neg (by omega), if_pos whole]

private theorem readString_surrogates {point : Nat} (bound : point < 0x100000) (rest : List Char) :
    readString (hexUnit (0xd800 + point / 0x400) ++ (hexUnit (0xdc00 + point % 0x400) ++ rest)) =
      (readString rest).map fun read => (Char.ofNat (0x10000 + point) :: read.1, read.2) := by
  have joined : 0x10000 + (0xd800 + point / 0x400 - 0xd800) * 0x400 +
      (0xdc00 + point % 0x400 - 0xdc00) = 0x10000 + point := by omega
  unfold hexUnit
  simp only [List.cons_append, List.nil_append]
  rw [readString.eq_def]
  dsimp only
  rw [if_neg (by decide), if_neg (by decide), if_neg (not_not_intro rfl),
    if_neg (not_not_intro rfl), codeUnit_hexUnit (by omega)]
  dsimp only
  rw [if_neg (by omega), if_neg (by omega), if_pos ⟨rfl, rfl⟩, codeUnit_hexUnit (by omega)]
  dsimp only
  rw [if_pos (by omega), joined]

private theorem readString_asciiChar (char : Char) (rest : List Char) :
    readString (asciiChar char ++ rest) =
      (readString rest).map fun read => (char :: read.1, read.2) := by
  have valid : char.toNat < 0xd800 ∨ (0xdfff < char.toNat ∧ char.toNat < 0x110000) := char.valid
  unfold asciiChar
  split
  · exact readString_jsonChar char rest
  · split
    · rename_i basic
      rw [readString_hexUnit basic (by omega), Char.ofNat_toNat]
    · rename_i supplementary
      have whole : 0x10000 + (char.toNat - 0x10000) = char.toNat := by omega
      dsimp only
      rw [List.append_assoc, readString_surrogates (by omega), whole, Char.ofNat_toNat]

private theorem readString_dumpsChar (char : Char) (rest : List Char) :
    readString (dumpsChar options char ++ rest) =
      (readString rest).map fun read => (char :: read.1, read.2) := by
  unfold dumpsChar
  split
  · exact readString_asciiChar char rest
  · exact readString_jsonChar char rest

private theorem readString_dumpsString (text : String) (rest : List Char) :
    readString ((dumpsString options text).tail ++ rest) = some (text.toList, rest) := by
  unfold dumpsString
  rw [List.tail_cons]
  induction text.toList with
  | nil => rw [readString.eq_def]; rfl
  | cons char chars ih =>
    rw [List.append_assoc] at ih ⊢
    rw [List.flatMap_cons, List.append_assoc, readString_dumpsChar, ih]
    rfl

end Characters

section Values

variable (options : DumpsOptions) {float : String → FloatValue}
  {read : List Char → Option (Json × List Char)} {text : List Char} {value : Json}

/-- The text is read as the value, up to its end. -/
def ReadsBack (float : String → FloatValue) (text : List Char) (value : Json) : Prop :=
  ∀ rest, Stops rest → ∀ fuel, text.length < fuel →
    readValue float fuel (text ++ rest) = some (value, rest)

/-- An item that the reader reads: it begins at once, and is no closing bracket. -/
structure ItemRead (read : List Char → Option (Json × List Char)) (text : List Char)
    (value : Json) : Prop where
  begins : ∀ rest, skipSpace (text ++ rest) = text ++ rest ∧ (text ++ rest).head? ≠ some ']'
  reads : ∀ rest, Stops rest → read (text ++ rest) = some (value, rest)

/-- A member that the reader reads, from its key on. -/
structure MemberReads (read : List Char → Option (Json × List Char)) (text : List Char)
    (member : String × Json) : Prop where
  quoted : ∃ others, text = '"' :: others
  reads : ∀ rest, Stops rest → readMember read (text.tail ++ rest) = some (member, rest)

theorem ReadsBack.item (reads : ReadsBack float text value) {fuel : Nat}
    (enough : text.length < fuel) : ItemRead (readValue float fuel) text value where
  begins := by
    have alone := reads [] (fun _ none => by cases none) (text.length + 1) (Nat.lt_succ_self _)
    rw [List.append_nil] at alone
    cases text with
    | nil => cases alone
    | cons char chars =>
      intro rest
      constructor
      · unfold skipSpace
        rw [List.cons_append, List.dropWhile_cons_of_neg]
        intro space
        rw [readValue_space space] at alone
        cases alone
      · intro closing
        cases closing
        cases alone
  reads rest ends := reads rest ends fuel enough

private theorem newline_blank {depth : Nat} {char : Char} (member : char ∈ newline options depth) :
    isWhitespace char = true := by
  unfold newline at member
  split at member
  · cases member
  · rcases List.mem_cons.mp member with rfl | blank
    · rfl
    · rw [List.eq_of_mem_replicate blank]
      rfl

private theorem skipSpace_blanks {blanks : List Char} (blank : ∀ char ∈ blanks, isWhitespace char = true)
    (rest : List Char) : skipSpace (blanks ++ rest) = skipSpace rest :=
  List.dropWhile_append_of_pos blank

private theorem skipSpace_newline (depth : Nat) (rest : List Char) :
    skipSpace (newline options depth ++ rest) = skipSpace rest :=
  skipSpace_blanks (fun _ => newline_blank options) rest

theorem separator_eq (depth : Nat) : ∃ blanks, separator options depth = ',' :: blanks ∧
    ∀ char ∈ blanks, isWhitespace char = true := by
  unfold separator
  split
  · refine ⟨[' '], rfl, fun char member => ?_⟩
    rw [List.mem_singleton.mp member]
    rfl
  · exact ⟨_, rfl, fun char member => newline_blank options member⟩

private theorem stops_separator (depth : Nat) (rest : List Char) :
    Stops (separator options depth ++ rest) := by
  obtain ⟨blanks, spelled, _⟩ := separator_eq options depth
  rw [spelled]
  rintro char ⟨⟩
  exact .inl rfl

private theorem stops_newline (depth : Nat) {closing : Char} (closes : closing = ']' ∨ closing = '\x7d')
    (rest : List Char) : Stops (newline options depth ++ closing :: rest) := by
  unfold newline
  split
  · rintro char ⟨⟩
    exact closes.elim (.inr <| .inr <| .inl ·) (.inr <| .inl ·)
  · rintro char ⟨⟩
    exact .inr (.inr (.inr rfl))

/-- What follows the first item: the other items, and the closing bracket. -/
def afterFirst (depth : Nat) (closing : Char) (others : List (List Char)) (rest : List Char) :
    List Char :=
  others.flatMap (fun other => separator options (depth + 1) ++ other) ++
    (newline options depth ++ closing :: rest)

private theorem afterFirst_cons (depth : Nat) (closing : Char) (next : List Char)
    (others : List (List Char)) (rest : List Char) :
    afterFirst options depth closing (next :: others) rest =
      separator options (depth + 1) ++ (next ++ afterFirst options depth closing others rest) := by
  unfold afterFirst
  rw [List.flatMap_cons, List.append_assoc, List.append_assoc]

private theorem stops_afterFirst (depth : Nat) {closing : Char} (closes : closing = ']' ∨ closing = '\x7d')
    (others : List (List Char)) (rest : List Char) :
    Stops (afterFirst options depth closing others rest) := by
  cases others with
  | nil => exact stops_newline options depth closes rest
  | cons next others =>
    rw [afterFirst_cons]
    exact stops_separator options _ _

private theorem bracketed_cons (opening closing : Char) (depth : Nat) (first : List Char)
    (others : List (List Char)) (rest : List Char) :
    bracketed options opening closing depth (first :: others) ++ rest =
      opening :: (newline options (depth + 1) ++
        (first ++ afterFirst options depth closing others rest)) := by
  unfold bracketed afterFirst
  simp only [List.cons_append, List.append_assoc, List.nil_append]

theorem readItems_texts (depth : Nat) {texts : List (List Char)} {values : List Json}
    (before : List Json) (first : ItemRead read text value)
    (others : List.Forall₂ (ItemRead read) texts values) {fuel : Nat}
    (enough : texts.length < fuel) (rest : List Char) :
    readItems read fuel before (text ++ afterFirst options depth ']' texts rest) =
      some (.array (before ++ value :: values), rest) := by
  induction others generalizing before text value fuel with
  | nil =>
    cases fuel with
    | zero => cases enough
    | succ fuel =>
      rw [readItems, first.reads _ (stops_afterFirst options depth (.inl rfl) _ _),
        Option.bind_some]
      dsimp only
      rw [afterFirst, List.flatMap_nil, List.nil_append, skipSpace_newline]
      rfl
  | @cons next nextValue texts values second others ih =>
    cases fuel with
    | zero => cases enough
    | succ fuel =>
      obtain ⟨blanks, spelled, blank⟩ := separator_eq options (depth + 1)
      have following := ih (before ++ [value]) second (Nat.lt_of_succ_lt_succ enough)
      rw [readItems, first.reads _ (stops_afterFirst options depth (.inl rfl) _ _),
        Option.bind_some, afterFirst_cons, spelled]
      change readItems read fuel (before ++ [value]) (skipSpace (blanks ++ (next ++ _))) = _
      rw [skipSpace_blanks blank, (second.begins _).1, following, List.append_assoc]
      rfl

private theorem readNext_comma {text rest : List Char} (quoted : skipSpace text = '"' :: rest) :
    readNext (',' :: text) = some (true, rest) := by
  have comma : skipSpace (',' :: text) = ',' :: text := rfl
  unfold readNext
  rw [comma]
  simp only [quoted]
  rfl

theorem readMembers_texts (depth : Nat) {texts : List (List Char)} {members : JsonObject}
    (before : JsonObject) {member : String × Json} (first : MemberReads read text member)
    (others : List.Forall₂ (MemberReads read) texts members)
    (distinct : ((before ++ member :: members).map (·.1)).Nodup) {fuel : Nat}
    (enough : texts.length < fuel) (rest : List Char) :
    readMembers read fuel before (text.tail ++ afterFirst options depth '\x7d' texts rest) =
      some (.object (before ++ member :: members), rest) := by
  induction others generalizing before text member fuel with
  | nil =>
    cases fuel with
    | zero => cases enough
    | succ fuel =>
      have closed : readNext (afterFirst options depth '\x7d' [] rest) = some (false, rest) := by
        rw [afterFirst, List.flatMap_nil, List.nil_append, readNext, skipSpace_newline]
        rfl
      rw [readMembers, first.reads _ (stops_afterFirst options depth (.inr rfl) _ _),
        Option.bind_some, JsonObject.assign_new (key_not_mem_before distinct), closed]
      rfl
  | @cons next nextMember texts members second others ih =>
    cases fuel with
    | zero => cases enough
    | succ fuel =>
      obtain ⟨blanks, spelled, blank⟩ := separator_eq options (depth + 1)
      obtain ⟨chars, quoted⟩ := second.quoted
      have shifted : (before ++ [member]) ++ nextMember :: members =
          before ++ member :: nextMember :: members := by simp
      have following := ih (before ++ [member]) second (by rw [shifted]; exact distinct)
        (Nat.lt_of_succ_lt_succ enough)
      have more : readNext (afterFirst options depth '\x7d' (next :: texts) rest) =
          some (true, next.tail ++ afterFirst options depth '\x7d' texts rest) := by
        have blanked := skipSpace_blanks blank (next ++ afterFirst options depth '\x7d' texts rest)
        rw [quoted, List.cons_append] at blanked
        rw [afterFirst_cons, spelled, quoted]
        exact readNext_comma blanked
      rw [readMembers, first.reads _ (stops_afterFirst options depth (.inr rfl) _ _),
        Option.bind_some, JsonObject.assign_new (key_not_mem_before distinct), more,
        Option.bind_some]
      exact following.trans (by rw [shifted])

private theorem mem_bracketed (opening closing : Char) (depth : Nat) {texts : List (List Char)}
    (member : text ∈ texts) :
    text.length + 1 < (bracketed options opening closing depth texts).length := by
  cases texts with
  | nil => cases member
  | cons first others =>
    unfold bracketed
    rcases List.mem_cons.mp member with rfl | later
    · simp only [List.length_cons, List.length_append]
      omega
    · have listed := (List.sublist_flatten_of_mem (List.mem_map_of_mem
        (f := fun other => separator options (depth + 1) ++ other) later)).length_le
      rw [List.length_append] at listed
      simp only [List.length_cons, List.length_append, List.flatMap]
      omega

private theorem length_texts_lt (opening closing : Char) (depth : Nat) (first : List Char)
    (others : List (List Char)) :
    others.length + 1 < (bracketed options opening closing depth (first :: others)).length := by
  have each : others.length ≤
      (others.flatMap fun other => separator options (depth + 1) ++ other).length := by
    induction others with
    | nil => exact Nat.le_refl 0
    | cons next others ih =>
      obtain ⟨blanks, spelled, _⟩ := separator_eq options (depth + 1)
      have comma := congrArg List.length spelled
      rw [List.length_cons] at comma
      rw [List.flatMap_cons, List.length_append, List.length_append, List.length_cons]
      omega
  unfold bracketed
  simp only [List.length_cons, List.length_append]
  omega

private theorem readsBack_array {depth : Nat} {texts : List (List Char)} {items : List Json}
    (each : List.Forall₂ (ReadsBack float) texts items) :
    ReadsBack float (bracketed options '[' ']' depth texts) (.array items) := by
  intro rest ends fuel enough
  cases fuel with
  | zero => cases enough
  | succ fuel =>
    have shorter : ∀ text ∈ texts, text.length < fuel := by
      intro text member
      have inside := mem_bracketed options '[' ']' depth member
      omega
    have reads : List.Forall₂ (ItemRead (readValue float fuel)) texts items :=
      ((List.forall₂_and_left _ _).mpr ⟨shorter, each⟩).imp fun _ _ item => item.2.item item.1
    cases reads with
    | nil => rfl
    | @cons first item texts items first' others =>
      have fewer := length_texts_lt options '[' ']' depth first texts
      have started := first'.begins (afterFirst options depth ']' texts rest)
      rw [bracketed_cons, readValue, if_neg (by decide), if_neg (by decide), if_pos rfl,
        skipSpace_newline, started.1, if_neg started.2]
      exact readItems_texts options depth [] first' others (by omega) rest

/-- A member's text: its key and the text of its value. -/
def MemberText (float : String → FloatValue) (text : List Char) (member : String × Json) : Prop :=
  ∃ valueText, text = dumpsString options member.1 ++ ':' :: ' ' :: valueText ∧
    ReadsBack float valueText member.2

variable {options}

theorem MemberText.reads {member : String × Json} (spelled : MemberText options float text member)
    {fuel : Nat} (enough : text.length < fuel) : MemberReads (readValue float fuel) text member := by
  obtain ⟨valueText, rfl, reads⟩ := spelled
  rw [List.length_append, List.length_cons, List.length_cons] at enough
  have item := reads.item (by omega : valueText.length < fuel)
  refine ⟨⟨_, rfl⟩, fun rest ends => ?_⟩
  have named := readString_dumpsString options member.1 (':' :: ' ' :: (valueText ++ rest))
  have behind : (dumpsString options member.1 ++ ':' :: ' ' :: valueText).tail ++ rest =
      (dumpsString options member.1).tail ++ ':' :: ' ' :: (valueText ++ rest) := by
    unfold dumpsString
    simp
  have spaced : skipSpace (' ' :: (valueText ++ rest)) = valueText ++ rest := (item.begins rest).1
  unfold readMember
  rw [behind, named, Option.bind_some]
  change (if ':' = ':' then (readValue float fuel (skipSpace (' ' :: (valueText ++ rest)))).map
    (fun value => ((String.ofList member.1.toList, value.1), value.2)) else none) = _
  rw [if_pos rfl, spaced, item.reads rest ends, Option.map_some, String.ofList_toList]

private theorem readsBack_object {depth : Nat} {texts : List (List Char)} {members : JsonObject}
    (each : List.Forall₂ (MemberText options float) texts members)
    (distinct : (members.map (·.1)).Nodup) :
    ReadsBack float (bracketed options '\x7b' '\x7d' depth texts) (.object members) := by
  intro rest ends fuel enough
  cases fuel with
  | zero => cases enough
  | succ fuel =>
    have shorter : ∀ text ∈ texts, text.length < fuel := by
      intro text member
      have inside := mem_bracketed options '\x7b' '\x7d' depth member
      omega
    have reads : List.Forall₂ (MemberReads (readValue float fuel)) texts members :=
      ((List.forall₂_and_left _ _).mpr ⟨shorter, each⟩).imp fun _ _ member => member.2.reads member.1
    cases reads with
    | nil => rfl
    | @cons first member texts members first' others =>
      have fewer := length_texts_lt options '\x7b' '\x7d' depth first texts
      obtain ⟨chars, quoted⟩ := first'.quoted
      have started : skipSpace (first ++ afterFirst options depth '\x7d' texts rest) =
          '"' :: (first.tail ++ afterFirst options depth '\x7d' texts rest) := by
        rw [quoted]
        rfl
      rw [bracketed_cons, readValue, if_neg (by decide), if_pos rfl, skipSpace_newline, started]
      exact readMembers_texts options depth [] first' others distinct (by omega) rest

private theorem readsBack_string (text : String) :
    ReadsBack float (dumpsString options text) (.string text) := by
  intro rest _ fuel enough
  cases fuel with
  | zero => cases enough
  | succ fuel =>
    have read := readString_dumpsString options text rest
    unfold dumpsString at read ⊢
    rw [List.cons_append, readValue, if_pos rfl]
    rw [List.tail_cons] at read
    rw [read, Option.map_some, String.ofList_toList]

private theorem readsBack_int {number : Int}
    (short : (Nat.toDigits 10 number.natAbs).length ≤ maximumDigits) :
    ∃ text, intText number = .ok text ∧ ReadsBack float text.toList (.int number) := by
  refine ⟨toString number, if_neg (Nat.not_lt.mpr short), fun rest ends fuel enough => ?_⟩
  rw [String.length_toList] at enough
  exact readValue_int number ends enough

section Written

variable {floatText : FloatValue → List Char}

variable (float) in
/-- The value is written, and what is written is read back. -/
def Written (result : Except Failure (List Char)) (value : Json) : Prop :=
  ∃ text, result = .ok text ∧ ReadsBack float text value

mutual

theorem dumpsAt_readsBack (depth : Nat) : (value : Json) → value.Plain →
    Written float (dumpsAt floatText options depth value) value
  | .null, _ => by
    refine ⟨_, rfl, fun rest _ fuel enough => ?_⟩
    cases fuel with
    | zero => cases enough
    | succ fuel => rfl
  | .bool true, _ => by
    refine ⟨_, rfl, fun rest _ fuel enough => ?_⟩
    cases fuel with
    | zero => cases enough
    | succ fuel => rfl
  | .bool false, _ => by
    refine ⟨_, rfl, fun rest _ fuel enough => ?_⟩
    cases fuel with
    | zero => cases enough
    | succ fuel => rfl
  | .int number, short => by
    obtain ⟨text, spelled, reads⟩ := readsBack_int short
    exact ⟨text.toList, Kit.except_map_eq_ok.mpr ⟨text, spelled, rfl⟩, reads⟩
  | .float value, plain => plain.elim
  | .string text, _ => ⟨_, rfl, readsBack_string text⟩
  | .array items, plain => by
    obtain ⟨texts, each, reads⟩ := dumpsItems_readsBack (depth + 1) items plain
    exact ⟨_, Kit.except_bind_eq_ok.mpr ⟨texts, each, rfl⟩, readsBack_array options reads⟩
  | .object members, plain => by
    obtain ⟨texts, each, reads⟩ := dumpsMembers_readsBack (depth + 1) members plain.2
    exact ⟨_, Kit.except_bind_eq_ok.mpr ⟨texts, each, rfl⟩, readsBack_object reads plain.1⟩

private theorem dumpsItems_readsBack (depth : Nat) : (items : List Json) → PlainItems items →
    ∃ texts, dumpsItems floatText options depth items = .ok texts ∧
      List.Forall₂ (ReadsBack float) texts items
  | [], _ => ⟨[], rfl, .nil⟩
  | item :: rest, plain => by
    obtain ⟨text, first, reads⟩ := dumpsAt_readsBack depth item plain.1
    obtain ⟨texts, later, others⟩ := dumpsItems_readsBack depth rest plain.2
    refine ⟨text :: texts, ?_, .cons reads others⟩
    rw [dumpsItems, first, later]
    rfl

private theorem dumpsMembers_readsBack (depth : Nat) : (members : List (String × Json)) →
    PlainMembers members →
      ∃ texts, dumpsMembers floatText options depth members = .ok texts ∧
        List.Forall₂ (MemberText options float) texts members
  | [], _ => ⟨[], rfl, .nil⟩
  | (key, value) :: rest, plain => by
    obtain ⟨text, first, reads⟩ := dumpsAt_readsBack depth value plain.1
    obtain ⟨texts, later, others⟩ := dumpsMembers_readsBack depth rest plain.2
    refine ⟨(dumpsString options key ++ ':' :: ' ' :: text) :: texts, ?_,
      .cons ⟨text, rfl, reads⟩ others⟩
    rw [dumpsMembers, first, later]
    rfl

end

end Written

theorem ReadsBack.loads (reads : ReadsBack float text value) :
    jsonLoads float (String.ofList text) = some value := by
  have item := reads.item (Nat.lt_succ_self text.length)
  have started := (item.begins []).1
  have read := item.reads [] (fun _ none => by cases none)
  rw [List.append_nil] at started read
  unfold jsonLoads
  rw [String.toList_ofList, started, ← String.length_toList, String.toList_ofList, read]
  rfl

end Values

/-! The order of the members. -/

theorem sortedMembers_eq_map (members : List (String × Json)) :
    sortedMembers members = members.map fun member => (member.1, member.2.sorted) := by
  induction members with
  | nil => rfl
  | cons member rest ih =>
    obtain ⟨key, value⟩ := member
    rw [sortedMembers, ih, List.map_cons]

private theorem plainMembers_iff {members : List (String × Json)} :
    PlainMembers members ↔ ∀ member ∈ members, member.2.Plain := by
  induction members with
  | nil => exact iff_of_true trivial (List.forall_mem_nil _)
  | cons member rest ih =>
    rw [List.forall_mem_cons]
    exact and_congr_right fun _ => ih

theorem sortedMembers_keys (members : List (String × Json)) :
    (sortedMembers members).map (·.1) = members.map (·.1) := by
  rw [sortedMembers_eq_map, List.map_map]
  rfl

mutual

/-- To sort a value leaves it one that is written without loss. -/
theorem Json.Plain.sorted : (value : Json) → value.Plain → value.sorted.Plain
  | .null, _ => trivial
  | .bool _, _ => trivial
  | .int _, short => short
  | .float _, plain => plain
  | .string _, _ => trivial
  | .array items, plain => PlainItems.sorted items plain
  | .object members, plain => by
    have order := List.perm_insertionSort keyOrder (sortedMembers members)
    constructor
    · rw [(order.map _).nodup_iff, sortedMembers_keys]
      exact plain.1
    · rw [plainMembers_iff]
      intro member present
      exact plainMembers_iff.mp (PlainMembers.sorted members plain.2) member
        (order.mem_iff.mp present)

theorem PlainItems.sorted : (items : List Json) → PlainItems items → PlainItems (sortedItems items)
  | [], _ => trivial
  | item :: rest, plain => ⟨Json.Plain.sorted item plain.1, PlainItems.sorted rest plain.2⟩

theorem PlainMembers.sorted : (members : List (String × Json)) → PlainMembers members →
    PlainMembers (sortedMembers members)
  | [], _ => trivial
  | (_, value) :: rest, plain => ⟨Json.Plain.sorted value plain.1, PlainMembers.sorted rest plain.2⟩

end

/-- What is written of a value is read back as the value. -/
theorem dumpsAt_loads (float : String → FloatValue) (floatText : FloatValue → List Char)
    (options : DumpsOptions) {value : Json} (plain : value.Plain) :
    ∃ text, dumpsAt floatText options 0 value = .ok text ∧
      jsonLoads float (String.ofList text) = some value := by
  have whole : Written float (dumpsAt floatText options 0 value) value :=
    dumpsAt_readsBack 0 value plain
  obtain ⟨text, written, reads⟩ := whole
  exact ⟨text, written, reads.loads⟩

/-- `json.loads(json.dumps(value, …))` is the value, whatever the options; with `sort_keys` its
members come in the order of their keys. -/
theorem loads_jsonDumps (float : String → FloatValue) (floatText : FloatValue → List Char)
    (options : DumpsOptions) {value : Json} (plain : value.Plain) :
    ∃ text, jsonDumps floatText options value = .ok text ∧
      jsonLoads float text = some (if options.sortKeys then value.sorted else value) := by
  have plain' : (if options.sortKeys then value.sorted else value).Plain := by
    split
    · exact Json.Plain.sorted value plain
    · exact plain
  obtain ⟨text, written, reads⟩ := dumpsAt_loads float floatText options plain'
  exact ⟨_, Kit.except_map_eq_ok.mpr ⟨text, written, rfl⟩, reads⟩

/-- A policy with a character outside the basic plane, written with two blanks of indent. -/
theorem loads_jsonDumps_nested :
    ∃ text, jsonDumps (fun _ => []) { indent := some 2, sortKeys := true }
        (.object [("mode", .string "ttl"), ("days", .array [.int (-7), .null, .string "𝄞"])]) =
          .ok text ∧
      jsonLoads (fun _ => .nan) text = some
        (.object [("days", .array [.int (-7), .null, .string "𝄞"]),
          ("mode", .string "ttl")]) := by
  have short : (Nat.toDigits 10 (-7 : Int).natAbs).length ≤ maximumDigits := by decide
  exact loads_jsonDumps _ _ _ ⟨by decide, trivial, ⟨short, trivial, trivial, trivial⟩, trivial⟩

end PyUploadX
