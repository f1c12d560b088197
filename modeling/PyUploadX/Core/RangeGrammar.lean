import PyUploadX.Core.Decimal

/-! The grammar of a single byte range, and the wider one that is read. -/
namespace PyUploadX

/-- A single byte range, as the grammar of the header names it. -/
inductive RangeSpec
  | between (first last : Nat)
  | from (first : Nat)
  | suffix (length : Nat)
  deriving DecidableEq, Repr

namespace RangeSpec

def Satisfiable (size : Nat) : RangeSpec → Prop
  | between first last => first < size ∧ first ≤ last
  | .from first => first < size
  | suffix length => 0 < length ∧ 0 < size

instance (size : Nat) (spec : RangeSpec) : Decidable (spec.Satisfiable size) :=
  match spec with
  | between first last => inferInstanceAs (Decidable (first < size ∧ first ≤ last))
  | .from first => inferInstanceAs (Decidable (first < size))
  | suffix length => inferInstanceAs (Decidable (0 < length ∧ 0 < size))

/-- The bytes a satisfiable range stands for. -/
def range {size : Nat} : (spec : RangeSpec) → spec.Satisfiable size → ByteRange
  | between first last, satisfiable =>
    ⟨first, min last (size - 1), by have := satisfiable.1; have := satisfiable.2; omega⟩
  | .from first, satisfiable => ⟨first, size - 1, Nat.le_sub_one_of_lt satisfiable⟩
  | suffix length, satisfiable =>
    ⟨size - length, size - 1, by have := satisfiable.1; omega⟩

/-- The fragments around the first hyphen spell the range, where `number` says which texts spell
which numbers. -/
def Spells (number : String → Nat → Prop) (startText endText : String) : RangeSpec → Prop
  | between first last => number startText first ∧ number endText last
  | .from first => number startText first ∧ endText = ""
  | suffix length => startText = "" ∧ number endText length

theorem Spells.imp {number wider : String → Nat → Prop} {startText endText : String}
    {spec : RangeSpec} (spells : spec.Spells number startText endText)
    (implied : ∀ text value, text = startText ∨ text = endText → number text value →
      wider text value) : spec.Spells wider startText endText := by
  cases spec with
  | between first last =>
    exact ⟨implied _ _ (.inl rfl) spells.1, implied _ _ (.inr rfl) spells.2⟩
  | «from» first => exact ⟨implied _ _ (.inl rfl) spells.1, spells.2⟩
  | suffix length => exact ⟨spells.1, implied _ _ (.inr rfl) spells.2⟩

end RangeSpec

/-- ASCII digits only. -/
def PlainText (text : String) : Prop := ∀ char ∈ text.toList, AsciiDigit char

/-- A non-empty sequence of ASCII digits, and its value. -/
def DigitsOf (text : String) (value : Nat) : Prop :=
  text ≠ "" ∧ PlainText text ∧ Nat.ofDigitChars 10 text.toList 0 = value

/-- The header is the range in the grammar, up to white space around what follows the unit. -/
def Asks (header : String) (size : Nat) (range : ByteRange) : Prop :=
  ∃ (before after : List Char) (startText endText : String) (spec : RangeSpec)
    (satisfiable : spec.Satisfiable size),
    (∀ char ∈ before ++ after, isSpace char = true) ∧
    header.toList = "bytes=".toList ++
      (before ++ (startText.toList ++ '-' :: endText.toList) ++ after) ∧
    spec.Spells DigitsOf startText endText ∧ spec.range satisfiable = range

/-- A number after its sign, where `read` reads its digits. -/
def signedWith (read : List Char → Option Nat) : List Char → Option Int
  | '-' :: rest => (read rest).map fun number => -(number : Int)
  | '+' :: rest => (read rest).map Int.ofNat
  | rest => (read rest).map Int.ofNat

/-- `int(text)` on an interpreter that does not limit the number of digits. -/
def plainInt (text : String) : Option Int :=
  signedWith (readDigits false 0) (stripBy isNumberSpace text.toList)

private theorem parseInt_eq_signedWith (text : String) :
    parseInt text = signedWith unsignedNumber (stripBy isNumberSpace text.toList) :=
  rfl

/-- `rangeEnds`, where `read` is `int`. -/
def rangeEndsWith (read : String → Option Int) (startText endText : String) (size : Nat) :
    Option (Int × Int) :=
  if startText = "" then
    (read endText).bind fun suffix =>
      if suffix ≤ 0 then none else some (max 0 (size - suffix), size - 1)
  else
    (read startText).bind fun start =>
      (if endText = "" then some (size - 1 : Int) else read endText).map fun last => (start, last)

private theorem served_ordered {start last : Int} {size : Nat}
    (inside : ¬ (size = 0 ∨ (size : Int) ≤ start ∨ last < start)) :
    start.toNat ≤ (min last (size - 1)).toNat := by
  omega

/-- The range between two ends, once they are compared with the size. -/
def rangeOfEnds (header : String) (size : Nat) :
    Option (Int × Int) → Except Failure ByteRange
  | none => .error (.api (.rangeNotSatisfiable s!"Invalid range spec: {header}"))
  | some (start, last) =>
    if outside : size = 0 ∨ (size : Int) ≤ start ∨ last < start then
      .error (.api (.rangeNotSatisfiable s!"Range not satisfiable: {header}"))
    else
      .ok {
        start := start.toNat
        last := (min last (size - 1)).toNat
        ordered := served_ordered outside }

/-- `parse_byte_range`, where `read` is `int`. -/
def parseByteRangeWith (read : String → Option Int) (header : String) (size : Nat) :
    Except Failure ByteRange :=
  let refuse := fun message => Except.error (.api (.rangeNotSatisfiable message))
  if header.startsWith "bytes=" = false then refuse s!"Unsupported range spec: {header}"
  else
    let spec := strip (String.ofList (header.toList.drop 6))
    if ',' ∈ spec.toList then refuse "Multi-range requests are not supported"
    else if '-' ∉ spec.toList then refuse s!"Invalid range spec: {header}"
    else
      let startText := String.ofList (spec.toList.takeWhile (· ≠ '-'))
      let endText := String.ofList ((spec.toList.dropWhile (· ≠ '-')).drop 1)
      rangeOfEnds header size (rangeEndsWith read startText endText size)

private theorem parseByteRangeWith_parseInt (header : String) (size : Nat) :
    parseByteRangeWith parseInt header size = parseByteRange header size := by
  have ends : rangeEnds = rangeEndsWith parseInt := rfl
  unfold parseByteRangeWith parseByteRange
  rw [ends]
  dsimp only
  generalize rangeEndsWith parseInt _ _ size = found
  rcases found with _ | ⟨start, last⟩
  · rfl
  · rfl

section Limit

variable {text header : String}

private theorem stripBy_sublist (drop : Char → Bool) (text : List Char) :
    (stripBy drop text).Sublist text :=
  (List.rdropWhile_prefix drop _).sublist.trans (List.dropWhile_sublist drop)

/-- So few digits that `int` reads them. -/
def FewDigits (text : String) : Prop :=
  text.toList.countP (fun char => (digitOf char).isSome) ≤ maximumDigits

private theorem signedWith_congr {read other : List Char → Option Nat} {chars : List Char}
    (same : ∀ rest : List Char, rest.Sublist chars → read rest = other rest) :
    signedWith read chars = signedWith other chars := by
  unfold signedWith
  split
  · rename_i rest
    rw [same rest (List.sublist_cons_self _ _)]
  · rename_i rest
    rw [same rest (List.sublist_cons_self _ _)]
  · rw [same chars (List.Sublist.refl _)]

private theorem parseInt_eq_plainInt (few : FewDigits text) : parseInt text = plainInt text := by
  rw [parseInt_eq_signedWith, plainInt]
  refine signedWith_congr fun rest part => ?_
  have whole := part.trans (stripBy_sublist isNumberSpace text.toList)
  rw [unsignedNumber, if_neg (Nat.not_lt.mpr (whole.countP_le.trans few))]

private theorem rangeEndsWith_congr {read other : String → Option Int} {startText endText : String}
    (start : read startText = other startText) (last : read endText = other endText) (size : Nat) :
    rangeEndsWith read startText endText size = rangeEndsWith other startText endText size := by
  rw [rangeEndsWith, rangeEndsWith, start, last]

/-- A header with few digits is parsed the same with and without the limit. -/
theorem parseByteRange_eq_plain (few : FewDigits header) (size : Nat) :
    parseByteRange header size = parseByteRangeWith plainInt header size := by
  have part : ∀ chars : List Char,
      chars.Sublist (strip (String.ofList (header.toList.drop 6))).toList →
        parseInt (String.ofList chars) = plainInt (String.ofList chars) := by
    intro chars inside
    apply parseInt_eq_plainInt
    rw [strip, String.toList_ofList, String.toList_ofList] at inside
    rw [FewDigits, String.toList_ofList]
    exact ((inside.trans ((stripBy_sublist _ _).trans (List.drop_sublist _ _))).countP_le).trans few
  rw [← parseByteRangeWith_parseInt]
  unfold parseByteRangeWith
  dsimp only
  rw [rangeEndsWith_congr (part _ (List.takeWhile_sublist _))
    (part _ ((List.drop_sublist _ _).trans (List.dropWhile_sublist _)))]

end Limit

/-- The fragments around the first hyphen, of a header that has them. -/
def rangeFragments (header : String) : Option (String × String) :=
  if header.startsWith "bytes=" = false then none
  else
    let spec := strip (String.ofList (header.toList.drop 6))
    if ',' ∈ spec.toList then none
    else if '-' ∉ spec.toList then none
    else some (String.ofList (spec.toList.takeWhile (· ≠ '-')),
      String.ofList ((spec.toList.dropWhile (· ≠ '-')).drop 1))

section Strip

variable {drop : Char → Bool} {before core after text : List Char}

theorem exists_stripBy (drop : Char → Bool) (text : List Char) :
    ∃ before after, text = before ++ stripBy drop text ++ after ∧
      ∀ char ∈ before ++ after, drop char = true := by
  refine ⟨text.takeWhile drop, (text.dropWhile drop).rtakeWhile drop, ?_, ?_⟩
  · rw [stripBy, List.append_assoc, List.rdropWhile_append_rtakeWhile,
      List.takeWhile_append_dropWhile]
  · intro char member
    rcases List.mem_append.mp member with front | back
    · exact List.mem_takeWhile_imp front
    · exact List.mem_rtakeWhile_imp back

private theorem stripBy_padded (padding : ∀ char ∈ before ++ after, drop char = true)
    (kept : ∀ char ∈ core, drop char = false) : stripBy drop (before ++ core ++ after) = core := by
  have front : ∀ char ∈ before, drop char = true :=
    fun char member => padding char (List.mem_append_left _ member)
  have back : ∀ char ∈ after.reverse, drop char = true :=
    fun char member => padding char (List.mem_append_right _ (List.mem_reverse.mp member))
  rw [stripBy, List.append_assoc, List.dropWhile_append_of_pos front]
  cases core with
  | nil =>
    have all : ∀ char ∈ after, drop char = true :=
      fun char member => back char (List.mem_reverse.mpr member)
    rw [List.nil_append, List.dropWhile_eq_nil_iff.mpr all, List.rdropWhile_nil]
  | cons first rest =>
    have first_kept := Bool.eq_false_iff.mp (kept first List.mem_cons_self)
    rw [List.cons_append, List.dropWhile_cons_of_neg first_kept, ← List.cons_append,
      List.rdropWhile, List.reverse_append, List.dropWhile_append_of_pos back, ← List.rdropWhile,
      List.rdropWhile_eq_self_iff]
    exact fun nonempty => Bool.eq_false_iff.mp (kept _ (List.getLast_mem nonempty))

end Strip

section Numbers

variable {text : String} {value : Nat}

/-- A number as `int` reads it. -/
def NumberReads (text : String) (value : Nat) : Prop := plainInt text = some (value : Int)

private theorem plainInt_empty : plainInt "" = none := by decide

private theorem plainInt_nonneg {number : Int} (unsigned : '-' ∉ text.toList)
    (parsed : plainInt text = some number) : ∃ value : Nat, number = (value : Int) := by
  unfold plainInt signedWith at parsed
  split at parsed
  · rename_i rest stripped
    have member : '-' ∈ stripBy isNumberSpace text.toList := by simp [stripped]
    exact absurd (stripBy_subset _ _ member) unsigned
  all_goals
    obtain ⟨value, _, same⟩ := Option.map_eq_some_iff.mp parsed
    exact ⟨value, same.symm⟩

private theorem PlainText.not_mem (plain : PlainText text) (char : Char)
    (aside : char.toNat < 48 ∨ 57 < char.toNat) : char ∉ text.toList :=
  fun member => absurd rfl ((plain char member).ne aside)

private theorem plainInt_digits (plain : PlainText text) (some_ : text ≠ "") :
    NumberReads text (Nat.ofDigitChars 10 text.toList 0) := by
  have kept : ∀ char ∈ text.toList, isNumberSpace char = false := by
    intro char member
    rw [isNumberSpace, (plain char member).not_space, Bool.false_and]
  have minus := plain.not_mem '-' (by decide)
  have plus := plain.not_mem '+' (by decide)
  have read := @readDigits_ascii _ plain false (.inr (mt String.toList_eq_nil_iff.mp some_)) 0
  unfold NumberReads plainInt signedWith
  rw [stripBy_kept kept]
  generalize text.toList = digits at minus plus read
  split
  · exact absurd List.mem_cons_self minus
  · exact absurd List.mem_cons_self plus
  · rw [read]
    rfl

/-- The grammar's numbers are those that are read and are written in ASCII digits. -/
theorem digitsOf_iff : DigitsOf text value ↔ PlainText text ∧ NumberReads text value := by
  constructor
  · rintro ⟨some_, plain, rfl⟩
    exact ⟨plain, plainInt_digits plain some_⟩
  · rintro ⟨plain, read⟩
    have some_ : text ≠ "" := by
      rintro rfl
      rw [NumberReads, plainInt_empty] at read
      cases read
    have digits := plainInt_digits plain some_
    rw [NumberReads, read] at digits
    exact ⟨some_, plain, (Int.ofNat.inj (Option.some.inj digits)).symm⟩

end Numbers

section Fragments

variable {header startText endText : String}

private theorem split_at_hyphen {core : List Char} (present : '-' ∈ core) :
    core.takeWhile (fun char => decide (char ≠ '-')) ++
      '-' :: (core.dropWhile (fun char => decide (char ≠ '-'))).drop 1 = core := by
  induction core with
  | nil => cases present
  | cons first rest ih =>
    by_cases hyphen : first = '-'
    · rw [hyphen, List.takeWhile_cons_of_neg (by decide), List.dropWhile_cons_of_neg (by decide)]
      rfl
    · have later : '-' ∈ rest := (List.mem_cons.mp present).resolve_left (Ne.symm hyphen)
      have other : decide (first ≠ '-') = true := decide_eq_true hyphen
      rw [List.takeWhile_cons, List.dropWhile_cons, if_pos other, if_pos other, List.cons_append,
        ih later]

theorem exists_of_rangeFragments (found : rangeFragments header = some (startText, endText)) :
    '-' ∉ startText.toList ∧ ∃ before after : List Char,
      (∀ char ∈ before ++ after, isSpace char = true) ∧
      header.toList = "bytes=".toList ++
        (before ++ (startText.toList ++ '-' :: endText.toList) ++ after) := by
  unfold rangeFragments at found
  dsimp only at found
  split_ifs at found with foreign comma hyphen
  obtain ⟨rfl, rfl⟩ := Prod.mk.inj (Option.some.inj found)
  have begins : header.startsWith "bytes=" = true := Bool.not_eq_false _ ▸ foreign
  obtain ⟨rest, spelled⟩ := String.startsWith_string_iff.mp begins
  obtain ⟨before, after, parts, padding⟩ := exists_stripBy isSpace rest
  have dropped : header.toList.drop 6 = rest := by
    rw [← spelled]
    exact List.drop_left' rfl
  rw [strip, String.toList_ofList, dropped, String.toList_ofList] at hyphen ⊢
  simp only [String.toList_ofList]
  generalize stripBy isSpace rest = core at parts hyphen ⊢
  refine ⟨fun member => absurd (List.mem_takeWhile_imp member) (by decide), before, after,
    padding, ?_⟩
  rw [split_at_hyphen hyphen, ← parts, spelled]

private theorem rangeFragments_of_plain {before after : List Char} (start : PlainText startText)
    (last : PlainText endText) (padding : ∀ char ∈ before ++ after, isSpace char = true)
    (spelled : header.toList = "bytes=".toList ++
      (before ++ (startText.toList ++ '-' :: endText.toList) ++ after)) :
    rangeFragments header = some (startText, endText) := by
  have kept : ∀ char ∈ startText.toList ++ '-' :: endText.toList, isSpace char = false := by
    intro char member
    rcases List.mem_append.mp member with front | back
    · exact (start char front).not_space
    · rcases List.mem_cons.mp back with rfl | digit
      · rfl
      · exact (last char digit).not_space
  have begins : header.startsWith "bytes=" = true :=
    String.startsWith_string_iff.mpr ⟨_, spelled.symm⟩
  have spec : (strip (String.ofList (header.toList.drop 6))).toList =
      startText.toList ++ '-' :: endText.toList := by
    have six : "bytes=".toList.length = 6 := rfl
    rw [spelled, List.drop_left' six, strip, String.toList_ofList, String.toList_ofList,
      stripBy_padded padding kept]
  have comma : ',' ∉ startText.toList ++ '-' :: endText.toList := by
    intro member
    rcases List.mem_append.mp member with front | back
    · exact start.not_mem ',' (by decide) front
    · rcases List.mem_cons.mp back with hyphen | digit
      · cases hyphen
      · exact last.not_mem ',' (by decide) digit
  have hyphen : '-' ∈ startText.toList ++ '-' :: endText.toList :=
    List.mem_append_right _ List.mem_cons_self
  have unhyphened : ∀ char ∈ startText.toList, decide (char ≠ '-') = true :=
    fun char member => decide_eq_true ((start char member).ne (by decide))
  unfold rangeFragments
  dsimp only
  rw [if_neg (by rw [begins]; decide), spec, if_neg comma, if_neg (not_not_intro hyphen),
    List.takeWhile_append_of_pos unhyphened, List.takeWhile_cons_of_neg (by decide),
    List.append_nil, List.dropWhile_append_of_pos unhyphened,
    List.dropWhile_cons_of_neg (by decide), List.drop_one, List.tail_cons,
    String.ofList_toList, String.ofList_toList]

end Fragments

section Parsing

variable {header startText endText : String} {size : Nat} {range : ByteRange}
  {read : String → Option Int}

private theorem byteRange_eq {first second : ByteRange} (start : first.start = second.start)
    (last : first.last = second.last) : first = second := by
  cases first
  cases second
  cases start
  cases last
  rfl

theorem rangeOfEnds_ok_iff {ends : Option (Int × Int)} :
    rangeOfEnds header size ends = .ok range ↔
      ∃ start last, ends = some (start, last) ∧
        ¬ (size = 0 ∨ (size : Int) ≤ start ∨ last < start) ∧
        range.start = start.toNat ∧ range.last = (min last (size - 1)).toNat := by
  unfold rangeOfEnds
  constructor
  · intro accepted
    split at accepted
    · cases accepted
    · rename_i start last
      split_ifs at accepted with outside
      cases accepted
      exact ⟨start, last, rfl, outside, rfl, rfl⟩
  · rintro ⟨start, last, rfl, inside, first, final⟩
    dsimp only
    rw [dif_neg inside]
    exact congrArg Except.ok (byteRange_eq first.symm final.symm)

private theorem parseByteRangeWith_ok_iff :
    parseByteRangeWith read header size = .ok range ↔
      ∃ startText endText start last, rangeFragments header = some (startText, endText) ∧
        rangeEndsWith read startText endText size = some (start, last) ∧
        ¬ (size = 0 ∨ (size : Int) ≤ start ∨ last < start) ∧
        range.start = start.toNat ∧ range.last = (min last (size - 1)).toNat := by
  unfold parseByteRangeWith rangeFragments
  dsimp only
  split_ifs with foreign comma hyphen
  · simp
  · simp
  · rw [rangeOfEnds_ok_iff]
    constructor
    · rintro ⟨start, last, ends, served⟩
      exact ⟨_, _, start, last, rfl, ends, served⟩
    · rintro ⟨_, _, start, last, split, ends, served⟩
      obtain ⟨rfl, rfl⟩ := Prod.mk.inj (Option.some.inj split)
      exact ⟨start, last, ends, served⟩
  · simp

private theorem parseByteRangeWith_error {failure : Failure}
    (refused : parseByteRangeWith read header size = .error failure) :
    ∃ message, failure = .api (.rangeNotSatisfiable message) := by
  unfold parseByteRangeWith at refused
  dsimp only at refused
  split_ifs at refused
  · exact ⟨_, (Except.error.inj refused).symm⟩
  · exact ⟨_, (Except.error.inj refused).symm⟩
  · unfold rangeOfEnds at refused
    split at refused
    · exact ⟨_, (Except.error.inj refused).symm⟩
    · split_ifs at refused
      exact ⟨_, (Except.error.inj refused).symm⟩
  · exact ⟨_, (Except.error.inj refused).symm⟩

/-- The ends of a range, as they are compared with the size and then served. -/
def Served (range : ByteRange) (size : Nat) (start last : Int) : Prop :=
  ¬ (size = 0 ∨ (size : Int) ≤ start ∨ last < start) ∧
    range.start = start.toNat ∧ range.last = (min last (size - 1)).toNat

private theorem not_numberReads_empty (value : Nat) : ¬ NumberReads "" value := by
  intro read
  rw [NumberReads, plainInt_empty] at read
  cases read

theorem NumberReads.nonempty {text : String} {value : Nat} (read : NumberReads text value) :
    text ≠ "" := by
  rintro rfl
  exact not_numberReads_empty value read

private theorem suffix_of_ends {start last : Int}
    (ends : rangeEndsWith plainInt "" endText size = some (start, last))
    (served : Served range size start last) :
    ∃ (spec : RangeSpec) (satisfiable : spec.Satisfiable size),
      spec.Spells NumberReads "" endText ∧ spec.range satisfiable = range := by
  obtain ⟨inside, first, final⟩ := served
  rw [rangeEndsWith, if_pos rfl] at ends
  obtain ⟨length, read, named⟩ := Option.bind_eq_some_iff.mp ends
  split_ifs at named with none_
  obtain ⟨rfl, rfl⟩ := Prod.mk.inj (Option.some.inj named)
  have natural : (length.toNat : Int) = length := Int.toNat_of_nonneg (by omega)
  refine ⟨.suffix length.toNat, ⟨by omega, by omega⟩, ⟨rfl, ?_⟩, byteRange_eq ?_ ?_⟩
  · rw [NumberReads, natural, read]
  · rw [first]
    dsimp only [RangeSpec.range]
    omega
  · rw [final]
    dsimp only [RangeSpec.range]
    omega

private theorem spelled_of_ends {start last : Int} (unsigned : '-' ∉ startText.toList)
    (ends : rangeEndsWith plainInt startText endText size = some (start, last))
    (served : Served range size start last) :
    ∃ (spec : RangeSpec) (satisfiable : spec.Satisfiable size),
      spec.Spells NumberReads startText endText ∧ spec.range satisfiable = range := by
  by_cases suffixed : startText = ""
  · subst suffixed
    exact suffix_of_ends ends served
  obtain ⟨inside, first, final⟩ := served
  rw [rangeEndsWith, if_neg suffixed] at ends
  obtain ⟨number, read, named⟩ := Option.bind_eq_some_iff.mp ends
  obtain ⟨value, rfl⟩ := plainInt_nonneg unsigned read
  by_cases openEnded : endText = ""
  · rw [if_pos openEnded, Option.map_some] at named
    obtain ⟨rfl, rfl⟩ := Prod.mk.inj (Option.some.inj named)
    have within : value < size := by omega
    refine ⟨.from value, within, ⟨read, openEnded⟩, byteRange_eq ?_ ?_⟩
    · rw [first]
      rfl
    · rw [final]
      dsimp only [RangeSpec.range]
      omega
  · rw [if_neg openEnded] at named
    obtain ⟨other, readEnd, both⟩ := Option.map_eq_some_iff.mp named
    obtain ⟨rfl, rfl⟩ := Prod.mk.inj both
    have natural : (other.toNat : Int) = other := Int.toNat_of_nonneg (by omega)
    refine ⟨.between value other.toNat, ⟨by omega, by omega⟩, ⟨read, ?_⟩, byteRange_eq ?_ ?_⟩
    · rw [NumberReads, natural, readEnd]
    · rw [first]
      rfl
    · rw [final]
      dsimp only [RangeSpec.range]
      omega

private theorem ends_of_spelled {spec : RangeSpec} (spells : spec.Spells NumberReads startText endText)
    (satisfiable : spec.Satisfiable size) :
    ∃ start last, rangeEndsWith plainInt startText endText size = some (start, last) ∧
      Served (spec.range satisfiable) size start last := by
  unfold rangeEndsWith Served
  cases spec with
  | between first last =>
    obtain ⟨start, final⟩ := spells
    have inside : first < size ∧ first ≤ last := satisfiable
    refine ⟨first, last, ?_, by omega, rfl, ?_⟩
    · rw [if_neg start.nonempty, if_neg final.nonempty, start, final]
      rfl
    · dsimp only [RangeSpec.range]
      omega
  | «from» first =>
    obtain ⟨start, rfl⟩ := spells
    have inside : first < size := satisfiable
    refine ⟨first, size - 1, ?_, by omega, rfl, ?_⟩
    · rw [if_neg start.nonempty, if_pos rfl, start]
      rfl
    · dsimp only [RangeSpec.range]
      omega
  | suffix length =>
    obtain ⟨rfl, final⟩ := spells
    have inside : 0 < length ∧ 0 < size := satisfiable
    refine ⟨max 0 (size - length), size - 1, ?_, by omega, ?_, ?_⟩
    · rw [if_pos rfl, final, Option.bind_some, if_neg (by omega)]
    · dsimp only [RangeSpec.range]
      omega
    · dsimp only [RangeSpec.range]
      omega

/-- What is accepted is spelled as `int` reads numbers. -/
theorem parseByteRangeWith_spelled :
    parseByteRangeWith plainInt header size = .ok range ↔
      ∃ (startText endText : String) (spec : RangeSpec) (satisfiable : spec.Satisfiable size),
        rangeFragments header = some (startText, endText) ∧
        spec.Spells NumberReads startText endText ∧ spec.range satisfiable = range := by
  rw [parseByteRangeWith_ok_iff]
  constructor
  · rintro ⟨startText, endText, start, last, fragments, ends, served⟩
    obtain ⟨unsigned, _⟩ := exists_of_rangeFragments fragments
    obtain ⟨spec, satisfiable, spells, same⟩ := spelled_of_ends unsigned ends served
    exact ⟨startText, endText, spec, satisfiable, fragments, spells, same⟩
  · rintro ⟨startText, endText, spec, satisfiable, fragments, spells, rfl⟩
    obtain ⟨start, last, ends, served⟩ := ends_of_spelled spells satisfiable
    exact ⟨startText, endText, start, last, fragments, ends, served⟩

theorem RangeSpec.Spells.plain {spec : RangeSpec}
    (spells : spec.Spells DigitsOf startText endText) : PlainText startText ∧ PlainText endText := by
  have none_ : PlainText "" := by simp [PlainText]
  cases spec with
  | between first last => exact ⟨spells.1.2.1, spells.2.2.1⟩
  | «from» first => exact ⟨spells.1.2.1, spells.2 ▸ none_⟩
  | suffix length => exact ⟨spells.1 ▸ none_, spells.2.2.1⟩

/-- What the grammar asks for is spelled in ASCII digits. -/
theorem asks_iff :
    Asks header size range ↔
      ∃ (startText endText : String) (spec : RangeSpec) (satisfiable : spec.Satisfiable size),
        rangeFragments header = some (startText, endText) ∧
        spec.Spells DigitsOf startText endText ∧ spec.range satisfiable = range := by
  constructor
  · rintro ⟨before, after, startText, endText, spec, satisfiable, padding, spelled, spells, same⟩
    have fragments :=
      rangeFragments_of_plain spells.plain.1 spells.plain.2 padding spelled
    exact ⟨startText, endText, spec, satisfiable, fragments, spells, same⟩
  · rintro ⟨startText, endText, spec, satisfiable, fragments, spells, same⟩
    obtain ⟨_, before, after, padding, spelled⟩ := exists_of_rangeFragments fragments
    exact ⟨before, after, startText, endText, spec, satisfiable, padding, spelled, spells, same⟩

end Parsing

/-- The header has a range exactly if the grammar gives it that range, and is refused as not
satisfiable otherwise. -/
def ParsedByGrammar (header : String) (size : Nat) : Prop :=
  (∀ range, parseByteRangeWith plainInt header size = .ok range ↔ Asks header size range) ∧
    ∀ failure, parseByteRangeWith plainInt header size = .error failure →
      ∃ message, failure = .api (.rangeNotSatisfiable message)

/-- The fragments are read as numbers that name bytes of the file, and one of them is not
written in ASCII digits. -/
def LooselySpelled (header : String) (size : Nat) : Prop :=
  ∃ (startText endText : String) (spec : RangeSpec),
    rangeFragments header = some (startText, endText) ∧ spec.Spells NumberReads startText endText ∧
      spec.Satisfiable size ∧ ¬ (PlainText startText ∧ PlainText endText)

private theorem loosely_spelled_not_parsed {header : String} {size : Nat}
    (loosely : LooselySpelled header size) : ¬ ParsedByGrammar header size := by
  rintro ⟨exact_, _⟩
  obtain ⟨startText, endText, spec, fragments, spells, satisfiable, loose⟩ := loosely
  have accepted := parseByteRangeWith_spelled.mpr
    ⟨startText, endText, spec, satisfiable, fragments, spells, rfl⟩
  obtain ⟨start, last, other, _, split, digits, _⟩ := asks_iff.mp ((exact_ _).mp accepted)
  obtain ⟨rfl, rfl⟩ := Prod.mk.inj (Option.some.inj (fragments.symm.trans split))
  exact loose digits.plain

/-- A header is parsed by the grammar unless `int` reads more in it than digits. -/
theorem parsed_by_grammar_iff (header : String) (size : Nat) :
    ParsedByGrammar header size ↔ ¬ LooselySpelled header size := by
  constructor
  · exact fun parsed loosely => loosely_spelled_not_parsed loosely parsed
  · intro strict
    refine ⟨fun range => ?_, fun failure refused => parseByteRangeWith_error refused⟩
    rw [parseByteRangeWith_spelled, asks_iff]
    constructor
    · rintro ⟨startText, endText, spec, satisfiable, fragments, spells, same⟩
      have plain : PlainText startText ∧ PlainText endText := by
        by_contra loose
        exact strict ⟨startText, endText, spec, fragments, spells, satisfiable, loose⟩
      refine ⟨startText, endText, spec, satisfiable, fragments, spells.imp ?_, same⟩
      rintro text value (rfl | rfl) read
      · exact digitsOf_iff.mpr ⟨plain.1, read⟩
      · exact digitsOf_iff.mpr ⟨plain.2, read⟩
    · rintro ⟨startText, endText, spec, satisfiable, fragments, digits, same⟩
      exact ⟨startText, endText, spec, satisfiable, fragments,
        digits.imp fun _ _ _ written => (digitsOf_iff.mp written).2, same⟩

/-- A sign before a number is read, where the grammar has digits only. -/
theorem signed_range_is_not_refused : ¬ ∀ header size, ParsedByGrammar header size := by
  intro all
  refine loosely_spelled_not_parsed ?_ (all "bytes=+1-2" 5)
  refine ⟨"+1", "2", .between 1 2, by decide +kernel, ⟨?_, ?_⟩, by decide, ?_⟩
  · exact (by decide +kernel : plainInt "+1" = some 1)
  · exact (by decide +kernel : plainInt "2" = some 2)
  · rintro ⟨plain, _⟩
    exact plain.not_mem '+' (by decide) (by decide)

end PyUploadX
