import Mathlib.Algebra.Ring.Nat
import PyUploadX.Core.Ranges

/-! Numbers in headers: what is written as a number is read as that number. -/
namespace PyUploadX

/-- An ASCII digit. -/
def AsciiDigit (char : Char) : Prop := 48 ≤ char.toNat ∧ char.toNat ≤ 57

theorem isDigit_toDigits (number : Nat) : ∀ char ∈ Nat.toDigits 10 number, char.isDigit = true :=
  fun _ member => Nat.isDigit_of_mem_toDigits (by decide) (by decide) member

namespace AsciiDigit

variable {char : Char}

theorem of_isDigit (digit : char.isDigit = true) : AsciiDigit char := Char.isDigit_iff_toNat.mp digit

theorem ne (digit : AsciiDigit char) {other : Char}
    (aside : other.toNat < 48 ∨ 57 < other.toNat) : char ≠ other := by
  rintro rfl
  unfold AsciiDigit at digit
  omega

theorem digitOf (digit : AsciiDigit char) :
    PyUploadX.digitOf char = some (char.toNat - '0'.toNat) := by
  unfold PyUploadX.digitOf zeros
  rw [List.find?_cons_of_pos]
  · rfl
  · exact decide_eq_true ⟨digit.1, Nat.lt_succ_of_le digit.2⟩

theorem not_space (digit : AsciiDigit char) : isSpace char = false := by
  obtain ⟨least, most⟩ := digit
  refine decide_eq_false fun member => ?_
  simp only [spaces, List.mem_cons, List.not_mem_nil, or_false] at member
  omega

end AsciiDigit

theorem digits_ascii (number : Nat) : ∀ char ∈ Nat.toDigits 10 number, AsciiDigit char :=
  fun char member => .of_isDigit (isDigit_toDigits number char member)

theorem stripBy_kept {drop : Char → Bool} {text : List Char}
    (kept : ∀ char ∈ text, drop char = false) : stripBy drop text = text := by
  have front : text.dropWhile drop = text := by
    cases text with
    | nil => rfl
    | cons first rest =>
      rw [List.dropWhile_cons_of_neg]
      exact Bool.eq_false_iff.mp (kept first List.mem_cons_self)
  unfold stripBy
  rw [front, List.rdropWhile_eq_self_iff]
  intro nonempty
  exact Bool.eq_false_iff.mp (kept _ (List.getLast_mem nonempty))

/-- Digits are read one after the other. -/
theorem readDigits_ascii {text : List Char} (digits : ∀ char ∈ text, AsciiDigit char)
    {before : Bool} (some_ : before = true ∨ text ≠ []) (total : Nat) :
    readDigits before total text = some (Nat.ofDigitChars 10 text total) := by
  induction text generalizing before total with
  | nil =>
    have digit : before = true := some_.resolve_right fun absent => absent rfl
    rw [digit]
    rfl
  | cons char rest ih =>
    have digit := digits char List.mem_cons_self
    unfold readDigits
    rw [if_neg (digit.ne (by decide)), digit.digitOf]
    dsimp only
    rw [ih (fun other member => digits other (List.mem_cons_of_mem _ member)) (.inl rfl),
      Nat.ofDigitChars_cons]

theorem unsignedNumber_toDigits {number : Nat} (short : number < 10 ^ maximumDigits) :
    unsignedNumber (Nat.toDigits 10 number) = some number := by
  have length : (Nat.toDigits 10 number).length ≤ maximumDigits :=
    (Nat.length_toDigits_le_iff (by decide) (by decide)).mpr short
  unfold unsignedNumber
  rw [if_neg (Nat.not_lt.mpr (List.countP_le_length.trans length)),
    readDigits_ascii (digits_ascii number) (.inr Nat.toDigits_ne_nil), Nat.ofDigitChars_ten_toDigits]

theorem isNumberSpace_toDigits (number : Nat) :
    ∀ char ∈ Nat.toDigits 10 number, isNumberSpace char = false := by
  intro char member
  rw [isNumberSpace, (digits_ascii number char member).not_space, Bool.false_and]

/-- `int(str(number))`. -/
theorem parseInt_toString {number : Nat} (short : number < 10 ^ maximumDigits) :
    parseInt (toString number) = some (number : Int) := by
  have digits := digits_ascii number
  have read := unsignedNumber_toDigits short
  have spelled : (toString number).toList = Nat.toDigits 10 number := Nat.toList_repr
  unfold parseInt
  rw [spelled, stripBy_kept (isNumberSpace_toDigits number)]
  generalize Nat.toDigits 10 number = text at digits read
  split
  · exact absurd rfl ((digits '-' List.mem_cons_self).ne (by decide))
  · exact absurd rfl ((digits '+' List.mem_cons_self).ne (by decide))
  · rw [read]
    rfl

theorem toList_toString_int (number : Int) :
    (toString number).toList = if 0 ≤ number then Nat.toDigits 10 number.natAbs
      else '-' :: Nat.toDigits 10 number.natAbs := by
  rw [Int.toString_eq_repr, Int.repr_eq_if]
  split
  · rename_i positive
    have same : number.toNat = number.natAbs := by omega
    rw [Nat.toList_repr, same]
  · rename_i negative
    have same : (-number).toNat = number.natAbs := by omega
    rw [String.toList_append, Nat.toList_repr, same]
    rfl

/-- `f"bytes={first}-{last}"`. -/
def rangeHeader (first last : Nat) : String :=
  "bytes=" ++ toString first ++ "-" ++ toString last

/-- A range within the object is served as it was asked for. -/
theorem parseByteRange_header {first last size : Nat} (ordered : first ≤ last)
    (within : last < size) (short : size < 10 ^ maximumDigits) :
    parseByteRange (rangeHeader first last) size = .ok ⟨first, last, ordered⟩ := by
  have spelled : (rangeHeader first last).toList =
      "bytes=".toList ++ (Nat.toDigits 10 first ++ '-' :: Nat.toDigits 10 last) := by
    unfold rangeHeader
    simp
  have begins : (rangeHeader first last).startsWith "bytes=" = true :=
    String.startsWith_string_iff.mpr ⟨_, spelled.symm⟩
  have unslashed : ∀ char ∈ Nat.toDigits 10 first, decide (char ≠ '-') = true :=
    fun char member => decide_eq_true ((digits_ascii first char member).ne (by decide))
  have spec : strip (String.ofList ((rangeHeader first last).toList.drop 6)) =
      String.ofList (Nat.toDigits 10 first ++ '-' :: Nat.toDigits 10 last) := by
    have six : "bytes=".toList.length = 6 := rfl
    rw [spelled, List.drop_left' six, strip, String.toList_ofList, stripBy_kept]
    intro char member
    rcases List.mem_append.mp member with front | back
    · exact (digits_ascii first char front).not_space
    · rcases List.mem_cons.mp back with rfl | digit
      · rfl
      · exact (digits_ascii last char digit).not_space
  have comma : ',' ∉ Nat.toDigits 10 first ++ '-' :: Nat.toDigits 10 last := by
    intro member
    rcases List.mem_append.mp member with front | back
    · exact absurd rfl ((digits_ascii first ',' front).ne (by decide))
    · rcases List.mem_cons.mp back with hyphen | digit
      · cases hyphen
      · exact absurd rfl ((digits_ascii last ',' digit).ne (by decide))
  have hyphen : '-' ∈ Nat.toDigits 10 first ++ '-' :: Nat.toDigits 10 last :=
    List.mem_append_right _ List.mem_cons_self
  have front : (Nat.toDigits 10 first ++ '-' :: Nat.toDigits 10 last).takeWhile
      (fun char => decide (char ≠ '-')) = Nat.toDigits 10 first := by
    rw [List.takeWhile_append_of_pos unslashed, List.takeWhile_cons_of_neg (by decide),
      List.append_nil]
  have back : (Nat.toDigits 10 first ++ '-' :: Nat.toDigits 10 last).dropWhile
      (fun char => decide (char ≠ '-')) = '-' :: Nat.toDigits 10 last := by
    rw [List.dropWhile_append_of_pos unslashed, List.dropWhile_cons_of_neg (by decide)]
  have ends : rangeEnds (toString first) (toString last) size = some ((first : Int), (last : Int)) := by
    have written : ∀ number : Nat, toString number ≠ "" := fun number => Nat.repr_ne_empty
    unfold rangeEnds
    rw [if_neg (written first), if_neg (written last), parseInt_toString (by omega),
      parseInt_toString (by omega)]
    rfl
  unfold parseByteRange
  dsimp only
  rw [if_neg (by rw [begins]; decide), spec, String.toList_ofList, if_neg comma,
    if_neg (not_not_intro hyphen), front, back, List.drop_one, List.tail_cons]
  rw [← Nat.toString_eq_ofList_toDigits, ← Nat.toString_eq_ofList_toDigits, ends]
  dsimp only
  rw [dif_neg (by omega)]
  congr 2
  omega

end PyUploadX
