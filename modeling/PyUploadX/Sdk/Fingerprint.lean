import PyUploadX.Core.Decimal
import PyUploadX.Kit.Utf8
import PyUploadX.Sdk.Directory

/-! What the fast fingerprint of a file sees of it. -/
namespace PyUploadX.Sdk

open Kit

def headSample (sampleSize : Nat) (content : Bytes) : Bytes :=
  content.take (min sampleSize content.length)

def middleSample (sampleSize : Nat) (content : Bytes) : Bytes :=
  (content.drop (content.length / 2)).take (min sampleSize content.length)

def tailSample (sampleSize : Nat) (content : Bytes) : Bytes :=
  content.drop (content.length - min sampleSize content.length)

/-- Two files that a fingerprint of head, middle and tail cannot tell apart. -/
structure SampledAlike (sampleSize : Nat) (first second : FileData) : Prop where
  size : first.content.length = second.content.length
  mtime : first.mtimeNs = second.mtimeNs
  head : headSample sampleSize first.content = headSample sampleSize second.content
  middle : middleSample sampleSize first.content = middleSample sampleSize second.content
  tail : tailSample sampleSize first.content = tailSample sampleSize second.content

section Header

/-- The number a text stands for. -/
def signedNumber : List Char → Int
  | '-' :: digits => -(Nat.ofDigitChars 10 digits 0 : Int)
  | digits => Nat.ofDigitChars 10 digits 0

private theorem signedNumber_digits (number : Nat) : signedNumber (Nat.toDigits 10 number) = number := by
  have digits := digits_ascii number
  have read : Nat.ofDigitChars 10 (Nat.toDigits 10 number) 0 = number :=
    Nat.ofDigitChars_ten_toDigits
  generalize Nat.toDigits 10 number = text at digits read
  unfold signedNumber
  split
  · exact absurd rfl ((digits '-' List.mem_cons_self).ne (by decide))
  · rw [read]

private theorem signedNumber_toString (number : Int) :
    signedNumber (toString number).toList = number := by
  rw [toList_toString_int]
  split
  · rename_i positive
    rw [signedNumber_digits]
    exact Int.natAbs_of_nonneg positive
  · rename_i negative
    have value : -(number.natAbs : Int) = number := by omega
    rw [signedNumber, Nat.ofDigitChars_ten_toDigits, value]

/-- Digits, or what is put before and between numbers. -/
def HeaderChar (char : Char) : Prop := AsciiDigit char ∨ char = '-' ∨ char = ':'

private theorem toString_int_chars {number : Int} {char : Char}
    (member : char ∈ (toString number).toList) : AsciiDigit char ∨ char = '-' := by
  rw [toList_toString_int] at member
  split at member
  · exact .inl (digits_ascii _ char member)
  · rcases List.mem_cons.mp member with sign | digit
    · exact .inr sign
    · exact .inl (digits_ascii _ char digit)

private theorem fingerprintHeader_toList (file : FileData) :
    (fingerprintHeader file).toList =
      Nat.toDigits 10 file.content.length ++ ':' :: (toString file.mtimeNs).toList := by
  unfold fingerprintHeader
  simp
  rfl

private theorem fingerprintHeader_chars {file : FileData} {char : Char}
    (member : char ∈ (fingerprintHeader file).toList) : HeaderChar char := by
  rw [fingerprintHeader_toList] at member
  rcases List.mem_append.mp member with size | later
  · exact .inl (digits_ascii _ char size)
  · rcases List.mem_cons.mp later with colon | mtime
    · exact .inr (.inr colon)
    · exact (toString_int_chars mtime).imp_right .inl

/-- The header is read back: the colon stands in neither number. -/
theorem fingerprintHeader_injective {first second : FileData}
    (same : fingerprintHeader first = fingerprintHeader second) :
    first.content.length = second.content.length ∧ first.mtimeNs = second.mtimeNs := by
  have spelled := congrArg String.toList same
  rw [fingerprintHeader_toList, fingerprintHeader_toList] at spelled
  have size : ':' ∉ Nat.toDigits 10 first.content.length := fun colon =>
    absurd rfl ((digits_ascii _ ':' colon).ne (by decide))
  have mtime : ':' ∉ (toString first.mtimeNs).toList := by
    intro colon
    rcases toString_int_chars colon with digit | sign
    · exact absurd rfl (digit.ne (by decide))
    · cases sign
  obtain ⟨sizes, _, mtimes⟩ := (List.append_cons_inj_of_notMem size mtime).mp spelled
  constructor
  · have read := congrArg (fun digits => Nat.ofDigitChars 10 digits 0) sizes
    rwa [Nat.ofDigitChars_ten_toDigits, Nat.ofDigitChars_ten_toDigits] at read
  · have read := congrArg signedNumber mtimes
    rwa [signedNumber_toString, signedNumber_toString] at read

private theorem headerChar_below {char : Char} (written : HeaderChar char) : char.toNat < 104 := by
  rcases written with ⟨_, most⟩ | rfl | rfl
  · omega
  · decide
  · decide

/-- No byte of the header is the letter that the first sample begins with. -/
theorem fingerprintHeader_bytes {file : FileData} {byte : UInt8}
    (member : byte ∈ (fingerprintHeader file).toUTF8.toList) : byte ≠ 104 := by
  have below : ∀ char ∈ (fingerprintHeader file).toList, char.toNat < 104 :=
    fun _ inside => headerChar_below (fingerprintHeader_chars inside)
  obtain ⟨char, inside, rfl⟩ :=
    mem_utf8_ascii (fun char inside => (below char inside).trans (by decide)) member
  have least := below char inside
  intro letter
  have number := congrArg UInt8.toNat letter
  rw [UInt8.toNat_ofNat'] at number
  have hundred : (104 : UInt8).toNat = 104 := rfl
  rw [hundred] at number
  omega

end Header

section Samples

variable {sampleSize : Nat} {first second file : FileData}

private theorem letter_bytes : "h".toUTF8.toList = [104] ∧ "m".toUTF8.toList = [109] ∧
    "t".toUTF8.toList = [116] := by
  refine ⟨?_, ?_, ?_⟩ <;> rw [utf8_toList] <;> rfl

private theorem fingerprintSamples_begin (file : FileData) (sampleSize : Nat) :
    fingerprintSamples file sampleSize = [] ∨
      ∃ rest, fingerprintSamples file sampleSize = 104 :: rest := by
  unfold fingerprintSamples
  rw [letter_bytes.1]
  dsimp only
  split
  · exact .inl rfl
  · split
    · exact .inr ⟨_, rfl⟩
    · exact .inr ⟨_, rfl⟩

/-- The header ends where the first sample's letter stands. -/
theorem fingerprintInput_header (file : FileData) (sampleSize : Nat) :
    (fingerprintInput file sampleSize).takeWhile (fun byte => decide (byte ≠ 104)) =
      (fingerprintHeader file).toUTF8.toList := by
  have plain : ∀ byte ∈ (fingerprintHeader file).toUTF8.toList, decide (byte ≠ 104) = true :=
    fun byte member => decide_eq_true (fingerprintHeader_bytes member)
  rw [fingerprintInput, List.takeWhile_append_of_pos plain]
  rcases fingerprintSamples_begin file sampleSize with empty | ⟨rest, begins⟩
  · rw [empty, List.takeWhile_nil, List.append_nil]
  · rw [begins, List.takeWhile_cons_of_neg (by decide), List.append_nil]

private theorem fingerprintInput_parts
    (same : fingerprintInput first sampleSize = fingerprintInput second sampleSize) :
    fingerprintHeader first = fingerprintHeader second ∧
      fingerprintSamples first sampleSize = fingerprintSamples second sampleSize := by
  have headers : fingerprintHeader first = fingerprintHeader second := by
    apply utf8_injective
    rw [← fingerprintInput_header first sampleSize, same, fingerprintInput_header]
  refine ⟨headers, ?_⟩
  rw [fingerprintInput, fingerprintInput, headers] at same
  exact List.append_cancel_left same

private theorem fingerprintSamples_small (some_ : file.content.length ≠ 0)
    (small : ¬ 3 * sampleSize < file.content.length) :
    fingerprintSamples file sampleSize = 104 :: headSample sampleSize file.content := by
  unfold fingerprintSamples
  rw [letter_bytes.1]
  dsimp only
  rw [if_neg some_, if_neg small]
  rfl

private theorem fingerprintSamples_large (large : 3 * sampleSize < file.content.length) :
    fingerprintSamples file sampleSize = 104 :: headSample sampleSize file.content ++
      109 :: middleSample sampleSize file.content ++ 116 :: tailSample sampleSize file.content := by
  have fits : min sampleSize file.content.length = sampleSize := by omega
  have whole : ((file.content.drop (file.content.length - sampleSize)).take sampleSize) =
      file.content.drop (file.content.length - sampleSize) := by
    apply List.take_of_length_le
    rw [List.length_drop]
    omega
  unfold fingerprintSamples
  rw [letter_bytes.1, letter_bytes.2.1, letter_bytes.2.2]
  dsimp only
  rw [if_neg (by omega), if_pos large, whole, headSample, middleSample, tailSample, fits]
  rfl

private theorem headSample_length (sampleSize : Nat) (content : Bytes) :
    (headSample sampleSize content).length = min sampleSize content.length := by
  rw [headSample, List.length_take]
  omega

private theorem middleSample_length {content : Bytes} (large : 3 * sampleSize < content.length) :
    (middleSample sampleSize content).length = sampleSize := by
  rw [middleSample, List.length_take, List.length_drop]
  omega

/-- Three samples of a large file are told apart by their lengths. -/
theorem samples_of_large (large : 3 * sampleSize < first.content.length)
    (sizes : first.content.length = second.content.length)
    (same : fingerprintSamples first sampleSize = fingerprintSamples second sampleSize) :
    headSample sampleSize first.content = headSample sampleSize second.content ∧
      middleSample sampleSize first.content = middleSample sampleSize second.content ∧
      tailSample sampleSize first.content = tailSample sampleSize second.content := by
  have larger : 3 * sampleSize < second.content.length := sizes ▸ large
  rw [fingerprintSamples_large large, fingerprintSamples_large larger] at same
  have heads : (104 :: headSample sampleSize first.content).length =
      (104 :: headSample sampleSize second.content).length := by
    rw [List.length_cons, List.length_cons, headSample_length, headSample_length, sizes]
  have middles : (109 :: middleSample sampleSize first.content).length =
      (109 :: middleSample sampleSize second.content).length := by
    rw [List.length_cons, List.length_cons, middleSample_length large, middleSample_length larger]
  rw [List.append_assoc, List.append_assoc] at same
  obtain ⟨head, rest⟩ := List.append_inj same heads
  obtain ⟨middle, tail⟩ := List.append_inj rest middles
  exact ⟨List.tail_eq_of_cons_eq head, List.tail_eq_of_cons_eq middle,
    List.tail_eq_of_cons_eq tail⟩

/-- The first sample is the whole of a file that is no larger than a sample. -/
theorem content_of_small (small : first.content.length ≤ sampleSize)
    (sizes : first.content.length = second.content.length)
    (same : fingerprintSamples first sampleSize = fingerprintSamples second sampleSize) :
    first.content = second.content := by
  by_cases empty : first.content.length = 0
  · have none_ : first.content = [] := List.eq_nil_of_length_eq_zero empty
    have same_ : second.content = [] := List.eq_nil_of_length_eq_zero (sizes ▸ empty)
    rw [none_, same_]
  · rw [fingerprintSamples_small empty (by omega),
      fingerprintSamples_small (sizes ▸ empty) (by omega)] at same
    have heads := List.tail_eq_of_cons_eq same
    rw [headSample, headSample, Nat.min_eq_right small, Nat.min_eq_right (sizes ▸ small),
      List.take_length, List.take_length] at heads
    exact heads

/-- The file with another byte at its end. -/
def FileData.otherEnd (file : FileData) : FileData where
  content := file.content.modify (file.content.length - 1) (· + 1)
  mtimeNs := file.mtimeNs

private theorem otherEnd_length (file : FileData) :
    file.otherEnd.content.length = file.content.length :=
  List.length_modify _ _ _

/-- Between one and three samples, only the head is fed to the digest. -/
theorem fingerprintInput_otherEnd (above : sampleSize < file.content.length)
    (within : file.content.length ≤ 3 * sampleSize) :
    fingerprintInput file sampleSize = fingerprintInput file.otherEnd sampleSize := by
  have sizes := otherEnd_length file
  have headers : fingerprintHeader file = fingerprintHeader file.otherEnd := by
    rw [fingerprintHeader, fingerprintHeader, sizes]
    rfl
  have heads : headSample sampleSize file.content = headSample sampleSize file.otherEnd.content := by
    rw [headSample, headSample, sizes, Nat.min_eq_left (Nat.le_of_lt above)]
    apply List.ext_getElem?
    intro index
    rw [List.getElem?_take, List.getElem?_take]
    split
    · rename_i inside
      have aside : file.content.length - 1 ≠ index := by omega
      simp [FileData.otherEnd, aside]
    · rfl
  rw [fingerprintInput, fingerprintInput, headers, fingerprintSamples_small (by omega) (by omega),
    fingerprintSamples_small (by omega) (by omega), heads]

private theorem otherEnd_not_sampledAlike (positive : 0 < sampleSize)
    (above : sampleSize < file.content.length) :
    ¬ SampledAlike sampleSize file file.otherEnd := by
  intro alike
  have tails := congrArg (fun bytes => bytes[sampleSize - 1]?) alike.tail
  have last : file.content.length - sampleSize + (sampleSize - 1) = file.content.length - 1 := by
    omega
  have present : file.content.length - 1 < file.content.length := by omega
  rw [tailSample, tailSample, otherEnd_length, Nat.min_eq_left (Nat.le_of_lt above)] at tails
  simp only [List.getElem?_drop, last, FileData.otherEnd, List.getElem?_modify, if_pos,
    List.getElem?_eq_getElem present, Option.map_eq_map, Option.map_some,
    Option.some.injEq] at tails
  exact absurd tails (by simp)

end Samples

/-- The digest is fed head, middle and tail of a file of at most one sample, where the head is
the whole of it, and of a file of more than three. -/
theorem fingerprint_sees_samples_iff {sampleSize : Nat} (positive : 0 < sampleSize)
    (file : FileData) :
    (∀ other, fingerprintInput file sampleSize = fingerprintInput other sampleSize →
        SampledAlike sampleSize file other) ↔
      file.content.length ≤ sampleSize ∨ 3 * sampleSize < file.content.length := by
  constructor
  · intro seen
    by_contra between
    have above : sampleSize < file.content.length := by omega
    exact otherEnd_not_sampledAlike positive above
      (seen _ (fingerprintInput_otherEnd above (by omega)))
  · rintro class_ other same
    obtain ⟨headers, samples⟩ := fingerprintInput_parts same
    obtain ⟨sizes, mtimes⟩ := fingerprintHeader_injective headers
    rcases class_ with small | large
    · have content := content_of_small small sizes samples
      exact ⟨sizes, mtimes, by rw [content], by rw [content], by rw [content]⟩
    · obtain ⟨head, middle, tail⟩ := samples_of_large large sizes samples
      exact ⟨sizes, mtimes, head, middle, tail⟩

theorem three_samples_are_seen :
    (∀ other, fingerprintInput ⟨[1, 2, 3, 4], 5⟩ 1 = fingerprintInput other 1 →
        SampledAlike 1 ⟨[1, 2, 3, 4], 5⟩ other) ↔ (4 ≤ 1 ∨ 3 * 1 < 4) :=
  fingerprint_sees_samples_iff (by decide) ⟨[1, 2, 3, 4], 5⟩

/-- Of two samples' worth of bytes the last is not looked at. -/
theorem tail_of_two_samples_unseen :
    ¬ ∀ (sampleSize : Nat) (first second : FileData), 0 < sampleSize →
      fingerprintInput first sampleSize = fingerprintInput second sampleSize →
        SampledAlike sampleSize first second := by
  intro seen
  have alike := seen 1 ⟨[1, 2], 5⟩ ⟨[1, 3], 5⟩ (by decide) rfl
  exact absurd alike.tail (by decide)

end PyUploadX.Sdk
