import Mathlib.Data.List.Basic

/-! Texts and the bytes they are written in. -/
namespace Kit

theorem bytes_loop (bytes : ByteArray) (index : Nat) (read : List UInt8) :
    ByteArray.toList.loop bytes index read = read.reverse ++ bytes.data.toList.drop index := by
  fun_induction ByteArray.toList.loop bytes index read with
  | case1 index read within ih =>
    have inside : index < bytes.data.toList.length := within
    have next : bytes.get! index = bytes.data.toList[index] := by
      rw [ByteArray.get!, getElem!_pos bytes.data index within, Array.getElem_toList]
    rw [ih, List.reverse_cons, List.append_assoc, List.singleton_append, next,
      ← List.drop_eq_getElem_cons]
  | case2 index read beyond =>
    have past : bytes.data.toList.length ≤ index := Nat.le_of_not_lt beyond
    rw [List.drop_eq_nil_of_le past, List.append_nil]

theorem bytes_toList (bytes : ByteArray) : bytes.toList = bytes.data.toList := by
  rw [ByteArray.toList, bytes_loop]
  rfl

/-- The characters are written one after the other. -/
theorem utf8_toList (text : String) :
    text.toUTF8.toList = text.toList.flatMap String.utf8EncodeChar := by
  rw [String.toUTF8_eq_toByteArray, ← String.utf8Encode_toList, bytes_toList, List.utf8Encode,
    List.toList_data_toByteArray]

theorem utf8_injective {first second : String}
    (same : first.toUTF8.toList = second.toUTF8.toList) : first = second := by
  rw [bytes_toList, bytes_toList] at same
  exact String.toByteArray_inj.mp (ByteArray.ext (Array.toList_inj.mp same))

/-- A character below 128 is a byte of its own. -/
theorem mem_utf8_ascii {text : String} (ascii : ∀ char ∈ text.toList, char.toNat < 128) {byte : UInt8}
    (member : byte ∈ text.toUTF8.toList) : ∃ char ∈ text.toList, byte = UInt8.ofNat char.toNat := by
  rw [utf8_toList] at member
  obtain ⟨char, inside, encoded⟩ := List.mem_flatMap.mp member
  have short : char.utf8Size = 1 := by
    rw [Char.utf8Size_eq_one_iff, UInt32.le_iff_toNat_le]
    exact Nat.le_of_lt_succ (ascii char inside)
  rw [String.utf8EncodeChar_eq_singleton short] at encoded
  exact ⟨char, inside, List.mem_singleton.mp encoded⟩

end Kit
