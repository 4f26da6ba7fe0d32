import Composer.Token.Lexer

/-!
The bytes of texts. A character below 128 is one byte, namely its number, and all bytes of any other
character are 128 or above. So a byte below 128 is a whole character wherever it stands in a text.
-/

namespace Composer

/-- The bytes of a text; `SourceFile.bytes` are those of a whole file. -/
def textBytes (text : String) : List UInt8 := text.toUTF8.data.toList

theorem text_bytes_append (first second : String) :
    textBytes (first ++ second) = textBytes first ++ textBytes second := by
  simp only [textBytes, String.toUTF8_eq_toByteArray, String.toByteArray_append,
    ByteArray.toList_data_append]

theorem text_bytes_of_list (chars : List Char) :
    textBytes (String.ofList chars) = chars.flatMap String.utf8EncodeChar := by
  rw [textBytes, String.toUTF8_eq_toByteArray, String.toByteArray_ofList, List.utf8Encode,
    List.data_toByteArray]

theorem text_bytes_eq (text : String) :
    textBytes text = text.toList.flatMap String.utf8EncodeChar := by
  rw [← text_bytes_of_list, String.ofList_toList]

theorem text_bytes_length (text : String) : (textBytes text).length = text.utf8ByteSize := by
  rw [textBytes, Array.length_toList, ByteArray.size_data, String.toUTF8_eq_toByteArray,
    String.size_toByteArray]

/-- Decoding the bytes of a text gives the text back. -/
theorem decode_text_bytes (text : String) :
    String.fromUTF8? ⟨(textBytes text).toArray⟩ = some text := by
  change String.fromUTF8? text.toUTF8 = some text
  rw [String.toUTF8_eq_toByteArray, String.fromUTF8?, dif_pos text.isValidUTF8]
  rfl

theorem text_bytes_inj {first second : String} (same : textBytes first = textBytes second) :
    first = second := by
  have decoded := decode_text_bytes first
  rw [same, decode_text_bytes] at decoded
  exact (Option.some.inj decoded).symm

/-! ### Characters -/

theorem encode_ascii {char : Char} (ascii : char.toNat < 128) :
    String.utf8EncodeChar char = [UInt8.ofNat char.toNat] := by
  have small : char.val.toNat ≤ 0x7f := Nat.le_of_lt_succ ascii
  simp only [String.utf8EncodeChar, small, if_true]
  rfl

/-- Every byte of a character that is not below 128 is marked by its highest bit. -/
theorem encode_other {char : Char} (other : 128 ≤ char.toNat) :
    ∀ byte ∈ String.utf8EncodeChar char, 128 ≤ byte.toNat := by
  have large : ¬char.val.toNat ≤ 0x7f := Nat.not_le_of_lt other
  have marked : ∀ digits size lead, 128 ≤ lead → size + lead ≤ 256 → 0 < size →
      128 ≤ (UInt8.ofNat (digits % size + lead)).toNat := by
    intro digits size lead high fits positive
    have below := Nat.mod_lt digits positive
    rw [UInt8.toNat_ofNat', Nat.mod_eq_of_lt (by omega)]
    omega
  intro byte member
  simp only [String.utf8EncodeChar, large, if_false] at member
  split at member
  · simp only [List.mem_cons, List.not_mem_nil, or_false] at member
    rcases member with rfl | rfl <;> exact marked _ _ _ (by decide) (by decide) (by decide)
  · split at member
    · simp only [List.mem_cons, List.not_mem_nil, or_false] at member
      rcases member with rfl | rfl | rfl <;> exact marked _ _ _ (by decide) (by decide) (by decide)
    · simp only [List.mem_cons, List.not_mem_nil, or_false] at member
      rcases member with rfl | rfl | rfl | rfl <;>
        exact marked _ _ _ (by decide) (by decide) (by decide)

/-- A byte below 128 stands for the character of its number and occurs in no other one. -/
theorem ascii_mem_encode {byte : UInt8} (ascii : byte.toNat < 128) (char : Char) :
    byte ∈ String.utf8EncodeChar char ↔ char.toNat = byte.toNat := by
  by_cases small : char.toNat < 128
  · rw [encode_ascii small, List.mem_singleton, ← UInt8.toNat_inj, UInt8.toNat_ofNat',
      Nat.mod_eq_of_lt (by omega)]
    exact eq_comm
  · constructor
    · intro member
      have high := encode_other (Nat.le_of_not_lt small) byte member
      omega
    · intro same
      omega

theorem ascii_not_mem_encode {ascii char : Char} (small : ascii.toNat < 128)
    (other : char ≠ ascii) : UInt8.ofNat ascii.toNat ∉ String.utf8EncodeChar char := by
  have number : (UInt8.ofNat ascii.toNat).toNat = ascii.toNat := by
    rw [UInt8.toNat_ofNat', Nat.mod_eq_of_lt (by omega)]
  rw [ascii_mem_encode (by omega), number, Char.toNat_inj]
  exact other

theorem ascii_mem_text_bytes {byte : UInt8} (ascii : byte.toNat < 128) (text : String) :
    byte ∈ textBytes text ↔ ∃ char ∈ text.toList, char.toNat = byte.toNat := by
  simp only [text_bytes_eq, List.mem_flatMap, ascii_mem_encode ascii]

/-- Characters below 128 are read off their bytes one by one. -/
theorem ascii_text_bytes (bytes : List UInt8) (ascii : ∀ byte ∈ bytes, byte.toNat < 128) :
    textBytes (asciiText bytes) = bytes := by
  rw [asciiText, text_bytes_of_list]
  induction bytes with
  | nil => rfl
  | cons byte rest ih =>
      rcases List.forall_mem_cons.mp ascii with ⟨small, later⟩
      have valid : byte.toNat.isValidChar := .inl (by omega)
      have number : (Char.ofNat byte.toNat).toNat = byte.toNat := by
        rw [Char.ofNat, dif_pos valid]
        rfl
      rw [List.map_cons, List.flatMap_cons, ih later, encode_ascii (by omega), number,
        UInt8.ofNat_toNat, List.singleton_append]

end Composer
