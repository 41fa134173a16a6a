import LicenseSurvey.Text.Utf8

/-! # Decoding what was encoded

The bytes of a character tell how many they are and, put together again, give the
character back. No byte of a longer form is the code of a short character, so a short
character is in a text whenever its code is among the bytes.
-/

namespace LicenseSurvey.Text

/-! ## Bytes in front -/

theorem toNat_ofNat {value : Nat} (byte : value < 256) : (UInt8.ofNat value).toNat = value :=
  Nat.mod_eq_of_lt byte

theorem ofByte_of_one {value : Nat} (short : value ≤ 0x7F) :
    Lead.ofByte (UInt8.ofNat value) = .whole (Char.ofNat value) := by
  rw [Lead.ofByte, toNat_ofNat (by omega), if_pos (by omega)]

theorem ofByte_of_two {bits : Nat} (low : 2 ≤ bits) (high : bits < 0x20) :
    Lead.ofByte (UInt8.ofNat (bits + 0xC0)) = .begun ⟨bits, 0, 0x80, 0xBF⟩ := by
  rw [Lead.ofByte, toNat_ofNat (by omega), if_neg (by omega), if_neg (by omega),
    if_pos (by omega), Nat.add_sub_cancel]

theorem ofByte_of_three {bits : Nat} (high : bits < 0x10) :
    Lead.ofByte (UInt8.ofNat (bits + 0xE0)) =
      .begun ⟨bits, 1, if bits = 0 then 0xA0 else 0x80, if bits = 0xD then 0x9F else 0xBF⟩ := by
  have least : bits + 0xE0 = 0xE0 ↔ bits = 0 := by omega
  have surrogate : bits + 0xE0 = 0xED ↔ bits = 0xD := by omega
  rw [Lead.ofByte, toNat_ofNat (by omega), if_neg (by omega), if_neg (by omega),
    if_neg (by omega), if_pos (by omega), Nat.add_sub_cancel]
  simp only [least, surrogate]

theorem ofByte_of_four {bits : Nat} (high : bits < 5) :
    Lead.ofByte (UInt8.ofNat (bits + 0xF0)) =
      .begun ⟨bits, 2, if bits = 0 then 0x90 else 0x80, if bits = 4 then 0x8F else 0xBF⟩ := by
  have least : bits + 0xF0 = 0xF0 ↔ bits = 0 := by omega
  have last : bits + 0xF0 = 0xF4 ↔ bits = 4 := by omega
  rw [Lead.ofByte, toNat_ofNat (by omega), if_neg (by omega), if_neg (by omega),
    if_neg (by omega), if_neg (by omega), if_pos (by omega), Nat.add_sub_cancel]
  simp only [least, last]

/-! ## Bytes behind -/

theorem decodeFrom_last {front bits low high : Nat} (rest : Bytes) (byte : bits < 0x40)
    (atLeast : low ≤ bits + 0x80) (atMost : bits + 0x80 ≤ high) :
    decodeFrom (some ⟨front, 0, low, high⟩) (UInt8.ofNat (bits + 0x80) :: rest) =
      Char.ofNat (front * 64 + bits) :: decodeFrom none rest := by
  rw [decodeFrom, toNat_ofNat (by omega), if_pos ⟨atLeast, atMost⟩, Nat.add_sub_cancel]

theorem decodeFrom_next {front later bits low high : Nat} (rest : Bytes) (byte : bits < 0x40)
    (atLeast : low ≤ bits + 0x80) (atMost : bits + 0x80 ≤ high) :
    decodeFrom (some ⟨front, later + 1, low, high⟩) (UInt8.ofNat (bits + 0x80) :: rest) =
      decodeFrom (some ⟨front * 64 + bits, later, 0x80, 0xBF⟩) rest := by
  rw [decodeFrom, toNat_ofNat (by omega), if_pos ⟨atLeast, atMost⟩, Nat.add_sub_cancel]

/-! ## Characters -/

theorem decodeFrom_whole {byte : UInt8} {character : Char}
    (lead : Lead.ofByte byte = .whole character) (rest : Bytes) :
    decodeFrom none (byte :: rest) = character :: decodeFrom none rest := by
  rw [decodeFrom, lead]

theorem decodeFrom_begun {byte : UInt8} {begun : Begun} (lead : Lead.ofByte byte = .begun begun)
    (rest : Bytes) : decodeFrom none (byte :: rest) = decodeFrom (some begun) rest := by
  rw [decodeFrom, lead]

theorem decodeFrom_encodeChar (character : Char) (rest : Bytes) :
    decodeFrom none (String.utf8EncodeChar character ++ rest) =
      character :: decodeFrom none rest := by
  have valid : character.val.toNat < 0xD800 ∨
      0xDFFF < character.val.toNat ∧ character.val.toNat < 0x110000 := character.valid
  have back : Char.ofNat character.val.toNat = character := Char.ofNat_toNat character
  -- One case for each number of bytes. Only here it matters that no code is a surrogate:
  -- the bound on a second byte would exclude it.
  rw [String.utf8EncodeChar]
  generalize character.val.toNat = value at valid back ⊢
  split
  · rename_i one
    exact (decodeFrom_whole (ofByte_of_one one) rest).trans (by rw [back])
  split
  · rename_i two
    have value_eq : value / 64 % 0x20 * 64 + value % 0x40 = value := by omega
    rw [List.cons_append, List.cons_append,
      decodeFrom_begun (ofByte_of_two (by omega) (by omega)),
      decodeFrom_last _ (by omega) (by omega) (by omega), value_eq, back]
    rfl
  split
  · rename_i three
    have second : value / 4096 % 0x10 * 64 + value / 64 % 0x40 = value / 64 := by omega
    have third : value / 64 * 64 + value % 0x40 = value := by omega
    rw [List.cons_append, List.cons_append, List.cons_append,
      decodeFrom_begun (ofByte_of_three (by omega)),
      decodeFrom_next _ (by omega) (by split <;> omega) (by split <;> omega),
      decodeFrom_last _ (by omega) (by omega) (by omega), second, third, back]
    rfl
  · have second : value / 262144 % 0x08 * 64 + value / 4096 % 0x40 = value / 4096 := by omega
    have third : value / 4096 * 64 + value / 64 % 0x40 = value / 64 := by omega
    have fourth : value / 64 * 64 + value % 0x40 = value := by omega
    rw [List.cons_append, List.cons_append, List.cons_append, List.cons_append,
      decodeFrom_begun (ofByte_of_four (by omega)),
      decodeFrom_next _ (by omega) (by split <;> omega) (by split <;> omega),
      decodeFrom_next _ (by omega) (by omega) (by omega),
      decodeFrom_last _ (by omega) (by omega) (by omega), second, third, fourth,
      back]
    rfl

@[simp] theorem encode_nil : encode [] = [] := rfl

theorem encode_cons (character : Char) (text : Text) :
    encode (character :: text) = String.utf8EncodeChar character ++ encode text :=
  List.flatMap_cons

@[simp] theorem encode_append (left right : Text) :
    encode (left ++ right) = encode left ++ encode right :=
  List.flatMap_append

theorem length_encode (text : Text) : (encode text).length = size text := by
  induction text with
  | nil => rfl
  | cons character text induction =>
      rw [encode_cons, List.length_append, String.length_utf8EncodeChar, induction, size_cons]

theorem decode_encode_append (text : Text) (rest : Bytes) :
    decode (encode text ++ rest) = text ++ decode rest := by
  induction text with
  | nil => rfl
  | cons character text induction =>
      rw [decode] at induction ⊢
      rw [encode_cons, List.append_assoc, decodeFrom_encodeChar, induction, List.cons_append]

theorem decode_encode (text : Text) : decode (encode text) = text := by
  rw [← List.append_nil (encode text), decode_encode_append]
  exact List.append_nil text

theorem decodeExact?_eq_some_iff {content : Bytes} {text : Text} :
    decodeExact? content = some text ↔ encode text = content := by
  rw [decodeExact?]
  constructor
  · intro exact
    split at exact
    · rename_i same
      rw [← Option.some.inj exact, same]
    · cases exact
  · rintro rfl
    rw [decode_encode]
    exact if_pos rfl

/-- Bytes are refused when they are not those of a text. -/
theorem decodeExact?_eq_none_iff {content : Bytes} :
    decodeExact? content = none ↔ ¬∃ text, encode text = content := by
  rw [Option.eq_none_iff_forall_ne_some, not_exists]
  simp only [ne_eq, decodeExact?_eq_some_iff]

/-! ## Short characters -/

theorem utf8EncodeChar_of_mem {character : Char} {byte : UInt8}
    (member : byte ∈ String.utf8EncodeChar character) (short : byte.toNat < 0x80) :
    character = Char.ofNat byte.toNat := by
  have back : Char.ofNat character.val.toNat = character := Char.ofNat_toNat character
  rw [String.utf8EncodeChar] at member
  generalize character.val.toNat = value at back member
  split at member
  · rename_i one
    rw [List.mem_singleton.mp member, toNat_ofNat (by omega), back]
  all_goals exfalso
  split at member
  · simp only [List.mem_cons, List.not_mem_nil, or_false] at member
    rcases member with equal | equal <;> rw [equal, toNat_ofNat (by omega)] at short <;> omega
  split at member
  · simp only [List.mem_cons, List.not_mem_nil, or_false] at member
    rcases member with equal | equal | equal <;>
      rw [equal, toNat_ofNat (by omega)] at short <;> omega
  · simp only [List.mem_cons, List.not_mem_nil, or_false] at member
    rcases member with equal | equal | equal | equal <;>
      rw [equal, toNat_ofNat (by omega)] at short <;> omega

theorem mem_of_mem_encode {text : Text} {byte : UInt8} (member : byte ∈ encode text)
    (short : byte.toNat < 0x80) : Char.ofNat byte.toNat ∈ text := by
  obtain ⟨character, inside, member⟩ := List.mem_flatMap.mp member
  rwa [← utf8EncodeChar_of_mem member short]

theorem getLast?_of_getLast?_encode {text : Text} {byte : UInt8}
    (last : (encode text).getLast? = some byte) (short : byte.toNat < 0x80) :
    text.getLast? = some (Char.ofNat byte.toNat) := by
  rcases List.eq_nil_or_concat text with rfl | ⟨front, character, rfl⟩
  · simp [encode] at last
  · rw [List.concat_eq_append] at last ⊢
    rw [encode_append, encode_cons, encode_nil, List.append_nil, List.getLast?_append] at last
    cases ends : (String.utf8EncodeChar character).getLast? with
    | none => exact absurd (List.getLast?_eq_none_iff.mp ends) String.utf8EncodeChar_ne_nil
    | some final =>
        rw [ends, Option.some_or, Option.some.injEq] at last
        rw [last] at ends
        rw [← utf8EncodeChar_of_mem (List.mem_of_getLast? ends) short, List.getLast?_concat]

end LicenseSurvey.Text
