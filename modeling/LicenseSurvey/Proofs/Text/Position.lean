import LicenseSurvey.Proofs.Text.Slice
import LicenseSurvey.Proofs.Text.Trim
import LicenseSurvey.Proofs.Text.Utf8

/-! # Texts among bytes

The first byte of a character is none of those that go on with one. So a text that is looked for
among the bytes of another is found at boundaries only, and it is found there exactly when it is
a part of the other text. The letters `A` to `Z` are one byte each and no part of a longer
character, so this is so whether or not their case is ignored.
-/

namespace LicenseSurvey.Text

/-! ## First and further bytes -/

def GoesOn (byte : UInt8) : Prop := 0x80 ≤ byte.toNat ∧ byte.toNat < 0xC0

theorem goesOn_ofNat {bits : Nat} (low : bits < 0x40) : GoesOn (UInt8.ofNat (bits + 0x80)) := by
  rw [GoesOn, toNat_ofNat (by omega)]
  omega

theorem not_goesOn_ofNat {value : Nat} (byte : value < 256) (first : value < 0x80 ∨ 0xC0 ≤ value) :
    ¬GoesOn (UInt8.ofNat value) := by
  rw [GoesOn, toNat_ofNat byte]
  omega

theorem exists_utf8EncodeChar_eq_cons (character : Char) :
    ∃ first further, String.utf8EncodeChar character = first :: further ∧ ¬GoesOn first ∧
      ∀ byte ∈ further, GoesOn byte := by
  rw [String.utf8EncodeChar]
  generalize character.val.toNat = value
  split
  · exact ⟨_, _, rfl, not_goesOn_ofNat (by omega) (by omega), by simp⟩
  have last : GoesOn (UInt8.ofNat (value % 0x40 + 0x80)) := goesOn_ofNat (by omega)
  split
  · exact ⟨_, _, rfl, not_goesOn_ofNat (by omega) (by omega), List.forall_mem_singleton.mpr last⟩
  have third : GoesOn (UInt8.ofNat (value / 64 % 0x40 + 0x80)) := goesOn_ofNat (by omega)
  have lastTwo := List.forall_mem_cons.mpr ⟨third, List.forall_mem_singleton.mpr last⟩
  split
  · exact ⟨_, _, rfl, not_goesOn_ofNat (by omega) (by omega), lastTwo⟩
  · have second : GoesOn (UInt8.ofNat (value / 4096 % 0x40 + 0x80)) := goesOn_ofNat (by omega)
    exact ⟨_, _, rfl, not_goesOn_ofNat (by omega) (by omega),
      List.forall_mem_cons.mpr ⟨second, lastTwo⟩⟩

/-! ## Parts of a text -/

/-- The bytes of a text are cut between two characters in front of a byte that begins one. -/
theorem exists_of_encode_eq_append {text : Text} {before rest : Bytes}
    (whole : encode text = before ++ rest) (begins : ∀ byte ∈ rest.head?, ¬GoesOn byte) :
    ∃ front back, text = front ++ back ∧ encode front = before ∧ encode back = rest := by
  induction text generalizing before with
  | nil =>
      rcases List.append_eq_nil_iff.mp whole.symm with ⟨rfl, rfl⟩
      exact ⟨[], [], rfl, rfl, rfl⟩
  | cons character text induction =>
      rw [encode_cons] at whole
      rcases List.append_eq_append_iff.mp whole with ⟨later, rfl, split⟩ | ⟨cut, split, rfl⟩
      · rcases induction split with ⟨front, back, rfl, ahead, behind⟩
        exact ⟨character :: front, back, rfl, by rw [encode_cons, ahead], behind⟩
      · rcases exists_utf8EncodeChar_eq_cons character with ⟨first, further, bytes, -, goOn⟩
        cases before with
        | nil =>
            rw [List.nil_append] at split
            exact ⟨[], character :: text, rfl, rfl, by rw [encode_cons, split]⟩
        | cons byte before =>
            cases cut with
            | nil =>
                rw [List.append_nil] at split
                exact ⟨[character], text, rfl, by rw [encode_cons, split]; simp, rfl⟩
            | cons next cut =>
                -- The cut would go through the bytes of one character.
                have inside : next ∈ further := by
                  rw [bytes, List.cons_append, List.cons.injEq] at split
                  rw [split.2]
                  simp
                exact absurd (goOn next inside) (begins next rfl)

theorem exists_of_encode_eq_encode_append {text front : Text} {rest : Bytes}
    (whole : encode text = encode front ++ rest) :
    ∃ back, text = front ++ back ∧ encode back = rest := by
  have split : text = front ++ decode rest := by
    rw [← decode_encode_append, ← whole, decode_encode]
  refine ⟨decode rest, split, ?_⟩
  rw [split, encode_append] at whole
  exact List.append_cancel_left whole

/-- A text among the bytes of another text is a part of it. -/
theorem exists_of_encode_eq {text part : Text} {before after : Bytes} (notEmpty : part ≠ [])
    (whole : encode text = before ++ (encode part ++ after)) :
    ∃ front back, text = front ++ (part ++ back) ∧ encode front = before ∧ encode back = after := by
  have begins : ∀ byte ∈ (encode part ++ after).head?, ¬GoesOn byte := by
    rcases List.exists_cons_of_ne_nil notEmpty with ⟨character, rest, rfl⟩
    rcases exists_utf8EncodeChar_eq_cons character with ⟨first, further, bytes, begins, -⟩
    rw [encode_cons, bytes]
    simpa using begins
  rcases exists_of_encode_eq_append whole begins with ⟨front, middle, rfl, ahead, rest⟩
  rcases exists_of_encode_eq_encode_append rest with ⟨back, rfl, behind⟩
  exact ⟨front, back, rfl, ahead, behind⟩

theorem head?_encode_eq_colon_iff {text : Text} :
    (encode text).head? = some 58 ↔ text.head? = some ':' := by
  cases text with
  | nil => simp
  | cons character rest =>
      constructor
      · intro first
        have notEmpty : String.utf8EncodeChar character ≠ [] := String.utf8EncodeChar_ne_nil
        rw [encode_cons, List.head?_append_of_ne_nil _ notEmpty] at first
        have short := utf8EncodeChar_of_mem (List.mem_of_head? first) (by decide)
        rw [short]
        rfl
      · intro first
        rw [Option.some.inj first]
        rfl

/-! ## Letter case -/

def lowerByte (byte : UInt8) : UInt8 :=
  if 65 ≤ byte.toNat ∧ byte.toNat ≤ 90 then byte + 32 else byte

def lowerBytes (content : Bytes) : Bytes := content.map lowerByte

@[simp] theorem length_lowerBytes (content : Bytes) :
    (lowerBytes content).length = content.length := List.length_map _

@[simp] theorem lowerBytes_append (left right : Bytes) :
    lowerBytes (left ++ right) = lowerBytes left ++ lowerBytes right := List.map_append

theorem utf8EncodeChar_of_short {character : Char} (short : character.toNat ≤ 0x7F) :
    String.utf8EncodeChar character = [UInt8.ofNat character.toNat] := by
  rw [String.utf8EncodeChar]
  exact if_pos short

theorem utf8EncodeChar_toLower (character : Char) :
    String.utf8EncodeChar character.toLower =
      (String.utf8EncodeChar character).map lowerByte := by
  rcases toLower_cases character with ⟨upper, code⟩ | ⟨other, same⟩
  · rw [utf8EncodeChar_of_short (by omega), utf8EncodeChar_of_short (by omega), code,
      List.map_singleton, lowerByte, toNat_ofNat (by omega), if_pos upper, UInt8.ofNat_add]
    rfl
  · have kept : ∀ byte ∈ String.utf8EncodeChar character, lowerByte byte = byte := by
      intro byte member
      apply if_neg
      rintro ⟨low, high⟩
      have letter := utf8EncodeChar_of_mem member (by omega)
      have code : (Char.ofNat byte.toNat).toNat = byte.toNat := by
        rw [Char.ofNat, dif_pos (.inl (by omega))]
        rfl
      rw [letter, code] at other
      exact other ⟨low, high⟩
    rw [same, List.map_congr_left kept, List.map_id']

theorem encode_lower (text : Text) : encode (lower text) = lowerBytes (encode text) := by
  induction text with
  | nil => rfl
  | cons character text induction =>
      rw [lower] at induction ⊢
      rw [List.map_cons, encode_cons, encode_cons, lowerBytes_append, induction,
        utf8EncodeChar_toLower]
      rfl

theorem size_eq_of_lower_eq {left right : Text} (same : lower left = lower right) :
    size left = size right := by
  have bytes := congrArg List.length (congrArg encode same)
  rwa [encode_lower, encode_lower, length_lowerBytes, length_lowerBytes, length_encode,
    length_encode] at bytes

end LicenseSurvey.Text
