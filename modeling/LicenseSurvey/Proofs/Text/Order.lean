import LicenseSurvey.Proofs.Text.Utf8
import Mathlib.Data.Char
import Mathlib.Data.List.Lex

/-! # The order of texts

Texts are compared character by character, which is the order of lists. It is the order of
their bytes as well: the first byte in which two characters differ is less for the character
that comes first, and a longer form begins with a greater byte.
-/

namespace LicenseSurvey.Text

theorem precedes_iff_lt {left right : Text} : precedes left right = true ↔ left < right := by
  induction left generalizing right with
  | nil => cases right <;> simp [precedes]
  | cons character left induction =>
      cases right with
      | nil => simp [precedes]
      | cons other right =>
          rw [precedes, List.cons_lt_cons_iff, Bool.or_eq_true, Bool.and_eq_true, induction,
            decide_eq_true_eq, beq_iff_eq]
          rfl

/-! ## Characters -/

/-- The first byte in which two byte strings differ is there in both of them, and it is less in
the first one. -/
inductive Diverge : Bytes → Bytes → Prop
  | here {first second : UInt8} (less : first < second) (left right : Bytes) :
      Diverge (first :: left) (second :: right)
  | later (byte : UInt8) {left right : Bytes} (behind : Diverge left right) :
      Diverge (byte :: left) (byte :: right)

theorem Diverge.append_lt {left right : Bytes} (diverge : Diverge left right)
    (leftRest rightRest : Bytes) : left ++ leftRest < right ++ rightRest := by
  induction diverge with
  | here less => exact List.cons_lt_cons_iff.mpr (.inl less)
  | later byte behind induction => exact List.cons_lt_cons_iff.mpr (.inr ⟨rfl, induction⟩)

theorem ofNat_lt_ofNat {first second : Nat} (less : first < second) (byte : second < 256) :
    UInt8.ofNat first < UInt8.ofNat second := by
  rw [UInt8.lt_iff_toNat_lt, toNat_ofNat byte, toNat_ofNat (by omega)]
  exact less

theorem diverge_cons {first second : Nat} {left right : Bytes} (atMost : first ≤ second)
    (byte : second < 256) (behind : first = second → Diverge left right) :
    Diverge (UInt8.ofNat first :: left) (UInt8.ofNat second :: right) := by
  rcases Nat.lt_or_eq_of_le atMost with less | equal
  · exact .here (ofNat_lt_ofNat less byte) left right
  · rw [equal]
    exact .later _ (behind equal)

theorem diverge_encodeChar {left right : Char} (less : left < right) :
    Diverge (String.utf8EncodeChar left) (String.utf8EncodeChar right) := by
  have code : left.val.toNat < right.val.toNat := less
  have bound : right.val.toNat < 0x110000 := by
    have valid : right.val.toNat < 0xD800 ∨
      0xDFFF < right.val.toNat ∧ right.val.toNat < 0x110000 := right.valid
    omega
  rw [String.utf8EncodeChar, String.utf8EncodeChar]
  generalize left.val.toNat = value at code
  generalize right.val.toNat = other at code bound
  -- The second character has at least as many bytes as the first one. With more bytes it
  -- begins with a greater one; with as many, the digits in front decide.
  split
  · split
    · exact .here (ofNat_lt_ofNat (by omega) (by omega)) _ _
    split
    · exact .here (ofNat_lt_ofNat (by omega) (by omega)) _ _
    split
    · exact .here (ofNat_lt_ofNat (by omega) (by omega)) _ _
    · exact .here (ofNat_lt_ofNat (by omega) (by omega)) _ _
  split
  · rw [if_neg (by omega)]
    split
    · refine diverge_cons (by omega) (by omega) fun front => ?_
      exact .here (ofNat_lt_ofNat (by omega) (by omega)) _ _
    split
    · exact .here (ofNat_lt_ofNat (by omega) (by omega)) _ _
    · exact .here (ofNat_lt_ofNat (by omega) (by omega)) _ _
  split
  · rw [if_neg (by omega), if_neg (by omega)]
    split
    · refine diverge_cons (by omega) (by omega) fun front => ?_
      refine diverge_cons (by omega) (by omega) fun middle => ?_
      exact .here (ofNat_lt_ofNat (by omega) (by omega)) _ _
    · exact .here (ofNat_lt_ofNat (by omega) (by omega)) _ _
  · rw [if_neg (by omega), if_neg (by omega), if_neg (by omega)]
    refine diverge_cons (by omega) (by omega) fun front => ?_
    refine diverge_cons (by omega) (by omega) fun second => ?_
    refine diverge_cons (by omega) (by omega) fun third => ?_
    exact .here (ofNat_lt_ofNat (by omega) (by omega)) _ _

/-! ## Texts -/

/-- Texts are in the order of their bytes. -/
theorem encode_lt_encode {left right : Text} (less : left < right) :
    encode left < encode right := by
  induction left generalizing right with
  | nil =>
      cases right with
      | nil => exact absurd less (List.not_lt_nil _)
      | cons character right =>
          obtain ⟨byte, rest, bytes⟩ := List.exists_cons_of_ne_nil
            (@String.utf8EncodeChar_ne_nil character)
          rw [encode_cons, bytes]
          exact List.nil_lt_cons byte _
  | cons character left induction =>
      cases right with
      | nil => exact absurd less (List.not_lt_nil _)
      | cons other right =>
          rw [encode_cons, encode_cons]
          rcases List.cons_lt_cons_iff.mp less with first | ⟨rfl, later⟩
          · exact (diverge_encodeChar first).append_lt _ _
          · exact List.append_left_lt (induction later)

end LicenseSurvey.Text
