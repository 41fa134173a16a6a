import LicenseSurvey.Proofs.Text.Split
import Mathlib.Data.List.DropRight

/-! # Blank characters at the ends

Trimming takes blank characters off both ends. Whatever does not depend on a blank
character at an end of a text does not depend on trimming, and with this one rule all
that follows is checked character by character.
-/

namespace LicenseSurvey.Text

theorem trim_cons_blank {character : Char} (blank : isBlank character = true)
    (text : Text) : trim (character :: text) = trim text := by
  rw [trim, trim, trimStart, List.dropWhile_cons_of_pos blank, trimStart]

theorem trimEnd_eq_rdropWhile (text : Text) : trimEnd text = text.rdropWhile isBlank := rfl

theorem trim_concat_blank {character : Char} (blank : isBlank character = true)
    (text : Text) : trim (text ++ [character]) = trim text := by
  rw [trim, trim, trimStart, trimStart, List.dropWhile_append]
  cases text.dropWhile isBlank with
  | nil => simp [blank, trimEnd]
  | cons first rest => exact List.rdropWhile_concat_pos isBlank (first :: rest) character blank

/-- A view of texts that no blank character at an end can change sees no difference
between a text and the trimmed text. -/
theorem view_trim {View : Type} {view : Text → View}
    (front : ∀ character text, isBlank character = true → view (character :: text) = view text)
    (back : ∀ character text, isBlank character = true → view (text ++ [character]) = view text)
    (text : Text) : view (trim text) = view text := by
  have start (text : Text) : view (trimStart text) = view text := by
    induction text with
    | nil => rfl
    | cons character rest induction =>
        rw [trimStart, List.dropWhile_cons]
        split
        · rename_i blank
          exact induction.trans (front character rest blank).symm
        · rfl
  have stop (text : Text) : view (trimEnd text) = view text := by
    induction text using List.reverseRecOn with
    | nil => rfl
    | append_singleton rest character induction =>
        rw [trimEnd_eq_rdropWhile, List.rdropWhile_concat]
        split
        · rename_i blank
          exact induction.trans (back character rest blank).symm
        · rfl
  rw [trim, stop, start]

@[simp] theorem trim_trim (text : Text) : trim (trim text) = trim text :=
  view_trim (fun _ text blank => trim_cons_blank blank text)
    (fun _ text blank => trim_concat_blank blank text) text

theorem trim_eq_nil_iff {text : Text} :
    trim text = [] ↔ ∀ character ∈ text, isBlank character = true := by
  have same := @view_trim _ (fun text => ∀ character ∈ text, isBlank character = true)
    (by simp +contextual) (by simp +contextual [or_imp]) text
  constructor
  · intro empty
    rw [← same, empty]
    simp
  · intro blank
    rw [trim, trimStart, List.dropWhile_eq_nil_iff.mpr blank]
    rfl

theorem isInfix_trim (text : Text) : trim text <:+: text :=
  (List.rdropWhile_prefix isBlank _).isInfix.trans (List.dropWhile_suffix isBlank).isInfix

@[simp] theorem words_trim (text : Text) : words (trim text) = words text := by
  apply view_trim
  · intro character text blank
    simp [words, splitBy, blank]
  · intro character text blank
    simp [words, splitBy_append blank]

/-! ## Letters -/

theorem isBlank_eq_false_of_toNat {character : Char} (low : 65 ≤ character.toNat)
    (high : character.toNat ≤ 122) : isBlank character = false := by
  rw [Bool.eq_false_iff]
  simp only [isBlank, ne_eq, Bool.or_eq_true, Bool.and_eq_true, decide_eq_true_eq, beq_iff_eq]
  omega

theorem toLower_cases (character : Char) :
    (65 ≤ character.toNat ∧ character.toNat ≤ 90) ∧
        character.toLower.toNat = character.toNat + 32 ∨
      ¬(65 ≤ character.toNat ∧ character.toNat ≤ 90) ∧ character.toLower = character := by
  change _ ∧ (dite _ _ _ : Char).toNat = _ ∨ _ ∧ dite _ _ _ = _
  split
  · rename_i upper
    have low : 65 ≤ character.toNat := UInt32.le_iff_toNat_le.mp upper.1
    have high : character.toNat ≤ 90 := UInt32.le_iff_toNat_le.mp upper.2
    refine .inl ⟨⟨low, high⟩, ?_⟩
    change (character.val + ('a'.val - 'A'.val)).toNat = character.toNat + 32
    rw [UInt32.toNat_add]
    exact Nat.mod_eq_of_lt (Nat.lt_of_le_of_lt (Nat.add_le_add_right high 32) (by decide))
  · rename_i other
    refine .inr ⟨?_, rfl⟩
    rintro ⟨low, high⟩
    exact other ⟨UInt32.le_iff_toNat_le.mpr low, UInt32.le_iff_toNat_le.mpr high⟩

theorem isBlank_toLower (character : Char) :
    isBlank character.toLower = isBlank character := by
  rcases toLower_cases character with ⟨upper, code⟩ | ⟨-, same⟩
  · rw [isBlank_eq_false_of_toNat (by omega) (by omega),
      isBlank_eq_false_of_toNat (by omega) (by omega)]
  · rw [same]

theorem sameLetter_eq_false {character letter : Char} (blank : isBlank character = true)
    (plain : isBlank letter = false) : sameLetter character letter = false := by
  rw [sameLetter, beq_eq_false_iff_ne]
  intro same
  rw [← isBlank_toLower, same, isBlank_toLower, plain] at blank
  exact Bool.noConfusion blank

/-! ## Trimmed texts -/

section

variable {text : Text} {character : Char}

theorem not_isBlank_of_head? (trimmed : trim text = text)
    (first : text.head? = some character) : isBlank character = false := by
  cases text with
  | nil => simp at first
  | cons head rest =>
      rw [List.head?_cons, Option.some.injEq] at first
      subst first
      by_contra blank
      rw [Bool.not_eq_false] at blank
      rw [trim_cons_blank blank] at trimmed
      have shorter := (isInfix_trim rest).length_le
      rw [trimmed, List.length_cons] at shorter
      omega

theorem not_isBlank_of_getLast? (trimmed : trim text = text)
    (last : text.getLast? = some character) : isBlank character = false := by
  rw [← trimmed, trim, trimEnd, List.getLast?_reverse] at last
  have kept := List.head?_dropWhile_not isBlank (trimStart text).reverse
  rwa [last] at kept

theorem trim_eq_self
    (first : ∀ character, text.head? = some character → isBlank character = false)
    (last : ∀ character, text.getLast? = some character → isBlank character = false) :
    trim text = text := by
  have starts : trimStart text = text := by
    rw [trimStart, List.dropWhile_eq_self_iff]
    intro notEmpty
    simp [first text[0] (List.head?_eq_getElem? ▸ List.getElem?_eq_getElem notEmpty)]
  rw [trim, starts, trimEnd_eq_rdropWhile, List.rdropWhile_eq_self_iff]
  intro notEmpty
  simp [last _ (List.getLast?_eq_some_getLast notEmpty)]

theorem trim_eq_self_of_ends {left right : Text} (starts : text <+: left)
    (leftTrimmed : trim left = left) (ends : text <:+ right) (rightTrimmed : trim right = right) :
    trim text = text := by
  apply trim_eq_self
  · intro character first
    obtain ⟨behind, rfl⟩ := starts
    apply not_isBlank_of_head? leftTrimmed
    rw [List.head?_append, first, Option.some_or]
  · intro character last
    obtain ⟨before, rfl⟩ := ends
    apply not_isBlank_of_getLast? rightTrimmed
    rw [List.getLast?_append, last, Option.some_or]

theorem trim_append {left right : Text} (leftNotEmpty : left ≠ []) (rightNotEmpty : right ≠ [])
    (leftTrimmed : trim left = left) (rightTrimmed : trim right = right) :
    trim (left ++ right) = left ++ right := by
  apply trim_eq_self
  · intro character first
    rw [List.head?_append_of_ne_nil left leftNotEmpty] at first
    exact not_isBlank_of_head? leftTrimmed first
  · intro character last
    rw [List.getLast?_append_of_ne_nil left rightNotEmpty] at last
    exact not_isBlank_of_getLast? rightTrimmed last

end

end LicenseSurvey.Text
