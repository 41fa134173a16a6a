import LicenseSurvey.Text.Basic

/-! # Slices at character boundaries

A byte position of a text is a boundary when it lies between two characters or at an
end. Cutting at boundaries takes a text apart without touching a character.
-/

namespace LicenseSurvey.Text

/-- Whether a byte position lies between two characters of the text or at an end. -/
def IsBoundary (text : Text) (position : Nat) : Prop :=
  ∃ front back, text = front ++ back ∧ size front = position

theorem size_pos {text : Text} (notNil : text ≠ []) : 0 < size text := by
  cases text with
  | nil => exact absurd rfl notNil
  | cons character rest =>
      have positive := character.utf8Size_pos
      rw [size_cons]
      omega

theorem exists_of_append_eq {front back longer rest : Text} (same : front ++ back = longer ++ rest)
    (atMost : size front ≤ size longer) :
    ∃ between, longer = front ++ between ∧ back = between ++ rest := by
  rcases List.append_eq_append_iff.mp same with ⟨between, split, behind⟩ | ⟨between, rfl, rfl⟩
  · exact ⟨between, split, behind⟩
  · cases between with
    | nil => exact ⟨[], by simp, rfl⟩
    | cons first between =>
        have positive := size_pos (List.cons_ne_nil first between)
        rw [size_append] at atMost
        omega

theorem append_inj_of_size_eq {front back other rest : Text} (same : front ++ back = other ++ rest)
    (sizes : size front = size other) : front = other ∧ back = rest := by
  rcases exists_of_append_eq same (Nat.le_of_eq sizes) with ⟨between, rfl, rfl⟩
  cases between with
  | nil => exact ⟨(List.append_nil front).symm, rfl⟩
  | cons first between =>
      have positive := size_pos (List.cons_ne_nil first between)
      rw [size_append] at sizes
      omega

theorem isBoundary_size (front back : Text) : IsBoundary (front ++ back) (size front) :=
  ⟨front, back, rfl, rfl⟩

theorem slice_append (front middle back : Text) :
    slice (size front) (size front + size middle) (front ++ (middle ++ back)) = middle := by
  rw [slice, dropBytes_size_append, Nat.add_sub_cancel_left, takeBytes_size_append]

theorem isPrefix_takeBytes (count : Nat) (text : Text) : takeBytes count text <+: text := by
  fun_induction takeBytes count text with
  | case1 => exact List.nil_prefix
  | case2 => exact List.prefix_rfl
  | case3 count character rest _ induction => exact List.cons_prefix_cons.mpr ⟨rfl, induction⟩

theorem isSuffix_dropBytes (count : Nat) (text : Text) : dropBytes count text <:+ text := by
  fun_induction dropBytes count text with
  | case1 => exact List.suffix_rfl
  | case2 => exact List.suffix_rfl
  | case3 count character rest _ induction => exact induction.trans (List.suffix_cons _ _)

theorem isInfix_slice (start stop : Nat) (text : Text) : slice start stop text <:+: text :=
  (isPrefix_takeBytes _ _).isInfix.trans (isSuffix_dropBytes start text).isInfix

theorem startsWith_append (front back : Text) : startsWith (front ++ back) front = true :=
  startsWith_iff.mpr ⟨back, rfl⟩

end LicenseSurvey.Text
