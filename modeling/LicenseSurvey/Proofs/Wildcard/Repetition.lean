import LicenseSurvey.Proofs.Wildcard.Filling

/-! # Stars next to each other

A star directly behind a star stands for nothing that the first one does not stand for, so a
run of stars is matched like one star. But a star alone is not matched, it accepts every path,
while a star in any other pattern stands for a part of one line. So a pattern of two or more
stars and nothing else is the one that differs, and it differs on the paths with a line feed.
-/

namespace LicenseSurvey.Wildcard

variable {pattern path : Text}

def collapsed : Text → Text
  | [] => []
  | character :: rest =>
      if character = '*' ∧ rest.head? = some '*' then collapsed rest
      else character :: collapsed rest

example : collapsed "**a***/*".toList = "*a*/*".toList := by decide

@[simp] theorem head?_collapsed (pattern : Text) : (collapsed pattern).head? = pattern.head? := by
  induction pattern with
  | nil => rfl
  | cons character rest induction =>
      rw [collapsed]
      split
      · rename_i both
        rw [induction, both.2, both.1, List.head?_cons]
      · rfl

@[simp] theorem collapsed_collapsed (pattern : Text) :
    collapsed (collapsed pattern) = collapsed pattern := by
  induction pattern with
  | nil => rfl
  | cons character rest induction =>
      rw [collapsed]
      split
      · exact induction
      · rename_i single
        rw [collapsed, head?_collapsed, if_neg single, induction]

theorem collapsed_append_stars (front : Text) :
    collapsed (front ++ ['*', '*']) = collapsed (front ++ ['*']) := by
  induction front with
  | nil => rfl
  | cons character front induction =>
      have first : (front ++ ['*', '*']).head? = (front ++ ['*']).head? := by
        rw [List.head?_append, List.head?_append, List.head?_cons, List.head?_cons]
      rw [List.cons_append, List.cons_append, collapsed, collapsed, first, induction]

/-! ## Matching -/

theorem spaced_nil_cons_iff {next text : Text} {segments : List Text} :
    Spaced ([] :: next :: segments) text ↔ Spaced (next :: segments) text := by
  rw [← starred_iff, starred_nil_cons, starred_iff]

theorem splitBy_star_cons (text : Text) :
    Text.splitBy (· == '*') ('*' :: text) = [] :: Text.splitBy (· == '*') text := rfl

theorem splitBy_cons_of_ne {character : Char} {text first : Text} {segments : List Text}
    (letter : character ≠ '*') (split : Text.splitBy (· == '*') text = first :: segments) :
    Text.splitBy (· == '*') (character :: text) = (character :: first) :: segments := by
  rw [Text.splitBy, if_neg (by simpa using letter), split]

/-- Collapsing keeps the first segment, and those behind it match the same texts. -/
theorem exists_splitBy_collapsed (pattern : Text) :
    ∃ first segments fewer, Text.splitBy (· == '*') pattern = first :: segments ∧
      Text.splitBy (· == '*') (collapsed pattern) = first :: fewer ∧
        ∀ text, Spaced fewer text ↔ Spaced segments text := by
  induction pattern with
  | nil => exact ⟨[], [], [], rfl, rfl, fun _ => Iff.rfl⟩
  | cons character rest induction =>
      rcases induction with ⟨first, segments, fewer, split, splitFewer, same⟩
      by_cases star : character = '*'
      · subst star
        by_cases repeated : rest.head? = some '*'
        · rcases List.head?_eq_some_iff.mp repeated with ⟨behind, rfl⟩
          rcases List.exists_cons_of_ne_nil (Text.splitBy_ne_nil (· == '*') behind) with
            ⟨next, later, splitBehind⟩
          rw [splitBy_star_cons, splitBehind] at split
          rcases List.cons.inj split with ⟨rfl, rfl⟩
          rw [collapsed, if_pos ⟨rfl, repeated⟩, splitBy_star_cons, splitBy_star_cons, splitBehind]
          refine ⟨[], _, fewer, rfl, splitFewer, fun text => ?_⟩
          rw [spaced_nil_cons_iff, same]
        · rw [collapsed, if_neg (fun both => repeated both.2), splitBy_star_cons,
            splitBy_star_cons, split, splitFewer]
          refine ⟨[], _, _, rfl, rfl, fun text => ?_⟩
          simp only [spaced_cons_iff, same]
      · rw [collapsed, if_neg (fun both => star both.1), splitBy_cons_of_ne star split,
          splitBy_cons_of_ne star splitFewer]
        exact ⟨_, _, _, rfl, rfl, same⟩

theorem textAccepts_collapsed (pattern path : Text) :
    textAccepts (collapsed pattern) path = textAccepts pattern path := by
  rcases exists_splitBy_collapsed pattern with ⟨first, segments, fewer, split, splitFewer, same⟩
  rw [Bool.eq_iff_iff, textAccepts_iff_of_splitBy split, textAccepts_iff_of_splitBy splitFewer]
  simp only [same]

theorem textAccepts_star_iff : textAccepts ['*'] path = true ↔ '\n' ∉ path := by
  have split : Text.splitBy (· == '*') ['*'] = [[], []] := rfl
  rw [textAccepts_iff_of_splitBy split]
  constructor
  · rintro ⟨rest, rfl, spaced⟩
    rcases spaced_cons_iff.mp spaced with ⟨gap, behind, inLine, none, rfl⟩
    cases none
    simpa using inLine
  · intro oneLine
    exact ⟨path, rfl, spaced_cons_iff.mpr ⟨path, [], oneLine, .nil, by simp⟩⟩

/-! ## Size -/

theorem count_star_le_size (text : Text) : text.count '*' ≤ Text.size text := by
  induction text with
  | nil => exact Nat.le_refl 0
  | cons character rest induction =>
      have positive := character.utf8Size_pos
      rw [List.count_cons, Text.size_cons]
      split <;> omega

theorem patternSize_le {fewer more : Text}
    (bytes : Text.size fewer + more.count '*' = Text.size more + fewer.count '*')
    (stars : fewer.count '*' ≤ more.count '*') : patternSize fewer ≤ patternSize more := by
  have inFewer := count_star_le_size fewer
  have inMore := count_star_le_size more
  have same : Text.size fewer - fewer.count '*' = Text.size more - more.count '*' := by omega
  simp only [patternSize, same, forwardSize, backwardSize]
  omega

theorem size_collapsed (pattern : Text) :
    Text.size (collapsed pattern) + pattern.count '*' =
        Text.size pattern + (collapsed pattern).count '*' ∧
      (collapsed pattern).count '*' ≤ pattern.count '*' := by
  induction pattern with
  | nil => exact ⟨rfl, Nat.le_refl 0⟩
  | cons character rest induction =>
      rcases induction with ⟨bytes, stars⟩
      rw [collapsed]
      split
      · rename_i both
        have one : '*'.utf8Size = 1 := rfl
        rw [both.1, List.count_cons_self, Text.size_cons, one]
        omega
      · rw [List.count_cons, List.count_cons, Text.size_cons, Text.size_cons]
        omega

theorem patternSize_collapsed_le (pattern : Text) :
    patternSize (collapsed pattern) ≤ patternSize pattern :=
  patternSize_le (size_collapsed pattern).1 (size_collapsed pattern).2

theorem patternSize_append_le (front back : Text) :
    patternSize (front ++ back) ≤ patternSize (front ++ '*' :: back) := by
  have one : '*'.utf8Size = 1 := rfl
  apply patternSize_le
  · simp only [Text.size_append, Text.size_cons, one, List.count_append, List.count_cons_self]
    omega
  · simp only [List.count_append, List.count_cons_self]
    omega

/-! ## Runs of stars -/

/-- Patterns that collapse to the same match the same paths, unless one of them is a star
alone, the other is not, and a line feed is in the path. -/
theorem accepts_ofText_eq_iff {left right : Text} (same : collapsed left = collapsed right)
    (leftSmall : patternSize left ≤ sizeLimit) (rightSmall : patternSize right ≤ sizeLimit)
    (path : Text) :
    (ofText left).accepts path = (ofText right).accepts path ↔
      ('\n' ∈ path → (left = ['*'] ↔ right = ['*'])) := by
  have matched : textAccepts left path = textAccepts right path := by
    rw [← textAccepts_collapsed, same, textAccepts_collapsed]
  have lone : left = ['*'] ∨ right = ['*'] →
      (textAccepts right path = true ↔ '\n' ∉ path) := by
    rintro (rfl | rfl)
    · rw [← matched, textAccepts_star_iff]
    · exact textAccepts_star_iff
  rw [Bool.eq_iff_iff, accepts_ofText_iff leftSmall, accepts_ofText_iff rightSmall, matched]
  constructor
  · intro equal feed
    have refused (either : left = ['*'] ∨ right = ['*']) : ¬textAccepts right path = true :=
      fun accepted => (lone either).mp accepted feed
    constructor
    · intro leftLone
      exact (equal.mp (.inl leftLone)).resolve_right (refused (.inl leftLone))
    · intro rightLone
      exact (equal.mpr (.inl rightLone)).resolve_right (refused (.inr rightLone))
  · intro alike
    by_cases feed : '\n' ∈ path
    · rw [alike feed]
    · constructor
      · rintro (leftLone | accepted)
        · exact .inr ((lone (.inl leftLone)).mpr feed)
        · exact .inr accepted
      · rintro (rightLone | accepted)
        · exact .inr ((lone (.inr rightLone)).mpr feed)
        · exact .inr accepted

/-- A run of stars is matched like one star, in front, at the end and everywhere else, except
that a star alone also accepts the paths with a line feed. -/
theorem accepts_of_repeated_stars (path : Text) :
    (∀ pattern, patternSize pattern ≤ sizeLimit →
      ((ofText (collapsed pattern)).accepts path = (ofText pattern).accepts path ↔
        ('\n' ∈ path → collapsed pattern = ['*'] → pattern = ['*']))) ∧
    (∀ rest, patternSize ('*' :: '*' :: rest) ≤ sizeLimit →
      ((ofText ('*' :: '*' :: rest)).accepts path = (ofText ('*' :: rest)).accepts path ↔
        ('\n' ∈ path → rest ≠ []))) ∧
    ∀ front, patternSize (front ++ ['*', '*']) ≤ sizeLimit →
      ((ofText (front ++ ['*', '*'])).accepts path = (ofText (front ++ ['*'])).accepts path ↔
        ('\n' ∈ path → front ≠ [])) := by
  refine ⟨?_, ?_, ?_⟩
  · intro pattern small
    have smaller := Nat.le_trans (patternSize_collapsed_le pattern) small
    rw [accepts_ofText_eq_iff (collapsed_collapsed pattern) smaller small]
    apply imp_congr_right
    intro feed
    constructor
    · exact Iff.mp
    · intro alone
      refine ⟨alone, ?_⟩
      rintro rfl
      rfl
  · intro rest small
    have smaller := Nat.le_trans (patternSize_append_le [] ('*' :: rest)) small
    have same : collapsed ('*' :: '*' :: rest) = collapsed ('*' :: rest) := by
      rw [collapsed, if_pos ⟨rfl, rfl⟩]
    rw [accepts_ofText_eq_iff same small smaller]
    simp
  · intro front small
    have smaller := Nat.le_trans (patternSize_append_le front ['*']) small
    rw [accepts_ofText_eq_iff (collapsed_append_stars front) small smaller]
    have long : front ++ ['*', '*'] ≠ ['*'] := by
      intro equal
      have lengths := congrArg List.length equal
      simp at lengths
    simp [long]

theorem accepts_of_repeated_stars_of_inner_run :
    collapsed "a**b*".toList = "a*b*".toList ∧
      (ofText "a*b*".toList).accepts "a/\nb".toList =
        (ofText "a**b*".toList).accepts "a/\nb".toList := by
  have same := (accepts_of_repeated_stars "a/\nb".toList).1 "a**b*".toList (by decide)
  exact ⟨by decide, same.mpr fun _ => by decide⟩

/-- Two stars are refused a path with a line feed that one star accepts. -/
theorem accepts_two_stars_ne_accepts_star :
    patternSize "**".toList ≤ sizeLimit ∧ collapsed "**".toList = "*".toList ∧
      (ofText "*".toList).accepts "a\nb".toList = true ∧
      (ofText "**".toList).accepts "a\nb".toList = false := by
  decide

end LicenseSurvey.Wildcard
