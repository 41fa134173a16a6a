import LicenseSurvey.Proofs.Tag.Occurrence
import LicenseSurvey.Tag.Extraction

/-! # Tags line by line

Lines are cut before each line with a key, and each part is read for itself. Within a
line, blank characters at the ends count for nothing, provided that no key has a blank
character in its name; so tags can be read from trimmed lines.
-/

namespace LicenseSurvey

section

variable {Label : Type} {keys : List (Key Label)} {line : Text}

/-! ## One line after the other -/

theorem Tag.ofLines_cons_of_none (absent : Key.find? keys line = none) (lines : List Text) :
    Tag.ofLines keys (line :: lines) = Tag.ofLines keys lines := by
  rw [ofLines, Segment.ofLines, absent, ofLines]

theorem Tag.ofLines_cons_of_some {found : Key.Occurrence Label}
    (present : Key.find? keys line = some found) (lines : List Text) :
    Tag.ofLines keys (line :: lines) =
      (Segment.tag? ⟨found.key, found.after,
        lines.takeWhile fun later => (Key.find? keys later).isNone⟩).toList ++
          Tag.ofLines keys lines := by
  rw [ofLines, Segment.ofLines, present, ofLines]
  simp only [List.filterMap_cons]
  split
  · rename_i silent
    rw [silent, Option.toList_none, List.nil_append]
  · rename_i tag read
    rw [read, Option.toList_some, List.singleton_append]

theorem Tag.ofLines_append {right : List Text}
    (starts : ∀ line ∈ right.head?, Key.find? keys line ≠ none) (left : List Text) :
    Tag.ofLines keys (left ++ right) = Tag.ofLines keys left ++ Tag.ofLines keys right := by
  have stops : (right.takeWhile fun later => (Key.find? keys later).isNone) = [] := by
    cases right with
    | nil => rfl
    | cons line right =>
        apply List.takeWhile_cons_of_neg
        rw [Option.isNone_iff_eq_none]
        exact starts line rfl
  have further (left : List Text) :
      ((left ++ right).takeWhile fun later => (Key.find? keys later).isNone) =
        left.takeWhile fun later => (Key.find? keys later).isNone := by
    rw [List.takeWhile_append, stops, List.append_nil]
    split
    · rename_i whole
      exact ((List.takeWhile_prefix _).eq_of_length whole).symm
    · rfl
  induction left with
  | nil => rfl
  | cons line left induction =>
      rw [List.cons_append]
      cases read : Key.find? keys line with
      | none => rw [ofLines_cons_of_none read, ofLines_cons_of_none read, induction]
      | some found =>
          rw [ofLines_cons_of_some read, ofLines_cons_of_some read, induction, further,
            List.append_assoc]

theorem Segment.exists_mem_tag?_iff {segment : Segment Label} {label : Label}
    (oneLine : segment.key.label = label → segment.key.shape = .line) :
    (∃ tag ∈ segment.tag?, tag.label = label) ↔
      segment.key.label = label ∧ Text.trim segment.rest ≠ [] := by
  by_cases named : segment.key.label = label
  · by_cases empty : Text.trim segment.rest = [] <;>
      simp [tag?, value?, oneLine named, nonemptyText?, named, empty]
  · simp [tag?, named]

theorem Tag.exists_mem_ofLines_iff {label : Label}
    (oneLine : ∀ key ∈ keys, key.label = label → key.shape = .line) (lines : List Text) :
    (∃ tag ∈ Tag.ofLines keys lines, tag.label = label) ↔
      ∃ line ∈ lines, ∃ found, Key.find? keys line = some found ∧
        found.key.label = label ∧ Text.trim found.after ≠ [] := by
  induction lines with
  | nil => simp [ofLines, Segment.ofLines]
  | cons line lines induction =>
      cases read : Key.find? keys line with
      | none => simp [ofLines_cons_of_none read, induction, read]
      | some found =>
          have first := @Segment.exists_mem_tag?_iff Label ⟨found.key, found.after,
            lines.takeWhile fun later => (Key.find? keys later).isNone⟩ label
            (oneLine found.key (Key.mem_of_find? read))
          simp only [ofLines_cons_of_some read, List.mem_append, Option.mem_toList, or_and_right,
            exists_or, induction, List.mem_cons, exists_eq_left, read, Option.some.injEq,
            exists_eq_left']
          exact or_congr first Iff.rfl

/-! ## Blank characters at the ends -/

theorem Segment.tag?_map_trim {rest other : Text} (same : Text.trim rest = Text.trim other)
    (key : Key Label) (further : List Text) :
    tag? ⟨key, rest, further.map Text.trim⟩ = tag? ⟨key, other, further⟩ := by
  have words : Text.words rest = Text.words other := by
    rw [← Text.words_trim, same, Text.words_trim]
  simp [tag?, value?, trimmedLines, same, words, List.flatMap_map, Function.comp_def]

/-- Blank characters at the ends of lines count for nothing. -/
theorem Tag.ofLines_map_trim
    (plain : ∀ key ∈ keys, ∀ letter ∈ key.name, Text.isBlank letter = false)
    (lines : List Text) : Tag.ofLines keys (lines.map Text.trim) = Tag.ofLines keys lines := by
  have absent (line : Text) :
      (Key.find? keys (Text.trim line)).isNone = (Key.find? keys line).isNone := by
    have same := congrArg Option.isNone (Key.reading?_trim plain line)
    rwa [Key.reading?, Key.reading?, Option.isNone_map, Option.isNone_map] at same
  induction lines with
  | nil => rfl
  | cons line lines induction =>
      have same := Key.reading?_trim plain line
      rw [Key.reading?, Key.reading?] at same
      rw [List.map_cons]
      cases read : Key.find? keys line with
      | none =>
          rw [read, Option.map_none, Option.map_eq_none_iff] at same
          rw [ofLines_cons_of_none read, ofLines_cons_of_none same, induction]
      | some found =>
          rw [read, Option.map_some, Option.map_eq_some_iff] at same
          obtain ⟨trimmed, there, equal⟩ := same
          rw [Prod.mk.injEq] at equal
          rw [ofLines_cons_of_some read, ofLines_cons_of_some there, induction, equal.1,
            List.takeWhile_map]
          simp only [Function.comp_def, absent]
          rw [Segment.tag?_map_trim equal.2]

end

end LicenseSurvey
