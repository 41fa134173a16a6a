import LicenseSurvey.Comment.Marker

/-! # Markers met in a line

The search for markers takes a line apart into single characters that start no marker
and into markers. What holds of the empty text and is kept by both kinds of step holds
of every text; the tokens of the line are described step by step in the same way.
-/

namespace LicenseSurvey.Markers

variable {markers : Markers} {mark : Mark} {marker : Text}

/-! ## The table -/

theorem marker_ne_nil (member : (mark, marker) ∈ markers.table) : marker ≠ [] := by
  simpa [List.isEmpty_eq_false_iff] using (List.mem_filter.mp member).2

theorem lineComment_mem_table_iff :
    (Mark.lineComment, marker) ∈ markers.table ↔ markers.line = some marker ∧ marker ≠ [] := by
  simp [table, quoteMarker]

theorem blockOpening_mem_table_iff :
    (Mark.blockOpening, marker) ∈ markers.table ↔
      (∃ block, markers.block = some block ∧ marker = block.opening) ∧ marker ≠ [] := by
  simp [table, quoteMarker]

theorem blockClosing_mem_table_iff :
    (Mark.blockClosing, marker) ∈ markers.table ↔
      (∃ block, markers.block = some block ∧ marker = block.closing) ∧ marker ≠ [] := by
  simp [table, quoteMarker]

/-! ## One step of the search -/

theorem mem_of_markAt? {table : List (Mark × Text)} {text : Text}
    (found : markAt? table text = some (mark, marker)) : (mark, marker) ∈ table :=
  List.mem_of_find?_eq_some found

theorem eq_append_of_markAt? {table : List (Mark × Text)} {text : Text}
    (found : markAt? table text = some (mark, marker)) : ∃ after, text = marker ++ after := by
  have stands := List.find?_some found
  exact Text.startsWith_iff.mp stands

/-- A text can be reasoned about along the search for markers. -/
theorem induction_markAt? (markers : Markers) {motive : Text → Prop} (nil : motive [])
    (skip : ∀ character rest, markAt? markers.table (character :: rest) = none →
      motive rest → motive (character :: rest))
    (meet : ∀ mark marker after, markAt? markers.table (marker ++ after) = some (mark, marker) →
      motive after → motive (marker ++ after)) (text : Text) : motive text := by
  induction length : text.length using Nat.strongRecOn generalizing text with
  | ind _ induction =>
      cases text with
      | nil => exact nil
      | cons character rest =>
          cases found : markAt? markers.table (character :: rest) with
          | none =>
              refine skip character rest found (induction rest.length ?_ rest rfl)
              simp [← length]
          | some entry =>
              rcases entry with ⟨mark, marker⟩
              obtain ⟨after, equal⟩ := eq_append_of_markAt? found
              have notNil := marker_ne_nil (mem_of_markAt? found)
              rw [equal] at found ⊢
              refine meet mark marker after found (induction after.length ?_ after rfl)
              have positive := List.length_pos_iff.mpr notNil
              rw [← length, equal, List.length_append]
              omega

@[simp] theorem tokensFrom_nil (table : List (Mark × Text)) (position : Nat) :
    tokensFrom table position [] = [] := by
  rw [tokensFrom]

theorem tokensFrom_skip {table : List (Mark × Text)} {character : Char} {rest : Text}
    (found : markAt? table (character :: rest) = none) (position : Nat) :
    tokensFrom table position (character :: rest) =
      tokensFrom table (position + character.utf8Size) rest := by
  rw [tokensFrom, found]

theorem tokensFrom_meet {after : Text}
    (found : markAt? markers.table (marker ++ after) = some (mark, marker)) (position : Nat) :
    tokensFrom markers.table position (marker ++ after) =
      ⟨mark, position, Text.size marker, marker ++ after⟩ ::
        tokensFrom markers.table (position + Text.size marker) after := by
  cases marker with
  | nil => exact absurd rfl (marker_ne_nil (mem_of_markAt? found))
  | cons character rest =>
      have dropped : (rest ++ after).drop ((character :: rest).length - 1) = after := by
        simp
      rw [List.cons_append] at found ⊢
      rw [tokensFrom, found]
      simp only [dropped]

theorem tokensFrom_only (found : markAt? markers.table marker = some (mark, marker))
    (position : Nat) :
    tokensFrom markers.table position marker =
      [⟨mark, position, Text.size marker, marker⟩] := by
  have appended : markAt? markers.table (marker ++ []) = some (mark, marker) := by
    rwa [List.append_nil]
  have met := tokensFrom_meet appended position
  rwa [List.append_nil, tokensFrom_nil] at met

end LicenseSurvey.Markers
