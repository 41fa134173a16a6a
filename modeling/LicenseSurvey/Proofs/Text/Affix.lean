import LicenseSurvey.Text.Basic

/-! # Fronts and backs of texts

A front or a back that is there is taken off as a whole, and one that is not there leaves
the text as it is. In either case what is left is a part of the text.
-/

namespace LicenseSurvey.Text

@[simp] theorem withoutFront_append (front text : Text) :
    withoutFront front (front ++ text) = text := by
  rw [withoutFront, dropFront?_eq_some_iff.mpr rfl, Option.getD_some]

@[simp] theorem withoutBack_append (text back : Text) :
    withoutBack back (text ++ back) = text := by
  rw [withoutBack, dropFront?_eq_some_iff.mpr List.reverse_append, Option.map_some,
    Option.getD_some, List.reverse_reverse]

theorem withoutFront_self (text : Text) : withoutFront text text = [] := by
  have appended := withoutFront_append text []
  rwa [List.append_nil] at appended

theorem withoutBack_nil (text : Text) : withoutBack [] text = text := by
  have appended := withoutBack_append text []
  rwa [List.append_nil] at appended

theorem withoutFront_of_not_prefix {front text : Text} (other : ¬front <+: text) :
    withoutFront front text = text := by
  cases read : dropFront? front text with
  | none => rw [withoutFront, read, Option.getD_none]
  | some rest => exact absurd ⟨rest, (dropFront?_eq_some_iff.mp read).symm⟩ other

theorem withoutBack_of_not_suffix {back text : Text} (other : ¬back <:+ text) :
    withoutBack back text = text := by
  cases read : dropFront? back.reverse text.reverse with
  | none => rw [withoutBack, read, Option.map_none, Option.getD_none]
  | some rest =>
      exact absurd (List.reverse_prefix.mp ⟨rest, (dropFront?_eq_some_iff.mp read).symm⟩) other

theorem isSuffix_withoutFront (front text : Text) : withoutFront front text <:+ text := by
  by_cases starts : front <+: text
  · obtain ⟨rest, rfl⟩ := starts
    rw [withoutFront_append]
    exact List.suffix_append front rest
  · exact ⟨[], withoutFront_of_not_prefix starts⟩

theorem isPrefix_withoutBack (back text : Text) : withoutBack back text <+: text := by
  by_cases ends : back <:+ text
  · obtain ⟨rest, rfl⟩ := ends
    rw [withoutBack_append]
    exact List.prefix_append rest back
  · exact ⟨[], by rw [withoutBack_of_not_suffix ends, List.append_nil]⟩

end LicenseSurvey.Text
