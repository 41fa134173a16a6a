import LicenseSurvey.Proofs.Text.Line
import LicenseSurvey.Resolver.Basic

/-! # Files whose lines are known

What is known of the lines of a file in advance is enough to tell that it is not binary,
and which lines are searched for comments.
-/

namespace LicenseSurvey

def Text.IsUnmarked (text : Text) : Prop :=
  ∀ mark ∈ binaryMarks, ¬Text.encode text <+: mark ∧ ¬mark <+: Text.encode text

instance (text : Text) : Decidable text.IsUnmarked :=
  inferInstanceAs (Decidable (∀ mark ∈ binaryMarks, _))

/-- A file whose lines are known is text when none of them has a null and the first one
begins like no other format. -/
theorem isBinary_eq_false {content : Bytes} {lines : List Text} {start rest : Text}
    (written : Text.byteLines content = ((start ++ rest) :: lines).map Text.encode)
    (noNull : ∀ line ∈ (start ++ rest) :: lines, '\x00' ∉ line)
    (unmarked : start.IsUnmarked) : isBinary content = false := by
  have null : (content.take 1024).contains 0 = false := by
    rw [Bool.eq_false_iff]
    intro contains
    have member := List.mem_of_mem_take (List.contains_iff_mem.mp contains)
    obtain ⟨line, among, inside⟩ :=
      Text.exists_mem_byteLines member (by decide) (by decide)
    rw [written] at among
    obtain ⟨text, known, rfl⟩ := List.mem_map.mp among
    exact noNull text known (Text.mem_of_mem_encode inside (by decide))
  have front : Text.encode start <+: content := by
    rw [List.map_cons, Text.encode_append] at written
    exact (List.prefix_append _ _).trans (Text.prefix_of_byteLines written)
  have marked : (binaryMarks.any fun mark => mark.isPrefixOf content) = false := by
    rw [List.any_eq_false]
    intro mark member begins
    rcases List.prefix_or_prefix_of_prefix front (List.isPrefixOf_iff_prefix.mp begins) with
      shorter | longer
    · exact (unmarked mark member).1 shorter
    · exact (unmarked mark member).2 longer
  rw [isBinary, null, marked, Bool.or_self, Bool.and_false]

theorem Text.sourceLines_of_written {content : Bytes} {lines : List Text}
    {limit : Option Nat} (written : byteLines content = lines.map encode)
    (complete : ∀ bound, limit = some bound → (byteLines content).length ≤ bound) :
    sourceLines limit content = lines := by
  have all : (limit.map (byteLines content).take).getD (byteLines content) =
      byteLines content := by
    cases limit with
    | none => rfl
    | some bound => exact List.take_of_length_le (complete bound rfl)
  have decoded : decode ∘ encode = id := funext decode_encode
  rw [sourceLines, all, written, List.map_map, decoded, List.map_id]

end LicenseSurvey
