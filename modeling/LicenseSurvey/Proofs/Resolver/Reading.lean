import LicenseSurvey.Proofs.Text.Decoding
import LicenseSurvey.Resolver.Basic

/-! # Lines of source files and of other texts

A source file is cut into lines before it is decoded, any other text after that. Whatever
ill-formed bytes stand beside the line endings, both ways lead to the same lines, each with the
same number. Only a carriage return at the very end of the file tells them apart: it belongs to
the last line of a text, but not to that of a source file.
-/

namespace LicenseSurvey

namespace Text

/-- Two lists of lines that agree but for a carriage return at the end of the last line, which
the first list lacks. -/
def LacksReturn (lines others : List Text) : Prop :=
  ∃ earlier last, lines = earlier ++ [last] ∧ others = earlier ++ [last ++ ['\r']]

namespace LacksReturn

variable {lines others : List Text}

theorem cons (lacks : LacksReturn lines others) (line : Text) :
    LacksReturn (line :: lines) (line :: others) := by
  rcases lacks with ⟨earlier, last, rfl, rfl⟩
  exact ⟨line :: earlier, last, rfl, rfl⟩

theorem length_eq (lacks : LacksReturn lines others) : lines.length = others.length := by
  rcases lacks with ⟨earlier, last, rfl, rfl⟩
  rw [List.length_append, List.length_append, List.length_singleton, List.length_singleton]

theorem take (lacks : LacksReturn lines others) (count : Nat) :
    if lines.length ≤ count then LacksReturn (lines.take count) (others.take count)
    else lines.take count = others.take count := by
  split
  · rename_i complete
    rwa [List.take_of_length_le complete, List.take_of_length_le (lacks.length_eq ▸ complete)]
  · rename_i cut
    rcases lacks with ⟨earlier, last, rfl, rfl⟩
    have inEarlier : count ≤ earlier.length := by
      rw [List.length_append, List.length_singleton] at cut
      omega
    rw [List.take_append_of_le_length inEarlier, List.take_append_of_le_length inEarlier]

end LacksReturn

/-- Lines may be decoded one by one or all at once. -/
theorem map_decode_byteLines (content : Bytes) :
    if content.getLast? = some 13 then
      LacksReturn ((byteLines content).map decode) (lines (decode content))
    else (byteLines content).map decode = lines (decode content) := by
  induction content using induction_pieces (10 : UInt8) with
  | last content noFeed =>
      rcases eq_or_ne content [] with rfl | notEmpty
      · rfl
      have decoded : decode content ≠ [] := by rwa [ne_eq, decode_eq_nil_iff]
      rw [byteLines_of_notMem noFeed notEmpty, lines_of_notMem (noFeed_decode noFeed) decoded,
        List.map_singleton]
      split
      · rename_i final
        rcases List.getLast?_eq_some_iff.mp final with ⟨front, rfl⟩
        rw [withoutLast_concat, decode_concat_return]
        exact ⟨[], decode front, rfl, rfl⟩
      · rename_i other
        rw [withoutLast_of_getLast?_ne other]
  | piece line rest noFeed induction =>
      have cut : (byteLines (line ++ 10 :: rest)).map decode =
          withoutLast '\r' (decode line) :: (byteLines rest).map decode := by
        rw [readsLines_byteLines.line line rest noFeed, List.map_cons, decode_withoutLast]
      have whole : lines (decode (line ++ 10 :: rest)) =
          withoutLast '\r' (decode line) :: lines (decode rest) :=
        readsLines_lines.decode.line line rest noFeed
      have final : (line ++ 10 :: rest).getLast? = some 13 ↔ rest.getLast? = some 13 := by
        cases rest <;> simp
      rw [cut, whole]
      simp only [final]
      split at induction
      · rename_i returns
        rw [if_pos returns]
        exact induction.cons _
      · rename_i other
        rw [if_neg other, induction]

/-- Reading gets to the end of the file, and there stands a carriage return. -/
def ReachesReturn (limit : Option Nat) (content : Bytes) : Prop :=
  content.getLast? = some 13 ∧ ∀ bound ∈ limit, (byteLines content).length ≤ bound

instance (limit : Option Nat) (content : Bytes) : Decidable (ReachesReturn limit content) :=
  inferInstanceAs (Decidable (_ ∧ _))

end Text

namespace Resolver

/-- The first lines of a source file and those of its text are equally many, and they are the
same lines. There is one exception: a carriage return at the end of a last line without a line
feed belongs to the line of the text only. Of a sidecar all lines are read, without a limit. -/
theorem lines_read_alike (limit : Option Nat) (content : Bytes) :
    (Text.sourceLines limit content).length =
        (firstLines limit (Text.decode content)).length ∧
      if Text.ReachesReturn limit content then
        ∃ earlier last, Text.sourceLines limit content = earlier ++ [last] ∧
          firstLines limit (Text.decode content) = earlier ++ [last ++ ['\r']]
      else Text.sourceLines limit content = firstLines limit (Text.decode content) := by
  have alike := Text.map_decode_byteLines content
  have read (bound : Nat) : Text.sourceLines (some bound) content =
      ((Text.byteLines content).map Text.decode).take bound := List.map_take
  by_cases final : content.getLast? = some 13
  · rw [if_pos final] at alike
    cases limit with
    | none =>
        rw [if_pos ⟨final, by simp⟩]
        exact ⟨alike.length_eq, alike⟩
    | some bound =>
        have first := alike.take bound
        rw [List.length_map, ← read] at first
        by_cases complete : (Text.byteLines content).length ≤ bound
        · rw [if_pos complete] at first
          rw [if_pos ⟨final, by simpa using complete⟩]
          exact ⟨first.length_eq, first⟩
        · rw [if_neg complete] at first
          rw [if_neg fun reaches => complete (reaches.2 bound rfl)]
          exact ⟨congrArg List.length first, first⟩
  · rw [if_neg final] at alike
    have same : Text.sourceLines limit content = firstLines limit (Text.decode content) := by
      cases limit with
      | none => exact alike
      | some bound =>
          rw [read, alike]
          rfl
    rw [if_neg fun reaches => final reaches.1]
    exact ⟨congrArg List.length same, same⟩

example : Text.sourceLines none [0xE2, 10, 0xC3, 13] =
    [[Text.replacement], [Text.replacement]] := by decide

end Resolver

end LicenseSurvey
