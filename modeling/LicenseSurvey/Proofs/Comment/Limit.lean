import LicenseSurvey.Proofs.Comment.Concatenation
import LicenseSurvey.Proofs.Comment.WellFormed

/-! # The comments in the first lines

A comment comes out with the line in which it ends, and never later. So the comments in the
first lines of a file are those of the whole file that end there, they come first among these,
and a block comment that is open behind the last line that is read leaves nothing of itself.
-/

namespace LicenseSurvey

namespace Context

variable {markers : Markers} {number : Nat} {context : Context} {comment : Comment}

/-! ## The line in which a comment ends -/

theorem endLine_of_completed? {token : MarkToken}
    (completed : completed? markers number context token = some comment) :
    comment.endLine = number := by
  rcases completed?_eq_some completed with ⟨-, -, rfl⟩ | ⟨earlier, start, ahead, -, -, rfl⟩
  · rfl
  · simp [Comment.endLine, Comment.ofParts, frontOfLine]

theorem endLine_of_mem_readTokens {tokens : List MarkToken}
    (member : comment ∈ (readTokens markers number context tokens).1) :
    comment.endLine = number := by
  induction tokens generalizing context with
  | nil => simp at member
  | cons token tokens induction =>
      rw [readTokens_cons] at member
      rcases List.mem_append.mp member with here | later
      · exact endLine_of_completed? (Option.mem_toList.mp here)
      · split at later
        · simp at later
        · exact induction later

theorem endLine_of_mem_readLine {line : Text}
    (member : comment ∈ (readLine markers number context line).1) :
    comment.endLine = number :=
  endLine_of_mem_readTokens member

theorem endLine_of_mem_readLines {lines : List Text}
    (member : comment ∈ (readLines markers number context lines).1) :
    number ≤ comment.endLine ∧ comment.endLine < number + lines.length := by
  induction lines generalizing number context with
  | nil => simp [readLines] at member
  | cons line lines induction =>
      rw [List.length_cons]
      rcases List.mem_append.mp member with here | later
      · have ends := endLine_of_mem_readLine here
        omega
      · have bounds := induction later
        omega

/-! ## Some of the lines -/

theorem readLines_prefix {front lines : List Text} (first : front <+: lines) :
    (readLines markers number context front).1 <+: (readLines markers number context lines).1 := by
  obtain ⟨back, rfl⟩ := first
  rw [readLines_append]
  exact List.prefix_append _ _

theorem readLines_take (count : Nat) (lines : List Text) :
    (readLines markers number context (lines.take count)).1 =
      (readLines markers number context lines).1.filter
        fun comment => comment.endLine < number + count := by
  have first : ∀ comment ∈ (readLines markers number context (lines.take count)).1,
      decide (comment.endLine < number + count) = true := by
    intro comment member
    have bounds := endLine_of_mem_readLines member
    have atMost := List.length_take_le count lines
    exact decide_eq_true (by omega)
  have others : ∀ context, ∀ comment ∈ (readLines markers
      (number + (lines.take count).length) context (lines.drop count)).1,
      ¬decide (comment.endLine < number + count) = true := by
    intro context comment member
    have bounds := endLine_of_mem_readLines member
    rw [List.length_take, List.length_drop] at bounds
    rw [decide_eq_true_eq]
    omega
  conv => rhs; rw [← List.take_append_drop count lines]
  rw [readLines_append, List.filter_append, List.filter_eq_self.mpr first,
    List.filter_eq_nil_iff.mpr (others _), List.append_nil]

end Context

namespace Comment

theorem sourceLines_some (bound : Nat) (content : Bytes) :
    Text.sourceLines (some bound) content = (Text.sourceLines none content).take bound := by
  simp [Text.sourceLines, List.map_take]

/-- With a limit on the lines, the comments are those of the whole file that end within the
limit. They are the first ones of the file, and the first ones also of those under a greater
limit, and no part of them lies in a line behind the limit. -/
theorem extract_limited (markers : Markers) (content : Bytes) (bound : Nat) :
    extract markers (some bound) content =
        (extract markers none content).filter (fun comment => comment.endLine ≤ bound) ∧
      extract markers (some bound) content <+: extract markers none content ∧
      (∀ smaller ≤ bound,
        extract markers (some smaller) content <+: extract markers (some bound) content) ∧
      ∀ comment ∈ extract markers (some bound) content, ∀ part ∈ comment.content,
        part.number ≤ bound := by
  refine ⟨?_, ?_, ?_, ?_⟩
  · rw [extract, sourceLines_some, Context.readLines_take, extract]
    simp only [Nat.one_add, Nat.lt_succ_iff]
  · rw [extract, sourceLines_some]
    exact Context.readLines_prefix (List.take_prefix bound _)
  · intro smaller atMost
    rw [extract, extract, sourceLines_some, sourceLines_some]
    exact Context.readLines_prefix (List.take_prefix_take_left atMost)
  · intro comment member part inside
    have numbered := ((wellFormed_sourceLines member).cut part inside).number_le
    exact Nat.le_trans numbered.2 (length_sourceLines_le bound content)

end Comment

end LicenseSurvey
