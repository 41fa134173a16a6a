import LicenseSurvey.Proofs.Comment.Effect
import LicenseSurvey.Proofs.Text.Line

/-! # Files one behind the other

What is open at the end of a line is all that the next line knows of the lines in front of
it. So some lines have the same comments wherever they stand, line numbers apart, and a file
may be cut behind any line at whose end nothing is open: its comments are those of the two
parts.
-/

namespace LicenseSurvey

/-! ## Lines further down -/

def CommentLine.moveDown (count : Nat) (part : CommentLine) : CommentLine :=
  { part with number := part.number + count }

def Comment.moveDown (count : Nat) (comment : Comment) : Comment :=
  { comment with content := comment.content.map (CommentLine.moveDown count) }

namespace Context

def moveDown (count : Nat) : Context → Context
  | .block earlier start ahead => .block (earlier.map (CommentLine.moveDown count)) start ahead
  | context => context

@[simp] theorem moveDown_code (count : Nat) : code.moveDown count = code := rfl

variable {markers : Markers} {number count : Nat} {context : Context}

theorem takesLine_moveDown (mark : Mark) :
    (context.moveDown count).takesLine mark = context.takesLine mark := by
  cases context <;> cases mark <;> rfl

theorem behind_moveDown (token : MarkToken) :
    (context.moveDown count).behind token = (context.behind token).moveDown count := by
  cases context with
  | code => cases mark : token.mark <;> simp [behind, moveDown, mark]
  | block earlier start ahead => cases mark : token.mark <;> simp [behind, moveDown, mark]
  | quotation openQuote =>
      cases mark : token.mark with
      | quotation quote =>
          by_cases same : openQuote = quote <;> simp [behind, moveDown, mark, same]
      | _ => simp [behind, moveDown, mark]

theorem completed?_moveDown (token : MarkToken) :
    completed? markers (number + count) (context.moveDown count) token =
      (completed? markers number context token).map (Comment.moveDown count) := by
  cases context with
  | code =>
      cases mark : token.mark <;> simp [completed?, moveDown, mark]
      rfl
  | block earlier start ahead =>
      cases mark : token.mark <;> simp [completed?, moveDown, mark]
      simp [Comment.moveDown, Comment.ofParts, frontOfLine, CommentLine.moveDown]
  | quotation openQuote => cases mark : token.mark <;> simp [completed?, moveDown, mark]

theorem readTokens_moveDown (tokens : List MarkToken) :
    readTokens markers (number + count) (context.moveDown count) tokens =
      ((readTokens markers number context tokens).1.map (Comment.moveDown count),
        (readTokens markers number context tokens).2.moveDown count) := by
  induction tokens generalizing context with
  | nil => simp
  | cons token tokens induction =>
      rw [readTokens_cons, readTokens_cons, completed?_moveDown, takesLine_moveDown,
        behind_moveDown]
      cases completed? markers number context token <;>
        cases context.takesLine token.mark <;> simp [induction]

theorem enterLine_moveDown (line : Text) :
    (context.moveDown count).enterLine line = (context.enterLine line).moveDown count := by
  cases context <;> rfl

theorem leaveLine_moveDown :
    (context.moveDown count).leaveLine (number + count) =
      (context.leaveLine number).moveDown count := by
  cases context <;> rfl

theorem readLine_moveDown (line : Text) :
    readLine markers (number + count) (context.moveDown count) line =
      ((readLine markers number context line).1.map (Comment.moveDown count),
        (readLine markers number context line).2.moveDown count) := by
  simp only [readLine, enterLine_moveDown, readTokens_moveDown, leaveLine_moveDown]

theorem readLines_moveDown (lines : List Text) :
    readLines markers (number + count) (context.moveDown count) lines =
      ((readLines markers number context lines).1.map (Comment.moveDown count),
        (readLines markers number context lines).2.moveDown count) := by
  induction lines generalizing number context with
  | nil => rfl
  | cons line lines induction =>
      simp only [readLines, readLine_moveDown, Nat.add_right_comm number count 1, induction,
        List.map_append]

/-! ## Some lines and then others -/

theorem readLines_append (markers : Markers) (number : Nat) (context : Context)
    (front back : List Text) :
    readLines markers number context (front ++ back) =
      ((readLines markers number context front).1 ++
          (readLines markers (number + front.length)
            (readLines markers number context front).2 back).1,
        (readLines markers (number + front.length)
          (readLines markers number context front).2 back).2) := by
  induction front generalizing number context with
  | nil => rfl
  | cons line front induction =>
      simp only [List.cons_append, readLines, induction, List.length_cons, List.append_assoc,
        Nat.add_assoc, Nat.add_comm 1]

end Context

namespace Comment

theorem sourceLines_append {front : Bytes} (ended : Text.AllEnded 10 front) (back : Bytes) :
    Text.sourceLines none (front ++ back) =
      Text.sourceLines none front ++ Text.sourceLines none back := by
  simp [Text.sourceLines, Text.readsLines_byteLines.append ended]

def openBehind (markers : Markers) (content : Bytes) : Context :=
  (Context.readLines markers 1 .code (Text.sourceLines none content)).2

/-- The comments of a file that goes on behind a line end at which nothing is open: those of
its front, and those of the rest as far down as the front has lines. -/
theorem extract_append_of_closed {markers : Markers} {front : Bytes}
    (whole : front = [] ∨ front.getLast? = some 10)
    (closed : openBehind markers front = .code) (back : Bytes) :
    let count := (Text.sourceLines none front).length
    count = front.count 10 ∧
      extract markers none (front ++ back) =
        extract markers none front ++ (extract markers none back).map (moveDown count) := by
  have ended := Text.allEnded_of_getLast? whole
  refine ⟨?_, ?_⟩
  · simp [Text.sourceLines, Text.readsLines_byteLines.length_eq_count ended]
  · rw [openBehind] at closed
    have further := @Context.readLines_moveDown markers 1
      (Text.sourceLines none front).length .code (Text.sourceLines none back)
    rw [Context.moveDown_code] at further
    rw [extract, sourceLines_append ended, Context.readLines_append, closed, further]
    rfl

private def shellMarkers : Markers where
  line := some "#".toList
  block := some ⟨"<<".toList, ">>".toList⟩
  singleQuote := true
  doubleQuote := false
  backtick := false

private def closedFront : Bytes := Text.encode "'#\n' <<é\r\n>>\n".toList

private def openBack : Bytes := Text.encode "a #b <<\n\n<<c".toList

theorem extract_append_of_closed_quotation :
    (closedFront = [] ∨ closedFront.getLast? = some 10) ∧
      openBehind shellMarkers closedFront = .code ∧
      extract shellMarkers none (closedFront ++ openBack) =
        extract shellMarkers none closedFront ++
          [⟨.line, "#".toList, [], [⟨4, 2, 7, "#b <<".toList⟩]⟩] := by
  have whole : closedFront = [] ∨ closedFront.getLast? = some 10 := by decide +kernel
  have closed : openBehind shellMarkers closedFront = .code := by decide +kernel
  obtain ⟨-, appended⟩ := extract_append_of_closed whole closed openBack
  refine ⟨whole, closed, appended.trans (congrArg _ ?_)⟩
  decide +kernel

end Comment

end LicenseSurvey
