import LicenseSurvey.Proofs.Comment.WellFormed

/-! # Where a block comment ends

The first closing marker that is found behind the opening marker ends the comment, so no
other one is found inside. Along the tokens of a line this is known of the open block
comment: the lines it already has hold no closing marker, and neither does the present line
between its beginning and the tokens to come.
-/

namespace LicenseSurvey

structure CommentLine.HasClosing (part : CommentLine) (markers : Markers) (lines : List Text)
    (token : MarkToken) : Prop where
  mark : token.mark = .blockClosing
  starts : part.start ≤ token.position
  ends : token.position < part.stop
  found : ∃ line, part.source? lines = some line ∧ token ∈ markers.tokens line

theorem CommentLine.HasClosing.mem_tokens {part : CommentLine} {markers : Markers}
    {lines : List Text} {token : MarkToken} (closes : part.HasClosing markers lines token)
    {line : Text} (source : part.source? lines = some line) : token ∈ markers.tokens line := by
  obtain ⟨other, found, member⟩ := closes.found
  rw [source, Option.some.injEq] at found
  exact found ▸ member

/-- The only closing marker that is found inside a block comment is the one at its end. -/
def Comment.EndsAtClosing (comment : Comment) (markers : Markers) (lines : List Text) : Prop :=
  comment.kind = .block → ∀ part ∈ comment.content, ∀ token,
    part.HasClosing markers lines token →
      comment.content.getLast? = some part ∧ token.stop = part.stop

namespace Markers

variable {markers : Markers} {position : Nat} {text : Text} {token : MarkToken}

theorem bounds_of_mem_tokensFrom (member : token ∈ tokensFrom markers.table position text) :
    position ≤ token.position ∧ token.position < token.stop := by
  induction text using induction_markAt? markers generalizing position with
  | nil => simp at member
  | skip character rest stands induction =>
      rw [tokensFrom_skip stands] at member
      obtain ⟨later, proper⟩ := induction member
      exact ⟨Nat.le_trans (Nat.le_add_right ..) later, proper⟩
  | meet mark marker after stands induction =>
      rw [tokensFrom_meet stands] at member
      rcases List.mem_cons.mp member with rfl | member
      · have width := Text.size_pos (marker_ne_nil (mem_of_markAt? stands))
        exact ⟨Nat.le_refl _, Nat.lt_add_of_pos_right width⟩
      · obtain ⟨later, proper⟩ := induction member
        exact ⟨Nat.le_trans (Nat.le_add_right ..) later, proper⟩

theorem pairwise_tokensFrom (markers : Markers) (position : Nat) (text : Text) :
    (tokensFrom markers.table position text).Pairwise fun earlier later =>
      earlier.stop ≤ later.position := by
  induction text using induction_markAt? markers generalizing position with
  | nil => simp
  | skip character rest stands induction =>
      rw [tokensFrom_skip stands]
      exact induction _
  | meet mark marker after stands induction =>
      rw [tokensFrom_meet stands]
      refine List.pairwise_cons.mpr ⟨?_, induction _⟩
      exact fun later member => (bounds_of_mem_tokensFrom member).1

end Markers

namespace Context

variable {markers : Markers} {lines : List Text} {number : Nat} {context : Context} {line : Text}
  {passed ahead : List MarkToken} {token : MarkToken} {comment : Comment}

/-- No closing marker has been found inside the open block comment, neither in its parts nor
among the tokens of the present line that are behind. -/
def StaysOpen (markers : Markers) (lines : List Text) (passed : List MarkToken) :
    Context → Prop
  | .block earlier start _ =>
      (∀ part ∈ earlier, ∀ token, ¬part.HasClosing markers lines token) ∧
        ∀ token ∈ passed, token.mark = .blockClosing → token.position < start
  | _ => True

/-! ## One token -/

theorem StaysOpen.behind (stays : context.StaysOpen markers lines passed)
    (later : ∀ other ∈ passed, other.position < token.position) :
    (context.behind token).StaysOpen markers lines (passed ++ [token]) := by
  rcases token with ⟨mark, position, length, text⟩
  match context, mark with
  | .code, .blockOpening =>
      refine ⟨by simp, List.forall_mem_append.mpr ⟨fun other member _ => later other member, ?_⟩⟩
      exact List.forall_mem_singleton.mpr fun closes => Mark.noConfusion closes
  | .block .., .lineComment | .block .., .blockOpening | .block .., .quotation _ =>
      refine ⟨stays.1, List.forall_mem_append.mpr ⟨stays.2, ?_⟩⟩
      exact List.forall_mem_singleton.mpr fun closes => Mark.noConfusion closes
  | .quotation openQuote, .quotation quote =>
      simp only [Context.behind]
      split <;> trivial
  | .code, .lineComment | .code, .blockClosing | .code, .quotation _
  | .quotation _, .lineComment | .quotation _, .blockOpening
  | .quotation _, .blockClosing | .block .., .blockClosing => trivial

theorem StaysOpen.endsAtClosing (stays : context.StaysOpen markers lines passed)
    (source : 1 ≤ number ∧ lines[number - 1]? = some line)
    (whole : markers.tokens line = passed ++ token :: ahead)
    (completed : completed? markers number context token = some comment) :
    comment.EndsAtClosing markers lines := by
  have apart := Markers.pairwise_tokensFrom markers 0 line
  rw [← Markers.tokens, whole, List.pairwise_append, List.pairwise_cons] at apart
  intro kind part member other closes
  rcases completed?_eq_some completed with ⟨-, -, rfl⟩ | ⟨earlier, start, text, rfl, -, rfl⟩
  · exact CommentKind.noConfusion kind
  · rw [Comment.ofParts, List.mem_reverse] at member
    rcases List.mem_cons.mp member with rfl | member
    · refine ⟨by simp [Comment.ofParts], ?_⟩
      have among := closes.mem_tokens (CommentLine.source?_eq_some_iff.mpr source)
      rw [whole] at among
      rcases List.mem_append.mp among with behind | among
      · exact absurd closes.starts (Nat.not_le_of_lt (stays.2 other behind closes.mark))
      · rcases List.mem_cons.mp among with rfl | later
        · rfl
        · exact absurd closes.ends (Nat.not_lt_of_le (apart.2.1.1 other later))
    · exact absurd closes (stays.1 part member other)

/-! ## One line after the other -/

theorem StaysOpen.readTokens (stays : context.StaysOpen markers lines passed)
    (source : 1 ≤ number ∧ lines[number - 1]? = some line)
    (whole : markers.tokens line = passed ++ ahead) :
    let result := Context.readTokens markers number context ahead
    (∀ comment ∈ result.1, comment.EndsAtClosing markers lines) ∧
      result.2.StaysOpen markers lines (markers.tokens line) := by
  induction ahead generalizing passed context with
  | nil =>
      rw [List.append_nil] at whole
      simpa [whole] using stays
  | cons token ahead induction =>
      have completed : ∀ comment ∈ completed? markers number context token,
          comment.EndsAtClosing markers lines := fun _ => stays.endsAtClosing source whole
      rw [readTokens_cons]
      cases takes : context.takesLine token.mark with
      | true =>
          obtain ⟨rfl, -⟩ := takesLine_eq_true takes
          simp only [if_true, List.append_nil, Option.mem_toList]
          exact ⟨completed, trivial⟩
      | false =>
          have apart := Markers.pairwise_tokensFrom markers 0 line
          rw [← Markers.tokens, whole, List.pairwise_append] at apart
          have later : ∀ other ∈ passed, other.position < token.position := by
            intro other member
            have among : other ∈ markers.tokens line :=
              whole ▸ List.mem_append_left _ member
            exact Nat.lt_of_lt_of_le (Markers.bounds_of_mem_tokensFrom among).2
              (apart.2.2 other member token (List.mem_cons_self ..))
          obtain ⟨comments, behind⟩ := induction (stays.behind later) (by simpa using whole)
          simp only [Bool.false_eq_true, if_false]
          refine ⟨List.forall_mem_append.mpr ⟨?_, comments⟩, behind⟩
          exact fun comment member => completed comment (Option.mem_toList.mp member)

theorem StaysOpen.enterLine (stays : context.StaysOpen markers lines []) (line : Text) :
    (context.enterLine line).StaysOpen markers lines [] := by
  cases context with
  | code | quotation => trivial
  | block earlier start text => exact ⟨stays.1, by simp⟩

theorem StaysOpen.leaveLine (stays : context.StaysOpen markers lines (markers.tokens line))
    (source : 1 ≤ number ∧ lines[number - 1]? = some line) :
    (context.leaveLine number).StaysOpen markers lines [] := by
  cases context with
  | code | quotation => trivial
  | block earlier start text =>
      refine ⟨List.forall_mem_cons.mpr ⟨?_, stays.1⟩, by simp⟩
      intro token closes
      have among := closes.mem_tokens (CommentLine.source?_eq_some_iff.mpr source)
      exact absurd closes.starts (Nat.not_le_of_lt (stays.2 token among closes.mark))

theorem StaysOpen.readLine (stays : context.StaysOpen markers lines [])
    (source : 1 ≤ number ∧ lines[number - 1]? = some line) :
    let result := Context.readLine markers number context line
    (∀ comment ∈ result.1, comment.EndsAtClosing markers lines) ∧
      result.2.StaysOpen markers lines [] := by
  obtain ⟨comments, behind⟩ := (stays.enterLine line).readTokens source rfl
  exact ⟨comments, behind.leaveLine source⟩

end Context

/-- No closing marker that is found inside a block comment is left in it but its own. -/
theorem Comment.endsAtClosing_of_mem_extract {markers : Markers} {limit : Option Nat}
    {content : Bytes} {comment : Comment} (member : comment ∈ extract markers limit content) :
    comment.EndsAtClosing markers (Text.sourceLines limit content) := by
  have start : Context.code.StaysOpen markers (Text.sourceLines limit content) [] := trivial
  have each := @Context.forall_mem_readLines markers (Text.sourceLines limit content)
    (fun _ context => context.StaysOpen markers (Text.sourceLines limit content) []) _
    (fun _ _ _ source stays => stays.readLine source) _ start
  exact each comment member

end LicenseSurvey
