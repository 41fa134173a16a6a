import LicenseSurvey.Proofs.Comment.Limit
import Mathlib.Data.Prod.Lex

/-! # The order of comments

The comments of a file come out in the order in which they stand there, and each one begins
behind the end of the one before it. Between two tokens of a line this is known of the
comments that are complete, and of the open block comment that it began behind all of them.
-/

namespace LicenseSurvey

abbrev Place := Nat ×ₗ Nat

namespace CommentLine

def beginning (part : CommentLine) : Place := toLex (part.number, part.start)

def ending (part : CommentLine) : Place := toLex (part.number, part.stop)

end CommentLine

namespace Comment

def beginning (comment : Comment) : Place :=
  (comment.content.head?.map CommentLine.beginning).getD (toLex (0, 0))

def ending (comment : Comment) : Place :=
  (comment.content.getLast?.map CommentLine.ending).getD (toLex (0, 0))

def Covers (comment : Comment) (number position : Nat) : Prop :=
  ∃ part ∈ comment.content, part.number = number ∧ part.start ≤ position ∧ position < part.stop

def behind (comment : Comment) : Place :=
  match comment.kind with
  | .line => toLex (comment.endLine + 1, 0)
  | .block => comment.ending

inductive Between : Place → List Comment → Place → Prop
  | none {first last : Place} (atMost : first ≤ last) : Between first [] last
  | next {first last : Place} {comment : Comment} {comments : List Comment}
      (begins : first ≤ comment.beginning) (proper : comment.beginning < comment.behind)
      (later : Between comment.behind comments last) : Between first (comment :: comments) last

namespace Between

variable {first middle last : Place} {comments others : List Comment} {comment : Comment}

theorem of_le {earlier : Place} (atMost : earlier ≤ first)
    (between : Between first comments last) : Between earlier comments last := by
  cases between with
  | none later => exact .none (atMost.trans later)
  | next begins proper later => exact .next (atMost.trans begins) proper later

theorem append (front : Between first comments middle) (back : Between middle others last) :
    Between first (comments ++ others) last := by
  induction front with
  | none atMost => exact back.of_le atMost
  | next begins proper _ induction => exact .next begins proper (induction back)

theorem le_beginning (between : Between first comments last) (member : comment ∈ comments) :
    first ≤ comment.beginning := by
  induction between with
  | none atMost => cases member
  | next begins proper _ induction =>
      rcases List.mem_cons.mp member with equal | member
      · exact equal ▸ begins
      · exact (begins.trans proper.le).trans (induction member)

theorem pairwise (between : Between first comments last) :
    comments.Pairwise fun before after =>
      before.beginning < before.behind ∧ before.behind ≤ after.beginning := by
  induction between with
  | none atMost => exact .nil
  | next begins proper later induction =>
      refine List.pairwise_cons.mpr ⟨?_, induction⟩
      intro after member
      exact ⟨proper, later.le_beginning member⟩

end Between

end Comment

namespace Context

variable {markers : Markers} {number : Nat} {context : Context}

/-- From where on comments are still to come when a place of line `number` is reached: the
beginning of the open block comment, or else that place. -/
def since (number : Nat) (here : Place) : Context → Place
  | .block earlier start _ =>
      (earlier.getLast?.map CommentLine.beginning).getD (toLex (number, start))
  | _ => here

theorem since_mono {here there : Place} (atMost : here ≤ there) :
    context.since number here ≤ context.since number there := by
  cases context with
  | block => exact le_rfl
  | code | quotation => exact atMost

theorem since_le_of_le {here there : Place} (reached : context.since number here ≤ here)
    (atMost : here ≤ there) : context.since number there ≤ there := by
  cases context with
  | block => exact reached.trans atMost
  | code | quotation => exact le_rfl

theorem beginning_ofParts (markers : Markers) (number start stop : Nat) (ahead : Text)
    (earlier : List CommentLine) (here : Place) :
    (Comment.ofParts markers (frontOfLine number start stop ahead :: earlier)).beginning =
      (Context.block earlier start ahead).since number here := by
  rw [Comment.beginning, Comment.ofParts, List.head?_reverse, since]
  cases earlier with
  | nil => rfl
  | cons newest earlier =>
      rw [List.getLast?_cons_cons, List.getLast?_eq_some_getLast (List.cons_ne_nil _ _)]
      rfl

theorem behind_ofParts (markers : Markers) (number start stop : Nat) (ahead : Text)
    (earlier : List CommentLine) :
    (Comment.ofParts markers (frontOfLine number start stop ahead :: earlier)).behind =
      toLex (number, stop) := by
  simp [Comment.behind, Comment.ending, Comment.ofParts, frontOfLine, CommentLine.ending]

/-! ## One token -/

/-- What a token completes stands between what was complete before it and its end. -/
theorem between_completed? (markers : Markers) (token : MarkToken)
    (proper : token.position < token.stop)
    (reached : context.since number (toLex (number, token.position)) ≤
      toLex (number, token.position))
    (goesOn : context.takesLine token.mark = false) :
    Comment.Between (context.since number (toLex (number, token.position)))
        (completed? markers number context token).toList
        ((context.behind token).since number (toLex (number, token.stop))) ∧
      (context.behind token).since number (toLex (number, token.stop)) ≤
        toLex (number, token.stop) := by
  have forward : (toLex (number, token.position) : Place) < toLex (number, token.stop) :=
    Prod.Lex.toLex_lt_toLex.mpr (.inr ⟨rfl, proper⟩)
  cases context with
  | code =>
      cases mark : token.mark with
      | lineComment => simp [takesLine, mark] at goesOn
      | blockOpening =>
          simp only [completed?, behind, mark, Option.toList_none]
          exact ⟨.none le_rfl, forward.le⟩
      | blockClosing | quotation =>
          simp only [completed?, behind, mark, Option.toList_none]
          exact ⟨.none forward.le, le_rfl⟩
  | block earlier start ahead =>
      cases mark : token.mark with
      | blockClosing =>
          simp only [completed?, behind, mark, Option.toList_some]
          have begins := beginning_ofParts markers number start token.stop ahead earlier
            (toLex (number, token.position))
          have ends := behind_ofParts markers number start token.stop ahead earlier
          refine ⟨.next begins.ge ?proper (.none ends.le), le_rfl⟩
          rw [begins, ends]
          exact lt_of_le_of_lt reached forward
      | lineComment | blockOpening | quotation =>
          simp only [completed?, behind, mark, Option.toList_none]
          exact ⟨.none le_rfl, reached.trans forward.le⟩
  | quotation openQuote =>
      cases mark : token.mark with
      | quotation quote =>
          simp only [completed?, behind, mark, Option.toList_none]
          split <;> exact ⟨.none forward.le, le_rfl⟩
      | lineComment | blockOpening | blockClosing =>
          simp only [completed?, behind, mark, Option.toList_none]
          exact ⟨.none forward.le, le_rfl⟩

/-! ## One line -/

theorem between_readTokens {position : Nat} {text : Text}
    (reached : context.since number (toLex (number, position)) ≤ toLex (number, position)) :
    let result :=
      readTokens markers number context (Markers.tokensFrom markers.table position text)
    let next : Place := toLex (number + 1, 0)
    Comment.Between (context.since number (toLex (number, position))) result.1
        (result.2.since number next) ∧
      result.2.since number next ≤ next := by
  intro result next
  have inLine (position : Nat) : (toLex (number, position) : Place) ≤ next :=
    Prod.Lex.toLex_le_toLex.mpr (.inl (Nat.lt_succ_self number))
  have advance {position width : Nat} :
      (toLex (number, position) : Place) ≤ toLex (number, position + width) :=
    Prod.Lex.toLex_le_toLex.mpr (.inr ⟨rfl, Nat.le_add_right position width⟩)
  induction text using Markers.induction_markAt? markers generalizing position context with
  | nil =>
      simp only [result, Markers.tokensFrom_nil, readTokens_nil]
      exact ⟨.none (since_mono (inLine position)), since_le_of_le reached (inLine position)⟩
  | skip character rest stands induction =>
      obtain ⟨between, atMost⟩ := induction (since_le_of_le reached advance)
      simp only [result, Markers.tokensFrom_skip stands]
      exact ⟨between.of_le (since_mono advance), atMost⟩
  | meet mark marker after stands induction =>
      simp only [result, Markers.tokensFrom_meet stands, readTokens_cons]
      cases takes : context.takesLine mark with
      | true =>
          -- The rest of the line belongs to the comment, so reading goes on with the next one.
          obtain ⟨rfl, rfl⟩ := takesLine_eq_true takes
          have proper : (toLex (number, position) : Place) < next :=
            Prod.Lex.toLex_lt_toLex.mpr (.inl (Nat.lt_succ_self number))
          exact ⟨.next le_rfl proper (.none le_rfl), le_rfl⟩
      | false =>
          have width := Text.size_pos (Markers.marker_ne_nil (Markers.mem_of_markAt? stands))
          obtain ⟨here, reached⟩ :=
            between_completed? markers ⟨mark, position, Text.size marker, marker ++ after⟩
              (Nat.lt_add_of_pos_right width) reached takes
          obtain ⟨later, atMost⟩ := induction reached
          exact ⟨here.append later, atMost⟩

def sinceLine (number : Nat) (context : Context) : Place :=
  (context.enterLine []).since number (toLex (number, 0))

theorem since_enterLine (number : Nat) (line : Text) :
    (context.enterLine line).since number (toLex (number, 0)) = context.sinceLine number := by
  cases context <;> rfl

theorem sinceLine_leaveLine :
    (context.leaveLine number).sinceLine (number + 1) =
      context.since number (toLex (number + 1, 0)) := by
  cases context with
  | code | quotation => rfl
  | block earlier start ahead =>
      cases earlier with
      | nil => rfl
      | cons newest earlier =>
          simp only [leaveLine, sinceLine, enterLine, since, List.getLast?_cons_cons]
          rw [List.getLast?_eq_some_getLast (List.cons_ne_nil newest earlier)]
          rfl

theorem between_readLine (line : Text) (reached : context.sinceLine number ≤ toLex (number, 0)) :
    let result := readLine markers number context line
    Comment.Between (context.sinceLine number) result.1 (result.2.sinceLine (number + 1)) ∧
      result.2.sinceLine (number + 1) ≤ toLex (number + 1, 0) := by
  rw [← since_enterLine number line] at reached ⊢
  simp only [readLine, sinceLine_leaveLine]
  exact between_readTokens reached

/-! ## Many lines -/

theorem between_readLines (lines : List Text)
    (reached : context.sinceLine number ≤ toLex (number, 0)) :
    let result := readLines markers number context lines
    Comment.Between (context.sinceLine number) result.1
      (result.2.sinceLine (number + lines.length)) := by
  induction lines generalizing number context with
  | nil => exact .none le_rfl
  | cons line lines induction =>
      obtain ⟨here, reached⟩ := between_readLine line reached
      have later := induction reached
      rw [Nat.add_right_comm] at later
      exact here.append later

end Context

/-! ## The comments of a file -/

namespace Comment

variable {comment : Comment} {markers : Markers} {lines : List Text} {part : CommentLine}

theorem WellFormed.exists_content_eq (wellFormed : comment.WellFormed markers lines)
    (kind : comment.kind = .line) : ∃ part, comment.content = [part] := by
  obtain ⟨marker, -, part, only, -⟩ := wellFormed.ofLine kind
  exact ⟨part, only⟩

theorem WellFormed.content_ne_nil (wellFormed : comment.WellFormed markers lines) :
    comment.content ≠ [] := by
  cases kind : comment.kind with
  | line =>
      obtain ⟨part, only⟩ := wellFormed.exists_content_eq kind
      rw [only]
      exact List.cons_ne_nil _ _
  | block =>
      obtain ⟨block, -, shape⟩ := wellFormed.ofBlock kind
      exact shape.notEmpty

theorem WellFormed.pairwise_number (wellFormed : comment.WellFormed markers lines) :
    comment.content.Pairwise fun earlier later => earlier.number < later.number := by
  cases kind : comment.kind with
  | line =>
      obtain ⟨part, only⟩ := wellFormed.exists_content_eq kind
      rw [only]
      exact List.pairwise_singleton _ part
  | block =>
      obtain ⟨block, -, shape⟩ := wellFormed.ofBlock kind
      obtain ⟨first, consecutive⟩ := shape.consecutive
      rw [← List.pairwise_map, consecutive]
      exact List.pairwise_lt_range' 1

theorem WellFormed.beginning_le (wellFormed : comment.WellFormed markers lines)
    (member : part ∈ comment.content) : comment.beginning ≤ part.beginning := by
  have ascending := wellFormed.pairwise_number
  rw [beginning]
  cases content : comment.content with
  | nil => simp [content] at member
  | cons first rest =>
      rw [content] at member ascending
      rcases List.mem_cons.mp member with equal | later
      · exact (congrArg CommentLine.beginning equal).ge
      · exact Prod.Lex.toLex_le_toLex.mpr (.inl ((List.pairwise_cons.mp ascending).1 part later))

theorem WellFormed.le_ending (wellFormed : comment.WellFormed markers lines)
    (member : part ∈ comment.content) : part.ending ≤ comment.ending := by
  have ascending := wellFormed.pairwise_number
  rw [ending]
  rcases List.eq_nil_or_concat comment.content with content | ⟨front, last, content⟩
  · simp [content] at member
  · rw [List.concat_eq_append] at content
    rw [content] at member ascending ⊢
    rw [List.getLast?_concat]
    rcases List.mem_append.mp member with earlier | equal
    · have before := (List.pairwise_append.mp ascending).2.2 part earlier last (by simp)
      exact Prod.Lex.toLex_le_toLex.mpr (.inl before)
    · exact (congrArg CommentLine.ending (List.mem_singleton.mp equal)).le

theorem WellFormed.ending_le_behind (wellFormed : comment.WellFormed markers lines) :
    comment.ending ≤ comment.behind := by
  cases kind : comment.kind with
  | line =>
      obtain ⟨part, only⟩ := wellFormed.exists_content_eq kind
      rw [behind, kind, ending, endLine, only]
      exact Prod.Lex.toLex_le_toLex.mpr (.inl (Nat.lt_succ_self part.number))
  | block => rw [behind, kind]

theorem WellFormed.startLine_eq_endLine (wellFormed : comment.WellFormed markers lines)
    (kind : comment.kind = .line) : comment.startLine = comment.endLine := by
  obtain ⟨part, only⟩ := wellFormed.exists_content_eq kind
  rw [startLine, endLine, only]
  rfl

theorem fst_beginning (comment : Comment) : (ofLex comment.beginning).1 = comment.startLine := by
  rw [beginning, startLine]
  cases comment.content.head? <;> rfl

theorem WellFormed.bounds_of_covers (wellFormed : comment.WellFormed markers lines)
    {number position : Nat} (covers : comment.Covers number position) :
    comment.beginning ≤ toLex (number, position) ∧ toLex (number, position) < comment.ending := by
  obtain ⟨part, member, rfl, starts, stops⟩ := covers
  constructor
  · refine (wellFormed.beginning_le member).trans ?_
    exact Prod.Lex.toLex_le_toLex.mpr (.inr ⟨rfl, starts⟩)
  · refine lt_of_lt_of_le ?_ (wellFormed.le_ending member)
    exact Prod.Lex.toLex_lt_toLex.mpr (.inr ⟨rfl, stops⟩)

/-- Of two comments the first part of the later one begins where the last part of the earlier
one has ended, or behind it. So no byte of the file belongs to both, and behind a line comment
no other begins on its line. -/
theorem extract_in_order (markers : Markers) (limit : Option Nat) (content : Bytes) :
    (extract markers limit content).Pairwise fun before after =>
      (∃ last first, before.content.getLast? = some last ∧ after.content.head? = some first ∧
        last.ending ≤ first.beginning) ∧
        before.beginning < after.beginning ∧
        (∀ number position, before.Covers number position → ¬after.Covers number position) ∧
        (before.kind = .line → before.startLine < after.startLine) := by
  have start : Context.code.sinceLine 1 ≤ toLex (1, 0) := le_rfl
  have between := @Context.between_readLines markers 1 .code (Text.sourceLines limit content) start
  refine between.pairwise.imp_of_mem ?_
  rintro before after earlier later ⟨proper, apart⟩
  have wellFormed := wellFormed_sourceLines earlier
  have wellFormedToo := wellFormed_sourceLines later
  have ends := wellFormed.ending_le_behind.trans apart
  refine ⟨?_, lt_of_lt_of_le proper apart, ?_, ?_⟩
  · have last := List.getLast?_eq_some_getLast wellFormed.content_ne_nil
    have first := List.head?_eq_some_head wellFormedToo.content_ne_nil
    rw [ending, beginning, last, first] at ends
    exact ⟨_, _, last, first, ends⟩
  · intro number position covers coversToo
    have inside := (wellFormed.bounds_of_covers covers).2
    have outside := (wellFormedToo.bounds_of_covers coversToo).1
    exact absurd (lt_of_lt_of_le inside (ends.trans outside)) (lt_irrefl _)
  · intro kind
    rw [behind, kind] at apart
    rw [wellFormed.startLine_eq_endLine kind, ← fst_beginning]
    exact Prod.Lex.monotone_fst _ _ apart

end Comment

end LicenseSurvey
