import LicenseSurvey.Proofs.Comment.Effect
import LicenseSurvey.Proofs.Comment.Marker
import LicenseSurvey.Proofs.Text.Affix
import LicenseSurvey.Proofs.Text.Slice

/-! # Comments with a line for each text

Texts can be written into comments in two ways: each behind a line marker of its own,
or all in one block comment, between a first line with the opening marker and a last one
with the closing marker. The comments that are found in such lines are told here, and so
is what their text is.
-/

namespace LicenseSurvey

variable {markers : Markers} {number : Nat}

/-! ## Line comments -/

theorem Markers.markAt?_of_line {marker : Text} (line : markers.line = some marker)
    (notEmpty : marker ≠ []) (text : Text) :
    Markers.markAt? markers.table (marker ++ text) = some (.lineComment, marker) := by
  have stands := Text.startsWith_append marker text
  simp [markAt?, table, line, notEmpty, stands]

theorem Context.readLine_of_line {marker : Text} (line : markers.line = some marker)
    (notEmpty : marker ≠ []) (text : Text) :
    readLine markers number .code (marker ++ text) =
      ([⟨.line, marker, [],
        [⟨number, 0, 0 + Text.size (marker ++ text), marker ++ text⟩]⟩], .code) := by
  have found := Markers.markAt?_of_line line notEmpty text
  rw [readLine, Markers.tokens, Markers.tokensFrom_meet found]
  simp [enterLine, readTokens, leaveLine, Comment.ofLineMarker, line]

theorem Comment.textLines_of_line {marker text : Text} {start stop : Nat} :
    textLines ⟨.line, marker, [], [⟨number, start, stop, marker ++ text⟩]⟩ = [text] := by
  simp [textLines, textLinesFrom, textLine, Text.withoutBack_nil]

/-! ## Block comments -/

theorem Markers.infix_of_mem_tokensFrom {position : Nat} {text : Text} {token : MarkToken}
    (member : token ∈ tokensFrom markers.table position text) :
    ∃ marker, (token.mark, marker) ∈ markers.table ∧ marker <:+: text := by
  induction text using induction_markAt? markers generalizing position with
  | nil => simp at member
  | skip character rest stands induction =>
      rw [tokensFrom_skip stands] at member
      obtain ⟨marker, known, inside⟩ := induction member
      exact ⟨marker, known, List.infix_cons inside⟩
  | meet mark marker after stands induction =>
      rw [tokensFrom_meet stands] at member
      rcases List.mem_cons.mp member with rfl | member
      · exact ⟨marker, mem_of_markAt? stands, List.infix_append_left⟩
      · obtain ⟨other, known, inside⟩ := induction member
        exact ⟨other, known, List.infix_append_of_infix_right inside⟩

namespace Context

variable {block : BlockMarkers} {earlier : List CommentLine} {start : Nat} {ahead : Text}

theorem readTokens_inside {tokens : List MarkToken}
    (open_ : ∀ token ∈ tokens, token.mark ≠ .blockClosing) :
    readTokens markers number (.block earlier start ahead) tokens =
      ([], .block earlier start ahead) := by
  induction tokens with
  | nil => rw [readTokens_nil]
  | cons token tokens induction =>
      have ignored : (Context.block earlier start ahead).counts token.mark = false := by
        have different := open_ token (List.mem_cons_self ..)
        cases mark : token.mark <;> simp [mark] at different <;> rfl
      rw [readTokens_of_not_counts markers number ignored]
      exact induction fun later member => open_ later (List.mem_cons_of_mem _ member)

theorem readLine_inside (known : markers.block = some block) {line : Text}
    (apart : ¬block.closing <:+: line) :
    readLine markers number (.block earlier start ahead) line =
      ([], .block (restOfLine number 0 line :: earlier) 0 []) := by
  have open_ : ∀ token ∈ markers.tokens line, token.mark ≠ .blockClosing := by
    intro token member closes
    obtain ⟨marker, entry, inside⟩ := Markers.infix_of_mem_tokensFrom member
    rw [closes] at entry
    obtain ⟨⟨other, equal, rfl⟩, -⟩ := Markers.blockClosing_mem_table_iff.mp entry
    rw [known, Option.some.injEq] at equal
    exact apart (equal ▸ inside)
  rw [readLine, enterLine, readTokens_inside open_]
  rfl

theorem readLine_opening
    (opens : Markers.markAt? markers.table block.opening =
      some (.blockOpening, block.opening)) :
    readLine markers number .code block.opening =
      ([], .block [restOfLine number 0 block.opening] 0 []) := by
  have tokens : markers.tokens block.opening =
      [⟨.blockOpening, 0, Text.size block.opening, block.opening⟩] :=
    Markers.tokensFrom_only opens 0
  rw [readLine, tokens]
  rfl

theorem readLine_closing (number : Nat) (earlier : List CommentLine) (start : Nat)
    (ahead : Text)
    (indented : Markers.markAt? markers.table (' ' :: block.closing) = none)
    (closes : Markers.markAt? markers.table block.closing =
      some (.blockClosing, block.closing)) :
    ∃ last, last.text = ' ' :: block.closing ∧
      readLine markers number (.block earlier start ahead) (' ' :: block.closing) =
        ([.ofParts markers (last :: earlier)], .code) := by
  have tokens : markers.tokens (' ' :: block.closing) =
      [⟨.blockClosing, 1, Text.size block.closing, block.closing⟩] := by
    rw [Markers.tokens, Markers.tokensFrom_skip indented]
    exact Markers.tokensFrom_only closes 1
  have whole : Text.takeBytes (1 + Text.size block.closing) (' ' :: block.closing) =
      ' ' :: block.closing := by
    have taken := Text.takeBytes_size_append (' ' :: block.closing) []
    rwa [List.append_nil] at taken
  refine ⟨frontOfLine number 0 (1 + Text.size block.closing) (' ' :: block.closing), whole, ?_⟩
  rw [readLine, tokens]
  simp [enterLine, readTokens, leaveLine, MarkToken.stop]

theorem readLines_inside (number : Nat) (earlier : List CommentLine) (start : Nat)
    (ahead : Text) (known : markers.block = some block)
    (indented : Markers.markAt? markers.table (' ' :: block.closing) = none)
    (closes : Markers.markAt? markers.table block.closing =
      some (.blockClosing, block.closing))
    {lines : List Text} (apart : ∀ line ∈ lines, ¬block.closing <:+: line) :
    ∃ parts : List CommentLine, parts.map CommentLine.text = lines ++ [' ' :: block.closing] ∧
      (readLines markers number (.block earlier start ahead)
        (lines ++ [' ' :: block.closing])).1 = [.ofParts markers (parts.reverse ++ earlier)] := by
  induction lines generalizing number earlier start ahead with
  | nil =>
      obtain ⟨last, text, read⟩ := readLine_closing number earlier start ahead indented closes
      refine ⟨[last], by simp [text], ?_⟩
      simp [readLines, read]
  | cons line lines induction =>
      obtain ⟨parts, texts, read⟩ := induction (number + 1)
        (restOfLine number 0 line :: earlier) 0 []
        fun later member => apart later (List.mem_cons_of_mem _ member)
      refine ⟨restOfLine number 0 line :: parts, by simp [texts, restOfLine], ?_⟩
      rw [List.cons_append, readLines,
        readLine_inside known (apart line (List.mem_cons_self ..))]
      simp [read]

end Context

/-! ## The text of a block comment -/

namespace Comment

variable {comment : Comment}

theorem undecorated_star {closing text : Text} (apart : ¬closing <:+: ' ' :: '*' :: text) :
    undecorated closing (' ' :: '*' :: text) = text := by
  have body : Text.trimStart (' ' :: '*' :: text) = '*' :: text := rfl
  have absent : Text.startsWith ('*' :: text) closing = false := by
    rw [Bool.eq_false_iff]
    intro begins
    obtain ⟨rest, split⟩ := Text.startsWith_iff.mp begins
    exact apart (List.infix_cons (split ▸ List.infix_append_left))
  simp [undecorated, body, absent]

theorem undecorated_closing {closing : Text} (trimmed : Text.trimStart closing = closing) :
    undecorated closing (' ' :: closing) = ' ' :: closing := by
  have body : Text.trimStart (' ' :: closing) = closing := trimmed
  have begins : Text.startsWith closing closing = true :=
    Text.startsWith_iff.mpr ⟨[], (List.append_nil closing).symm⟩
  rw [undecorated, body]
  exact if_pos begins

theorem textLinesFrom_of_block (block : comment.kind = .block)
    (trimmed : Text.trimStart comment.closing = comment.closing) {texts : List Text}
    (apart : ∀ text ∈ texts, ¬comment.closing <:+: ' ' :: '*' :: text)
    {parts : List CommentLine}
    (written : parts.map CommentLine.text =
      (texts.map fun text => ' ' :: '*' :: text) ++ [' ' :: comment.closing]) :
    textLinesFrom comment false parts = texts ++ [[' ']] := by
  induction texts generalizing parts with
  | nil =>
      obtain ⟨last, rfl, text⟩ := List.map_eq_singleton_iff.mp written
      have closes := Text.withoutBack_append [' '] comment.closing
      rw [List.singleton_append] at closes
      simp [textLinesFrom, textLine, block, text, undecorated_closing trimmed, closes]
  | cons text texts induction =>
      rw [List.map_cons, List.cons_append] at written
      obtain ⟨part, rest, rfl, first, others⟩ := List.map_eq_cons_iff.mp written
      cases rest with
      | nil => simp at others
      | cons next rest =>
          rw [textLinesFrom, List.cons_append,
            induction (fun later member => apart later (List.mem_cons_of_mem _ member)) others]
          simp [textLine, block, first, undecorated_star (apart text (List.mem_cons_self ..))]

theorem textLines_of_block (block : comment.kind = .block)
    (trimmed : Text.trimStart comment.closing = comment.closing) {texts : List Text}
    (apart : ∀ text ∈ texts, ¬comment.closing <:+: ' ' :: '*' :: text)
    (written : comment.content.map CommentLine.text =
      comment.opening ::
        ((texts.map fun text => ' ' :: '*' :: text) ++ [' ' :: comment.closing])) :
    textLines comment = [] :: (texts ++ [[' ']]) := by
  obtain ⟨part, rest, split, first, others⟩ := List.map_eq_cons_iff.mp written
  rw [textLines, split]
  cases rest with
  | nil => simp at others
  | cons next rest =>
      rw [textLinesFrom, textLinesFrom_of_block block trimmed apart others]
      simp [textLine, first, Text.withoutFront_self]

end Comment

end LicenseSurvey
