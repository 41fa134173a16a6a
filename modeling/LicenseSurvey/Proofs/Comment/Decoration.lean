import LicenseSurvey.Proofs.Comment.Closing
import LicenseSurvey.Proofs.Comment.Layout
import LicenseSurvey.Proofs.Text.Decoding
import Mathlib.Data.List.Forall2
import Mathlib.Data.List.TakeWhile

/-! # The decoration of a comment

What goes from the lines of a comment is decoration and nothing else: the opening marker at
the front, the closing marker at the end, and a star with the blank characters before it in
each further line of a block comment. A line whose star begins the closing marker keeps the
star, so that the closing marker goes from the last line as a whole.
-/

namespace LicenseSurvey

namespace Comment

variable {closing line text : Text}

/-! ## Stars in front of lines -/

def IsStarred (closing line text : Text) : Prop :=
  ∃ blanks, (∀ character ∈ blanks, Text.isBlank character = true) ∧
    line = blanks ++ '*' :: text ∧ ¬closing <+: '*' :: text

inductive Sheds (closing line : Text) : Text → Prop where
  | star {text : Text} (starred : IsStarred closing line text) : Sheds closing line text
  | nothing (plain : ∀ text, ¬IsStarred closing line text) : Sheds closing line line

theorem isStarred_iff :
    IsStarred closing line text ↔
      Text.trimStart line = '*' :: text ∧ Text.startsWith ('*' :: text) closing = false := by
  have apart : ¬closing <+: '*' :: text ↔ Text.startsWith ('*' :: text) closing = false := by
    rw [← Bool.not_eq_true, Text.startsWith_iff, List.IsPrefix]
    simp only [eq_comm]
  rw [← apart]
  constructor
  · rintro ⟨blanks, blank, rfl, begins⟩
    refine ⟨?_, begins⟩
    rw [Text.trimStart, List.dropWhile_append_of_pos blank]
    exact List.dropWhile_cons_of_neg (by decide)
  · rintro ⟨body, begins⟩
    refine ⟨line.takeWhile Text.isBlank, fun _ => List.mem_takeWhile_imp, ?_, begins⟩
    rw [← body, Text.trimStart, List.takeWhile_append_dropWhile]

theorem sheds_undecorated (closing line : Text) :
    Sheds closing line (undecorated closing line) := by
  rw [undecorated]
  split
  · rename_i begins
    refine .nothing fun text starred => ?_
    obtain ⟨body, apart⟩ := isStarred_iff.mp starred
    rw [body, apart] at begins
    exact Bool.noConfusion begins
  · rename_i apart
    split
    · rename_i text body
      rw [Bool.not_eq_true, body] at apart
      exact .star (isStarred_iff.mpr ⟨body, apart⟩)
    · rename_i other
      exact .nothing fun text starred => other text (isStarred_iff.mp starred).1

theorem Sheds.exists_eq_append {body : Text} (sheds : Sheds closing (body ++ closing) text)
    (solid : ∀ character ∈ closing.head?, Text.isBlank character = false) :
    ∃ kept, text = kept ++ closing := by
  cases sheds with
  | nothing plain => exact ⟨body, rfl⟩
  | star starred =>
      obtain ⟨blanks, blank, split, apart⟩ := starred
      have here : closing <:+ blanks ++ '*' :: text := split ▸ List.suffix_append body closing
      rcases List.suffix_or_suffix_of_suffix here (List.suffix_append blanks _) with short | long
      · rcases List.suffix_cons_iff.mp short with whole | behind
        · exact absurd (whole ▸ List.prefix_rfl) apart
        · exact behind.imp fun _ => Eq.symm
      · -- A closing marker that reaches in front of the star begins with a blank character.
        obtain ⟨front, rfl⟩ := long
        cases front with
        | nil => exact absurd List.prefix_rfl apart
        | cons first front =>
            have inside : first ∈ blanks := by
              rw [← List.append_assoc] at split
              rw [← List.append_cancel_right split]
              exact List.mem_append_right body (List.mem_cons_self ..)
            exact Bool.noConfusion ((solid first rfl).symm.trans (blank first inside))

/-! ## What is left of a line -/

theorem isSuffix_undecorated (closing text : Text) : undecorated closing text <:+ text := by
  rw [undecorated]
  split
  · exact List.suffix_rfl
  · split
    · rename_i rest body
      have behind : '*' :: rest <:+ text := body ▸ List.dropWhile_suffix _
      exact (List.suffix_cons '*' rest).trans behind
    · exact List.suffix_rfl

theorem isInfix_textLine (comment : Comment) (isFirst isLast : Bool) (text : Text) :
    comment.textLine isFirst isLast text <:+: text := by
  have body : (if isFirst then Text.withoutFront comment.opening text
      else if comment.kind = .block then undecorated comment.closing text else text) <:+ text := by
    split
    · exact Text.isSuffix_withoutFront _ _
    · split
      · exact isSuffix_undecorated _ _
      · exact List.suffix_rfl
  rw [textLine]
  split
  · exact (Text.isPrefix_withoutBack _ _).isInfix.trans body.isInfix
  · exact body.isInfix

theorem exists_isInfix_of_mem_textLinesFrom {comment : Comment} {isFirst : Bool}
    {parts : List CommentLine} (member : text ∈ comment.textLinesFrom isFirst parts) :
    ∃ part ∈ parts, text <:+: part.text := by
  fun_induction textLinesFrom comment isFirst parts with
  | case1 => cases member
  | case2 isFirst last =>
      rw [List.mem_singleton.mp member]
      exact ⟨last, List.mem_singleton_self last, isInfix_textLine ..⟩
  | case3 isFirst part next rest induction =>
      rcases List.mem_cons.mp member with rfl | later
      · exact ⟨part, List.mem_cons_self .., isInfix_textLine ..⟩
      · rcases induction later with ⟨behind, among, inside⟩
        exact ⟨behind, List.mem_cons_of_mem part among, inside⟩

theorem noFeed_of_mem_sourceLines {limit : Option Nat} {content : Bytes}
    (member : line ∈ Text.sourceLines limit content) : '\n' ∉ line := by
  rcases sourceLines_none limit content with ⟨more, whole⟩
  have among : line ∈ Text.sourceLines none content := by
    rw [whole]
    exact List.mem_append_left more member
  rcases List.mem_map.mp among with ⟨bytes, written, rfl⟩
  exact Text.noFeed_decode (Text.noFeed_of_mem_byteLines written)

theorem noFeed_of_mem_textLines {comment : Comment} {markers : Markers} {limit : Option Nat}
    {content : Bytes} (member : comment ∈ extract markers limit content)
    (read : text ∈ comment.textLines) : '\n' ∉ text := by
  rcases exists_isInfix_of_mem_textLinesFrom read with ⟨part, among, inside⟩
  rcases (wellFormed_sourceLines member).cut part among with ⟨line, found, -, -, -, -, slice⟩
  have inSource := List.mem_of_getElem? (CommentLine.source?_eq_some_iff.mp found).2
  have noFeed := noFeed_of_mem_sourceLines inSource
  rw [slice] at inside
  exact fun feed => noFeed ((inside.trans (Text.isInfix_slice ..)).subset feed)

end Comment

namespace Context

/-! ## Where comments come from -/

variable {markers : Markers} {number : Nat} {context : Context} {comment : Comment}

theorem exists_completed?_of_mem_readTokens {tokens : List MarkToken}
    (member : comment ∈ (readTokens markers number context tokens).1) :
    ∃ before, ∃ token ∈ tokens, completed? markers number before token = some comment := by
  induction tokens generalizing context with
  | nil => simp at member
  | cons token tokens induction =>
      rw [readTokens_cons] at member
      rcases List.mem_append.mp member with here | later
      · exact ⟨context, token, List.mem_cons_self .., Option.mem_toList.mp here⟩
      · split at later
        · simp at later
        · obtain ⟨before, other, among, completed⟩ := induction later
          exact ⟨before, other, List.mem_cons_of_mem token among, completed⟩

theorem exists_completed?_of_mem_readLines {lines : List Text}
    (member : comment ∈ (readLines markers number context lines).1) :
    ∃ number before token, completed? markers number before token = some comment := by
  induction lines generalizing number context with
  | nil => simp [readLines] at member
  | cons line lines induction =>
      rcases List.mem_append.mp member with here | later
      · obtain ⟨before, token, -, completed⟩ := exists_completed?_of_mem_readTokens here
        exact ⟨number, before, token, completed⟩
      · exact induction later

end Context

namespace Comment

variable {comment : Comment} {markers : Markers} {limit : Option Nat} {content : Bytes}

theorem opening_of_mem_extract_of_line (member : comment ∈ extract markers limit content)
    (kind : comment.kind = .line) :
    comment.opening = markers.line.getD [] ∧ comment.closing = [] := by
  obtain ⟨number, before, token, completed⟩ := Context.exists_completed?_of_mem_readLines member
  rcases Context.completed?_eq_some completed with ⟨-, -, rfl⟩ | ⟨_, _, _, -, -, rfl⟩
  · exact ⟨rfl, rfl⟩
  · exact CommentKind.noConfusion kind

theorem blockMarkers_of_mem_extract (member : comment ∈ extract markers limit content)
    (kind : comment.kind = .block) :
    comment.opening = (markers.block.map BlockMarkers.opening).getD [] ∧
      comment.closing = (markers.block.map BlockMarkers.closing).getD [] := by
  obtain ⟨number, before, token, completed⟩ := Context.exists_completed?_of_mem_readLines member
  rcases Context.completed?_eq_some completed with ⟨-, -, rfl⟩ | ⟨_, _, _, -, -, rfl⟩
  · exact CommentKind.noConfusion kind
  · exact ⟨rfl, rfl⟩

/-! ## The text of a comment -/

/-- The lines of a comment are these texts with their decoration. -/
inductive Decorates (comment : Comment) : (texts : List Text) → Prop where
  | ofLine {part : CommentLine} {text : Text} (kind : comment.kind = .line)
      (content : comment.content = [part]) (whole : part.text = comment.opening ++ text) :
      Decorates comment [text]
  | ofBlockInLine {part : CommentLine} {text : Text} (kind : comment.kind = .block)
      (content : comment.content = [part])
      (whole : part.text = comment.opening ++ (text ++ comment.closing)) :
      Decorates comment [text]
  | ofBlock {first last : CommentLine} {inner : List CommentLine} {front back : Text}
      {texts : List Text} (kind : comment.kind = .block)
      (content : comment.content = first :: (inner ++ [last]))
      (opens : first.text = comment.opening ++ front)
      (further : List.Forall₂ (fun part text => Sheds comment.closing part.text text) inner texts)
      (closes : Sheds comment.closing last.text (back ++ comment.closing)) :
      Decorates comment (front :: (texts ++ [back]))

theorem Decorates.length_eq {texts : List Text} (decorates : comment.Decorates texts) :
    texts.length = comment.content.length := by
  cases decorates with
  | ofLine kind content whole => rw [content]; rfl
  | ofBlockInLine kind content whole => rw [content]; rfl
  | ofBlock kind content opens further closes =>
      rw [content]
      simp [further.length_eq]

/-- The further lines of a block comment, of which the last one closes it. -/
theorem exists_textLinesFrom_eq (kind : comment.kind = .block)
    (solid : ∀ character ∈ comment.closing.head?, Text.isBlank character = false)
    (inner : List CommentLine) {last : CommentLine} {body : Text}
    (closes : last.text = body ++ comment.closing) :
    ∃ texts back, comment.textLinesFrom false (inner ++ [last]) = texts ++ [back] ∧
      List.Forall₂ (fun part text => Sheds comment.closing part.text text) inner texts ∧
      Sheds comment.closing last.text (back ++ comment.closing) := by
  induction inner with
  | nil =>
      have sheds := sheds_undecorated comment.closing last.text
      rw [closes] at sheds
      obtain ⟨back, kept⟩ := sheds.exists_eq_append solid
      refine ⟨[], back, ?_, .nil, ?_⟩
      · simp [textLinesFrom, textLine, kind, closes, kept]
      · rwa [closes, ← kept]
  | cons part inner induction =>
      obtain ⟨texts, back, read, further, ends⟩ := induction
      have here := sheds_undecorated comment.closing part.text
      refine ⟨undecorated comment.closing part.text :: texts, back, ?_, .cons here further, ends⟩
      cases inner with
      | nil =>
          rw [List.nil_append] at read
          rw [List.singleton_append, textLinesFrom, read]
          simp [textLine, kind]
      | cons next inner =>
          rw [List.cons_append] at read
          rw [List.cons_append, List.cons_append, textLinesFrom, read]
          simp [textLine, kind]

/-- Every line of a comment is the line of its text with the decoration, provided that the
closing marker of the language does not begin with a blank character; and no closing marker
is found in the comment but the one that goes from its last line. -/
theorem decorates_textLines
    (solid : ∀ block, markers.block = some block →
      ∀ character ∈ block.closing.head?, Text.isBlank character = false)
    (member : comment ∈ extract markers limit content) :
    comment.textLines.length = comment.content.length ∧
      comment.Decorates comment.textLines ∧
      comment.EndsAtClosing markers (Text.sourceLines limit content) := by
  have wellFormed := wellFormed_sourceLines member
  suffices decorates : comment.Decorates comment.textLines from
    ⟨decorates.length_eq, decorates, endsAtClosing_of_mem_extract member⟩
  cases kind : comment.kind with
  | line =>
      obtain ⟨marker, given, part, only, starts, -⟩ := wellFormed.ofLine kind
      obtain ⟨opening, closing⟩ := opening_of_mem_extract_of_line member kind
      rw [given, Option.getD_some] at opening
      obtain ⟨text, whole⟩ := Text.startsWith_iff.mp starts
      have read : comment.textLines = [text] := by
        simp [textLines, only, textLinesFrom, textLine, whole, opening, closing,
          Text.withoutBack_nil]
      rw [read]
      exact .ofLine kind only (opening ▸ whole)
  | block =>
      obtain ⟨block, given, shape⟩ := wellFormed.ofBlock kind
      obtain ⟨opening, closing⟩ := blockMarkers_of_mem_extract member kind
      rw [given, Option.map_some, Option.getD_some] at opening closing
      obtain ⟨first, front, starts⟩ := shape.opens
      obtain ⟨further, content⟩ := List.head?_eq_some_iff.mp front
      rcases List.eq_nil_or_concat further with rfl | ⟨inner, last, rfl⟩
      · obtain ⟨text, whole⟩ := shape.apart first content
        rw [← opening, ← closing] at whole
        have read : comment.textLines = [text] := by
          simp [textLines, content, textLinesFrom, textLine, whole]
        rw [read]
        exact .ofBlockInLine kind content whole
      · rw [List.concat_eq_append] at content
        obtain ⟨text, whole⟩ := Text.startsWith_iff.mp starts
        rw [← opening] at whole
        obtain ⟨final, isLast, body, ends⟩ := shape.closes
        rw [content, ← List.cons_append, List.getLast?_concat, Option.some.injEq] at isLast
        rw [← isLast, ← closing] at ends
        obtain ⟨texts, back, read, further, closes⟩ :=
          exists_textLinesFrom_eq kind (closing ▸ solid block given) inner ends
        have lines : comment.textLines = text :: (texts ++ [back]) := by
          rw [← read, textLines, content]
          cases inner <;> simp [textLinesFrom, textLine, whole]
        rw [lines]
        exact .ofBlock kind content whole further closes

private def starMarkers : Markers where
  line := some "//".toList
  block := some ⟨"/*".toList, "*/".toList⟩
  singleQuote := true
  doubleQuote := true
  backtick := false

private theorem solid_starMarkers : ∀ block, starMarkers.block = some block →
    ∀ character ∈ block.closing.head?, Text.isBlank character = false := by
  rintro _ ⟨⟩ _ ⟨⟩
  rfl

private def starredFile : Bytes := Text.encode "x /** a\n\t* b\n  c\n **x**/ y".toList

private def starredComment : Comment where
  kind := .block
  opening := "/*".toList
  closing := "*/".toList
  content := [⟨1, 2, 7, "/** a".toList⟩, ⟨2, 0, 4, "\t* b".toList⟩, ⟨3, 0, 3, "  c".toList⟩,
    ⟨4, 0, 7, " **x**/".toList⟩]

/-- One star goes from each further line that has one, and the last star stays with the
closing marker. -/
theorem decorates_textLines_of_starredComment :
    (∀ block, starMarkers.block = some block →
        ∀ character ∈ block.closing.head?, Text.isBlank character = false) ∧
      starredComment ∈ extract starMarkers none starredFile ∧
      starredComment.textLines = ["* a".toList, " b".toList, "  c".toList, "*x*".toList] ∧
      starredComment.textLines.length = starredComment.content.length ∧
      starredComment.Decorates starredComment.textLines ∧
      starredComment.EndsAtClosing starMarkers (Text.sourceLines none starredFile) := by
  have member : starredComment ∈ extract starMarkers none starredFile := by
    decide +kernel
  exact ⟨solid_starMarkers, member, by decide, decorates_textLines solid_starMarkers member⟩

private def nestedFile : Bytes := Text.encode "/* a /*/ b */".toList

private def nestedComment : Comment where
  kind := .block
  opening := "/*".toList
  closing := "*/".toList
  content := [⟨1, 0, 13, "/* a /*/ b */".toList⟩]

/-- The characters of a closing marker may stay in the text where an opening marker is found
that has the first of them. -/
theorem closing_isInfix_textLine_of_nested_opening :
    (∀ block, starMarkers.block = some block →
        ∀ character ∈ block.closing.head?, Text.isBlank character = false) ∧
      nestedComment ∈ extract starMarkers none nestedFile ∧
      nestedComment.textLines = [" a /*/ b ".toList] ∧
      nestedComment.closing <:+: " a /*/ b ".toList := by
  have member : nestedComment ∈ extract starMarkers none nestedFile := by
    decide +kernel
  exact ⟨solid_starMarkers, member, by decide, " a /".toList, " b ".toList, rfl⟩

end Comment

end LicenseSurvey
